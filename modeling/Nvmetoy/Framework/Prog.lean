import Mathlib.Logic.Relation

/-!
# Programs over an interface

A program is a finite tree of operations on an interface `Op`: each node issues
one operation and continues with whatever response `Res` the outside world
gives. A statement about every path of the tree is therefore a statement about
every environment the program can be run in.

* `Outcome` — how a computation ends: a value, an error that is reported to the
  caller, or a panic that ends the process.
* `Prog` — the trees, with their monad structure.
* `Method` — a program with a private state, the shape of a `&mut self` method.
  Both an error and a panic keep the state the method had reached.
* `Prog.Emits` / `Prog.Returns` — the operations a program can issue and the
  values it can end with, under the responses that a predicate `R` allows; with
  `Prog.Any`, under any responses.
* `Prog.Sat` — both at once, for all paths: every operation issued satisfies one predicate
  and every value returned another. `sat_bind` and `Method.sat_bind` are its rules of
  sequencing.
* `Prog.play` — running a program against a device that answers it.
* `Prog.interp` — running a program of one interface by methods of another. A property of
  it is a property of the program and one of the handlers (`Prog.sat_interp`), given an
  invariant of the handlers.
-/

namespace Framework

/-- How a fallible computation ends. -/
inductive Outcome (E α : Type) where
  | ok (a : α)
  | err (e : E)
  | panic (why : String)
deriving DecidableEq, Repr

namespace Outcome

variable {E α β : Type}

/-- Sequencing: an error or a panic ends the computation. -/
protected def bind : Outcome E α → (α → Outcome E β) → Outcome E β
  | ok a, f => f a
  | err e, _ => err e
  | panic why, _ => panic why

instance : Monad (Outcome E) where
  pure := ok
  bind := Outcome.bind

/-- The outcome of a computation that did not panic. -/
def ofExcept : Except E α → Outcome E α
  | .ok a => ok a
  | .error e => err e

/-- Report another error in place of an error. -/
def mapErr {E' : Type} (f : E → E') : Outcome E α → Outcome E' α
  | ok a => ok a
  | err e => err (f e)
  | panic why => panic why

/-- The computation ended in a panic. -/
def Panics : Outcome E α → Prop
  | panic _ => True
  | _ => False

@[simp] theorem pure_eq (a : α) : (pure a : Outcome E α) = ok a := rfl

@[simp] theorem ok_bind (a : α) (f : α → Outcome E β) : (ok a >>= f) = f a := rfl

@[simp] theorem err_bind (e : E) (f : α → Outcome E β) : (err e >>= f) = err e := rfl

@[simp] theorem panic_bind (why : String) (f : α → Outcome E β) :
    ((panic why : Outcome E α) >>= f) = panic why := rfl

@[simp] theorem panics_ok (a : α) : ¬ (ok a : Outcome E α).Panics := id

@[simp] theorem panics_err (e : E) : ¬ (err e : Outcome E α).Panics := id

@[simp] theorem panics_panic (why : String) : (panic why : Outcome E α).Panics := trivial

/-- A bind succeeds exactly when both halves do. -/
theorem bind_eq_ok {x : Outcome E α} {f : α → Outcome E β} {b : β} :
    (x >>= f) = ok b ↔ ∃ a, x = ok a ∧ f a = ok b := by
  cases x with
  | ok a => simp
  | err e => simp
  | panic why => simp

/-- A bind panics when its first half does, or its second half after it. -/
theorem bind_panics {x : Outcome E α} {f : α → Outcome E β} :
    (x >>= f).Panics ↔ x.Panics ∨ ∃ a, x = ok a ∧ (f a).Panics := by
  cases x with
  | ok a => simp
  | err e => simp
  | panic why => simp

end Outcome

/-- A program: a value, or an operation and what to do with its response. -/
inductive Prog (Op : Type) (Res : Op → Type) (α : Type) where
  | pure (a : α)
  | op (o : Op) (k : Res o → Prog Op Res α)

namespace Prog

variable {Op : Type} {Res : Op → Type} {α β γ : Type}

/-- Run `p`, then `f` on its value. -/
protected def bind : Prog Op Res α → (α → Prog Op Res β) → Prog Op Res β
  | pure a, f => f a
  | op o k, f => op o fun r => (k r).bind f

@[simp] theorem pure_bind (a : α) (f : α → Prog Op Res β) : (pure a).bind f = f a := rfl

@[simp] theorem op_bind (o : Op) (k : Res o → Prog Op Res α) (f : α → Prog Op Res β) :
    (op o k).bind f = op o fun r => (k r).bind f := rfl

/-- Sequencing associates: three programs in a row have one tree. -/
theorem bind_assoc (p : Prog Op Res α) (f : α → Prog Op Res β) (g : β → Prog Op Res γ) :
    (p.bind f).bind g = p.bind fun a => (f a).bind g := by
  -- by induction on the first tree; only its leaves change
  induction p with
  | pure a => rfl
  | op o k ih => exact congrArg (op o) (funext fun r => ih r)

/-- To return what a program gives changes nothing. -/
@[simp] theorem bind_pure (p : Prog Op Res α) : p.bind pure = p := by
  induction p with
  | pure a => rfl
  | op o k ih => exact congrArg (op o) (funext fun r => ih r)

/-- `p` can end with the value `b`, under responses that `R` allows. -/
def Returns (R : (o : Op) → Res o → Prop) : Prog Op Res α → α → Prop
  | pure a, b => b = a
  | op o k, b => ∃ r, R o r ∧ (k r).Returns R b

/-- `p` can issue the operation `o`, under responses that `R` allows. -/
def Emits (R : (o : Op) → Res o → Prop) : Prog Op Res α → Op → Prop
  | pure _, _ => False
  | op o k, o' => o' = o ∨ ∃ r, R o r ∧ (k r).Emits R o'

/-- Any response at all. -/
def Any : (o : Op) → Res o → Prop := fun _ _ => True

@[simp] theorem any_iff (o : Op) (r : Res o) : Any o r ↔ True := Iff.rfl

variable {R : (o : Op) → Res o → Prop}

@[simp] theorem returns_pure (a b : α) :
    (pure a : Prog Op Res α).Returns R b ↔ b = a := Iff.rfl

/-- An operation leaves it to its response how the program ends. -/
@[simp] theorem returns_op (o : Op) (k : Res o → Prog Op Res α) (b : α) :
    (op o k).Returns R b ↔ ∃ r, R o r ∧ (k r).Returns R b := Iff.rfl

@[simp] theorem not_emits_pure (a : α) (o : Op) : ¬ (pure a : Prog Op Res α).Emits R o := id

@[simp] theorem emits_op (o o' : Op) (k : Res o → Prog Op Res α) :
    (op o k).Emits R o' ↔ o' = o ∨ ∃ r, R o r ∧ (k r).Emits R o' := Iff.rfl

/-- A sequence ends as its second half can, on a value that the first half can end with. -/
theorem returns_bind {p : Prog Op Res α} {f : α → Prog Op Res β} {b : β} :
    (p.bind f).Returns R b ↔ ∃ a, p.Returns R a ∧ (f a).Returns R b := by
  induction p with
  | pure a => simp
  | op o k ih =>
    simp only [op_bind, returns_op, ih]
    -- the responses along the path are the same; only their grouping differs
    constructor
    · rintro ⟨r, hr, a, ha, hb⟩; exact ⟨a, ⟨r, hr, ha⟩, hb⟩
    · rintro ⟨a, ⟨r, hr, ha⟩, hb⟩; exact ⟨r, hr, a, ha, hb⟩

/-- A sequence issues what its first half issues, and what its second half issues on a value of the
first. -/
theorem emits_bind {p : Prog Op Res α} {f : α → Prog Op Res β} {o : Op} :
    (p.bind f).Emits R o ↔ p.Emits R o ∨ ∃ a, p.Returns R a ∧ (f a).Emits R o := by
  induction p with
  | pure a => simp
  | op o' k ih =>
    simp only [op_bind, emits_op, returns_op, ih]
    constructor
    · -- the operation is the first one, or a later one of the first half, or one of the second
      rintro (h | ⟨r, hr, h | ⟨a, ha, hb⟩⟩)
      · exact .inl (.inl h)
      · exact .inl (.inr ⟨r, hr, h⟩)
      · exact .inr ⟨a, ⟨r, hr, ha⟩, hb⟩
    · rintro ((h | ⟨r, hr, h⟩) | ⟨a, ⟨r, hr, ha⟩, hb⟩)
      · exact .inl h
      · exact .inr ⟨r, hr, .inl h⟩
      · exact .inr ⟨r, hr, .inr ⟨a, ha, hb⟩⟩

/-- Every operation `p` issues satisfies `φ` and every value it ends with `ψ`, under
responses that `R` allows. -/
def Sat (R : (o : Op) → Res o → Prop) (φ : Op → Prop) : Prog Op Res α → (α → Prop) → Prop
  | pure a, ψ => ψ a
  | op o k, ψ => φ o ∧ ∀ r, R o r → (k r).Sat R φ ψ

variable {φ φ' : Op → Prop}

@[simp] theorem sat_pure {a : α} {ψ : α → Prop} :
    (pure a : Prog Op Res α).Sat R φ ψ ↔ ψ a := Iff.rfl

@[simp] theorem sat_op {o : Op} {k : Res o → Prog Op Res α} {ψ : α → Prop} :
    (op o k).Sat R φ ψ ↔ φ o ∧ ∀ r, R o r → (k r).Sat R φ ψ := Iff.rfl

/-- **Sequencing.** The first half is to end in values from which the second half is right. -/
theorem sat_bind {p : Prog Op Res α} {f : α → Prog Op Res β} {ψ : β → Prop} :
    (p.bind f).Sat R φ ψ ↔ p.Sat R φ fun a => (f a).Sat R φ ψ := by
  induction p with
  | pure a => rfl
  | op o k ih => simp only [op_bind, sat_op, ih]

/-- Both predicates may be weakened. -/
theorem Sat.mono {p : Prog Op Res α} {ψ ψ' : α → Prop} (h : p.Sat R φ ψ)
    (hφ : ∀ o, φ o → φ' o) (hψ : ∀ a, ψ a → ψ' a) : p.Sat R φ' ψ' := by
  induction p with
  | pure a => exact hψ a h
  | op o k ih => exact ⟨hφ o h.1, fun r hr => ih r (h.2 r hr)⟩

theorem Sat.post {p : Prog Op Res α} {ψ ψ' : α → Prop} (h : p.Sat R φ ψ)
    (hψ : ∀ a, ψ a → ψ' a) : p.Sat R φ ψ' :=
  h.mono (fun _ => id) hψ

/-- What holds under any responses holds under those that are allowed. -/
theorem Sat.under {p : Prog Op Res α} {ψ : α → Prop} (h : p.Sat Any φ ψ) : p.Sat R φ ψ := by
  induction p with
  | pure a => exact h
  | op o k ih => exact ⟨h.1, fun r _ => ih r (h.2 r trivial)⟩

theorem sat_true (p : Prog Op Res α) : p.Sat R (fun _ => True) fun _ => True := by
  induction p with
  | pure a => trivial
  | op o k ih => exact ⟨trivial, fun r _ => ih r⟩

/-- `Sat` is what its name says. -/
theorem sat_iff {p : Prog Op Res α} {ψ : α → Prop} :
    p.Sat R φ ψ ↔ (∀ o, p.Emits R o → φ o) ∧ ∀ a, p.Returns R a → ψ a := by
  induction p with
  | pure a => simp
  | op o k ih =>
    -- what is asked of the rest is asked under each response that `R` allows
    simp only [sat_op, emits_op, returns_op, ih]
    constructor
    · rintro ⟨ho, hk⟩
      refine ⟨?_, fun a ⟨r, hr, ha⟩ => (hk r hr).2 a ha⟩
      rintro o' (rfl | ⟨r, hr, h⟩)
      · exact ho
      · exact (hk r hr).1 o' h
    · rintro ⟨he, hr⟩
      exact ⟨he o (.inl rfl), fun r hR =>
        ⟨fun o' h => he o' (.inr ⟨r, hR, h⟩), fun a ha => hr a ⟨r, hR, ha⟩⟩⟩

theorem Sat.emits {p : Prog Op Res α} {ψ : α → Prop} {o : Op} (h : p.Sat R φ ψ)
    (ho : p.Emits R o) : φ o :=
  (sat_iff.mp h).1 o ho

theorem Sat.returns {p : Prog Op Res α} {ψ : α → Prop} {a : α} (h : p.Sat R φ ψ)
    (ha : p.Returns R a) : ψ a :=
  (sat_iff.mp h).2 a ha

/-- What is issued by one account, and returned by another. -/
theorem Sat.returning {p : Prog Op Res α} {ψ ψ' : α → Prop} (h : p.Sat R φ ψ)
    (h' : p.Sat R φ' ψ') : p.Sat R φ ψ' :=
  sat_iff.mpr ⟨fun _ => h.emits, fun _ => h'.returns⟩

/-- A program can still end as it did when only operations it does not issue are restricted. -/
theorem Sat.returns_of {R' : (o : Op) → Res o → Prop} {p : Prog Op Res α} {ψ : α → Prop} {a : α}
    (h : p.Sat R φ ψ) (hR : ∀ o r, φ o → R' o r) (ha : p.Returns R a) : p.Returns R' a := by
  induction p with
  | pure b => exact ha
  | op o k ih =>
    -- the response that led there was to an operation of `φ`
    obtain ⟨r, hr, hk⟩ := ha
    exact ⟨r, hR o r h.1, ih r (h.2 r hr) hk⟩

end Prog

/-- What `p` ends with against a device that answers each operation from its state. -/
def Prog.play {Op : Type} {Res : Op → Type} {α δ : Type} (answer : (o : Op) → δ → Res o × δ) :
    Prog Op Res α → δ → α × δ
  | .pure a, s => (a, s)
  | .op o k, s => (k (answer o s).1).play answer (answer o s).2

/-- A sequence is played one half after the other. -/
theorem Prog.play_bind {Op : Type} {Res : Op → Type} {α β δ : Type}
    {answer : (o : Op) → δ → Res o × δ} (p : Prog Op Res α) (f : α → Prog Op Res β) (s : δ) :
    (p.bind f).play answer s = (f (p.play answer s).1).play answer (p.play answer s).2 := by
  induction p generalizing s with
  | pure a => rfl
  | op o k ih => exact ih _ _

/-- A program with a private state `σ` that reports errors of type `E`. -/
def Method (Op : Type) (Res : Op → Type) (σ E α : Type) : Type :=
  σ → Prog Op Res (Outcome E α × σ)

namespace Method

variable {Op : Type} {Res : Op → Type} {σ τ E α β : Type}

/-- Continue with `f` after a value; an error or a panic ends the method. -/
protected def bind (m : Method Op Res σ E α) (f : α → Method Op Res σ E β) :
    Method Op Res σ E β := fun s =>
  (m s).bind fun
    | (.ok a, s') => f a s'
    | (.err e, s') => .pure (.err e, s')
    | (.panic why, s') => .pure (.panic why, s')

instance : Monad (Method Op Res σ E) where
  pure a := fun s => .pure (.ok a, s)
  bind := Method.bind

/-- Issue one operation. -/
def call (o : Op) : Method Op Res σ E (Res o) := fun s => .op o fun r => .pure (.ok r, s)

/-- End with what a pure fallible computation gives. -/
def lift (x : Outcome E α) : Method Op Res σ E α := fun s => .pure (x, s)

/-- Report an error. -/
def fail (e : E) : Method Op Res σ E α := lift (.err e)

/-- Panic. -/
def panic (why : String) : Method Op Res σ E α := lift (.panic why)

/-- The private state. -/
def get : Method Op Res σ E σ := fun s => .pure (.ok s, s)

/-- Replace the private state. -/
def set (s : σ) : Method Op Res σ E Unit := fun _ => .pure (.ok (), s)

/-- Turn a reported error into a value. A panic stays a panic. -/
def attempt (m : Method Op Res σ E α) : Method Op Res σ E (Except E α) := fun s =>
  (m s).bind fun
    | (.ok a, s') => .pure (.ok (.ok a), s')
    | (.err e, s') => .pure (.ok (.error e), s')
    | (.panic why, s') => .pure (.panic why, s')

/-- Report another error in place of an error. -/
def mapErr {E' : Type} (f : E → E') (m : Method Op Res σ E α) : Method Op Res σ E' α := fun s =>
  (m s).bind fun x => .pure (x.1.mapErr f, x.2)

/-- Run `cleanup` when the method does not end with a value, as a scope that is left by
`?` or by unwinding drops what it owns. -/
def unwinding (cleanup : Method Op Res σ E Unit) (m : Method Op Res σ E α) :
    Method Op Res σ E α := fun s =>
  (m s).bind fun
    | (.ok a, s') => .pure (.ok a, s')
    | (.err e, s') => (cleanup s').bind fun x => .pure (.err e, x.2)
    | (.panic why, s') => (cleanup s').bind fun x => .pure (.panic why, x.2)

/-- Run a method that owns its state `t`, which it gives back at the end. -/
def owning (t : τ) (m : Method Op Res τ E Unit) : Method Op Res σ E τ := fun s =>
  (m t).bind fun
    | (.ok _, t') => .pure (.ok t', s)
    | (.err e, _) => .pure (.err e, s)
    | (.panic why, _) => .pure (.panic why, s)

/-- Run a method of a component `τ` of the state. -/
def onField (view : σ → τ) (put : σ → τ → σ) (m : Method Op Res τ E α) :
    Method Op Res σ E α := fun s =>
  (m (view s)).bind fun (x, t) => .pure (x, put s t)

/-- How a method goes on after each of the three endings. -/
theorem bind_apply (m : Method Op Res σ E α) (f : α → Method Op Res σ E β) (s : σ) :
    (m >>= f) s = (m s).bind fun
      | (.ok a, s') => f a s'
      | (.err e, s') => .pure (.err e, s')
      | (.panic why, s') => .pure (.panic why, s') := rfl

/-- An operation comes first, and the method goes on with its response. -/
@[simp] theorem call_bind (o : Op) (f : Res o → Method Op Res σ E β) (s : σ) :
    (call o >>= f) s = .op o fun r => f r s := rfl

/-- A pure computation that has a value leaves no trace. -/
@[simp] theorem lift_ok_bind (a : α) (f : α → Method Op Res σ E β) :
    (lift (.ok a) >>= f) = f a := rfl

/-- After an error there is no second half. -/
@[simp] theorem lift_err_bind (e : E) (f : α → Method Op Res σ E β) :
    (lift (.err e) >>= f) = lift (.err e) := rfl

@[simp] theorem lift_panic_bind (why : String) (f : α → Method Op Res σ E β) :
    (lift (.panic why) >>= f) = lift (.panic why) := rfl

/-- The state is read, and stays. -/
@[simp] theorem get_bind (f : σ → Method Op Res σ E β) (s : σ) : (get >>= f) s = f s s := rfl

/-- The state is replaced for what follows. -/
@[simp] theorem set_bind (s s' : σ) (f : Unit → Method Op Res σ E β) :
    (set s' >>= f) s = f () s' := rfl

@[simp] theorem pure_bind (a : α) (f : α → Method Op Res σ E β) : (pure a >>= f) = f a := rfl

theorem bind_pure (m : Method Op Res σ E α) : m >>= pure = m := by
  funext s
  refine Eq.trans ?_ (Prog.bind_pure (m s))
  refine congrArg (Prog.bind _) (funext ?_)
  rintro ⟨x, t⟩
  cases x <;> rfl

theorem bind_assoc {γ : Type} (m : Method Op Res σ E α) (f : α → Method Op Res σ E β)
    (g : β → Method Op Res σ E γ) : m >>= f >>= g = m >>= fun a => f a >>= g := by
  funext s
  simp only [bind_apply, Prog.bind_assoc]
  congr
  funext ⟨x, t⟩
  cases x <;> rfl

/-! ### What a method can return -/

section Returns

variable {R : (o : Op) → Res o → Prop}
variable {m : Method Op Res σ E α} {f : α → Method Op Res σ E β} {s s' : σ}

@[simp] theorem returns_pure {a : α} {x : Outcome E α × σ} :
    ((pure a : Method Op Res σ E α) s).Returns R x ↔ x = (.ok a, s) := Iff.rfl

@[simp] theorem returns_lift {y : Outcome E α} {x : Outcome E α × σ} :
    ((lift y : Method Op Res σ E α) s).Returns R x ↔ x = (y, s) := Iff.rfl

@[simp] theorem returns_fail {e : E} {x : Outcome E α × σ} :
    ((fail e : Method Op Res σ E α) s).Returns R x ↔ x = (.err e, s) := Iff.rfl

@[simp] theorem returns_panic {why : String} {x : Outcome E α × σ} :
    ((panic why : Method Op Res σ E α) s).Returns R x ↔ x = (.panic why, s) := Iff.rfl

@[simp] theorem returns_get {x : Outcome E σ × σ} :
    ((get : Method Op Res σ E σ) s).Returns R x ↔ x = (.ok s, s) := Iff.rfl

@[simp] theorem returns_set {x : Outcome E Unit × σ} :
    ((set s' : Method Op Res σ E Unit) s).Returns R x ↔ x = (.ok (), s') := Iff.rfl

@[simp] theorem returns_call {o : Op} {x : Outcome E (Res o) × σ} :
    ((call o : Method Op Res σ E (Res o)) s).Returns R x ↔ ∃ r, R o r ∧ x = (.ok r, s) :=
  Iff.rfl

/-- A sequence returns a value when both halves do. -/
theorem returns_bind_ok {b : β} :
    ((m >>= f) s).Returns R (.ok b, s') ↔
      ∃ a t, (m s).Returns R (.ok a, t) ∧ (f a t).Returns R (.ok b, s') := by
  rw [bind_apply, Prog.returns_bind]
  constructor
  · rintro ⟨⟨x, t⟩, hx, hb⟩
    -- after an error or a panic there is no value
    cases x with
    | ok a => exact ⟨a, t, hx, hb⟩
    | err e => simp at hb
    | panic why => simp at hb
  · rintro ⟨a, t, ha, hb⟩; exact ⟨(.ok a, t), ha, hb⟩

/-- It returns an error when its first half does, or its second half after a value. -/
theorem returns_bind_err {e : E} :
    ((m >>= f) s).Returns R (.err e, s') ↔
      (m s).Returns R (.err e, s') ∨
        ∃ a t, (m s).Returns R (.ok a, t) ∧ (f a t).Returns R (.err e, s') := by
  rw [bind_apply, Prog.returns_bind]
  constructor
  · rintro ⟨⟨x, t⟩, hx, hb⟩
    cases x with
    | ok a => exact .inr ⟨a, t, hx, hb⟩
    -- the error of the first half is the error of the whole
    | err e' =>
      simp only [Prog.returns_pure, Prod.mk.injEq, Outcome.err.injEq] at hb
      obtain ⟨rfl, rfl⟩ := hb
      exact .inl hx
    | panic why => simp at hb
  · rintro (h | ⟨a, t, ha, hb⟩)
    · exact ⟨(.err e, s'), h, rfl⟩
    · exact ⟨(.ok a, t), ha, hb⟩

/-- It panics when its first half does, or its second half after a value. -/
theorem returns_bind_panic {why : String} :
    ((m >>= f) s).Returns R (.panic why, s') ↔
      (m s).Returns R (.panic why, s') ∨
        ∃ a t, (m s).Returns R (.ok a, t) ∧ (f a t).Returns R (.panic why, s') := by
  rw [bind_apply, Prog.returns_bind]
  constructor
  · rintro ⟨⟨x, t⟩, hx, hb⟩
    cases x with
    | ok a => exact .inr ⟨a, t, hx, hb⟩
    | err e => simp at hb
    -- the panic of the first half is the panic of the whole
    | panic why' =>
      simp only [Prog.returns_pure, Prod.mk.injEq, Outcome.panic.injEq] at hb
      obtain ⟨rfl, rfl⟩ := hb
      exact .inl hx
  · rintro (h | ⟨a, t, ha, hb⟩)
    · exact ⟨(.panic why, s'), h, rfl⟩
    · exact ⟨(.ok a, t), ha, hb⟩

/-- An attempt turns an error into a value, and that is all it changes. -/
theorem returns_attempt {x : Outcome E (Except E α)} :
    ((attempt m) s).Returns R (x, s') ↔ match x with
      | .ok (.ok a) => (m s).Returns R (.ok a, s')
      | .ok (.error e) => (m s).Returns R (.err e, s')
      | .err _ => False
      | .panic why => (m s).Returns R (.panic why, s') := by
  rw [attempt, Prog.returns_bind]
  constructor
  · rintro ⟨⟨y, t⟩, hy, hx⟩
    -- each end of the method is turned into one of the attempt
    cases y <;> (simp only [Prog.returns_pure, Prod.mk.injEq] at hx; obtain ⟨rfl, rfl⟩ := hx) <;>
      exact hy
  · intro h
    match x, h with
    | .ok (.ok a), h => exact ⟨_, h, rfl⟩
    | .ok (.error e), h => exact ⟨_, h, rfl⟩
    | .panic why, h => exact ⟨_, h, rfl⟩

/-- There is no cleanup after a value. -/
theorem returns_unwinding_ok {cleanup : Method Op Res σ E Unit} {a : α}
    (h : (m s).Returns R (.ok a, s')) : (unwinding cleanup m s).Returns R (.ok a, s') :=
  Prog.returns_bind.mpr ⟨_, h, rfl⟩

/-- What was owned is given back as the method has left it. -/
theorem returns_owning_ok {t t' : τ} {n : Method Op Res τ E Unit}
    (h : (n t).Returns R (.ok (), t')) : (owning t n s).Returns R (.ok t', s) :=
  Prog.returns_bind.mpr ⟨_, h, rfl⟩

/-- A method of a component ends as it does on its own, and the component is put back. -/
theorem returns_onField {view : σ → τ} {put : σ → τ → σ} {n : Method Op Res τ E α}
    {x : Outcome E α} :
    ((onField view put n) s).Returns R (x, s') ↔
      ∃ t, (n (view s)).Returns R (x, t) ∧ s' = put s t := by
  rw [onField, Prog.returns_bind]
  constructor
  · rintro ⟨⟨y, t⟩, hy, hx⟩
    simp only [Prog.returns_pure, Prod.mk.injEq] at hx
    obtain ⟨rfl, rfl⟩ := hx
    exact ⟨t, hy, rfl⟩
  · rintro ⟨t, ht, rfl⟩; exact ⟨_, ht, rfl⟩

end Returns

/-! ### All paths of a method -/

section Sat

variable {R : (o : Op) → Res o → Prop} {φ : Op → Prop}
variable {m : Method Op Res σ E α} {f : α → Method Op Res σ E β} {s : σ}

/-- **Sequencing.** The error exits of the first half keep what they ended with. -/
theorem sat_bind {χ : Outcome E α × σ → Prop} {ψ : Outcome E β × σ → Prop}
    (hm : (m s).Sat R φ χ) (hok : ∀ a t, χ (.ok a, t) → (f a t).Sat R φ ψ)
    (herr : ∀ e t, χ (.err e, t) → ψ (.err e, t))
    (hpanic : ∀ why t, χ (.panic why, t) → ψ (.panic why, t)) :
    ((m >>= f) s).Sat R φ ψ := by
  rw [bind_apply, Prog.sat_bind]
  refine hm.post ?_
  rintro ⟨x, t⟩ hx
  -- each ending has its own condition
  cases x with
  | ok a => exact hok a t hx
  | err e => exact herr e t hx
  | panic why => exact hpanic why t hx

/-- After a pure computation. -/
theorem sat_lift {x : Outcome E α} {ψ : Outcome E β × σ → Prop}
    (hok : ∀ a, x = .ok a → (f a s).Sat R φ ψ) (herr : ∀ e, x = .err e → ψ (.err e, s))
    (hpanic : ∀ why, x = .panic why → ψ (.panic why, s)) :
    ((lift x >>= f) s).Sat R φ ψ := by
  cases x with
  | ok a => exact hok a rfl
  | err e => exact herr e rfl
  | panic why => exact hpanic why rfl

/-- After an operation. -/
theorem sat_call {o : Op} {g : Res o → Method Op Res σ E β} {ψ : Outcome E β × σ → Prop}
    (ho : φ o) (hg : ∀ r, R o r → (g r s).Sat R φ ψ) : ((call o >>= g) s).Sat R φ ψ :=
  ⟨ho, hg⟩

/-- Sequencing, as an equivalence. -/
theorem sat_bind_iff {ψ : Outcome E β × σ → Prop} :
    ((m >>= f) s).Sat R φ ψ ↔ (m s).Sat R φ fun x => match x with
      | (.ok a, t) => (f a t).Sat R φ ψ
      | (.err e, t) => ψ (.err e, t)
      | (.panic why, t) => ψ (.panic why, t) := by
  rw [bind_apply, Prog.sat_bind]
  refine ⟨fun h => h.post ?_, fun h => h.post ?_⟩
  all_goals
    rintro ⟨x, t⟩ hx
    cases x <;> exact hx

/-- What a sequence issues, its first half issues. -/
theorem sat_of_bind {ψ : Outcome E β × σ → Prop} (h : ((m >>= f) s).Sat R φ ψ) :
    (m s).Sat R φ fun _ => True :=
  (sat_bind_iff.mp h).post fun _ _ => trivial

/-- An attempt is right if both a value and an error of the method are. -/
theorem sat_attempt {ψ : Outcome E (Except E α) × σ → Prop}
    (hm : (m s).Sat R φ fun x => match x with
      | (.ok a, t) => ψ (.ok (.ok a), t)
      | (.err e, t) => ψ (.ok (.error e), t)
      | (.panic why, t) => ψ (.panic why, t)) : ((attempt m) s).Sat R φ ψ := by
  rw [attempt, Prog.sat_bind]
  refine hm.post ?_
  rintro ⟨x, t⟩ hx
  cases x <;> exact hx

/-- Another error is reported, from the same state. -/
theorem sat_mapErr {E' : Type} {g : E → E'} {ψ : Outcome E' α × σ → Prop}
    (hm : (m s).Sat R φ fun x => ψ (x.1.mapErr g, x.2)) : ((mapErr g m) s).Sat R φ ψ := by
  rw [mapErr, Prog.sat_bind]
  exact hm.post fun _ hx => hx

/-- **Unwinding.** What the cleanup issues counts as well, and it does not change how the method
ends. -/
theorem sat_unwinding {cleanup : Method Op Res σ E Unit} {ψ : Outcome E α × σ → Prop}
    (hm : (m s).Sat R φ fun x => match x with
      | (.ok a, t) => ψ (.ok a, t)
      | (.err e, t) => (cleanup t).Sat R φ fun y => ψ (.err e, y.2)
      | (.panic why, t) => (cleanup t).Sat R φ fun y => ψ (.panic why, y.2)) :
    ((unwinding cleanup m) s).Sat R φ ψ := by
  rw [unwinding, Prog.sat_bind]
  refine hm.post ?_
  rintro ⟨x, t⟩ hx
  -- the cleanup runs in the state that the method was left in
  cases x with
  | ok a => exact hx
  | err e => exact Prog.sat_bind.mpr hx
  | panic why => exact Prog.sat_bind.mpr hx

/-- **Ownership.** The outer state is not touched, and the inner one is lost unless there is a
value. -/
theorem sat_owning {t : τ} {n : Method Op Res τ E Unit} {ψ : Outcome E τ × σ → Prop}
    (hn : (n t).Sat R φ fun x => match x with
      | (.ok _, t') => ψ (.ok t', s)
      | (.err e, _) => ψ (.err e, s)
      | (.panic why, _) => ψ (.panic why, s)) : ((owning t n) s).Sat R φ ψ := by
  rw [owning, Prog.sat_bind]
  refine hn.post ?_
  rintro ⟨x, t'⟩ hx
  cases x <;> exact hx

/-- A method of a component, seen from the whole. -/
theorem sat_onField {view : σ → τ} {put : σ → τ → σ} {n : Method Op Res τ E α}
    {ψ : Outcome E α × σ → Prop} (hn : (n (view s)).Sat R φ fun x => ψ (x.1, put s x.2)) :
    ((onField view put n) s).Sat R φ ψ := by
  rw [onField, Prog.sat_bind]
  exact hn.post fun _ hx => hx

end Sat

/-! ### What a method issues from the states of an invariant -/

section Stays

variable {I : σ → Prop} {φ φ' : Op → Prop} {m m' : Method Op Res σ E α}
  {f : α → Method Op Res σ E β}

/-- From the states of `I`, under any responses, the operations are all of `φ`, and the method
leaves a state of `I`. -/
def Stays (I : σ → Prop) (φ : Op → Prop) (m : Method Op Res σ E α) : Prop :=
  ∀ s, I s → (m s).Sat Prog.Any φ fun x => I x.2

theorem Stays.mono (h : Stays I φ m) (hφ : ∀ o, φ o → φ' o) : Stays I φ' m :=
  fun s hs => (h s hs).mono hφ fun _ => id

theorem Stays.bind (hm : Stays I φ m) (hf : ∀ a, Stays I φ (f a)) : Stays I φ (m >>= f) :=
  fun s hs => sat_bind (hm s hs) (fun a t ht => hf a t ht) (fun _ _ => id) fun _ _ => id

theorem Stays.lift (x : Outcome E α) : Stays I φ (lift x : Method Op Res σ E α) :=
  fun _ hs => hs

theorem Stays.pure (a : α) : Stays I φ (pure a : Method Op Res σ E α) := fun _ hs => hs

theorem Stays.fail (e : E) : Stays I φ (fail e : Method Op Res σ E α) := fun _ hs => hs

theorem Stays.panic (why : String) : Stays I φ (panic why : Method Op Res σ E α) :=
  fun _ hs => hs

theorem Stays.call {o : Op} (ho : φ o) : Stays I φ (call o : Method Op Res σ E (Res o)) :=
  fun _ hs => ⟨ho, fun _ _ => hs⟩

theorem Stays.get_bind {g : σ → Method Op Res σ E α} (hg : ∀ s, I s → Stays I φ (g s)) :
    Stays I φ (get >>= g) := fun s hs => hg s hs s hs

theorem Stays.set_bind {t : σ} {g : Unit → Method Op Res σ E α} (ht : I t)
    (hg : Stays I φ (g ())) : Stays I φ (set t >>= g) := fun _ _ => hg t ht

/-- Each branch may use the condition under which it is taken. -/
theorem Stays.ite {c : Prop} [Decidable c] (hm : c → Stays I φ m) (hm' : ¬ c → Stays I φ m') :
    Stays I φ (if c then m else m') := by
  split
  · next hc => exact hm hc
  · next hc => exact hm' hc

theorem Stays.attempt (hm : Stays I φ m) : Stays I φ m.attempt := by
  refine fun s hs => sat_attempt ((hm s hs).post ?_)
  rintro ⟨x, t⟩ ht
  cases x <;> exact ht

theorem Stays.mapErr {E' : Type} {g : E → E'} (hm : Stays I φ m) : Stays I φ (mapErr g m) :=
  fun s hs => sat_mapErr ((hm s hs).post fun _ => id)

/-- The cleanup has to keep the invariant, too. -/
theorem Stays.unwinding {cleanup : Method Op Res σ E Unit} (hm : Stays I φ m)
    (hcleanup : Stays I φ cleanup) : Stays I φ (unwinding cleanup m) := by
  refine fun s hs => sat_unwinding ((hm s hs).post ?_)
  rintro ⟨x, t⟩ ht
  cases x with
  | ok a => exact ht
  -- the cleanup starts where the method has stopped
  | err e => exact (hcleanup t ht).post fun _ => id
  | panic why => exact (hcleanup t ht).post fun _ => id

/-- What is owned has an invariant of its own. -/
theorem Stays.owning {J : τ → Prop} {t : τ} {n : Method Op Res τ E Unit} (hn : Stays J φ n)
    (ht : J t) : Stays I φ (owning t n : Method Op Res σ E τ) := by
  refine fun s hs => sat_owning ((hn t ht).post ?_)
  rintro ⟨x, t'⟩ _
  cases x <;> exact hs

/-- The invariant of a component is part of the invariant of the whole. -/
theorem Stays.onField {J : τ → Prop} {view : σ → τ} {put : σ → τ → σ} {n : Method Op Res τ E α}
    (hn : Stays J φ n) (hview : ∀ s, I s → J (view s)) (hput : ∀ s t, I s → J t → I (put s t)) :
    Stays I φ (onField view put n) :=
  fun s hs => sat_onField ((hn (view s) (hview s hs)).post fun _ ht => hput s _ hs ht)

end Stays

/-- The operations are all of `φ`, from every state. -/
abbrev Only (φ : Op → Prop) (m : Method Op Res σ E α) : Prop := Stays (fun _ => True) φ m

/-! ### What a method can issue -/

section Emits

variable {R : (o : Op) → Res o → Prop}
variable {m : Method Op Res σ E α} {f : α → Method Op Res σ E β} {s : σ} {o : Op}

@[simp] theorem not_emits_pure {a : α} :
    ¬ ((pure a : Method Op Res σ E α) s).Emits R o := id

@[simp] theorem not_emits_lift {x : Outcome E α} :
    ¬ ((lift x : Method Op Res σ E α) s).Emits R o := id

@[simp] theorem not_emits_fail {e : E} : ¬ ((fail e : Method Op Res σ E α) s).Emits R o := id

@[simp] theorem not_emits_panic {why : String} :
    ¬ ((panic why : Method Op Res σ E α) s).Emits R o := id

@[simp] theorem not_emits_get : ¬ ((get : Method Op Res σ E σ) s).Emits R o := id

@[simp] theorem not_emits_set {s' : σ} :
    ¬ ((set s' : Method Op Res σ E Unit) s).Emits R o := id

@[simp] theorem emits_call {o' : Op} :
    ((call o' : Method Op Res σ E (Res o')) s).Emits R o ↔ o = o' := by
  simp [call]

/-- A sequence issues what its halves issue; the second one is only run on a value. -/
theorem emits_bind :
    ((m >>= f) s).Emits R o ↔
      (m s).Emits R o ∨ ∃ a t, (m s).Returns R (.ok a, t) ∧ (f a t).Emits R o := by
  rw [bind_apply, Prog.emits_bind]
  refine or_congr_right ⟨?_, ?_⟩
  · rintro ⟨⟨x, t⟩, hx, ho⟩
    -- an error or a panic ends the method, so nothing follows it
    cases x with
    | ok a => exact ⟨a, t, hx, ho⟩
    | err e => exact ho.elim
    | panic why => exact ho.elim
  · rintro ⟨a, t, ha, ho⟩; exact ⟨(.ok a, t), ha, ho⟩

/-- An attempt issues what the method issues. -/
@[simp] theorem emits_attempt : ((attempt m) s).Emits R o ↔ (m s).Emits R o := by
  rw [attempt, Prog.emits_bind]
  refine or_iff_left ?_
  rintro ⟨⟨x, t⟩, -, ho⟩
  cases x <;> exact ho

/-- A method of a component issues what it issues on its own. -/
@[simp] theorem emits_onField {view : σ → τ} {put : σ → τ → σ} {n : Method Op Res τ E α} :
    ((onField view put n) s).Emits R o ↔ (n (view s)).Emits R o := by
  rw [onField, Prog.emits_bind]
  refine or_iff_left ?_
  rintro ⟨⟨x, t⟩, -, ho⟩
  exact ho

end Emits

end Method

/-! ### Programs of one interface run on another -/

namespace Prog

variable {Op Op' : Type} {Res : Op → Type} {Res' : Op' → Type} {σ E α : Type}

/-- Run a program, each operation being answered by a method of another interface. -/
def interp (h : (o : Op) → Method Op' Res' σ E (Res o)) :
    Prog Op Res α → Method Op' Res' σ E α
  | pure a => Pure.pure a
  | op o k => h o >>= fun r => (k r).interp h

variable {h : (o : Op) → Method Op' Res' σ E (Res o)} {R : (o : Op) → Res o → Prop}
  {R' : (o : Op') → Res' o → Prop} {φ : Op → Prop} {φ' : Op' → Prop}
  {Inv : σ → Prop} {χ : Outcome E α × σ → Prop}

/-- **Interpretation.** The handlers keep an invariant and answer what `R` allows; where
one of them fails, the whole ends as it did. -/
theorem sat_interp {p : Prog Op Res α} {s : σ} {ψ : α → Prop}
    {ρ : (o : Op) → Outcome E (Res o) × σ → Prop} (hp : p.Sat R φ ψ) (hs : Inv s)
    (hh : ∀ o t, φ o → Inv t → (h o t).Sat R' φ' (ρ o))
    (hok : ∀ o r t, φ o → ρ o (.ok r, t) → Inv t ∧ R o r)
    (herr : ∀ o e t, φ o → ρ o (.err e, t) → χ (.err e, t))
    (hpanic : ∀ o why t, φ o → ρ o (.panic why, t) → χ (.panic why, t))
    (hend : ∀ a t, ψ a → Inv t → χ (.ok a, t)) : (p.interp h s).Sat R' φ' χ := by
  -- by induction on the program, the state of the handlers varying
  induction p generalizing s with
  | pure a => exact hend a s hp hs
  | op o k ih =>
    refine Method.sat_bind (hh o s hp.1 hs) (fun r t hr => ?_) (fun e t => herr o e t hp.1)
      fun why t => hpanic o why t hp.1
    obtain ⟨ht, hR⟩ := hok o r t hp.1 hr
    exact ih r (hp.2 r hR) ht

/-- The other way: what holds of the interpretation holds of the program, under the answers
that every handler can give while it keeps the invariant. -/
theorem sat_of_interp {p : Prog Op Res α} {s : σ} (hp : (p.interp h s).Sat R' φ' χ) (hs : Inv s)
    (hanswer : ∀ o t r, Inv t → R o r → ∃ t', Inv t' ∧ (h o t).Returns R' (.ok r, t')) :
    p.Sat R (fun o => ∃ t, Inv t ∧ (h o t).Sat R' φ' fun x =>
        ∀ why, x.1 = .panic why → χ (.panic why, x.2))
      fun a => ∃ t, Inv t ∧ χ (.ok a, t) := by
  induction p generalizing s with
  | pure a => exact ⟨s, hs, hp⟩
  | op o k ih =>
    -- the interpretation of an operation is its handler, followed by the rest
    have hbind := Method.sat_bind_iff.mp hp
    refine ⟨⟨s, hs, hbind.post ?_⟩, fun r hr => ?_⟩
    · rintro ⟨x, t⟩ hx why rfl
      exact hx
    · -- some handler can give this answer, and the rest goes on from there
      obtain ⟨t, ht, hret⟩ := hanswer o s r hs hr
      exact ih r (hbind.returns hret) ht

end Prog

end Framework
