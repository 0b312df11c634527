import Nvmetoy.Framework.Prog

/-!
# Histories of programs

What a program does depends on the responses it gets, so its run is told by the operations
with their responses, in order.

* `Since Q A B` — a property of a history: an exchange `A` happened when the history was `Q`,
  and no exchange `B` has happened since. `Once` is the case where nothing is excluded, and
  it lasts.
* `Prog.After` — what a program has become after a history.
* `Prog.Always φ ψ` — under any responses: whenever an operation is issued, the history up to
  it and the operation satisfy `φ`, and when the program has ended, the history and its value
  satisfy `ψ`.
* `Method.Attains` — how this is proved of a method: from a history that it starts in, for the
  values it returns. An error or a panic ends a method, so that only the values are passed on.
-/

namespace Framework

/-! ### Properties of the past -/

section Past

variable {E : Type} {Q Q' : List E → Prop} {A B : E → Prop} {past : List E} {e : E}

/-- `A` happened while `Q` was the case, and `B` has not happened since. -/
def Since (Q : List E → Prop) (A B : E → Prop) (past : List E) : Prop :=
  ∃ before e after, past = before ++ e :: after ∧ Q before ∧ A e ∧ ∀ x ∈ after, ¬ B x

/-- `A` has happened while `Q` was the case. -/
abbrev Once (Q : List E → Prop) (A : E → Prop) : List E → Prop := Since Q A fun _ => False

/-- What has once been the case stays so. -/
def Lasts (Q : List E → Prop) : Prop := ∀ past e, Q past → Q (past ++ [e])

theorem Since.now (hQ : Q past) (hA : A e) : Since Q A B (past ++ [e]) :=
  ⟨past, e, [], rfl, hQ, hA, fun _ h => absurd h List.not_mem_nil⟩

/-- Nothing has ended it. -/
theorem Since.still (h : Since Q A B past) (hB : ¬ B e) : Since Q A B (past ++ [e]) := by
  obtain ⟨before, a, after, rfl, hQ, hA, hafter⟩ := h
  refine ⟨before, a, after ++ [e], by rw [List.append_assoc, List.cons_append], hQ, hA, ?_⟩
  -- the new event is the last of those that came after
  intro x hx
  rcases List.mem_append.mp hx with hx | hx
  · exact hafter x hx
  · exact List.mem_singleton.mp hx ▸ hB

theorem Once.lasts : Lasts (Once Q A) := fun _ _ h => h.still id

theorem Lasts.and (h : Lasts Q) (h' : Lasts Q') : Lasts fun past => Q past ∧ Q' past :=
  fun past e hpast => ⟨h past e hpast.1, h' past e hpast.2⟩

/-- Less may be asked of what came before, and of what happened; more may be counted as an end of
it. -/
theorem Since.mono {A' B' : E → Prop} (h : Since Q A B past) (hQ : ∀ past, Q past → Q' past)
    (hA : ∀ e, A e → A' e) (hB : ∀ e, B' e → B e) : Since Q' A' B' past := by
  obtain ⟨before, e, after, hpast, hbefore, he, hafter⟩ := h
  exact ⟨before, e, after, hpast, hQ _ hbefore, hA _ he, fun x hx hb => hafter x hx (hB x hb)⟩

end Past

/-! ### Programs -/

/-- An operation and its response. -/
structure Exchange (Op : Type) (Res : Op → Type) where
  op : Op
  response : Res op

namespace Prog

variable {Op : Type} {Res : Op → Type} {α β : Type}

/-- The program is `rest` after the exchanges. -/
inductive After : Prog Op Res α → List (Exchange Op Res) → Prog Op Res α → Prop where
  | refl (p : Prog Op Res α) : After p [] p
  | op {o : Op} {k : Res o → Prog Op Res α} {r : Res o} {past : List (Exchange Op Res)}
      {rest : Prog Op Res α} (h : After (k r) past rest) : After (.op o k) (⟨o, r⟩ :: past) rest

/-- Whatever the responses are, every operation is issued in a history that allows it, and
the program ends in one that its value tells of. -/
def Always (φ : List (Exchange Op Res) → Op → Prop) (ψ : List (Exchange Op Res) → α → Prop)
    (p : Prog Op Res α) : Prop :=
  ∀ past rest, p.After past rest →
    (∀ before e after, past = before ++ e :: after → φ before e.op) ∧
      ∀ a, rest = .pure a → ψ past a

/-- The same by recursion on the program, after a history. -/
def Traced (φ : List (Exchange Op Res) → Op → Prop) :
    Prog Op Res α → List (Exchange Op Res) → (List (Exchange Op Res) → α → Prop) → Prop
  | pure a, past, ψ => ψ past a
  | op o k, past, ψ => φ past o ∧ ∀ r, (k r).Traced φ (past ++ [⟨o, r⟩]) ψ

variable {φ : List (Exchange Op Res) → Op → Prop} {past : List (Exchange Op Res)}

/-- **Sequencing.** The second half goes on with the history of the first. -/
theorem traced_bind {p : Prog Op Res α} {f : α → Prog Op Res β}
    {ψ : List (Exchange Op Res) → β → Prop} :
    (p.bind f).Traced φ past ψ ↔ p.Traced φ past fun past' a => (f a).Traced φ past' ψ := by
  -- by induction on the first half, the history growing with each response
  induction p generalizing past with
  | pure a => rfl
  | op o k ih => simp only [op_bind, Traced, ih]

/-- The condition on the end may be weakened. -/
theorem Traced.post {p : Prog Op Res α} {ψ ψ' : List (Exchange Op Res) → α → Prop}
    (h : p.Traced φ past ψ) (hψ : ∀ past a, ψ past a → ψ' past a) : p.Traced φ past ψ' := by
  induction p generalizing past with
  | pure a => exact hψ _ _ h
  | op o k ih => exact ⟨h.1, fun r => ih r (h.2 r)⟩

/-- **Frame.** What lasts is still the case at the end. -/
theorem Traced.frame {p : Prog Op Res α} {ψ : List (Exchange Op Res) → α → Prop}
    {Q : List (Exchange Op Res) → Prop} (h : p.Traced φ past ψ) (hlasts : Lasts Q)
    (hQ : Q past) : p.Traced φ past fun past' a => ψ past' a ∧ Q past' := by
  induction p generalizing past with
  | pure a => exact ⟨h, hQ⟩
  | op o k ih => exact ⟨h.1, fun r => ih r (h.2 r) (hlasts _ _ hQ)⟩

theorem Traced.after {p rest : Prog Op Res α} {ψ : List (Exchange Op Res) → α → Prop}
    {next : List (Exchange Op Res)} (h : p.Traced φ past ψ) (hafter : p.After next rest) :
    (∀ before e after, next = before ++ e :: after → φ (past ++ before) e.op) ∧
      ∀ a, rest = .pure a → ψ (past ++ next) a := by
  -- by induction on the exchanges, the first of them being taken off
  induction hafter generalizing past with
  | refl p =>
    refine ⟨fun before e after hnil => ?_, fun a ha => ?_⟩
    · cases before <;> cases hnil
    · subst ha
      rw [List.append_nil]
      exact h
  | @op o k r next rest _ ih =>
    -- the operation of this exchange was allowed after what came before it
    obtain ⟨ho, hk⟩ := h
    obtain ⟨hissued, hended⟩ := ih (hk r)
    refine ⟨fun before e after hsplit => ?_, fun a ha => ?_⟩
    · -- it is the first operation, or one of the rest
      cases before with
      | nil =>
        obtain ⟨rfl, -⟩ := List.cons.inj hsplit
        rw [List.append_nil]
        exact ho
      | cons first before =>
        obtain ⟨rfl, hrest⟩ := List.cons.inj hsplit
        have hφ := hissued before e after hrest
        rwa [List.append_assoc] at hφ
    · have hψ := hended a ha
      rwa [List.append_assoc] at hψ

/-- **From the recursion to the histories.** -/
theorem Traced.always {p : Prog Op Res α} {ψ : List (Exchange Op Res) → α → Prop}
    (h : p.Traced φ [] ψ) : p.Always φ ψ :=
  fun _ _ hafter => h.after hafter

end Prog

/-! ### Methods -/

namespace Method

variable {Op : Type} {Res : Op → Type} {σ τ E α β : Type}
variable (φ : List (Exchange Op Res) → Op → Prop)

/-- After the history `past`, what the method issues is allowed, and when it returns a value,
the history, the value and the state satisfy `χ`. -/
def Attains (m : Method Op Res σ E α) (s : σ) (past : List (Exchange Op Res))
    (χ : List (Exchange Op Res) → α → σ → Prop) : Prop :=
  (m s).Traced φ past fun past' x => ∀ a, x.1 = .ok a → χ past' a x.2

variable {φ} {m : Method Op Res σ E α} {f : α → Method Op Res σ E β} {s : σ}
  {past : List (Exchange Op Res)} {χ χ' : List (Exchange Op Res) → α → σ → Prop}
  {ψ : List (Exchange Op Res) → β → σ → Prop}

theorem Attains.mono (h : m.Attains φ s past χ)
    (hχ : ∀ past' a t, χ past' a t → χ' past' a t) : m.Attains φ s past χ' :=
  h.post fun _ x hx a ha => hχ _ a x.2 (hx a ha)

theorem Attains.frame {Q : List (Exchange Op Res) → Prop} (h : m.Attains φ s past χ)
    (hlasts : Lasts Q) (hQ : Q past) :
    m.Attains φ s past fun past' a t => χ past' a t ∧ Q past' :=
  (Prog.Traced.frame h hlasts hQ).post fun _ _ hx a ha => ⟨hx.1 a ha, hx.2⟩

/-- A value, without an exchange. -/
theorem attains_pure {a : α} (h : χ past a s) :
    (pure a : Method Op Res σ E α).Attains φ s past χ := by
  intro b hb
  obtain rfl := Outcome.ok.inj hb
  exact h

theorem attains_lift {x : Outcome E α} (h : ∀ a, x = .ok a → χ past a s) :
    (lift x : Method Op Res σ E α).Attains φ s past χ :=
  fun a ha => h a ha

theorem attains_fail {e : E} : (fail e : Method Op Res σ E α).Attains φ s past χ :=
  attains_lift (fun _ h => nomatch h)

/-- **Sequencing.** -/
theorem attains_bind (hm : m.Attains φ s past χ)
    (hf : ∀ past' a t, χ past' a t → (f a).Attains φ t past' ψ) :
    (m >>= f).Attains φ s past ψ := by
  rw [Attains, bind_apply, Prog.traced_bind]
  refine hm.post ?_
  rintro past' ⟨x, t⟩ hx
  -- only a value is followed by the second half
  cases x with
  | ok a => exact hf past' a t (hx a rfl)
  | err e => intro b hb; cases hb
  | panic why => intro b hb; cases hb

theorem attains_lift_bind {x : Outcome E α} (h : ∀ a, x = .ok a → (f a).Attains φ s past ψ) :
    (lift x >>= f).Attains φ s past ψ :=
  attains_bind (attains_lift (χ := fun past' a t => x = .ok a ∧ past' = past ∧ t = s)
    fun _ ha => ⟨ha, rfl, rfl⟩) (by rintro _ a _ ⟨ha, rfl, rfl⟩; exact h a ha)

/-- An operation, which is allowed now; its response is part of the history from here on. -/
theorem attains_call {o : Op} {χ : List (Exchange Op Res) → Res o → σ → Prop} (ho : φ past o)
    (h : ∀ r, χ (past ++ [⟨o, r⟩]) r s) :
    (call o : Method Op Res σ E (Res o)).Attains φ s past χ := by
  refine ⟨ho, fun r a ha => ?_⟩
  obtain rfl := Outcome.ok.inj ha
  exact h _

theorem attains_call_bind {o : Op} {g : Res o → Method Op Res σ E β} (ho : φ past o)
    (h : ∀ r, (g r).Attains φ s (past ++ [⟨o, r⟩]) ψ) : (call o >>= g).Attains φ s past ψ :=
  ⟨ho, h⟩

theorem attains_get {f : σ → Method Op Res σ E β} (h : (f s).Attains φ s past ψ) :
    (get >>= f).Attains φ s past ψ := h

theorem attains_set {t : σ} {f : Unit → Method Op Res σ E β} (h : (f ()).Attains φ t past ψ) :
    (set t >>= f).Attains φ s past ψ := h

/-- A method of a component, whose state is put back. -/
theorem attains_onField {view : σ → τ} {put : σ → τ → σ} {n : Method Op Res τ E α}
    (h : n.Attains φ (view s) past fun past' a t => χ past' a (put s t)) :
    (onField view put n).Attains φ s past χ := by
  rw [Attains, onField, Prog.traced_bind]
  exact h.post fun _ _ hx => hx

/-- A method that owns its state. -/
theorem attains_owning {t : τ} {n : Method Op Res τ E Unit}
    {χ : List (Exchange Op Res) → τ → σ → Prop}
    (h : n.Attains φ t past fun past' _ t' => χ past' t' s) :
    (owning t n).Attains φ s past χ := by
  rw [Attains, owning, Prog.traced_bind]
  refine h.post ?_
  rintro past' ⟨x, t'⟩ hx
  -- an error or a panic gives nothing back
  cases x with
  | ok a =>
    intro b hb
    obtain rfl := Outcome.ok.inj hb
    exact hx a rfl
  | err e => intro b hb; cases hb
  | panic why => intro b hb; cases hb

/-- The cleanup is part of the history; there is no value after it. -/
theorem attains_unwinding {cleanup : Method Op Res σ E Unit} (hm : m.Attains φ s past χ)
    (hcleanup : ∀ past t, cleanup.Attains φ t past fun _ _ _ => True) :
    (unwinding cleanup m).Attains φ s past χ := by
  rw [Attains, unwinding, Prog.traced_bind]
  refine hm.post ?_
  rintro past' ⟨x, t⟩ hx
  cases x with
  | ok a => exact hx
  -- the cleanup is run, and the error stays an error
  | err e =>
    refine Prog.traced_bind.mpr ((hcleanup past' t).post fun _ _ _ => ?_)
    intro b hb
    cases hb
  | panic why =>
    refine Prog.traced_bind.mpr ((hcleanup past' t).post fun _ _ _ => ?_)
    intro b hb
    cases hb

end Method

end Framework
