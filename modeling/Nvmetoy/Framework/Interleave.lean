import Nvmetoy.Framework.Prog

/-!
# Programs interleaved with an environment

A `Machine` says what the operations of an interface do to a world `W`, and what
the environment may do to it on its own. A configuration is a program together
with a world; it moves when the program issues its next operation or when the
environment takes a step, in any order. Nothing forces the environment to move,
or bounds how often it does.

`Machine.Safe` is the statement proved about a program: from a given world, every
configuration it can reach has a world in the invariant, and every configuration
in which it has ended satisfies the postcondition. It is stated on `Reaches`
itself, so that it needs no soundness theorem; the rules below are the
rely-guarantee rules of the interface:

* `Triple.op` — an assertion that the environment keeps (`Stable`) may be used at
  the next operation, however long the environment has run before it;
* `Triple.method_bind` — sequencing. The error exits of a method carry the
  postcondition they ended with.

The last section builds runs: `Reaches.act`, `Reaches.envs` and `Reaches.bind`
compose an explicit schedule into a reachable configuration.
-/

namespace Framework

variable {Op : Type} {Res : Op → Type} {W α β : Type}

/-- What operations and the environment do to a world. -/
structure Machine (Op : Type) (Res : Op → Type) (W : Type) where
  /-- `act o w r w'`: operation `o` in world `w` can respond `r`, leaving `w'`. -/
  act : (o : Op) → W → Res o → W → Prop
  /-- A step of the environment. -/
  env : W → W → Prop

namespace Machine

variable (M : Machine Op Res W)

/-- A program and the world it runs in. -/
abbrev Config (Op : Type) (Res : Op → Type) (W α : Type) : Type := Prog Op Res α × W

/-- One step of the program or of the environment. -/
inductive Step : Config Op Res W α → Config Op Res W α → Prop where
  | act {o : Op} {k : Res o → Prog Op Res α} {w w' : W} {r : Res o}
      (h : M.act o w r w') : Step (.op o k, w) (k r, w')
  | env {p : Prog Op Res α} {w w' : W} (h : M.env w w') : Step (p, w) (p, w')

/-- Any finite number of steps, in any interleaving. -/
abbrev Reaches : Config Op Res W α → Config Op Res W α → Prop :=
  Relation.ReflTransGen (Step M)

/-- The environment keeps the assertion. -/
def Stable (P : W → Prop) : Prop := ∀ w w', P w → M.env w w' → P w'

/-- Every world reached satisfies `I`, and every world the program has ended in
satisfies `Q`. -/
def Safe (I : W → Prop) (p : Prog Op Res α) (w : W) (Q : α → W → Prop) : Prop :=
  ∀ c : Config Op Res W α, M.Reaches (p, w) c → I c.2 ∧ ∀ a, c.1 = .pure a → Q a c.2

/-- `Safe` from every world of the precondition. -/
def Triple (I P : W → Prop) (p : Prog Op Res α) (Q : α → W → Prop) : Prop :=
  ∀ w, P w → M.Safe I p w Q

variable {M} {I P P' : W → Prop} {Q Q' : α → W → Prop}

/-- What is stable is closed under conjunction. -/
theorem Stable.and (h : M.Stable P) (h' : M.Stable P') : M.Stable fun w => P w ∧ P' w :=
  fun w w' hw henv => ⟨h w w' hw.1 henv, h' w w' hw.2 henv⟩

theorem Stable.const (p : Prop) : M.Stable fun _ => p := fun _ _ h _ => h

theorem Stable.exists {ι : Sort*} {R : ι → W → Prop} (h : ∀ i, M.Stable (R i)) :
    M.Stable fun w => ∃ i, R i w :=
  fun w w' ⟨i, hi⟩ henv => ⟨i, h i w w' hi henv⟩

theorem Stable.forall {ι : Sort*} {R : ι → W → Prop} (h : ∀ i, M.Stable (R i)) :
    M.Stable fun w => ∀ i, R i w :=
  fun w w' hw henv i => h i w w' (hw i) henv

/-- A finished program only waits. -/
theorem reaches_pure {a : α} {w : W} {c : Config Op Res W α}
    (hc : M.Reaches (.pure a, w) c) : c.1 = .pure a ∧ Relation.ReflTransGen M.env w c.2 := by
  induction hc with
  | refl => exact ⟨rfl, .refl⟩
  | tail _ hstep ih =>
    cases hstep with
    | act h => exact absurd ih.1 (by simp)
    | env h => exact ⟨ih.1, ih.2.tail h⟩

/-- A stable assertion survives any number of environment steps. -/
theorem Stable.envs (hP : M.Stable P) {w w' : W} (hw : P w)
    (h : Relation.ReflTransGen M.env w w') : P w' := by
  induction h with
  | refl => exact hw
  | tail _ hstep ih => exact hP _ _ ih hstep

/-- The environment may run while a program waits. -/
theorem Reaches.envs {p : Prog Op Res α} {w w' : W}
    (h : Relation.ReflTransGen M.env w w') : M.Reaches (p, w) (p, w') := by
  induction h with
  | refl => exact .refl
  | tail _ hstep ih => exact ih.tail (.env hstep)

/-- What a program about to issue `o` can reach: it still waits, or it has issued
`o` and gone on. -/
theorem reaches_op {o : Op} {k : Res o → Prog Op Res α} {w : W} (hP : M.Stable P) (hw : P w)
    {c : Config Op Res W α} (hc : M.Reaches (.op o k, w) c) :
    (c.1 = .op o k ∧ P c.2) ∨
      ∃ w₁ r w₂, P w₁ ∧ M.act o w₁ r w₂ ∧ M.Reaches (k r, w₂) c := by
  induction hc with
  | refl => exact .inl ⟨rfl, hw⟩
  | @tail b c _ hstep ih =>
    -- the operation is still to come, or has been done before
    rcases ih with ⟨hb, hPb⟩ | ⟨w₁, r, w₂, h₁, h₂, h₃⟩
    · obtain ⟨p, w'⟩ := b
      obtain rfl : p = .op o k := hb
      cases hstep with
      | act h => exact .inr ⟨w', _, _, hPb, h, .refl⟩
      | env h => exact .inl ⟨rfl, hP _ _ hPb h⟩
    · exact .inr ⟨w₁, r, w₂, h₁, h₂, h₃.tail hstep⟩

/-- What a sequence can reach: its first half is still running, or it has ended
and the second half has gone on. -/
theorem reaches_bind {p : Prog Op Res α} {f : α → Prog Op Res β} {w : W}
    {c : Config Op Res W β} (hc : M.Reaches (p.bind f, w) c) :
    (∃ p', c.1 = p'.bind f ∧ M.Reaches (p, w) (p', c.2)) ∨
      ∃ a w', M.Reaches (p, w) (.pure a, w') ∧ M.Reaches (f a, w') c := by
  induction hc with
  | refl => exact .inl ⟨p, rfl, .refl⟩
  | @tail b c _ hstep ih =>
    -- the last step is one of the first half, or one of the second
    rcases ih with ⟨p', hb, hr⟩ | ⟨a, w', h₁, h₂⟩
    · obtain ⟨q, w'⟩ := b
      obtain rfl : q = p'.bind f := hb
      cases p' with
      | pure a => exact .inr ⟨a, w', hr, .single hstep⟩
      | op o k =>
        cases hstep with
        | act h => exact .inl ⟨_, rfl, hr.tail (.act h)⟩
        | env h => exact .inl ⟨_, rfl, hr.tail (.env h)⟩
    · exact .inr ⟨a, w', h₁, h₂.tail hstep⟩

/-! ### The rules -/

/-- **Consequence.** -/
theorem Triple.conseq (h : M.Triple I P p Q) (hP : ∀ w, P' w → P w)
    (hQ : ∀ a w, Q a w → Q' a w) : M.Triple I P' p Q' := fun w hw c hc =>
  let ⟨hI, hq⟩ := h w (hP w hw) c hc
  ⟨hI, fun a ha => hQ a _ (hq a ha)⟩

theorem Triple.pre (h : M.Triple I P p Q) (hP : ∀ w, P' w → P w) : M.Triple I P' p Q :=
  h.conseq hP fun _ _ => id

theorem Triple.post (h : M.Triple I P p Q) (hQ : ∀ a w, Q a w → Q' a w) :
    M.Triple I P p Q' :=
  h.conseq (fun _ => id) hQ

/-- A weaker invariant. -/
theorem Triple.invariant {I' : W → Prop} (h : M.Triple I P p Q) (hI : ∀ w, I w → I' w) :
    M.Triple I' P p Q := fun w hw c hc =>
  ⟨hI _ (h w hw c hc).1, (h w hw c hc).2⟩

theorem Triple.of_forall {ι : Sort*} {R : ι → W → Prop}
    (h : ∀ i, M.Triple I (R i) p Q) : M.Triple I (fun w => ∃ i, R i w) p Q :=
  fun w ⟨i, hi⟩ => h i w hi

theorem Triple.or {P₁ P₂ : W → Prop} (h₁ : M.Triple I P₁ p Q) (h₂ : M.Triple I P₂ p Q) :
    M.Triple I (fun w => P₁ w ∨ P₂ w) p Q :=
  fun w hw => hw.elim (h₁ w) (h₂ w)

/-- A pure side condition of the precondition may be assumed. -/
theorem Triple.of_pure {φ : Prop} (h : φ → M.Triple I P p Q) :
    M.Triple I (fun w => φ ∧ P w) p Q :=
  fun w hw => h hw.1 w hw.2

/-- **The end of a program.** The environment may still move. -/
theorem Triple.pure {a : α} (hP : M.Stable P) (hI : ∀ w, P w → I w) :
    M.Triple I P (.pure a) fun b w => b = a ∧ P w := by
  intro w hw c hc
  obtain ⟨ha, henv⟩ := reaches_pure hc
  have hPc := hP.envs hw henv
  refine ⟨hI _ hPc, fun b hb => ⟨?_, hPc⟩⟩
  rw [ha] at hb
  exact (Prog.pure.inj hb).symm

/-- **The operation rule.** The assertion is kept by the environment until the
operation is issued; the continuation starts from whatever the operation leaves. -/
theorem Triple.op {o : Op} {k : Res o → Prog Op Res α} {R : Res o → W → Prop}
    (hP : M.Stable P) (hI : ∀ w, P w → I w)
    (hact : ∀ w r w', P w → M.act o w r w' → R r w')
    (hk : ∀ r, M.Triple I (R r) (k r) Q) : M.Triple I P (.op o k) Q := by
  intro w hw c hc
  rcases reaches_op hP hw hc with ⟨hc₁, hPc⟩ | ⟨w₁, r, w₂, h₁, h₂, h₃⟩
  · exact ⟨hI _ hPc, fun a ha => absurd (hc₁.symm.trans ha) (by simp)⟩
  · exact hk r w₂ (hact w₁ r w₂ h₁ h₂) c h₃

/-- Sequencing with a continuation that ends at once keeps the postcondition, whatever
the environment does afterwards: it was already waiting when the first half had ended. -/
theorem Triple.map {p : Prog Op Res α} {f : α → β} {Q : β → W → Prop}
    (hp : M.Triple I P p fun a w => Q (f a) w) :
    M.Triple I P (p.bind fun a => .pure (f a)) Q := by
  rintro w hw ⟨q, w'⟩ hc
  rcases reaches_bind hc with ⟨p', rfl, hr⟩ | ⟨a, w₁, h₁, h₂⟩
  · refine ⟨(hp w hw _ hr).1, fun b hb => ?_⟩
    cases p' with
    | pure a => obtain rfl := Prog.pure.inj hb; exact (hp w hw _ hr).2 a rfl
    | op o k => exact absurd hb (by simp)
  · obtain ⟨rfl, henv⟩ := reaches_pure h₂
    have hend := hp w hw _ (h₁.trans (Reaches.envs henv))
    exact ⟨hend.1, fun b hb => by obtain rfl := Prog.pure.inj hb; exact hend.2 a rfl⟩

/-- **Sequencing methods.** The error exits of the first half keep the
postcondition they ended with. -/
theorem Triple.method_bind {σ E : Type} {m : Method Op Res σ E α}
    {f : α → Method Op Res σ E β} {s : σ} {R : Outcome E α × σ → W → Prop}
    {Q : Outcome E β × σ → W → Prop} (hm : M.Triple I P (m s) R)
    (hf : ∀ a t, M.Triple I (R (.ok a, t)) (f a t) Q)
    (herr : ∀ e t w, R (.err e, t) w → Q (.err e, t) w)
    (hpanic : ∀ why t w, R (.panic why, t) w → Q (.panic why, t) w) :
    M.Triple I P ((m >>= f) s) Q := by
  rintro w hw ⟨q, w'⟩ hc
  rcases reaches_bind hc with ⟨p', rfl, hr⟩ | ⟨⟨x, t⟩, w₁, h₁, h₂⟩
  -- the first half has not ended, or only just
  · refine ⟨(hm w hw _ hr).1, fun b hb => ?_⟩
    cases p' with
    | op o k => exact absurd hb (by simp)
    | pure x =>
      have hR := (hm w hw _ hr).2 _ rfl
      match x, hb, hR with
      | (.ok a, t), hb, hR => exact (hf a t w' hR _ .refl).2 b hb
      | (.err e, t), hb, hR => obtain rfl := Prog.pure.inj hb; exact herr e t _ hR
      | (.panic why, t), hb, hR => obtain rfl := Prog.pure.inj hb; exact hpanic why t _ hR
  -- the second half has begun, or the environment has gone on after an error
  · cases x with
    | ok a => exact hf a t w₁ ((hm w hw _ h₁).2 _ rfl) _ h₂
    | err e =>
      obtain ⟨rfl, henv⟩ := reaches_pure h₂
      have hend := hm w hw _ (h₁.trans (Reaches.envs henv))
      exact ⟨hend.1, fun b hb => by
        obtain rfl := Prog.pure.inj hb; exact herr e t _ (hend.2 _ rfl)⟩
    | panic why =>
      obtain ⟨rfl, henv⟩ := reaches_pure h₂
      have hend := hm w hw _ (h₁.trans (Reaches.envs henv))
      exact ⟨hend.1, fun b hb => by
        obtain rfl := Prog.pure.inj hb; exact hpanic why t _ (hend.2 _ rfl)⟩

/-- A program whose every operation keeps a stable assertion, with what it can return. -/
theorem Triple.of_sat {R : (o : Op) → Res o → Prop} {φ : Op → Prop} {ψ : α → Prop}
    (hp : p.Sat R φ ψ) (hP : M.Stable P) (hI : ∀ w, P w → I w)
    (hR : ∀ o w r w', P w → M.act o w r w' → R o r)
    (hact : ∀ o w r w', φ o → P w → M.act o w r w' → P w') :
    M.Triple I P p fun a w => ψ a ∧ P w := by
  induction p with
  | pure a => exact (Triple.pure hP hI).post fun b w h => ⟨h.1 ▸ hp, h.2⟩
  | op o k ih =>
    -- the response is one that the program was followed for
    refine Triple.op (R := fun r w => R o r ∧ P w) hP hI
      (fun w r w' hw h => ⟨hR o w r w' hw h, hact o w r w' hp.1 hw h⟩) fun r => ?_
    exact Triple.of_pure fun hr => ih r (hp.2 r hr)

/-- A method that ends at once. -/
theorem Triple.ret {a : α} (hP : M.Stable P) (hI : ∀ w, P w → I w) (hQ : ∀ w, P w → Q a w) :
    M.Triple I P (.pure a) Q :=
  (Triple.pure hP hI).post fun _ w h => h.1 ▸ hQ w h.2

section Methods

variable {σ E : Type} {s : σ} {Q : Outcome E β × σ → W → Prop}

/-- After a pure computation. -/
theorem Triple.lift_bind {x : Outcome E α} {f : α → Method Op Res σ E β} (hP : M.Stable P)
    (hI : ∀ w, P w → I w) (hok : ∀ a, x = .ok a → M.Triple I P (f a s) Q)
    (herr : ∀ e w, x = .err e → P w → Q (.err e, s) w)
    (hpanic : ∀ why w, x = .panic why → P w → Q (.panic why, s) w) :
    M.Triple I P ((Method.lift x >>= f) s) Q := by
  cases x with
  | ok a => exact hok a rfl
  | err e => exact Triple.ret hP hI fun w => herr e w rfl
  | panic why => exact Triple.ret hP hI fun w => hpanic why w rfl

/-- After an operation. -/
theorem Triple.call_bind {o : Op} {f : Res o → Method Op Res σ E β} {R : Res o → W → Prop}
    (hP : M.Stable P) (hI : ∀ w, P w → I w) (hact : ∀ w r w', P w → M.act o w r w' → R r w')
    (hf : ∀ r, M.Triple I (R r) (f r s) Q) : M.Triple I P ((Method.call o >>= f) s) Q :=
  Triple.op hP hI hact hf

end Methods

/-- How a method ends whose error is turned into a value. -/
def attempted {σ E : Type} : Outcome E α × σ → Outcome E (Except E α) × σ
  | (.ok a, t) => (.ok (.ok a), t)
  | (.err e, t) => (.ok (.error e), t)
  | (.panic why, t) => (.panic why, t)

/-- Catching an error, as a sequence. -/
theorem attempt_eq {σ E : Type} (m : Method Op Res σ E α) (s : σ) :
    m.attempt s = (m s).bind fun x => .pure (attempted x) := by
  rw [Method.attempt]
  congr 1
  funext x
  obtain ⟨x, t⟩ := x
  cases x <;> rfl

/-- An error that is turned into a value. -/
theorem Triple.attempt {σ E : Type} {m : Method Op Res σ E α} {s : σ}
    {Q : Outcome E (Except E α) × σ → W → Prop}
    (hm : M.Triple I P (m s) fun x w => Q (attempted x) w) : M.Triple I P (m.attempt s) Q := by
  rw [attempt_eq]
  exact Triple.map hm

/-- An error that is replaced by another one. -/
theorem Triple.mapErr {σ E E' : Type} {g : E → E'} {m : Method Op Res σ E α} {s : σ}
    {Q : Outcome E' α × σ → W → Prop}
    (hm : M.Triple I P (m s) fun x w => Q (x.1.mapErr g, x.2) w) :
    M.Triple I P (m.mapErr g s) Q :=
  Triple.map hm

/-- The states in which a method may end: with a value, or otherwise. -/
def Ends {σ E : Type} (Q : α → W → Prop) (R : W → Prop) (x : Outcome E α × σ) (w : W) : Prop :=
  match x.1 with
  | .ok a => Q a w
  | _ => R w

/-- A method with a cleanup for when it does not end with a value. -/
theorem Triple.unwinding {σ E : Type} {m : Method Op Res σ E α} {cleanup : Method Op Res σ E Unit}
    {s : σ} {R Q : Outcome E α × σ → W → Prop} (hm : M.Triple I P (m s) R)
    (hok : ∀ a t w, R (.ok a, t) w → Q (.ok a, t) w)
    (herr : ∀ e t, M.Triple I (R (.err e, t)) (cleanup t) fun y w => Q (.err e, y.2) w)
    (hpanic : ∀ why t, M.Triple I (R (.panic why, t)) (cleanup t) fun y w =>
      Q (.panic why, y.2) w) :
    M.Triple I P (Method.unwinding cleanup m s) Q := by
  rintro w hw ⟨q, w'⟩ hc
  rcases reaches_bind hc with ⟨p', rfl, hr⟩ | ⟨⟨x, t⟩, w₁, h₁, h₂⟩
  -- the method has not ended, or only just
  · refine ⟨(hm w hw _ hr).1, fun b hb => ?_⟩
    cases p' with
    | op o k => exact absurd hb (by simp)
    | pure x =>
      have hR := (hm w hw _ hr).2 _ rfl
      match x, hb, hR with
      | (.ok a, t), hb, hR => obtain rfl := Prog.pure.inj hb; exact hok a t _ hR
      | (.err e, t), hb, hR => exact (Triple.map (herr e t) w' hR _ .refl).2 b hb
      | (.panic why, t), hb, hR => exact (Triple.map (hpanic why t) w' hR _ .refl).2 b hb
  -- it has, and anything but a value is cleaned up after
  · cases x with
    | ok a =>
      obtain ⟨rfl, henv⟩ := reaches_pure h₂
      have hend := hm w hw _ (h₁.trans (Reaches.envs henv))
      exact ⟨hend.1, fun b hb => by obtain rfl := Prog.pure.inj hb; exact hok a t _ (hend.2 _ rfl)⟩
    | err e => exact Triple.map (herr e t) w₁ ((hm w hw _ h₁).2 _ rfl) _ h₂
    | panic why => exact Triple.map (hpanic why t) w₁ ((hm w hw _ h₁).2 _ rfl) _ h₂

/-- How a method ends that owns its state. -/
def owned {σ τ E : Type} (s : σ) : Outcome E Unit × τ → Outcome E τ × σ
  | (.ok _, t) => (.ok t, s)
  | (.err e, _) => (.err e, s)
  | (.panic why, _) => (.panic why, s)

theorem owning_eq {σ τ E : Type} (t : τ) (m : Method Op Res τ E Unit) (s : σ) :
    Method.owning t m s = (m t).bind fun x => .pure (owned s x) := by
  rw [Method.owning]
  congr 1
  funext x
  obtain ⟨x, t'⟩ := x
  cases x <;> rfl

/-- A method that owns its state. -/
theorem Triple.owning {σ τ E : Type} {t : τ} {m : Method Op Res τ E Unit} {s : σ}
    {Q : Outcome E τ × σ → W → Prop}
    (hm : M.Triple I P (m t) fun x w => Q (owned s x) w) :
    M.Triple I P (Method.owning t m s) Q := by
  rw [owning_eq]
  exact Triple.map hm

/-- A method run on a component of the state. -/
theorem Triple.onField {σ τ E : Type} {view : σ → τ} {put : σ → τ → σ}
    {m : Method Op Res τ E α} {s : σ} {Q : Outcome E α × σ → W → Prop}
    (hm : M.Triple I P (m (view s)) fun x w => Q (x.1, put s x.2) w) :
    M.Triple I P (Method.onField view put m s) Q :=
  Triple.map hm

/-! ### Building runs -/

/-- A run is one of every machine that can take its steps as long as `E` holds, if `E` holds
wherever the run leads to its end from. -/
theorem Reaches.throughout {M M' : Machine Op Res W} {E : W → Prop} {c c' : Config Op Res W α}
    (h : M.Reaches c c') (hE : ∀ b, M.Reaches b c' → E b.2)
    (hact : ∀ o w r w', E w → M.act o w r w' → M'.act o w r w')
    (henv : ∀ w w', M.env w w' → M'.env w w') : M'.Reaches c c' := by
  -- from the end backwards, since that is where `E` is known from
  induction h using Relation.ReflTransGen.head_induction_on with
  | refl => exact .refl
  | @head c b hstep hrest ih =>
    refine .head ?_ ih
    have hhere : E c.2 := hE c (.head hstep hrest)
    cases hstep with
    | act hdone => exact .act (hact _ _ _ _ hhere hdone)
    | env hdone => exact .env (henv _ _ hdone)

theorem Reaches.act {o : Op} {k : Res o → Prog Op Res α} {w w' : W} {r : Res o}
    {c : Config Op Res W α} (h : M.act o w r w') (hc : M.Reaches (k r, w') c) :
    M.Reaches (.op o k, w) c :=
  .head (.act h) hc

/-- A method that issues an operation. -/
theorem Reaches.call_bind {σ E : Type} {s : σ} {o : Op} {f : Res o → Method Op Res σ E α}
    {w w' : W} {c : Config Op Res W (Outcome E α × σ)} (r : Res o) (h : M.act o w r w')
    (hc : M.Reaches (f r s, w') c) : M.Reaches ((Method.call o >>= f) s, w) c :=
  Reaches.act h hc

/-- A run of the first half is a run of the sequence. -/
theorem Reaches.bind {p p' : Prog Op Res α} {f : α → Prog Op Res β} {w w' : W}
    (h : M.Reaches (p, w) (p', w')) : M.Reaches (p.bind f, w) (p'.bind f, w') := by
  have key : ∀ c d : Config Op Res W α, M.Reaches c d →
      M.Reaches (c.1.bind f, c.2) (d.1.bind f, d.2) := by
    intro c d hcd
    induction hcd with
    | refl => exact .refl
    | tail _ hstep ih =>
      cases hstep with
      | act h => exact ih.tail (.act h)
      | env h => exact ih.tail (.env h)
  exact key _ _ h

section Methods

variable {σ τ E : Type} {m : Method Op Res σ E α} {s t : σ} {w w' w'' : W}

/-- A run of a sequence from the runs of its parts, where a value is passed on. -/
theorem Reaches.bind_ok {f : α → Method Op Res σ E β} {a : α}
    {c : Config Op Res W (Outcome E β × σ)} (h : M.Reaches (m s, w) (.pure (.ok a, t), w'))
    (hc : M.Reaches (f a t, w') c) : M.Reaches ((m >>= f) s, w) c :=
  (Reaches.bind h).trans hc

theorem Reaches.bind_err {f : α → Method Op Res σ E β} {e : E}
    (h : M.Reaches (m s, w) (.pure (.err e, t), w')) :
    M.Reaches ((m >>= f) s, w) (.pure (.err e, t), w') :=
  Reaches.bind h

theorem Reaches.unwinding_ok {cleanup : Method Op Res σ E Unit} {a : α}
    (h : M.Reaches (m s, w) (.pure (.ok a, t), w')) :
    M.Reaches (Method.unwinding cleanup m s, w) (.pure (.ok a, t), w') :=
  Reaches.bind h

theorem Reaches.unwinding_err {cleanup : Method Op Res σ E Unit} {e : E}
    {x : Outcome E Unit × σ} (h : M.Reaches (m s, w) (.pure (.err e, t), w'))
    (hcleanup : M.Reaches (cleanup t, w') (.pure x, w'')) :
    M.Reaches (Method.unwinding cleanup m s, w) (.pure (.err e, x.2), w'') :=
  (Reaches.bind h).trans (Reaches.bind hcleanup)

theorem Reaches.owning_ok {n : Method Op Res τ E Unit} {v v' : τ}
    (h : M.Reaches (n v, w) (.pure (.ok (), v'), w')) :
    M.Reaches (Method.owning v n s, w) (.pure (.ok v', s), w') :=
  Reaches.bind h

theorem Reaches.owning_err {n : Method Op Res τ E Unit} {v v' : τ} {e : E}
    (h : M.Reaches (n v, w) (.pure (.err e, v'), w')) :
    M.Reaches (Method.owning v n s, w) (.pure (.err e, s), w') :=
  Reaches.bind h

end Methods

/-- An error that is turned into a value. -/
theorem Reaches.attempt {σ E : Type} {m : Method Op Res σ E α} {s t : σ} {w w' : W}
    {x : Except E α} (h : M.Reaches (m s, w) (.pure (.ofExcept x, t), w')) :
    M.Reaches (m.attempt s, w) (.pure (.ok x, t), w') := by
  refine (Reaches.bind h).trans ?_
  cases x with
  | ok a => exact .refl
  | error e => exact .refl

end Machine

end Framework
