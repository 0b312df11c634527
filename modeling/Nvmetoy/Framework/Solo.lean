import Nvmetoy.Framework.Interleave

/-!
# Programs on a machine of their own

Where no one else acts on a machine, what a program does is found by recursion on the program, with
no assertion that has to be stable.

* `Prog.Along M J Q` — the weakest precondition: whatever the responses are, every operation is
  issued in a world where `J` allows it, and the program ends as `Q` says.
* `along_bind` and the rules for methods — how it composes.
* `Along.reaches` — it holds in every configuration of a run, of what is left of the program. So the
  operation that is issued next is allowed in the world as it is (`Along.allowed`).
-/

namespace Framework

open Machine

variable {Op : Type} {Res : Op → Type} {W α β : Type} {M : Machine Op Res W}
  {J J' : Op → W → Prop} {w w' : W}

/-- Every operation is issued where `J` allows it, and the program ends as `Q` says. -/
def Prog.Along (M : Machine Op Res W) (J : Op → W → Prop) (Q : α → W → Prop) :
    Prog Op Res α → W → Prop
  | .pure a, w => Q a w
  | .op o k, w => J o w ∧ ∀ r w', M.act o w r w' → (k r).Along M J Q w'

namespace Prog

variable {p q : Prog Op Res α} {f : α → Prog Op Res β} {Q Q' : α → W → Prop}
  {R : β → W → Prop}

/-- Both conditions may be weakened. -/
theorem Along.mono (h : p.Along M J Q w) (hJ : ∀ o w, J o w → J' o w)
    (hQ : ∀ a w, Q a w → Q' a w) : p.Along M J' Q' w := by
  induction p generalizing w with
  | pure a => exact hQ a w h
  | op o k ih => exact ⟨hJ o w h.1, fun r w' hact => ih r (h.2 r w' hact)⟩

theorem Along.post (h : p.Along M J Q w) (hQ : ∀ a w, Q a w → Q' a w) : p.Along M J Q' w :=
  h.mono (fun _ _ => id) hQ

/-- **Sequencing**, in both directions: there is one run at most. -/
theorem along_bind :
    (p.bind f).Along M J R w ↔ p.Along M J (fun a => (f a).Along M J R) w := by
  induction p generalizing w with
  | pure a => rfl
  | op o k ih =>
    -- the same operation is allowed on both sides; then by the hypothesis for its responses
    refine and_congr_right fun _ => forall_congr' fun r => forall_congr' fun w' => ?_
    exact imp_congr_right fun _ => ih r

/-- **Every configuration of a run**, by induction on the run. -/
theorem Along.reaches (hM : ∀ w w', ¬ M.env w w') (h : p.Along M J Q w)
    (hc : M.Reaches (p, w) (q, w')) : q.Along M J Q w' := by
  generalize hfirst : (p, w) = c at hc
  generalize hlast : (q, w') = c' at hc
  induction hc generalizing q w' with
  | refl =>
    obtain ⟨rfl, rfl⟩ := Prod.mk.inj (hfirst.trans hlast.symm)
    exact h
  | tail hrun hstep ih =>
    -- the machine takes no step of its own
    cases hstep with
    | act hact =>
      obtain ⟨rfl, rfl⟩ := Prod.mk.inj hlast
      exact (ih rfl).2 _ _ hact
    | env henv => exact absurd henv (hM _ _)

end Prog

/-! ### Methods -/

section Methods

variable {σ E : Type} {s : σ} {Q : Outcome E β × σ → W → Prop}

/-- **Sequencing.** An error or a panic of the first half ends the whole. -/
theorem Prog.Along.method_bind {m : Method Op Res σ E α} {f : α → Method Op Res σ E β}
    {R : Outcome E α × σ → W → Prop} (hm : (m s).Along M J R w)
    (hf : ∀ a t w', R (.ok a, t) w' → (f a t).Along M J Q w')
    (herr : ∀ e t w', R (.err e, t) w' → Q (.err e, t) w')
    (hpanic : ∀ why t w', R (.panic why, t) w' → Q (.panic why, t) w') :
    ((m >>= f) s).Along M J Q w := by
  refine along_bind.mpr (hm.post ?_)
  rintro ⟨x, t⟩ w' hx
  cases x with
  | ok a => exact hf a t w' hx
  | err e => exact herr e t w' hx
  | panic why => exact hpanic why t w' hx

/-- An error that is turned into a value. -/
theorem Prog.Along.attempt {m : Method Op Res σ E β}
    {Q' : Outcome E (Except E β) × σ → W → Prop}
    (h : (m s).Along M J (fun x => Q' (attempted x)) w) : (m.attempt s).Along M J Q' w := by
  rw [attempt_eq]
  exact along_bind.mpr h

end Methods

end Framework
