import Nvmetoy.Framework.Refine

/-!
# Operations that are only for the proof

A program may be given operations that only record something, so that an invariant can speak of it.
`Prog.erase` takes them out again, with the responses that they always have. A machine of which
`IgnoresGhosts` holds never looks at what they record: then each run of the erased program is what
is left of a run of the marked one (`IgnoresGhosts.reaches`), and what is proved of the marked
program holds of the program without marks. What is left of a run of the marked program is a run,
too (`Reaches.erase`).
-/

namespace Framework

variable {Op Op' : Type} {Res : Op → Type} {Res' : Op' → Type} {W σ τ E α β : Type}
  {g : (o : Op) → Option (Res o)}

namespace Prog

/-- The program without the operations that `g` answers. -/
def erase (g : (o : Op) → Option (Res o)) : Prog Op Res α → Prog Op Res α
  | pure a => pure a
  | op o k => match g o with
    | some r => (k r).erase g
    | none => op o fun r => (k r).erase g

/-- A ghost operation is skipped, with the response it is given. -/
theorem erase_ghost {o : Op} {r : Res o} (ho : g o = some r) (k : Res o → Prog Op Res α) :
    (op o k).erase g = (k r).erase g := by
  rw [erase, ho]

theorem erase_op {o : Op} (ho : g o = none) (k : Res o → Prog Op Res α) :
    (op o k).erase g = op o fun r => (k r).erase g := by
  rw [erase, ho]

/-- Sequences are erased half by half. -/
theorem erase_bind (p : Prog Op Res α) (f : α → Prog Op Res β) :
    (p.bind f).erase g = (p.erase g).bind fun a => (f a).erase g := by
  induction p with
  | pure a => rfl
  | op o k ih =>
    cases ho : g o with
    | some r => rw [op_bind, erase_ghost ho, erase_ghost ho, ih]
    | none =>
      rw [op_bind, erase_op ho, erase_op ho, op_bind]
      exact congrArg (op o) (funext ih)

/-- A program that has none of them. -/
theorem erase_of_sat {p : Prog Op Res α} {ψ : α → Prop}
    (h : p.Sat Prog.Any (fun o => g o = none) ψ) : p.erase g = p := by
  induction p with
  | pure a => rfl
  | op o k ih =>
    rw [erase_op h.1]
    exact congrArg (op o) (funext fun r => ih r (h.2 r trivial))

end Prog

namespace Method

/-- The method without them. -/
def erase (g : (o : Op) → Option (Res o)) (m : Method Op Res σ E α) : Method Op Res σ E α :=
  fun s => (m s).erase g

/-- The same of methods. -/
theorem erase_bind (m : Method Op Res σ E α) (f : α → Method Op Res σ E β) :
    (m >>= f).erase g = m.erase g >>= fun a => (f a).erase g := by
  funext s
  refine (Prog.erase_bind _ _).trans ?_
  refine congrArg (Prog.bind _) (funext ?_)
  rintro ⟨x, t⟩
  cases x <;> rfl

theorem erase_call_ghost {o : Op} {r : Res o} (ho : g o = some r)
    (f : Res o → Method Op Res σ E α) : (call o >>= f).erase g = (f r).erase g :=
  funext fun _ => Prog.erase_ghost ho _

theorem erase_of_sat {m : Method Op Res σ E α} {φ : Outcome E α × σ → Prop}
    (h : ∀ s, (m s).Sat Prog.Any (fun o => g o = none) φ) : m.erase g = m :=
  funext fun s => Prog.erase_of_sat (h s)

/-- Catching an error is kept. -/
theorem erase_attempt (m : Method Op Res σ E α) : m.attempt.erase g = (m.erase g).attempt := by
  funext s
  refine (Prog.erase_bind _ _).trans ?_
  refine congrArg (Prog.bind _) (funext ?_)
  rintro ⟨x, t⟩
  cases x <;> rfl

theorem erase_unwinding (cleanup : Method Op Res σ E Unit) (m : Method Op Res σ E α) :
    (unwinding cleanup m).erase g = unwinding (cleanup.erase g) (m.erase g) := by
  funext s
  refine (Prog.erase_bind _ _).trans ?_
  refine congrArg (Prog.bind _) (funext ?_)
  rintro ⟨x, t⟩
  cases x with
  | ok a => rfl
  | err e => exact Prog.erase_bind _ _
  | panic why => exact Prog.erase_bind _ _

theorem erase_owning (t : τ) (m : Method Op Res τ E Unit) :
    (owning t m : Method Op Res σ E τ).erase g = owning t (m.erase g) := by
  funext s
  refine (Prog.erase_bind _ _).trans ?_
  refine congrArg (Prog.bind _) (funext ?_)
  rintro ⟨x, t'⟩
  cases x <;> rfl

end Method

/-- **Interpretation**, handler by handler. -/
theorem Prog.erase_interp {g : (o : Op') → Option (Res' o)}
    {h h' : (o : Op) → Method Op' Res' σ E (Res o)} (hh : ∀ o, (h o).erase g = h' o)
    (p : Prog Op Res α) : (p.interp h).erase g = p.interp h' := by
  induction p with
  | pure a => rfl
  | op o k ih =>
    rw [interp, Method.erase_bind, hh o, interp]
    exact congrArg (h' o >>= ·) (funext ih)

namespace Machine

/-- The machine does not look at what the operations of `g` record: worlds that differ in it alone
(`R`) take the same steps, and where any step can be taken, so can these. -/
structure IgnoresGhosts (M : Machine Op Res W) (g : (o : Op) → Option (Res o)) (R : W → W → Prop) :
    Prop where
  act : ∀ o w u r w', R w u → g o = none → M.act o w r w' → ∃ u', M.act o u r u' ∧ R w' u'
  ghost : ∀ o r w u, R w u → g o = some r → (∃ o' r' w', M.act o' w r' w') →
    ∃ u', M.act o u r u' ∧ R w u'
  env : ∀ w u w', R w u → M.env w w' → ∃ u', M.env u u' ∧ R w' u'

variable {M : Machine Op Res W} {R : W → W → Prop}

/-- The recording operations up to the next other one are issued. -/
theorem IgnoresGhosts.next (h : M.IgnoresGhosts g R) {o : Op} {k : Res o → Prog Op Res α}
    {q : Prog Op Res α}
    {w u : W} (hq : q.erase g = .op o k) (hR : R w u) (hact : ∃ r w', M.act o w r w') :
    ∃ k' u', M.Reaches (q, u) (.op o k', u') ∧ R w u' ∧ g o = none ∧
      ∀ r, (k' r).erase g = k r := by
  -- by induction on the program, past the ghosts at its front
  induction q generalizing u with
  | pure a => cases hq
  | op o' k' ih =>
    cases ho : g o' with
    | none =>
      rw [Prog.erase_op ho] at hq
      cases hq
      exact ⟨k', u, .refl, hR, ho, fun _ => rfl⟩
    | some r =>
      rw [Prog.erase_ghost ho] at hq
      obtain ⟨r₁, w₁, h₁⟩ := hact
      obtain ⟨u', hstep, hR'⟩ := h.ghost o' r w u hR ho ⟨o, r₁, w₁, h₁⟩
      obtain ⟨k'', u'', hreach, hrest⟩ := ih r hq hR'
      exact ⟨k'', u'', Reaches.act hstep hreach, hrest⟩

/-- **Erasure.** A run of the erased program is what is left of a run of the program. -/
theorem IgnoresGhosts.reaches (h : M.IgnoresGhosts g R) {p : Prog Op Res α} {w u : W} (hR : R w u)
    {c : Config Op Res W α} (hc : M.Reaches (p.erase g, w) c) :
    ∃ q u', M.Reaches (p, u) (q, u') ∧ q.erase g = c.1 ∧ R c.2 u' := by
  induction hc with
  | refl => exact ⟨p, u, .refl, rfl, hR⟩
  | tail _ hstep ih =>
    obtain ⟨q, u', hreach, hq, hR'⟩ := ih
    cases hstep with
    | @act o k w₁ w₂ r hact =>
      -- the ghosts that stand before the operation are skipped first
      obtain ⟨k', u₁, hnext, hR₁, ho, hk⟩ := h.next hq hR' ⟨r, w₂, hact⟩
      obtain ⟨u₂, hact', hR₂⟩ := h.act o w₁ u₁ r w₂ hR₁ ho hact
      exact ⟨k' r, u₂, (hreach.trans hnext).tail (.act hact'), hk r, hR₂⟩
    | @env q' w₁ w₂ henv =>
      obtain ⟨u₂, henv', hR₂⟩ := h.env w₁ u' w₂ hR' henv
      exact ⟨q, u₂, hreach.tail (.env henv'), hq, hR₂⟩

/-- **And back.** What a run of the program is without its marks is a run of the erased program,
where the recording operations respond as they should and leave the world as it is to the others. -/
theorem Reaches.erase
    (hact : ∀ o w u r w', R w u → g o = none → M.act o w r w' → ∃ u', M.act o u r u' ∧ R w' u')
    (hghost : ∀ o r₀ w u r w', R w u → g o = some r₀ → M.act o w r w' → r = r₀ ∧ R w' u)
    (henv : ∀ w u w', R w u → M.env w w' → ∃ u', M.env u u' ∧ R w' u')
    {p : Prog Op Res α} {w u : W} (hR : R w u) {c : Config Op Res W α}
    (hc : M.Reaches (p, w) c) :
    ∃ u', M.Reaches (p.erase g, u) (c.1.erase g, u') ∧ R c.2 u' := by
  -- by induction on the run, whose last step is looked at
  induction hc with
  | refl => exact ⟨u, .refl, hR⟩
  | tail _ hstep ih =>
    obtain ⟨u', hreach, hR'⟩ := ih
    cases hstep with
    | @act o k w₁ w₂ r hdone =>
      cases ho : g o with
      | none =>
        obtain ⟨u₂, hdone', hR₂⟩ := hact o w₁ u' r w₂ hR' ho hdone
        refine ⟨u₂, hreach.trans ?_, hR₂⟩
        rw [Prog.erase_op ho]
        exact Reaches.act hdone' .refl
      | some r₀ =>
        -- a mark is not there without the marks, and the run waits
        obtain ⟨rfl, hR₂⟩ := hghost o r₀ w₁ u' r w₂ hR' ho hdone
        refine ⟨u', ?_, hR₂⟩
        rwa [Prog.erase_ghost ho] at hreach
    | env hdone =>
      obtain ⟨u₂, hdone', hR₂⟩ := henv _ u' _ hR' hdone
      exact ⟨u₂, hreach.tail (.env hdone'), hR₂⟩

/-- Where the erased program has ended, the recording operations that are left can be issued. -/
theorem IgnoresGhosts.finish (h : M.IgnoresGhosts g R) {a : α} {q : Prog Op Res α} {w u : W}
    (hq : q.erase g = .pure a) (hR : R w u) (hact : ∃ o r w', M.act o w r w') :
    ∃ u', M.Reaches (q, u) (.pure a, u') ∧ R w u' := by
  induction q generalizing u with
  | pure b =>
    cases hq
    exact ⟨u, .refl, hR⟩
  | op o k ih =>
    -- an operation that is left has been erased, so it is a ghost
    cases ho : g o with
    | none =>
      rw [Prog.erase_op ho] at hq
      cases hq
    | some r =>
      rw [Prog.erase_ghost ho] at hq
      obtain ⟨u', hstep, hR'⟩ := h.ghost o r w u hR ho hact
      obtain ⟨u'', hreach, hR''⟩ := ih r hq hR'
      exact ⟨u'', Reaches.act hstep hreach, hR''⟩

/-- **What is proved of the marked program** holds of the program, of worlds that differ in the
record alone; of its end it holds where the machine could still go on. -/
theorem IgnoresGhosts.triple (h : M.IgnoresGhosts g R) {I P : W → Prop} {p : Prog Op Res α}
    {Q : α → W → Prop} (hp : M.Triple I P p Q) :
    M.Triple (fun w => ∃ u, R w u ∧ I u) (fun w => ∃ u, R w u ∧ P u) (p.erase g) fun a w =>
      (∃ o r w', M.act o w r w') → ∃ u, R w u ∧ Q a u := by
  rintro w ⟨u, hR, hu⟩ c hc
  obtain ⟨q, u', hreach, hq, hR'⟩ := h.reaches hR hc
  refine ⟨⟨u', hR', (hp u hu _ hreach).1⟩, fun a ha hact => ?_⟩
  obtain ⟨u'', hend, hR''⟩ := h.finish (hq.trans ha) hR' hact
  exact ⟨u'', hR'', (hp u hu _ (hreach.trans hend)).2 a rfl⟩

end Machine

end Framework
