import Nvmetoy.Framework.Interleave

/-!
# Operations that the world must allow

Some operations may be issued in some worlds alone: a file is read while it is open, a mapping is
touched while it is mapped. `Machine.guarded` is the machine with such a rule `φ`, where an
operation that breaks it leaves no world behind. A program that always leaves one has kept the rule
(`guarded_keeps`), so that the rules for triples prove it.

* `Held` — an assertion on the guarded machine: the rule has been kept, and the world satisfies it.
* `held_act`, `held_sat` — what one operation keeps, and what a method does whose operations are
  all allowed.
-/

namespace Framework

namespace Machine

variable {Op Op' : Type} {Res : Op → Type} {Res' : Op' → Type} {W σ E α : Type}

/-- The machine, with a rule for its operations. -/
def guarded (M : Machine Op Res W) (φ : Op → W → Prop) : Machine Op Res (Option W) where
  act := fun o u r u' => ∃ w w', u = some w ∧ M.act o w r w' ∧
    (φ o w ∧ u' = some w' ∨ ¬ φ o w ∧ u' = none)
  env := fun u u' => ∃ w w', u = some w ∧ u' = some w' ∧ M.env w w'

/-- The rule has been kept. -/
def Held (P : W → Prop) (u : Option W) : Prop := ∃ w, u = some w ∧ P w

variable {M : Machine Op Res W} {φ : Op → W → Prop} {I P : W → Prop} {p : Prog Op Res α}
  {Q : α → W → Prop}

theorem Held.mono {P' : W → Prop} {u : Option W} (h : Held P u) (hP : ∀ w, P w → P' w) :
    Held P' u := by
  obtain ⟨w, hu, hw⟩ := h
  exact ⟨w, hu, hP w hw⟩

/-- A guard does not get in the way of what is stable. -/
theorem held_stable (hP : M.Stable P) : (M.guarded φ).Stable (Held P) := by
  rintro u u' ⟨w, rfl, hw⟩ ⟨w₁, w', h₁, rfl, henv⟩
  obtain rfl := Option.some.inj h₁
  exact ⟨w', rfl, hP w w' hw henv⟩

/-- An operation that is allowed. -/
theorem held_act {o : Op} {R : Res o → W → Prop} (ho : ∀ w, P w → φ o w)
    (hact : ∀ w r w', P w → M.act o w r w' → R r w') :
    ∀ u r u', Held P u → (M.guarded φ).act o u r u' → Held (R r) u' := by
  rintro u r u' ⟨w, rfl, hw⟩ ⟨w₁, w', h₁, hdone, hu'⟩
  obtain rfl := Option.some.inj h₁
  rcases hu' with ⟨-, rfl⟩ | ⟨hbroken, -⟩
  · exact ⟨w', rfl, hact w r w' hw hdone⟩
  · exact absurd (ho w hw) hbroken

/-- A method whose operations are all allowed where `P` holds, and keep it. -/
theorem held_sat {ω : Op → Prop} {ψ : α → Prop} (hp : p.Sat Prog.Any ω ψ) (hP : M.Stable P)
    (ho : ∀ o w, ω o → P w → φ o w)
    (hact : ∀ o w r w', ω o → P w → M.act o w r w' → P w') :
    (M.guarded φ).Triple (Held fun _ => True) (Held P) p fun a u => ψ a ∧ Held P u :=
  Triple.of_sat hp (held_stable hP) (fun _ hu => hu.mono fun _ _ => trivial)
    (fun _ _ _ _ _ _ => trivial) fun o u r u' hω hu hdone =>
      held_act (R := fun _ => P) (fun w => ho o w hω) (fun w r w' => hact o w r w' hω) u r u' hu
        hdone

/-- **The rule is kept**, by induction on the run: as long as it is, the guarded machine is in the
same world. -/
theorem guarded_keeps
    (h : (M.guarded φ).Triple (Held I) (Held P) p fun a => Held (Q a)) {w : W} (hw : P w)
    {c : Config Op Res W α} (hc : M.Reaches (p, w) c) :
    I c.2 ∧ (∀ a, c.1 = .pure a → Q a c.2) ∧
      ∀ o k r w', c.1 = .op o k → M.act o c.2 r w' → φ o c.2 := by
  -- while the guarded run has a world, the triple speaks about it
  have hsafe (c : Config Op Res W α) (hrun : (M.guarded φ).Reaches (p, some w) (c.1, some c.2)) :
      I c.2 ∧ ∀ a, c.1 = .pure a → Q a c.2 := by
    obtain ⟨⟨w', hw', hI⟩, hend⟩ := h (some w) ⟨w, rfl, hw⟩ _ hrun
    obtain rfl := Option.some.inj hw'
    refine ⟨hI, fun a ha => ?_⟩
    obtain ⟨w', hw', hQ⟩ := hend a ha
    obtain rfl := Option.some.inj hw'
    exact hQ
  -- an operation that breaks the rule would leave no world
  have hallowed (o : Op) (k : Res o → Prog Op Res α) (r : Res o) (w₁ w₂ : W)
      (hrun : (M.guarded φ).Reaches (p, some w) (.op o k, some w₁)) (hdone : M.act o w₁ r w₂) :
      φ o w₁ := by
    refine Classical.byContradiction fun hbroken => ?_
    have hstep : (M.guarded φ).Reaches (p, some w) (k r, none) :=
      hrun.tail (.act ⟨w₁, w₂, rfl, hdone, .inr ⟨hbroken, rfl⟩⟩)
    obtain ⟨⟨w', hw', -⟩, -⟩ := h (some w) ⟨w, rfl, hw⟩ _ hstep
    cases hw'
  -- so the run without guards is a guarded one
  have hlift : (M.guarded φ).Reaches (p, some w) (c.1, some c.2) := by
    induction hc with
    | refl => exact .refl
    | tail _ hstep ih =>
      cases hstep with
      | act hdone =>
        have hφ := hallowed _ _ _ _ _ ih hdone
        exact ih.tail (.act ⟨_, _, rfl, hdone, .inl ⟨hφ, rfl⟩⟩)
      | env hdone => exact ih.tail (.env ⟨_, _, rfl, rfl, hdone⟩)
  obtain ⟨hI, hend⟩ := hsafe c hlift
  refine ⟨hI, hend, fun o k r w' ho hdone => ?_⟩
  rw [ho] at hlift
  exact hallowed o k r _ w' hlift hdone

end Machine

/-- The handlers' own rule is that of the whole. -/
theorem Prog.interp_stays {Op Op' : Type} {Res : Op → Type} {Res' : Op' → Type} {σ E α : Type}
    {I : σ → Prop} {φ : Op' → Prop} {h : (o : Op) → Method Op' Res' σ E (Res o)}
    (hh : ∀ o, Method.Stays I φ (h o)) (p : Prog Op Res α) :
    Method.Stays I φ (p.interp h) := by
  induction p with
  | pure a => exact .pure a
  | op o k ih => exact (hh o).bind ih

end Framework
