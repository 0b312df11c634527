import Nvmetoy.Framework.Interleave

/-!
# Programs of one interface, on the machine of another

A program over `Op` runs on a machine for `Op'` when methods of `Op'` answer its operations
(`Prog.interp`). This file is about what such a run keeps, and about what it is a run of.

* `Triple.interp` — an assertion that every handler keeps is kept by the whole.
* `Handles` — the handlers do on the machine `M` what the operations do on the machine `A`,
  which may be much smaller. `Handles.refines` is the result: whatever the handlers are doing
  inside, every configuration of the program on `M` is explained by one that it reaches on `A`,
  and when it has ended on `M` it has ended on `A`, with the same value.
* `Machine.observed` — a machine that keeps a record of what its operations show. A program
  that shows nothing is none the wiser (`Triple.observed`).
* `Triple.exchange` — a machine may be exchanged for one that does the same in the course of the
  program: for all operations that it issues but the first, for example (`Triple.leads`).
-/

namespace Framework

/-! ### The first operation -/

section Leads

variable {Op : Type} {Res : Op → Type} {σ E α β : Type} {φ : Op → Prop}

/-- Only the first operation can be one of `φ`. -/
def Prog.Leads (φ : Op → Prop) : Prog Op Res α → Prop
  | .pure _ => True
  | .op _ k => ∀ r, (k r).Sat Prog.Any (fun o => ¬ φ o) fun _ => True

/-- A program without such an operation leads up to nothing. -/
theorem Prog.Leads.of_sat {p : Prog Op Res α} (h : p.Sat Prog.Any (fun o => ¬ φ o) fun _ => True) :
    p.Leads φ := by
  cases p with
  | pure a => trivial
  | op o k => exact fun r => h.2 r trivial

/-- What follows has none of them. -/
theorem Prog.Leads.bind {p : Prog Op Res α} {f : α → Prog Op Res β} (hp : p.Leads φ)
    (hf : ∀ a, (f a).Sat Prog.Any (fun o => ¬ φ o) fun _ => True) : (p.bind f).Leads φ := by
  cases p with
  | pure a => exact .of_sat (hf a)
  | op o k => exact fun r => Prog.sat_bind.mpr ((hp r).post fun a _ => hf a)

/-- What follows a method that leads. -/
theorem Method.leads_bind {m : Method Op Res σ E α} {f : α → Method Op Res σ E β} {s : σ}
    (hm : (m s).Leads φ) (hf : ∀ a, Only (fun o => ¬ φ o) (f a)) : ((m >>= f) s).Leads φ := by
  refine hm.bind ?_
  rintro ⟨x, t⟩
  cases x with
  | ok a => exact hf a t True.intro
  | err e => trivial
  | panic why => trivial

end Leads

/-- The operation that a program issues next. -/
def Prog.next {Op : Type} {Res : Op → Type} {α : Type} : Prog Op Res α → Option Op
  | .pure _ => none
  | .op o _ => some o

/-! ### Methods that meet their errors -/

section Recovers

variable {Op Op' : Type} {Res : Op → Type} {Res' : Op' → Type} {σ E α β : Type}

/-- The method ends in no error, though it may panic. -/
def Method.Recovers (m : Method Op Res σ E α) : Prop :=
  ∀ s, (m s).Sat Prog.Any (fun _ => True) fun x => ∀ e, x.1 ≠ .err e

theorem Method.recovers_pure (a : α) : Method.Recovers (pure a : Method Op Res σ E α) := by
  intro s e h
  cases h

theorem Method.recovers_call (o : Op) : Method.Recovers (call o : Method Op Res σ E _) := by
  intro s
  refine ⟨True.intro, fun r _ e h => ?_⟩
  cases h

theorem Method.Recovers.bind {m : Method Op Res σ E α} {f : α → Method Op Res σ E β}
    (hm : Recovers m) (hf : ∀ a, Recovers (f a)) : Recovers (m >>= f) := by
  intro s
  refine sat_bind (hm s) (fun a t _ => hf a t) (fun e t h => absurd rfl (h e)) ?_
  intro why t _ e h
  cases h

/-- What is caught has been recovered. -/
theorem Method.recovers_attempt (m : Method Op Res σ E α) : Recovers m.attempt := by
  intro s
  refine Prog.sat_bind.mpr ((Prog.sat_true (m s)).post ?_)
  rintro ⟨x, t⟩ -
  cases x with
  | ok a => intro e h; cases h
  | err error => intro e h; cases h
  | panic why => intro e h; cases h

/-- Handlers that meet their errors let none of them through. -/
theorem Prog.interp_recovers {h : (o : Op) → Method Op' Res' σ E (Res o)}
    (hh : ∀ o, (h o).Recovers) (p : Prog Op Res α) : (p.interp h).Recovers := by
  induction p with
  | pure a => exact Method.recovers_pure a
  | op o k ih => exact (hh o).bind ih

end Recovers

namespace Machine

variable {Op Op' : Type} {Res : Op → Type} {Res' : Op' → Type} {W V X σ E α : Type}

/-! ### What a run can return -/

/-- A program that has ended has returned a value that it can return. -/
theorem Reaches.returns {M : Machine Op Res W} {p q : Prog Op Res α} {w w' : W}
    (h : M.Reaches (p, w) (q, w')) {a : α} (ha : q.Returns Prog.Any a) :
    p.Returns Prog.Any a := by
  have key : ∀ c d : Config Op Res W α, M.Reaches c d → d.1.Returns Prog.Any a →
      c.1.Returns Prog.Any a := by
    -- a step of the program keeps what it can end with, and so does one of the machine
    intro c d hcd hd
    induction hcd with
    | refl => exact hd
    | tail _ hstep ih =>
      cases hstep with
      | act _ => exact ih ⟨_, trivial, hd⟩
      | env _ => exact ih hd
  exact key _ _ h ha

/-- What is known of a program is known of what is left of it, on a machine that responds as was
assumed. -/
theorem Reaches.sat {M : Machine Op Res W} {p q : Prog Op Res α} {w w' : W}
    {R : (o : Op) → Res o → Prop} {φ : Op → Prop} {ψ : α → Prop} (h : M.Reaches (p, w) (q, w'))
    (hR : ∀ o v r v', M.act o v r v' → R o r) (hp : p.Sat R φ ψ) : q.Sat R φ ψ := by
  have key : ∀ c d : Config Op Res W α, M.Reaches c d → c.1.Sat R φ ψ → d.1.Sat R φ ψ := by
    intro c d hcd hc
    induction hcd with
    | refl => exact hc
    | tail _ hstep ih =>
      cases hstep with
      | act hact => exact ih.2 _ (hR _ _ _ _ hact)
      | env _ => exact ih
  exact key _ _ h hp

/-- What is known of the values of a program is known of them on every machine. -/
theorem Triple.returns {M : Machine Op Res W} {I P : W → Prop} {p : Prog Op Res α}
    {Q : α → W → Prop} {φ : Op → Prop} {ψ : α → Prop} (h : M.Triple I P p Q)
    (hp : p.Sat Prog.Any φ ψ) : M.Triple I P p fun a w => ψ a ∧ Q a w := by
  intro w hw c hc
  refine ⟨(h w hw c hc).1, fun a ha => ⟨?_, (h w hw c hc).2 a ha⟩⟩
  have hreturns : c.1.Returns Prog.Any a := by
    rw [ha]
    rfl
  exact hp.returns (Reaches.returns hc hreturns)

/-- Two accounts of the same runs. -/
theorem Triple.and {M : Machine Op Res W} {I I' P P' : W → Prop} {p : Prog Op Res α}
    {Q Q' : α → W → Prop} (h : M.Triple I P p Q) (h' : M.Triple I' P' p Q') :
    M.Triple (fun w => I w ∧ I' w) (fun w => P w ∧ P' w) p fun a w => Q a w ∧ Q' a w := by
  intro w hw c hc
  have hrun := h w hw.1 c hc
  have hrun' := h' w hw.2 c hc
  exact ⟨⟨hrun.1, hrun'.1⟩, fun a ha => ⟨hrun.2 a ha, hrun'.2 a ha⟩⟩

/-- What holds in the course of a run holds at its end. -/
theorem Triple.keep {M : Machine Op Res W} {I P : W → Prop} {p : Prog Op Res α}
    {Q : α → W → Prop} (h : M.Triple I P p Q) : M.Triple I P p fun a w => I w ∧ Q a w :=
  fun w hw c hc => ⟨(h w hw c hc).1, fun a ha => ⟨(h w hw c hc).1, (h w hw c hc).2 a ha⟩⟩

/-- **Exchange.** `S` says of the configurations of the other machine that a step from there is a
step of this one, and it is kept. -/
theorem Triple.exchange {M M' : Machine Op Res W} {I P : W → Prop} {p : Prog Op Res α}
    {Q : α → W → Prop} {S : Prog Op Res α → W → Prop} (h : M.Triple I P p Q)
    (hstart : ∀ w, P w → S p w)
    (hact : ∀ o k w r w', S (.op o k) w → M'.act o w r w' → M.act o w r w' ∧ S (k r) w')
    (henv : ∀ q w w', S q w → M'.env w w' → M.env w w' ∧ S q w') : M'.Triple I P p Q := by
  -- a run of the one machine is a run of the other, as long as `S` holds
  have key : ∀ c d : Config Op Res W α, M'.Reaches c d → S c.1 c.2 →
      M.Reaches c d ∧ S d.1 d.2 := by
    intro c d hcd hc
    induction hcd with
    | refl => exact ⟨.refl, hc⟩
    | tail _ hstep ih =>
      obtain ⟨hreach, hS⟩ := ih
      cases hstep with
      | act hdone =>
        obtain ⟨hthis, hnext⟩ := hact _ _ _ _ _ hS hdone
        exact ⟨hreach.tail (.act hthis), hnext⟩
      | env hdone =>
        obtain ⟨hthis, hnext⟩ := henv _ _ _ hS hdone
        exact ⟨hreach.tail (.env hthis), hnext⟩
  exact fun w hw c hc => h w hw c (key _ _ hc (hstart w hw)).1

/-- A step of the other machine is one of this machine for all operations but the first, and for
the first one because of what holds at the start. -/
theorem Triple.leads {M M' : Machine Op Res W} {I P : W → Prop} {p : Prog Op Res α}
    {Q : α → W → Prop} {φ : Op → Prop} (h : M.Triple I P p Q) (hp : p.Leads φ)
    (hP : M'.Stable P) (hfirst : ∀ o w r w', P w → M'.act o w r w' → M.act o w r w')
    (hrest : ∀ o w r w', ¬ φ o → M'.act o w r w' → M.act o w r w')
    (henv : ∀ w w', M'.env w w' → M.env w w') : M'.Triple I P p Q := by
  -- nothing has been done yet, or the operation in question is behind
  refine h.exchange (S := fun q w => (q = p ∧ P w) ∨
    q.Sat Prog.Any (fun o => ¬ φ o) fun _ => True) (fun w hw => .inl ⟨rfl, hw⟩) ?_ ?_
  · rintro o k w r w' (⟨rfl, hw⟩ | hsat) hdone
    · exact ⟨hfirst o w r w' hw hdone, .inr (hp r)⟩
    · exact ⟨hrest o w r w' hsat.1 hdone, .inr (hsat.2 r trivial)⟩
  · rintro q w w' (⟨rfl, hw⟩ | hsat) hdone
    · exact ⟨henv w w' hdone, .inl ⟨rfl, hP w w' hw hdone⟩⟩
    · exact ⟨henv w w' hdone, .inr hsat⟩

/-! ### Invariants of the handlers -/

/-- **Interpretation.** The handlers keep `J`, and answer what `R` allows; where one of them
fails, the whole ends as it did. -/
theorem Triple.interp {M : Machine Op' Res' W} {h : (o : Op) → Method Op' Res' σ E (Res o)}
    {R : (o : Op) → Res o → Prop} {φ : Op → Prop} {ψ : α → Prop} {I : W → Prop}
    {J : σ → W → Prop} {Q : Outcome E α × σ → W → Prop} {p : Prog Op Res α} {s : σ}
    (hp : p.Sat R φ ψ) (hJ : ∀ t, M.Stable (J t)) (hI : ∀ t w, J t w → I w)
    (hh : ∀ o t, φ o → M.Triple I (J t) (h o t) fun x w => match x with
      | (.ok r, t') => R o r ∧ J t' w
      | (.err e, t') => Q (.err e, t') w
      | (.panic why, t') => Q (.panic why, t') w)
    (hend : ∀ a t w, ψ a → J t w → Q (.ok a, t) w) :
    M.Triple I (J s) (p.interp h s) Q := by
  induction p generalizing s with
  | pure a => exact Triple.ret (hJ s) (hI s) fun w hw => hend a s w hp hw
  | op o k ih =>
    -- the handler answers the operation, and the rest goes on with the answer
    refine Triple.method_bind (hh o s hp.1) (fun r t => ?_) (fun _ _ _ => id) fun _ _ _ => id
    exact Triple.of_pure fun hr => ih r (hp.2 r hr)

/-! ### Refinement -/

/-- The handlers simulate the operations `φ` of the machine `A`. Between two operations the
states correspond (`Rel`); while a handler runs, the world is explained (`J`) by the state that the
operation starts from and the operation, or by a state that it leads to, whatever is issued next.
A handler that does not answer has no counterpart on `A`. -/
structure Handles (M : Machine Op' Res' W) (A : Machine Op Res V)
    (h : (o : Op) → Method Op' Res' σ E (Res o)) (φ : Op → Prop) (J : Option Op → V → W → Prop)
    (Rel : σ → V → W → Prop) : Prop where
  stable : ∀ s v, M.Stable (Rel s v)
  explains : ∀ s v w, Rel s v w → ∀ next, J next v w
  handler : ∀ o s v, φ o →
    M.Triple (fun w => J (some o) v w ∨ ∃ r v', A.act o v r v' ∧ ∀ next, J next v' w) (Rel s v)
      (h o s) fun x w => ∀ r, x.1 = .ok r → ∃ v', A.act o v r v' ∧ Rel x.2 v' w

section Refinement

variable {M : Machine Op' Res' W} {A : Machine Op Res V}
  {h : (o : Op) → Method Op' Res' σ E (Res o)} {R : (o : Op) → Res o → Prop} {φ : Op → Prop}
  {ψ : α → Prop} {J : Option Op → V → W → Prop} {Rel : σ → V → W → Prop} {p : Prog Op Res α}
  {s : σ} {v : V}

/-- What `p`, started in `v`, reaches on `A`, explains the world. -/
def Explains (A : Machine Op Res V) (J : Option Op → V → W → Prop) (p : Prog Op Res α) (v : V)
    (w : W) : Prop :=
  ∃ q v', A.Reaches (p, v) (q, v') ∧ J q.next v' w

/-- The rest of a program, from a configuration that the whole has reached. -/
theorem Handles.rest {p₀ : Prog Op Res α} {v₀ : V} (hh : Handles M A h φ J Rel)
    (hp : p.Sat R φ ψ) (hR : ∀ o v r v', A.act o v r v' → R o r)
    (hreach : A.Reaches (p₀, v₀) (p, v)) :
    M.Triple (Explains A J p₀ v₀) (Rel s v) (p.interp h s) fun x w =>
      ∀ a, x.1 = .ok a → ∃ v', A.Reaches (p₀, v₀) (.pure a, v') ∧ Rel x.2 v' w := by
  -- by induction on the program that is left
  induction p generalizing s v with
  | pure a =>
    refine Triple.ret (hh.stable s v) (fun w hw => ⟨_, v, hreach, hh.explains s v w hw _⟩) ?_
    intro w hw b hb
    obtain rfl := Outcome.ok.inj hb
    exact ⟨v, hreach, hw⟩
  | op o k ih =>
    -- the handler is explained by the operation, which has been taken or not
    have hhandler : M.Triple (Explains A J p₀ v₀) (Rel s v) (h o s) _ :=
        (hh.handler o s v hp.1).invariant <| by
      rintro w (hw | ⟨r, v', hact, hw⟩)
      · exact ⟨_, v, hreach, hw⟩
      · exact ⟨_, v', hreach.tail (.act hact), hw _⟩
    refine Triple.method_bind hhandler (fun r t => ?_) (fun e t w _ a ha => by cases ha)
      fun why t w _ a ha => by cases ha
    refine Triple.pre (Triple.of_forall fun v' => Triple.of_pure fun hact => ?_)
      fun w hw => hw r rfl
    exact ih r (hp.2 r (hR o v r v' hact)) (hreach.tail (.act hact))

/-- **Refinement.** Every configuration of the interpreted program is explained by one that the
program reaches on `A`; when it has ended with a value, the program has ended there with the
same value, in a state that corresponds. -/
theorem Handles.refines (hh : Handles M A h φ J Rel) (hp : p.Sat R φ ψ)
    (hR : ∀ o v r v', A.act o v r v' → R o r) :
    M.Triple (Explains A J p v) (Rel s v) (p.interp h s) fun x w =>
      ∀ a, x.1 = .ok a → ∃ v', A.Reaches (p, v) (.pure a, v') ∧ Rel x.2 v' w :=
  hh.rest hp hR .refl

end Refinement

/-! ### What is shown -/

/-- The machine, with a record of what its operations show. -/
def observed (M : Machine Op Res W) (shows : Op → Option X) : Machine Op Res (W × List X) where
  act := fun o w r w' => M.act o w.1 r w'.1 ∧ w'.2 = w.2 ++ (shows o).toList
  env := fun w w' => M.env w.1 w'.1 ∧ w'.2 = w.2

section Observed

variable {M : Machine Op Res W} {shows : Op → Option X} {I P : W → Prop} {p : Prog Op Res α}
  {Q : α → W → Prop}

/-- What is stable does not depend on what is observed. -/
theorem observed_stable {P : W × List X → Prop} (h : ∀ log, M.Stable fun w => P (w, log)) :
    (M.observed shows).Stable P := by
  rintro ⟨w, log⟩ ⟨w', log'⟩ hw ⟨henv, hlog⟩
  obtain rfl : log' = log := hlog
  exact h log' w w' hw henv

/-- The record is not looked at. -/
theorem Reaches.unobserved {c d : Config Op Res (W × List X) α}
    (h : (M.observed shows).Reaches c d) : M.Reaches (c.1, c.2.1) (d.1, d.2.1) := by
  induction h with
  | refl => exact .refl
  | tail _ hstep ih =>
    cases hstep with
    | act hdone => exact ih.tail (.act hdone.1)
    | env hdone => exact ih.tail (.env hdone.1)

/-- Every run has its record. -/
theorem Reaches.observed (shows : Op → Option X) {c d : Config Op Res W α} (h : M.Reaches c d)
    (log : List X) :
    ∃ log', (M.observed shows).Reaches (c.1, (c.2, log)) (d.1, (d.2, log')) := by
  induction h with
  | refl => exact ⟨log, .refl⟩
  | tail _ hstep ih =>
    obtain ⟨log', hreach⟩ := ih
    cases hstep with
    | act hdone => exact ⟨_, hreach.tail (.act ⟨hdone, rfl⟩)⟩
    | env hdone => exact ⟨log', hreach.tail (.env ⟨hdone, rfl⟩)⟩

/-- **A program that shows nothing** does on the observed machine what it does without. -/
theorem Triple.observed {ψ : α → Prop} (h : M.Triple I P p Q)
    (hp : p.Sat Prog.Any (fun o => shows o = none) ψ) (log : List X) :
    (M.observed shows).Triple (fun w => I w.1 ∧ w.2 = log) (fun w => P w.1 ∧ w.2 = log) p
      fun a w => Q a w.1 ∧ w.2 = log := by
  -- no operation of the program shows anything, so the log stays as it is
  have key : ∀ c d : Config Op Res (W × List X) α, (M.observed shows).Reaches c d →
      c.1.Sat Prog.Any (fun o => shows o = none) ψ →
      d.1.Sat Prog.Any (fun o => shows o = none) ψ ∧ d.2.2 = c.2.2 := by
    intro c d hcd hc
    induction hcd with
    | refl => exact ⟨hc, rfl⟩
    | tail _ hstep ih =>
      obtain ⟨hsat, hlog⟩ := ih
      cases hstep with
      | act hdone =>
        refine ⟨hsat.2 _ trivial, ?_⟩
        rw [hdone.2, hsat.1]
        simpa using hlog
      | env hdone => exact ⟨hsat, hdone.2.trans hlog⟩
  rintro ⟨w, log'⟩ ⟨hw, rfl⟩ c hc
  have hrun := h w hw _ hc.unobserved
  have hlog := (key _ _ hc hp).2
  exact ⟨⟨hrun.1, hlog⟩, fun a ha => ⟨hrun.2 a ha, hlog⟩⟩

end Observed

end Machine

end Framework
