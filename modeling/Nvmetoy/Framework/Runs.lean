import Mathlib.Data.List.Basic

/-!
# Runs of a machine whose moves are events

`step e c` is the configuration that event `e` leads to from `c`, or nothing where the event
cannot happen there. A run is a list of events.

* `run` — the configuration a run ends in.
* `moves` — the moves a run makes: its events, each with the configuration it happened in.
* `Avoided Bad moves` — none of these moves is a bad one.
* `run_history` — the rule of invariants: an invariant may speak of the moves made so far.
-/

namespace Framework

namespace Runs

section History

variable {E C : Type} {Bad : E → C → Prop} {history : List (E × C)} {e : E} {c : C}

/-- None of the moves is a bad one. -/
def Avoided (Bad : E → C → Prop) (history : List (E × C)) : Prop :=
  ∀ move ∈ history, ¬ Bad move.1 move.2

instance [∀ e c, Decidable (Bad e c)] : Decidable (Avoided Bad history) :=
  inferInstanceAs (Decidable (∀ move ∈ history, ¬ Bad move.1 move.2))

@[simp] theorem avoided_nil : Avoided Bad [] := fun _ h => absurd h List.not_mem_nil

/-- One step more avoids what it does not do. -/
@[simp] theorem avoided_concat :
    Avoided Bad (history ++ [(e, c)]) ↔ Avoided Bad history ∧ ¬ Bad e c := by
  simp [Avoided, or_imp, forall_and]

end History

variable {E C : Type} (step : E → C → Option C)

/-- The configuration after the events, in order. -/
def run : List E → C → Option C
  | [], c => some c
  | e :: es, c => (step e c).bind (run es)

/-- The moves of a run. -/
def moves : List E → C → List (E × C)
  | [], _ => []
  | e :: es, c => (e, c) :: (step e c).elim [] (moves es)

variable {step} {es : List E} {c c' : C}

/-- A run begins with its first step. -/
theorem run_cons {e : E} (h : run step (e :: es) c = some c') :
    ∃ next, step e c = some next ∧ run step es next = some c' :=
  Option.bind_eq_some_iff.mp h

theorem moves_cons {e : E} {next : C} (h : step e c = some next) :
    moves step (e :: es) c = (e, c) :: moves step es next := by
  rw [moves, h]
  rfl

/-- **What every move keeps, a run keeps.** The invariant may depend on the moves made. -/
theorem run_history {Inv : List (E × C) → C → Prop}
    (hstep : ∀ history e c c', Inv history c → step e c = some c' → Inv (history ++ [(e, c)]) c')
    {history : List (E × C)} (h : Inv history c) (hrun : run step es c = some c') :
    Inv (history ++ moves step es c) c' := by
  induction es generalizing history c with
  | nil =>
    obtain rfl := Option.some.inj hrun
    rw [moves, List.append_nil]
    exact h
  | cons e es ih =>
    -- the first event is part of the history of the rest
    obtain ⟨next, hnext, hrest⟩ := run_cons hrun
    have hlast := ih (hstep history e c next h hnext) hrest
    rw [moves_cons hnext]
    rwa [List.append_assoc, List.singleton_append] at hlast

end Runs

end Framework
