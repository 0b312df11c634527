import Mathlib.Data.List.Basic
import Mathlib.Data.Nat.ModEq

/-!
# Phase-tagged rings

A ring of `n` slots that a producer fills in order, wrapping, and a consumer reads in
order, wrapping, with no shared counter: every entry carries a one-bit tag, the
producer flips the tag it writes on each wrap (starting with `true` over a ring whose
tags are `false`), and the consumer takes the entry in its slot to be new exactly when
its tag is the one of the lap the consumer is on.

The abstract side is a FIFO: the list `posted` of everything produced, and a count `c`
of how many of them the consumer has taken. `Holds` relates it to the slots, and
`Holds.fresh_iff` is the whole point: as long as the producer stays within `n` of the
consumer, the tag test answers `c < posted.length`, and the slot then holds exactly
`posted[c]`.
-/

namespace Framework

namespace PhaseRing

/-- The tag of the `k`-th entry of a ring of `n` slots. -/
def phaseOf (n k : Nat) : Bool := k / n % 2 == 0

variable {α : Type} {n : Nat} {tag : α → Bool}

/-- The first lap has the phase that is not zero. -/
@[simp] theorem phaseOf_zero : phaseOf n 0 = true := by simp [phaseOf]

private theorem succ_parity (q : Nat) : ((q + 1) % 2 == 0) = !(q % 2 == 0) := by
  rcases Nat.mod_two_eq_zero_or_one q with h | h <;> simp [Nat.add_mod, h]

/-- One lap later the tag is flipped. -/
theorem phaseOf_add (hn : 0 < n) (k : Nat) : phaseOf n (k + n) = !phaseOf n k := by
  unfold phaseOf
  rw [Nat.add_div_right k hn, succ_parity]

/-- A counter modulo the ring size advances with its count. -/
theorem succ_mod (c : Nat) : (c % n + 1) % n = (c + 1) % n := by
  rw [Nat.add_mod, Nat.mod_mod, ← Nat.add_mod]

/-- The tag expected next flips exactly when the index wraps to zero. -/
theorem phaseOf_succ (c : Nat) :
    phaseOf n (c + 1) = if (c + 1) % n = 0 then !phaseOf n c else phaseOf n c := by
  unfold phaseOf
  rw [Nat.succ_div]
  by_cases h : n ∣ c + 1
  · rw [if_pos h, if_pos (Nat.mod_eq_zero_of_dvd h), succ_parity]
  · rw [if_neg h, if_neg fun h0 => h (Nat.dvd_of_mod_eq_zero h0), Nat.add_zero]

/-- The slots of a ring of `n` hold the last `n` entries of `posted`, each in its place
and tagged with its lap; a slot never written is still tagged `false`. -/
structure Holds (n : Nat) (tag : α → Bool) (slots : Nat → α) (posted : List α) : Prop where
  tagged : ∀ k a, posted[k]? = some a → tag a = phaseOf n k
  recent : ∀ k a, posted[k]? = some a → posted.length ≤ k + n → slots (k % n) = a
  blank : ∀ i, i < n → posted.length ≤ i → tag (slots i) = false

/-- Zeroed slots hold nothing. -/
theorem Holds.nil {slots : Nat → α} (h : ∀ i, i < n → tag (slots i) = false) :
    Holds n tag slots [] where
  tagged := fun k a hk => absurd hk (by simp)
  recent := fun k a hk => absurd hk (by simp)
  blank := fun i hi _ => h i hi

/-- Only the slots of the ring matter. -/
theorem Holds.congr {slots slots' : Nat → α} {posted : List α} (hn : 0 < n)
    (h : Holds n tag slots posted) (hs : ∀ i, i < n → slots' i = slots i) :
    Holds n tag slots' posted where
  tagged := h.tagged
  recent := fun k a hk hlen => by
    rw [hs _ (Nat.mod_lt k hn)]; exact h.recent k a hk hlen
  blank := fun i hi hlen => by rw [hs i hi]; exact h.blank i hi hlen

/-- Producing one more entry, with the tag of its lap, in the next slot. -/
theorem Holds.post {slots slots' : Nat → α} {posted : List α} {a : α} (hn : 0 < n)
    (h : Holds n tag slots posted) (htag : tag a = phaseOf n posted.length)
    (hnew : slots' (posted.length % n) = a)
    (hold : ∀ i, i < n → i ≠ posted.length % n → slots' i = slots i) :
    Holds n tag slots' (posted ++ [a]) where
  tagged := by
    intro k b hk
    -- an earlier entry keeps its tag, and the new one has the tag of its lap
    rcases Nat.lt_or_ge k posted.length with hlt | hge
    · exact h.tagged k b (by rwa [List.getElem?_append_left hlt] at hk)
    · have hk' : k = posted.length := by
        have := (List.getElem?_eq_some_iff.mp hk).1
        simp only [List.length_append, List.length_cons, List.length_nil] at this
        omega
      subst hk'
      rw [List.getElem?_concat_length] at hk
      rwa [← Option.some.inj hk]
  recent := by
    intro k b hk hlen
    rw [List.length_append] at hlen
    simp only [List.length_cons, List.length_nil] at hlen
    rcases Nat.lt_or_ge k posted.length with hlt | hge
    · rw [List.getElem?_append_left hlt] at hk
      have hne : k % n ≠ posted.length % n := by
        intro heq
        -- the two counts are less than a lap apart, so they share no slot
        have hdvd : n ∣ posted.length - k := (Nat.modEq_iff_dvd' hlt.le).mp heq
        have hle := Nat.le_of_dvd (by omega) hdvd
        omega
      rw [hold _ (Nat.mod_lt k hn) hne]
      exact h.recent k b hk (by omega)
    · have hk' : k = posted.length := by
        have := (List.getElem?_eq_some_iff.mp hk).1
        simp only [List.length_append, List.length_cons, List.length_nil] at this
        omega
      subst hk'
      rw [List.getElem?_concat_length] at hk
      rw [hnew, Option.some.inj hk]
  blank := by
    intro i hi hlen
    rw [List.length_append] at hlen
    simp only [List.length_cons, List.length_nil] at hlen
    -- a blank slot is not the one that is written
    have hne : i ≠ posted.length % n := by
      rw [Nat.mod_eq_of_lt (by omega)]; omega
    rw [hold i hi hne]
    exact h.blank i hi (by omega)

/-- **The tag test.** While the producer is at most a lap ahead, the tag in the
consumer's slot is the consumer's own exactly when there is something to take. -/
theorem Holds.fresh_iff {slots : Nat → α} {posted : List α} {c : Nat} (hn : 0 < n)
    (h : Holds n tag slots posted) (hc : c ≤ posted.length) (hroom : posted.length ≤ c + n) :
    tag (slots (c % n)) = phaseOf n c ↔ c < posted.length := by
  constructor
  · intro htag
    by_contra hnot
    have heq : c = posted.length := by omega
    rcases Nat.lt_or_ge c n with hlt | hge
    · -- in the first lap the slot is still blank
      rw [Nat.mod_eq_of_lt hlt, h.blank c hlt heq.symm.le] at htag
      rw [phaseOf, Nat.div_eq_of_lt hlt] at htag
      exact absurd htag (by decide)
    · -- the slot still holds the entry of the lap before, with the other tag
      obtain ⟨k, rfl⟩ := Nat.exists_eq_add_of_le' hge
      obtain ⟨a, ha⟩ : ∃ a, posted[k]? = some a :=
        ⟨_, List.getElem?_eq_getElem (by omega)⟩
      rw [Nat.add_mod_right, h.recent k a ha heq.symm.le, h.tagged k a ha, phaseOf_add hn] at htag
      simp at htag
  · intro hlt
    obtain ⟨a, ha⟩ : ∃ a, posted[c]? = some a := ⟨_, List.getElem?_eq_getElem hlt⟩
    rw [h.recent c a ha hroom]
    exact h.tagged c a ha

/-- The slot of an entry still to be taken holds that entry. -/
theorem Holds.next {slots : Nat → α} {posted : List α} {c : Nat}
    (h : Holds n tag slots posted) (hc : c < posted.length) (hroom : posted.length ≤ c + n) :
    posted[c]? = some (slots (c % n)) := by
  obtain ⟨a, ha⟩ : ∃ a, posted[c]? = some a := ⟨_, List.getElem?_eq_getElem hc⟩
  rw [h.recent c a ha hroom, ha]

end PhaseRing

end Framework
