import Nvmetoy.Repl.FileBlocks

/-!
# What the walk over the extents does

`FileBlocks.check` answers a question about sets of blocks: does every block of the range
lie in some extent. The comparison is against `FileBlocks.Contains`, membership in an
extent taken over the unbounded integers.

* `findCovering_ok_some` — an extent that the walk takes has an exact end, in both build
  profiles: a wrapped end lies below the block, so that extent is passed over.
* `contains_of_check` — a range that is accepted lies in the file.
* `walk_decides`, `check_decides` — when every end is a `u64`, the check accepts a range
  exactly when the file covers it, in either profile, and refuses it otherwise.
* `findCovering_debug` — with overflow checks, the search is decided by the first extent
  that contains the block: it is taken if its end is a `u64`, and the search panics
  otherwise.
* `check_debug_panics` — hence exactly when a check panics: `Visited` is the sequence of
  blocks the walk comes to.
-/

namespace Nvmetoy

open Framework

namespace Extent

/-- The end of the extent, as an unbounded integer. -/
def stop (e : Extent) : Nat := e.deviceLba.toNat + e.lbaCount.toNat

theorem Contains.lt_stop {e : Extent} {x : Nat} (h : e.Contains x) : x < e.stop := h.2

theorem fits_iff {e : Extent} : e.Fits ↔ e.stop < U64_SIZE := Iff.rfl

/-- An extent whose end is no `u64` contains every block from its start on. -/
theorem contains_of_not_fits {e : Extent} {x : Nat} (h : ¬ e.Fits)
    (hx : x < U64_SIZE) (hstart : e.deviceLba.toNat ≤ x) : e.Contains x := by
  rw [fits_iff, Nat.not_lt] at h
  exact ⟨hstart, Nat.lt_of_lt_of_le hx h⟩

variable {E : Type} {p : Profile} {e : Extent}

theorem addU64_of_fits (h : e.Fits) :
    (p.addU64 e.deviceLba e.lbaCount : Outcome E UInt64) = .ok (UInt64.ofNat e.stop) := by
  rw [Profile.addU64, Profile.fit_of_lt h]
  rfl

theorem toNat_ofNat_stop (h : e.Fits) : (UInt64.ofNat e.stop).toNat = e.stop :=
  UInt64.toNat_ofNat_of_lt' h

/-- A wrapped end lies below the start of the extent. -/
theorem addU64_release_of_not_fits (h : ¬ e.Fits) :
    ∃ stop : UInt64, (Profile.release.addU64 e.deviceLba e.lbaCount : Outcome E UInt64) =
      .ok stop ∧ stop.toNat < e.deviceLba.toNat := by
  have hcount := e.lbaCount.toNat_lt
  have hstart := e.deviceLba.toNat_lt
  have hlt : e.stop % U64_SIZE < U64_SIZE := Nat.mod_lt _ (by simp [U64_SIZE])
  refine ⟨UInt64.ofNat (e.stop % U64_SIZE), ?_, ?_⟩
  · rw [Profile.addU64, Profile.fit_release_of_ge (Nat.not_lt.mp h)]
    rfl
  · rw [UInt64.toNat_ofNat_of_lt' hlt]
    simp only [Extent.Fits, Extent.stop, U64_SIZE, Nat.not_lt] at *
    omega

theorem addU64_debug_of_not_fits (h : ¬ e.Fits) :
    (Profile.debug.addU64 e.deviceLba e.lbaCount : Outcome E UInt64) =
      .panic "arithmetic overflow" := by
  rw [Profile.addU64, Profile.fit_debug_of_ge (Nat.not_lt.mp h)]
  rfl

end Extent

namespace FileBlocks

variable {p : Profile} {es : List Extent} {covered : UInt64}

/-- **What is found covers.** In either profile, the extent found contains the block and
its end is exact. -/
theorem findCovering_ok_some {e : Extent} {stop : UInt64}
    (h : findCovering p covered es = .ok (some (e, stop))) :
    e ∈ es ∧ e.Contains covered.toNat ∧ stop.toNat = e.stop := by
  induction es with
  | nil => simp [findCovering] at h
  | cons e' rest ih =>
    have hrest (h : findCovering p covered rest = .ok (some (e, stop))) :
        e ∈ e' :: rest ∧ e.Contains covered.toNat ∧ stop.toNat = e.stop := by
      obtain ⟨hmem, hcov, hstop⟩ := ih h
      exact ⟨List.mem_cons_of_mem _ hmem, hcov, hstop⟩
    simp only [findCovering] at h
    split at h
    · -- the extent begins at or before the block
      next hstart =>
      have hle := UInt64.le_iff_toNat_le.mp hstart
      by_cases hfits : e'.Fits
      · rw [Extent.addU64_of_fits hfits] at h
        simp only [Outcome.bind] at h
        split at h
        · next hlt =>
          simp only [Outcome.ok.injEq, Option.some.injEq, Prod.mk.injEq] at h
          obtain ⟨rfl, rfl⟩ := h
          have hstop := Extent.toNat_ofNat_stop hfits
          refine ⟨List.mem_cons_self, ⟨hle, ?_⟩, hstop⟩
          rw [UInt64.lt_iff_toNat_lt, hstop] at hlt
          exact hlt
        · exact hrest h
      · cases p with
        | debug => simp [Extent.addU64_debug_of_not_fits hfits, Outcome.bind] at h
        | release =>
          -- the wrapped end lies below `covered`, so the extent is passed over
          obtain ⟨wrapped, hadd, hlow⟩ := Extent.addU64_release_of_not_fits hfits (E := IoError)
          rw [hadd] at h
          simp only [Outcome.bind] at h
          rw [if_neg (by rw [UInt64.lt_iff_toNat_lt]; omega)] at h
          exact hrest h
    · exact hrest h

/-- A walk that has come to its end. -/
theorem walk_of_ge {stop : UInt64} (h : ¬ covered < stop) : walk p es stop covered = .ok () := by
  rw [walk, if_neg h]

/-- One round of the loop. -/
theorem walk_of_lt {stop : UInt64} (h : covered < stop) :
    walk p es stop covered = match findCovering p covered es with
      | .ok (some (_, next)) => walk p es stop next
      | .ok none => .err (.notInFile covered)
      | .err e => .err e
      | .panic why => .panic why := by
  rw [walk, if_pos h]
  split <;> (next heq => rw [heq])

/-- A walk that ends well has found an extent for every block. -/
theorem contains_of_walk {stop : UInt64} (h : walk p es stop covered = .ok ()) {x : Nat}
    (hx : covered.toNat ≤ x) (hstop : x < stop.toNat) : ∃ e ∈ es, e.Contains x := by
  induction hn : stop.toNat - covered.toNat using Nat.strongRecOn generalizing covered with
  | _ n ih =>
    by_cases hlt : covered < stop
    · rw [walk_of_lt hlt] at h
      split at h
      · next e next hfind =>
        obtain ⟨hmem, hcov, hnext⟩ := findCovering_ok_some hfind
        -- the block lies in the extent that was found, or behind it
        by_cases hxe : x < e.stop
        · exact ⟨e, hmem, hcov.1.trans hx, hxe⟩
        · have hadvance := hcov.lt_stop
          exact ih _ (by omega) h (by omega) rfl
      all_goals cases h
    · rw [UInt64.lt_iff_toNat_lt] at hlt
      omega

/-- **Soundness of the check.** Every block of an accepted range belongs to the file. -/
theorem contains_of_check {blocks : FileBlocks} {deviceLba count : UInt64}
    (h : blocks.check p deviceLba count = .ok ()) {k : Nat} (hk : k < count.toNat) :
    blocks.Contains (deviceLba.toNat + k) := by
  rw [check] at h
  split at h
  · next hzero => subst hzero; simp at hk
  split at h
  · next hlt =>
    have hstop := UInt64.toNat_add_of_lt hlt
    exact contains_of_walk h (Nat.le_add_right _ _) (by omega)
  · cases h

/-- The first extent of the list that contains the block. -/
def firstCovering (es : List Extent) (x : Nat) : Option Extent :=
  es.find? fun e => decide (e.Contains x)

/-! ### What a check decides -/

/-- **The search, when every end is a `u64`.** In either profile, it goes to the first extent
that contains the block. -/
theorem findCovering_of_fits (h : ∀ e ∈ es, e.Fits) : findCovering p covered es =
    .ok ((firstCovering es covered.toNat).map fun e => (e, UInt64.ofNat e.stop)) := by
  induction es with
  | nil => rfl
  | cons e rest ih =>
    have hfits : e.Fits := h e List.mem_cons_self
    have hrest := ih fun e' he' => h e' (List.mem_cons_of_mem e he')
    have hstop : covered < UInt64.ofNat e.stop ↔ covered.toNat < e.stop := by
      rw [UInt64.lt_iff_toNat_lt, Extent.toNat_ofNat_stop hfits]
    rw [firstCovering, List.find?_cons]
    by_cases hcov : e.Contains covered.toNat
    · -- the head contains the block, and the search stops there
      rw [findCovering, if_pos (UInt64.le_iff_toNat_le.mpr hcov.1), Extent.addU64_of_fits hfits,
        decide_eq_true hcov]
      exact if_pos (hstop.mpr hcov.lt_stop)
    · -- it does not, so the search goes on: the block lies before it or at its end or later
      rw [findCovering, decide_eq_false hcov]
      split
      · next hstart =>
        rw [Extent.addU64_of_fits hfits]
        have hge : ¬ covered < UInt64.ofNat e.stop := by
          intro hlt
          exact hcov ⟨UInt64.le_iff_toNat_le.mp hstart, hstop.mp hlt⟩
        exact (if_neg hge).trans hrest
      · exact hrest

/-- Some block from `start` to `stop` lies in no extent. -/
def Gap (es : List Extent) (start stop : Nat) : Prop :=
  ∃ x, start ≤ x ∧ x < stop ∧ ∀ e ∈ es, ¬ e.Contains x

/-- **The walk decides coverage.** It ends well, or it ends with an error and has come to a
block in no extent. -/
theorem walk_decides (h : ∀ e ∈ es, e.Fits) {stop : UInt64} :
    walk p es stop covered = .ok () ∨
      (∃ e, walk p es stop covered = .err e) ∧ Gap es covered.toNat stop.toNat := by
  -- by induction on what is left: every round ends past the block it began at
  induction hn : stop.toNat - covered.toNat using Nat.strongRecOn generalizing covered with
  | _ n ih =>
    by_cases hlt : covered < stop
    · rw [walk_of_lt hlt, findCovering_of_fits h]
      have hltNat := UInt64.lt_iff_toNat_lt.mp hlt
      -- no extent contains the block, or one does and the walk goes on at its end
      cases hfirst : firstCovering es covered.toNat with
      | none =>
        refine .inr ⟨⟨_, rfl⟩, covered.toNat, le_rfl, hltNat, ?_⟩
        intro e he hcov
        have hnone := List.find?_eq_none.mp hfirst e he
        exact hnone (decide_eq_true hcov)
      | some e =>
        have hcov : e.Contains covered.toNat := by simpa using List.find?_some hfirst
        have hfits : e.Fits := h e (List.mem_of_find?_eq_some hfirst)
        have hnext : (UInt64.ofNat e.stop).toNat = e.stop := Extent.toNat_ofNat_stop hfits
        have hadvance : covered.toNat < e.stop := hcov.lt_stop
        rcases @ih _ (by rw [hnext]; omega) (UInt64.ofNat e.stop) rfl with hok | ⟨herr, hgap⟩
        · exact .inl hok
        · obtain ⟨x, hle, hx⟩ := hgap
          exact .inr ⟨herr, x, by omega, hx⟩
    · exact .inl (walk_of_ge hlt)

/-- An accepted range is covered. -/
theorem covered_of_check {p : Profile} {blocks : FileBlocks} {deviceLba count : UInt64}
    (hok : blocks.check p deviceLba count = .ok ()) (b : Nat) (hle : deviceLba.toNat ≤ b)
    (hlt : b < deviceLba.toNat + count.toNat) : blocks.Contains b := by
  have hb := contains_of_check hok (show b - deviceLba.toNat < count.toNat by omega)
  rwa [Nat.add_sub_of_le hle] at hb

/-- A range is accepted, or refused for a block that lies in no extent. -/
theorem check_cases {p : Profile} {blocks : FileBlocks} {deviceLba count : UInt64}
    (h : ∀ e ∈ blocks.extents, e.Fits) :
    blocks.check p deviceLba count = .ok () ∨
      (∃ e, blocks.check p deviceLba count = .err e) ∧
        Gap blocks.extents deviceLba.toNat (deviceLba.toNat + count.toNat) := by
  rw [check]
  split
  · exact .inl rfl
  · next hzero =>
    split
    · next hlt =>
      have hstop : (deviceLba + count).toNat = deviceLba.toNat + count.toNat :=
        UInt64.toNat_add_of_lt hlt
      rcases @walk_decides p blocks.extents deviceLba h (deviceLba + count) with hok | herr
      · exact .inl hok
      · rw [hstop] at herr
        exact .inr herr
    · next hge =>
      -- the end of the range is no `u64`, and its last block is past every extent
      have hcount : count.toNat ≠ 0 := fun h0 => hzero (UInt64.toNat_inj.mp h0)
      refine .inr ⟨⟨_, rfl⟩, deviceLba.toNat + count.toNat - 1, by omega, by omega, ?_⟩
      intro e he hcov
      have hfits : e.stop < U64_SIZE := h e he
      have hlt : deviceLba.toNat + count.toNat - 1 < e.stop := hcov.lt_stop
      omega

/-- A range that is not covered is refused. -/
theorem check_refuses {p : Profile} {blocks : FileBlocks} {deviceLba count : UInt64}
    (h : ∀ e ∈ blocks.extents, e.Fits)
    (hnot : ¬ ∀ b, deviceLba.toNat ≤ b → b < deviceLba.toNat + count.toNat → blocks.Contains b) :
    ∃ e, blocks.check p deviceLba count = .err e := by
  rcases check_cases h with hok | ⟨herr, -⟩
  · exact absurd (covered_of_check hok) hnot
  · exact herr

/-- **The check decides coverage exactly**, in either profile: it accepts a range when every
block of it, counted without a bound, lies in some extent, and refuses it otherwise. -/
theorem check_decides (p : Profile) (blocks : FileBlocks) (deviceLba count : UInt64)
    (h : ∀ e ∈ blocks.extents, e.Fits) :
    (blocks.check p deviceLba count = .ok () ↔
        ∀ b, deviceLba.toNat ≤ b → b < deviceLba.toNat + count.toNat → blocks.Contains b) ∧
      (¬ (∀ b, deviceLba.toNat ≤ b → b < deviceLba.toNat + count.toNat → blocks.Contains b) →
        ∃ e, blocks.check p deviceLba count = .err e) := by
  refine ⟨⟨covered_of_check, fun hall => ?_⟩, check_refuses h⟩
  rcases check_cases h with hok | ⟨-, x, hle, hlt, hnone⟩
  · exact hok
  · obtain ⟨e, he, hcov⟩ := hall x hle hlt
    exact absurd hcov (hnone e he)

/-- Two extents out of order that overlap, and one of no blocks. -/
theorem check_decides_overlap :
    (∀ e ∈ [Extent.mk 12 4 false, ⟨5, 0, false⟩, ⟨10, 3, true⟩], e.Fits) ∧
      FileBlocks.check .debug ⟨512, [⟨12, 4, false⟩, ⟨5, 0, false⟩, ⟨10, 3, true⟩]⟩ 10 6 =
        .ok () := by
  have hfits : ∀ e ∈ [Extent.mk 12 4 false, ⟨5, 0, false⟩, ⟨10, 3, true⟩], e.Fits := by decide
  refine ⟨hfits, (check_decides .debug ⟨512, _⟩ 10 6 hfits).1.mpr ?_⟩
  intro b hle hlt
  by_cases hb : b < 13
  · exact ⟨⟨10, 3, true⟩, by simp, hle, hb⟩
  · exact ⟨⟨12, 4, false⟩, by simp, show 12 ≤ b by omega, hlt⟩

/-! ### Where a check panics -/

/-- **The search, with overflow checks.** It goes to the first extent that contains the
block, and panics when the end of that extent is no `u64`. -/
theorem findCovering_debug : findCovering .debug covered es =
    match firstCovering es covered.toNat with
    | none => .ok none
    | some e =>
      if e.Fits then .ok (some (e, UInt64.ofNat e.stop)) else .panic "arithmetic overflow" := by
  induction es with
  | nil => rfl
  | cons e rest ih =>
    simp only [findCovering, firstCovering, List.find?_cons] at ih ⊢
    -- with overflow checks an extent that contains the block is found, or panics
    by_cases hcov : e.Contains covered.toNat
    · rw [if_pos (UInt64.le_iff_toNat_le.mpr hcov.1)]
      by_cases hfits : e.Fits
      · have hlt : covered < UInt64.ofNat e.stop := by
          rw [UInt64.lt_iff_toNat_lt, Extent.toNat_ofNat_stop hfits]
          exact hcov.lt_stop
        simp [Extent.addU64_of_fits hfits, Outcome.bind, hlt, hcov, hfits]
      · simp [Extent.addU64_debug_of_not_fits hfits, Outcome.bind, hcov, hfits]
    · simp only [hcov, decide_false]
      split
      · next hstart =>
        have hle := UInt64.le_iff_toNat_le.mp hstart
        -- an extent that overflows would contain the block
        have hfits : e.Fits := by
          by_contra hnot
          exact hcov (Extent.contains_of_not_fits hnot covered.toNat_lt hle)
        have hge : ¬ covered < UInt64.ofNat e.stop := by
          rw [UInt64.lt_iff_toNat_lt, Extent.toNat_ofNat_stop hfits]
          exact fun hlt => hcov ⟨hle, hlt⟩
        simpa [Extent.addU64_of_fits hfits, Outcome.bind, hge] using ih
      · exact ih

/-- The blocks below `stop` that a walk from block `start` comes to, jumping each time to
the end of the first extent that contains the block. -/
inductive Visited (es : List Extent) (start stop : Nat) : Nat → Prop where
  | first (h : start < stop) : Visited es start stop start
  | jump {x : Nat} {e : Extent} (hx : Visited es start stop x)
      (hfirst : firstCovering es x = some e) (h : e.stop < stop) : Visited es start stop e.stop

/-- The walk from `start` to `stop` computes no end of an extent that is no `u64`. -/
def EndsFit (es : List Extent) (start stop : Nat) : Prop :=
  ∀ x, Visited es start stop x → ∀ e, firstCovering es x = some e → e.Fits

/-- The walk goes on from the end of the first extent it takes. -/
theorem Visited.of_jump {start stop y : Nat} {e : Extent}
    (hstart : start < stop) (hfirst : firstCovering es start = some e)
    (h : Visited es e.stop stop y) : Visited es start stop y := by
  induction h with
  | first h => exact .jump (.first hstart) hfirst h
  | jump _ hf h ih => exact .jump ih hf h

/-- A walk visits its first block, and then what it visits from the end of the extent it
takes there. -/
theorem Visited.cases_first {start stop y : Nat} (h : Visited es start stop y) :
    y = start ∨ ∃ e, firstCovering es start = some e ∧ Visited es e.stop stop y := by
  induction h with
  | first _ => exact .inl rfl
  | @jump x e _ hf hlt ih =>
    rcases ih with rfl | ⟨e', he', hv⟩
    · exact .inr ⟨e, hf, .first hlt⟩
    · exact .inr ⟨e', he', .jump hv hf hlt⟩

/-- What is visited lies in a range that is not empty. -/
theorem Visited.start_lt {start stop y : Nat} (h : Visited es start stop y) : start < stop := by
  induction h with
  | first h => exact h
  | jump _ _ _ ih => exact ih

/-- The ends that fit are those of the first extent and of the walk from there on. -/
theorem EndsFit.iff_of_firstCovering {start stop : Nat} {e : Extent}
    (hstart : start < stop) (hfirst : firstCovering es start = some e) :
    EndsFit es start stop ↔ e.Fits ∧ EndsFit es e.stop stop := by
  constructor
  · intro h
    exact ⟨h _ (.first hstart) e hfirst,
      fun x hx => h x (.of_jump hstart hfirst hx)⟩
  · rintro ⟨he, h⟩ x hx e' he'
    -- the walk starts here, or has come past this extent
    rcases hx.cases_first with rfl | ⟨e₁, h₁, hv⟩
    · rw [hfirst] at he'; exact Option.some.inj he' ▸ he
    · rw [hfirst] at h₁
      obtain rfl := Option.some.inj h₁
      exact h x hv e' he'

/-- The walk panics at the first end that does not fit. -/
theorem walk_debug_panics {stop : UInt64} :
    (walk .debug es stop covered).Panics ↔ ¬ EndsFit es covered.toNat stop.toNat := by
  -- by induction on what is left, as the walk goes on
  induction hn : stop.toNat - covered.toNat using Nat.strongRecOn generalizing covered with
  | _ n ih =>
    have hfind := @findCovering_debug es covered
    by_cases hlt : covered < stop
    · have hltNat := UInt64.lt_iff_toNat_lt.mp hlt
      cases hfirst : firstCovering es covered.toNat with
      | none =>
        have hends : EndsFit es covered.toNat stop.toNat := by
          intro x hx e he
          rcases hx.cases_first with rfl | ⟨e', he', -⟩
          · rw [hfirst] at he; cases he
          · rw [hfirst] at he'; cases he'
        rw [hfirst] at hfind
        rw [walk_of_lt hlt, hfind]
        simpa using hends
      | some e =>
        -- the first extent that covers the block decides the round
        rw [EndsFit.iff_of_firstCovering hltNat hfirst]
        rw [hfirst] at hfind
        by_cases hfits : e.Fits
        · simp only [hfits, if_true] at hfind
          have hcov : e.Contains covered.toNat := by simpa using List.find?_some hfirst
          have hadvance := hcov.lt_stop
          have hstop := Extent.toNat_ofNat_stop hfits
          rw [walk_of_lt hlt, hfind]
          simp only [hfits, true_and]
          rw [ih _ (by omega) rfl, hstop]
        · simp only [hfits, if_false] at hfind
          rw [walk_of_lt hlt, hfind]
          simp [hfits]
    · have hends : EndsFit es covered.toNat stop.toNat :=
        fun x hx => absurd (UInt64.lt_iff_toNat_lt.mpr hx.start_lt) hlt
      rw [walk_of_ge hlt]
      simpa using hends

/-- **Where a check panics**, with overflow checks: on a range that does not overflow and
whose walk computes an end that does. -/
theorem check_debug_panics {blocks : FileBlocks} {deviceLba count : UInt64} :
    (blocks.check .debug deviceLba count).Panics ↔
      deviceLba.toNat + count.toNat < U64_SIZE ∧
        ¬ EndsFit blocks.extents deviceLba.toNat (deviceLba.toNat + count.toNat) := by
  rw [check]
  split
  · next hzero =>
    subst hzero
    have hends : EndsFit blocks.extents deviceLba.toNat (deviceLba.toNat + (0 : UInt64).toNat) :=
      fun x hx => absurd hx.start_lt (by simp)
    exact ⟨False.elim, fun h => h.2 hends⟩
  split
  · -- the sum of the range fits, so that only the end of an extent can overflow
    next hlt =>
    have hstop := UInt64.toNat_add_of_lt hlt
    rw [walk_debug_panics, hstop]
    exact (and_iff_right hlt).symm
  · next hge => simp [hge]

end FileBlocks

end Nvmetoy
