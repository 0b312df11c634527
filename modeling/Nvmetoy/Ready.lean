import Nvmetoy.Responses

/-!
# Waiting for the controller

`waitReady` polls the status register until the controller is ready, or has failed, or
`READY_POLLS` polls have been made, `READY_POLL_MILLISECONDS` apart. The controller declares
in its capabilities how long it may take (`readyTimeout`); the wait does not look at it.

* `Statuses` — the register as a sequence of the values that the successive polls read.
* `waitReady_found`, `waitReady_expired` — how a wait ends, by where the first value is that
  ends it.
* `waitReady_ok` — what the values were, when it has ended well.
-/

namespace Nvmetoy

open Framework NvmeUserspaceDriver

/-- `CAP.TO`, in milliseconds: how long the controller may take to become ready. -/
def readyTimeout (capabilities : UInt64) : Nat :=
  ((capabilities >>> 24) &&& 0xFF).toNat * 500

/-- CSTS.RDY. -/
def statusReady (status : UInt32) : Bool := status &&& 0x1 != 0

/-- CSTS.CFS. -/
def statusFatal (status : UInt32) : Prop := status &&& 0x2 ≠ 0

instance (status : UInt32) : Decidable (statusFatal status) :=
  inferInstanceAs (Decidable (_ ≠ _))

/-- A device whose status register reads as the sequence says, poll after poll. Its state is
the number of polls so far; `other` answers everything else. -/
def Statuses (csts : Nat → UInt32) (other : (o : Op) → Res o) : (o : Op) → Nat → Res o × Nat
  | .read32 offset, n => if offset = CSTS then (csts n, n + 1) else (other (.read32 offset), n)
  | o, n => (other o, n)

section Wait

variable {csts : Nat → UInt32} {other : (o : Op) → Res o} {d : NvmeUserspaceDriver}
  {want : Bool} {n polls : Nat}

/-- **One poll.** -/
theorem play_waitReady (hbar : d.nvmeBar.check CSTS 4 = .ok ()) :
    (waitReady want (polls + 1) d).play (Statuses csts other) n =
      if statusFatal (csts n) then ((.err .fatalStatus, d), n + 1)
      else if statusReady (csts n) = want then ((.ok (), d), n + 1)
      else (waitReady want polls d).play (Statuses csts other) (n + 1) := by
  simp only [waitReady, Method.get_bind, NvmeBar.readStatus, NvmeBar.read32, hbar,
    Method.lift_ok_bind, Method.call_bind, Prog.play, Statuses, if_true, beq_iff_eq]
  -- the fatal bit is looked at before the ready bit
  by_cases hfatal : csts n &&& 0x2 ≠ 0
  · rw [if_pos hfatal, if_pos (show statusFatal (csts n) from hfatal)]
    rfl
  · rw [if_neg hfatal, if_neg (show ¬ statusFatal (csts n) from hfatal)]
    by_cases hready : (csts n &&& 0x1 != 0) = want
    · rw [if_pos hready, if_pos (show statusReady (csts n) = want from hready)]
      rfl
    · rw [if_neg hready, if_neg (show ¬ statusReady (csts n) = want from hready)]
      rfl

/-- The polls that end nothing are made one after the other. -/
theorem play_waitReady_idle (hbar : d.nvmeBar.check CSTS 4 = .ok ()) (k : Nat)
    (hidle : ∀ j, n ≤ j → j < n + k → ¬ statusFatal (csts j) ∧ statusReady (csts j) ≠ want) :
    (waitReady want (k + polls) d).play (Statuses csts other) n =
      (waitReady want polls d).play (Statuses csts other) (n + k) := by
  induction k generalizing n with
  | zero => rw [Nat.zero_add, Nat.add_zero]
  | succ k ih =>
    obtain ⟨hfatal, hready⟩ := hidle n le_rfl (by omega)
    rw [show k + 1 + polls = k + polls + 1 by omega, play_waitReady hbar, if_neg hfatal,
      if_neg hready, ih fun j hle hlt => hidle j (by omega) (by omega),
      show n + 1 + k = n + (k + 1) by omega]

/-- A value in time ends the wait well. -/
theorem waitReady_found (hbar : d.nvmeBar.check CSTS 4 = .ok ()) {k : Nat} (hk : k < polls)
    (hfatal : ∀ j, j ≤ k → ¬ statusFatal (csts j)) (hready : statusReady (csts k) = want) :
    ((waitReady want polls d).play (Statuses csts other) 0).1.1 = .ok () := by
  -- the wait ends at the first value that is as wanted
  have hex : ∃ k, statusReady (csts k) = want := ⟨k, hready⟩
  have hfirst := Nat.find_spec hex
  have hle : Nat.find hex ≤ k := Nat.find_min' hex hready
  obtain ⟨rest, hrest⟩ : ∃ rest, polls = Nat.find hex + (rest + 1) :=
    ⟨polls - Nat.find hex - 1, by omega⟩
  rw [hrest, play_waitReady_idle hbar, play_waitReady hbar, Nat.zero_add,
    if_neg (hfatal _ hle), if_pos hfirst]
  intro j _ hlt
  rw [Nat.zero_add] at hlt
  exact ⟨hfatal j (by omega), Nat.find_min hex hlt⟩

/-- Without one, it ends with a timeout. -/
theorem waitReady_expired (hbar : d.nvmeBar.check CSTS 4 = .ok ())
    (hidle : ∀ j, j < polls → ¬ statusFatal (csts j) ∧ statusReady (csts j) ≠ want) :
    ((waitReady want polls d).play (Statuses csts other) 0).1.1 = .err .readyTimeout := by
  have hall := @play_waitReady_idle csts other d want 0 0 hbar polls
    fun j _ hlt => hidle j (by omega)
  rw [Nat.add_zero] at hall
  rw [hall]
  rfl

/-- **A wait that has ended well** has read the wanted value last, and no fatal one. -/
theorem waitReady_ok (hbar : d.nvmeBar.check CSTS 4 = .ok ())
    (h : ((waitReady want polls d).play (Statuses csts other) n).1.1 = .ok ()) :
    n < ((waitReady want polls d).play (Statuses csts other) n).2 ∧
      statusReady (csts (((waitReady want polls d).play (Statuses csts other) n).2 - 1)) = want ∧
      ∀ j, n ≤ j → j < ((waitReady want polls d).play (Statuses csts other) n).2 →
        ¬ statusFatal (csts j) := by
  induction polls generalizing n with
  | zero => cases h
  | succ polls ih =>
    rw [play_waitReady hbar] at h ⊢
    -- the loop looks at `CSTS.CFS` before `CSTS.RDY`, so this read is not fatal if the wait goes on
    by_cases hfatal : statusFatal (csts n)
    · rw [if_pos hfatal] at h
      cases h
    rw [if_neg hfatal] at h ⊢
    -- either this poll returns, or the rest of the loop answers from the next one on
    by_cases hready : statusReady (csts n) = want
    · rw [if_pos hready]
      refine ⟨Nat.lt_succ_self n, hready, fun j hle hlt => ?_⟩
      obtain rfl : j = n := by
        have hlt : j < n + 1 := hlt
        omega
      exact hfatal
    · rw [if_neg hready] at h ⊢
      obtain ⟨hlt, hlast, hall⟩ := ih h
      refine ⟨by omega, hlast, fun j hle hj => ?_⟩
      rcases Nat.eq_or_lt_of_le hle with rfl | hgt
      · exact hfatal
      · exact hall j hgt hj

end Wait

/-- **What the wait honours.** Whatever it declares, a controller is given `READY_POLLS` polls:
if no value is fatal and one of theirs is as wanted, the wait ends well, and if none is, with
a timeout. And it ends well only when the last value read
was as wanted and none that was read was fatal. -/
theorem waitReady_polls (d : NvmeUserspaceDriver) (hbar : d.nvmeBar.check CSTS 4 = .ok ())
    (want : Bool) (csts : Nat → UInt32) (other : (o : Op) → Res o) :
    let run := (waitReady want READY_POLLS d).play (Statuses csts other) 0
    ((∀ k, ¬ statusFatal (csts k)) →
      ((∃ k, k < READY_POLLS ∧ statusReady (csts k) = want) → run.1.1 = .ok ()) ∧
      ((∀ k, k < READY_POLLS → statusReady (csts k) ≠ want) → run.1.1 = .err .readyTimeout)) ∧
    (run.1.1 = .ok () → 0 < run.2 ∧ statusReady (csts (run.2 - 1)) = want ∧
      ∀ j, j < run.2 → ¬ statusFatal (csts j)) := by
  intro run
  -- found in time, never found, and sound where it was found
  refine ⟨fun hfatal => ⟨?_, fun hidle => ?_⟩, fun hok => ?_⟩
  · rintro ⟨k, hk, hready⟩
    exact waitReady_found hbar hk (fun j _ => hfatal j) hready
  · exact waitReady_expired hbar fun j hj => ⟨hfatal j, hidle j hj⟩
  · obtain ⟨hpos, hlast, hall⟩ := waitReady_ok hbar hok
    exact ⟨hpos, hlast, fun j hj => hall j (Nat.zero_le j) hj⟩

/-- A device that answers with zeros, and with no error. -/
def silent : (o : Op) → Res o
  | .readSqe _ => .new 0
  | .readCqe _ => .decode []
  | .readBytes _ len => ⟨List.replicate len 0, List.length_replicate⟩
  | .read32 _ => 0
  | .read64 _ => 0
  | .readDriverLink _ => .notFound
  | .configOpen _ => .ok ()
  | .configSeek _ => .ok ()
  | .configRead len => .ok ⟨List.replicate len 0, List.length_replicate⟩
  | .configWrite _ => .ok ()
  | .mapBar _ _ => .ok 0
  | .allocHuge => .ok ⟨0, by decide⟩
  | .writeSqe _ _ | .writeU64 _ _ | .writeBytes _ _ | .write32 _ _ | .write64 _ _ | .sleep _
  | .unmapBar | .unmapDma | .alloc _ | .println _ | .mark _ => ()

/-- A driver on a BAR of two pages, with its hugepage at bus address 0. -/
def freshDriver : NvmeUserspaceDriver :=
  .fresh ⟨8192⟩ ⟨HUGE_PAGE_SIZE, 0, by decide⟩ 4 1

theorem freshDriver_check : freshDriver.nvmeBar.check CSTS 4 = .ok () :=
  registers_ok le_rfl (by decide) (by decide) (by decide)

/-- A controller that is ready from the fourth poll on. -/
theorem waitReady_polls_fourth :
    ((waitReady true READY_POLLS freshDriver).play
      (Statuses (fun k => if k < 3 then 0 else 1) silent) 0).1.1 = .ok () := by
  have hfatal : ∀ k, ¬ statusFatal (if k < 3 then 0 else 1) := by
    intro k
    split <;> decide
  exact ((waitReady_polls freshDriver freshDriver_check true _ silent).1 hfatal).1
    ⟨3, by decide, by decide⟩

/-- A controller that declares 127.5 seconds, and is ready after five, is reported as failed. -/
theorem waitReady_gives_up : ¬ ∀ (d : NvmeUserspaceDriver), d.nvmeBar.check CSTS 4 = .ok () →
    ∀ (capabilities : UInt64) (want : Bool) (csts : Nat → UInt32) (other : (o : Op) → Res o),
      (∀ k, ¬ statusFatal (csts k)) →
      (∃ k, k * READY_POLL_MILLISECONDS ≤ readyTimeout capabilities ∧
        statusReady (csts k) = want) →
      ((waitReady want READY_POLLS d).play (Statuses csts other) 0).1.1 = .ok () := by
  intro h
  -- ready at the poll after the last, which is in time by what CAP.TO says
  have hfatal : ∀ k, ¬ statusFatal (if k < 1000 then 0 else 1) := by
    intro k
    split <;> decide
  have hok := h freshDriver freshDriver_check 0xFF000000 true
    (fun k => if k < 1000 then 0 else 1) silent hfatal ⟨1000, by decide, by decide⟩
  rw [waitReady_expired freshDriver_check] at hok
  · cases hok
  · intro j hj
    have hj : j < 1000 := hj
    rw [if_pos hj]
    decide

end Nvmetoy
