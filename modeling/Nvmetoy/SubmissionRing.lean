import Nvmetoy.ScheduledRuns

/-!
# The submission ring

The driver advances its tail on every call and never asks how far the controller has come: the
head that completions report is read by nothing. A call that times out may leave its command
unfetched, so the ring can fill.

* `InRoom` — the controller is less than a ring behind: its head is the number of fetches, and
  a slot that has not been fetched holds one of the commands from there on.
* `never_overrun` — in every run in which a command is written while at most 62 others are
  unfetched, no command is overwritten before it is fetched, and the tail is never rung onto
  the head of a ring with commands in it.
* `unfetched_overrun` — 64 calls on a controller that fetches nothing.
-/

namespace Nvmetoy

open Framework Machine NvmeUserspaceDriver

variable {P : Platform} {C : Behaviour} {i : QueueId} {w w' w₀ : World} {r r' : Ring}
  {n T S E : Nat}

/-- The first `n` commands were rung for, and the ring has room for all that are unfetched. -/
structure InRoom (n : Nat) (r : Ring) : Prop where
  head : r.sqHead = r.fetches % QUEUE_DEPTH
  tail : r.sqTail = n % QUEUE_DEPTH
  le : r.fetches ≤ n
  room : r.submitted < r.fetches + QUEUE_DEPTH
  slots : ∀ s, r.fetched s = false → ∃ k, r.fetches ≤ k ∧ k < r.submitted ∧ k % QUEUE_DEPTH = s
  clear : r.overrun = false

/-- A command is written where there is room for one more. -/
def Roomy (i : QueueId) : Op → World → Prop
  | .writeSqe _ _, w => (w.ring i).unfetched + 1 < QUEUE_DEPTH
  | _, _ => True

/-- The controller only makes room. -/
theorem InRoom.step (h : InRoom n (w.ring i)) (hstep : RingStep P C i w w') :
    InRoom n (w'.ring i) := by
  cases hstep with
  -- what is on its way to the completion ring takes no room in this one
  | keep hkeep =>
    rw [hkeep.ring.rest]
    exact ⟨h.head, h.tail, h.le, h.room, h.slots, h.clear⟩
  | fetch hpending hring =>
    have hne : (w.ring i).fetches ≠ n := by
      intro heq
      rw [h.head, h.tail, heq] at hpending
      exact hpending rfl
    have hle := h.le
    have hroom := h.room
    rw [hring]
    refine ⟨?_, h.tail, ?_, ?_, fun s hs => ?_, h.clear⟩ <;> simp only [Ring.fetch] at *
    · rw [h.head, PhaseRing.succ_mod]
    · omega
    · omega
    -- the slot is not the one that was fetched, so its command comes later
    · split at hs
      · cases hs
      · next hslot =>
        obtain ⟨k, hk, hlt, rfl⟩ := h.slots s hs
        refine ⟨k, ?_, hlt, rfl⟩
        have hkne : k ≠ (w.ring i).fetches := by
          rintro rfl
          exact hslot h.head.symm
        omega
  | post c k live hroom hphase hmay hring =>
    rw [hring]
    exact ⟨h.head, h.tail, h.le, h.room, h.slots, h.clear⟩

/-- Writing a command, with room for it. -/
theorem InRoom.store (h : InRoom S r) (hsubmitted : r.submitted = S)
    (hroom : r.unfetched + 1 < QUEUE_DEPTH) (cid : UInt16) :
    InRoom S (r.store (S % QUEUE_DEPTH) cid) := by
  have hle := h.le
  unfold Ring.unfetched at hroom
  have hfetched : r.fetched (S % QUEUE_DEPTH) = true := by
    by_contra hnot
    obtain ⟨k, hk, hlt, hmod⟩ := h.slots _ (by simpa using hnot)
    -- an unfetched command of this slot would be a whole ring behind
    have hdvd : QUEUE_DEPTH ∣ S - k := (Nat.modEq_iff_dvd' (by omega)).mp hmod
    have := Nat.le_of_dvd (by omega) hdvd
    omega
  refine ⟨h.head, h.tail, h.le, ?_, fun s hs => ?_, ?_⟩ <;> simp only [Ring.store] at *
  · omega
  · split at hs
    · next heq => exact ⟨S, hle, by omega, heq.symm⟩
    · obtain ⟨k, hk, hlt, hmod⟩ := h.slots s hs
      exact ⟨k, hk, by omega, hmod⟩
  · rw [h.clear, hfetched]
    rfl

/-- Ringing for it. -/
theorem InRoom.ringTail (h : InRoom S r) (hsubmitted : r.submitted = S + 1) :
    InRoom (S + 1) (r.ringTail ((S + 1) % QUEUE_DEPTH)) := by
  have hle := h.le
  have hroom := h.room
  refine ⟨h.head, rfl, Nat.le_succ_of_le hle, h.room, h.slots, ?_⟩
  -- the tail is less than a ring from the head
  have hne : (S + 1) % QUEUE_DEPTH ≠ r.sqHead := by
    rw [h.head]
    intro heq
    have hdvd : QUEUE_DEPTH ∣ S + 1 - r.fetches := (Nat.modEq_iff_dvd' (by omega)).mp heq.symm
    have := Nat.le_of_dvd (by omega) hdvd
    omega
  have hbeq : ((S + 1) % QUEUE_DEPTH == r.sqHead) = false := by simpa using hne
  simp only [Ring.ringTail, h.clear, hbeq, Bool.false_and, Bool.or_false]

/-- Only the submission side of a ring counts. -/
theorem InRoom.congr (h : InRoom n r) (hhead : r'.sqHead = r.sqHead) (htail : r'.sqTail = r.sqTail)
    (hfetches : r'.fetches = r.fetches) (hsubmitted : r'.submitted = r.submitted)
    (hfetched : r'.fetched = r.fetched) (hoverrun : r'.overrun = r.overrun) : InRoom n r' where
  head := by rw [hhead, hfetches, h.head]
  tail := by rw [htail, h.tail]
  le := by rw [hfetches]; exact h.le
  room := by rw [hsubmitted, hfetches]; exact h.room
  slots := by rw [hfetched, hfetches, hsubmitted]; exact h.slots
  clear := by rw [hoverrun, h.clear]

/-- The controller fetches what is there, so there is as much room as before. -/
theorem inRoom_carried (P : Platform) (i : QueueId) (n : Nat) :
    Carried P (anyController P) i (fun w => (w.ring i).overrun = false)
      fun w => InRoom n (w.ring i) where
  inv := fun _ h => h.clear
  step := fun _ _ _ h henv =>
    h.step (henv.ringStep (anyController_keeps fun _ => True) trivial i)

/-- The frame of a run of calls: each of them submits one command. -/
theorem inRoom_frame (P : Platform) (i : QueueId) :
    RunFrame P (anyController P) (Roomy i) i (fun w => (w.ring i).overrun = false)
      (fun _ S _ w => InRoom S (w.ring i)) (fun _ S _ w => InRoom S (w.ring i))
      (fun _ S _ w => InRoom S (w.ring i)) (fun _ S _ w => InRoom (S + 1) (w.ring i))
      (fun _ S _ _ w => InRoom (S + 1) (w.ring i)) := by
  refine ⟨fun T S E => inRoom_carried P i S, fun T S E w hat hj _ => ?_, fun T S E command => ?_,
    fun T S E => ?_, fun T S E w c hat htook hj => ?_, fun T S E w hat hseen hj => ?_⟩
  · rw [World.mark, World.setRing_ring_self]
    exact hj.congr rfl rfl rfl rfl rfl rfl
  · have hslot : S % QUEUE_DEPTH < QUEUE_DEPTH := Nat.mod_lt _ (by decide)
    refine ⟨inRoom_carried P i S, inRoom_carried P i S, inRoom_carried P i (S + 1),
      fun w hat hj hroom => ?_, fun w hat hj => ?_⟩
    · rw [storeSqe_ring hslot]
      -- the guard says that there is room, which the code does not look at
      exact hj.store hat.submitted hroom _
    · rw [World.setRing_ring_self]
      exact hj.ringTail hat.submitted
  · have hslot : T % QUEUE_DEPTH < QUEUE_DEPTH := Nat.mod_lt _ (by decide)
    refine ⟨inRoom_carried P i (S + 1), fun c => inRoom_carried P i (S + 1),
      fun w c E hat hj => ?_, fun w E hat hj _ => ?_⟩
    · -- the completion side leaves the submission ring alone
      rw [pollCqe_ring hslot]
      exact hj.congr rfl rfl rfl rfl rfl rfl
    · rw [World.setRing_ring_self]
      exact hj.congr rfl rfl rfl rfl rfl rfl
  · rw [World.mark, World.setRing_ring_self]
    exact hj.congr rfl rfl rfl rfl rfl rfl
  · rw [World.mark, World.setRing_ring_self]
    exact hj.congr rfl rfl rfl rfl rfl rfl

/-- **The submission ring does not overflow** in a run in which a command is written only while
at most 62 others are unfetched. -/
theorem never_overrun (P : Platform) (i : QueueId) (w₀ : World) (h : Fresh P i w₀)
    (commands : List SubmissionQueueEntry)
    (c : Config Op Res World (Outcome IoError Unit × QueuePair))
    (hc : (machine P (anyController P) (Roomy i)).Reaches
      (submitAll P i commands i.queuePair, w₀) c) : (c.2.ring i).overrun = false := by
  have hroom : InRoom 0 (w₀.ring i) := by
    rw [h.ring]
    exact ⟨rfl, rfl, le_rfl, by decide, fun s hs => by simp [Ring.fresh] at hs, rfl⟩
  exact (submitAll_triple (anyController_keeps _) (inRoom_frame P i) commands i.queuePair w₀
    ⟨0, 0, 0, .queuePair i, h.at, hroom⟩ c hc).1.2

/-- One command, answered. -/
theorem never_overrun_one : ∃ c : Config Op Res World (Outcome IoError Unit × QueuePair),
    (machine .twoPages (anyController .twoPages) (Roomy .io)).Reaches
        (submitAll .twoPages .io [nvmeRead 1 0 0 0 0] QueueId.io.queuePair, World.zeroed) c ∧
      (c.2.ring .io).submitted = 1 ∧ (c.2.ring .io).overrun = false := by
  have hfresh := World.fresh_zeroed .twoPages .io
  -- only the writing of a command is restricted, and the ring is empty
  have hnonSqes : AllowsNonSqes (Roomy .io) := by
    intro o w ho
    cases o
    case writeSqe offset entry => exact absurd rfl (ho offset entry)
    all_goals trivial
  have hroomy : (World.zeroed.ring .io).unfetched + 1 < QUEUE_DEPTH := by decide
  obtain ⟨q', w', hreach, hallTaken⟩ := (hfresh.allTaken rfl).answered (G := Roomy .io)
    (nvmeRead 1 0 0 0 0) hnonSqes (Platform.twoPages_covers .io) (by exact hroomy)
    anyController_answers
  have hall := submitAll_cons_reaches [] hreach .refl
  exact ⟨_, hall, hallTaken.submitted, never_overrun .twoPages .io .zeroed hfresh _ _ hall⟩

/-! ### A controller that fetches nothing -/

/-- Nothing was fetched or posted. -/
structure Unfetched (P : Platform) (i : QueueId) (S : Nat) (q : QueuePair) (l : Ledger)
    (w : World) : Prop extends AtLedger P i l w where
  driven : Driven q i l.taken l.submitted
  drained : l.posted.length = l.taken
  count : l.submitted = S
  none : l.fetched = 0

variable {q : QueuePair} {l : Ledger}

/-- Any number of calls, each of which times out. -/
theorem Unfetched.expire (command : SubmissionQueueEntry)
    (hbar : P.bar.Covers i.number P.stride) (n : Nat) (h : Unfetched P i S q l w) :
    ∃ q' l' w', (machine P C Always).Reaches
        (submitAll P i (List.replicate n command) q, w) (.pure (.ok (), q'), w') ∧
      Unfetched P i (S + n) q' l' w' := by
  induction n generalizing S q l w with
  | zero => exact ⟨q, l, w, .refl, h⟩
  | succ n ih =>
    -- the controller fetches nothing, so that the call times out
    obtain ⟨w₁, seen, hreach, hsingle⟩ := (h.toAtLedger.issue command).expires (C := C)
      allowsNonSqes_always hbar h.driven trivial .refl rfl rfl h.drained
    obtain ⟨q', l', w', hrest, h'⟩ := ih (S := S + 1)
      ⟨hsingle, h.driven.submit, h.drained, congrArg (· + 1) h.count, h.none⟩
    rw [Nat.add_assoc, Nat.add_comm 1 n] at h'
    exact ⟨q', l', w', submitAll_cons_reaches _ hreach hrest, h'⟩

/-- The 64th command that is not fetched brings the tail onto the head: the full ring looks
empty, and the controller has all of its commands to fetch. -/
theorem unfetched_overrun : ∃ c : Config Op Res World (Outcome IoError Unit × QueuePair),
    (machine .twoPages (answeringController .twoPages) Always).Reaches
        (submitAll .twoPages .io (List.replicate 63 (nvmeRead 1 0 0 0 0) ++ [nvmeRead 1 0 0 0 0])
          QueueId.io.queuePair, World.zeroed) c ∧
      (c.2.ring .io).overrun = true ∧ (c.2.ring .io).sqTail = (c.2.ring .io).sqHead ∧
      (c.2.ring .io).unfetched = 64 := by
  have hbar := Platform.twoPages_covers .io
  have hfresh := (World.fresh_zeroed .twoPages .io).allTaken rfl
  -- 63 commands that nobody fetches, each given up after its polls
  obtain ⟨q, l, w, hothers, h⟩ := Unfetched.expire (C := answeringController .twoPages)
    (S := 0) (nvmeRead 1 0 0 0 0) hbar 63
    ⟨hfresh.toAtLedger, hfresh.driven, hfresh.drained, rfl, rfl⟩
  have hS : l.submitted = 63 := h.count
  have hissue := h.toAtLedger.issue (nvmeRead 1 0 0 0 0)
  obtain ⟨w', hpolls, hpoll⟩ := poll_expires (C := answeringController .twoPages) (G := Always)
    (POLL_LIMIT + 1) (.ofNat l.submitted) allowsNonSqes_always.allowsNonFills h.driven.submit
    hissue.ok hissue.taken (hissue.posted ▸ h.drained)
  -- the 64th comes round to the slot of the first
  have hlast := submitOne_reaches (x := .error .pollTimeout) allowsNonSqes_always hbar
    h.driven trivial .refl hpoll
  refine ⟨_, submitAll_append_reaches hothers (submitAll_cons_reaches [] hlast .refl), ?_⟩
  have hhead : (w.ring .io).sqHead = 0 := by rw [h.head, h.none]; rfl
  have hfetches : (w.ring .io).fetches = 0 := h.fetches.trans h.none
  have hsubmitted : (w.ring .io).submitted = 63 := h.submitted.trans hS
  have hring : (w'.mark (.endSubmit .io (.error .pollTimeout))).ring .io =
      (w'.ring .io).endSubmit (.error .pollTimeout) := World.setRing_ring_self _
  rw [hring, hpolls.ring, issue_ring, hS, World.mark, World.setRing_ring_self]
  refine ⟨?_, ?_, ?_⟩
  · simp [Ring.endSubmit, Ring.ringTail, Ring.store, Ring.beginSubmit, hhead, hfetches, hsubmitted,
      QUEUE_DEPTH]
  · simp [Ring.endSubmit, Ring.ringTail, Ring.store, Ring.beginSubmit, hhead, QUEUE_DEPTH]
  · simp [Ring.endSubmit, Ring.ringTail, Ring.store, Ring.beginSubmit, hfetches, hsubmitted,
      Ring.unfetched]

end Nvmetoy
