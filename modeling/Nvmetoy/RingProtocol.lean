import Nvmetoy.Controller

/-!
# The ring protocol

What the driver and the controller agree on about one queue pair, at every step of a run.

* `RingStep` — what a step of the controller can do to a ring, derived once from `EnvStep`;
  every invariant of a ring is kept by cases on it.
* `RingOk` — the completion ring: the driver's head, the controller's tail, and the phase
  tags in the slots (`PhaseRing.Holds`).
* `Driven` — the driver's side: its indices, expected phase and next identifier, as
  functions of how many completions it has taken and how many commands it has submitted.
* `submit_triple`, `poll_triple` — the two halves of `submit_and_wait`. What else holds of
  the world is carried through them by a frame (`SubmitFrame`, `PollFrame`).
-/

namespace Nvmetoy

open Framework Machine NvmeUserspaceDriver

variable {P : Platform} {C : Behaviour} {w w' : World} {i j : QueueId}

/-! ### Where things are -/

/-- An offset of a submission ring names a slot of it. -/
theorem QueueId.sqSlot_self {s : Nat} (h : s < QUEUE_DEPTH) :
    i.sqSlot (i.submissionOffset + 64 * s) = some s := by
  unfold QueueId.sqSlot
  rw [if_pos (by unfold QUEUE_DEPTH at *; omega), Nat.add_sub_cancel_left,
    Nat.mul_div_cancel_left _ (by decide)]

theorem QueueId.sqSlot_of_ne {s : Nat} (h : s < QUEUE_DEPTH) (hij : j ≠ i) :
    j.sqSlot (i.submissionOffset + 64 * s) = none := by
  unfold QUEUE_DEPTH at h
  cases i <;> cases j <;>
    simp_all [QueueId.sqSlot, QueueId.submissionOffset, ADMIN_SUBMISSION_QUEUE_OFFSET,
      IO_SUBMISSION_QUEUE_OFFSET, QUEUE_DEPTH] <;> omega

theorem QueueId.inCompletions_self {s : Nat} (h : s < QUEUE_DEPTH) :
    i.InCompletions (i.completionOffset + 16 * s) := by
  unfold QueueId.InCompletions QUEUE_DEPTH at *
  omega

theorem QueueId.not_inCompletions_of_ne {s : Nat} (h : s < QUEUE_DEPTH) (hij : j ≠ i) :
    ¬ j.InCompletions (i.completionOffset + 16 * s) := by
  unfold QUEUE_DEPTH at h
  cases i <;> cases j <;>
    simp_all [QueueId.InCompletions, QueueId.completionOffset, ADMIN_COMPLETION_QUEUE_OFFSET,
      IO_COMPLETION_QUEUE_OFFSET, QUEUE_DEPTH] <;> omega

namespace World

@[simp] theorem setRing_ring_self (r : Ring) : (w.setRing i r).ring i = r := by simp [setRing]

@[simp] theorem setRing_ring_of_ne {r : Ring} (h : j ≠ i) : (w.setRing i r).ring j = w.ring j := by
  simp [setRing, h]

/-- What relates the ring that was changed to the one it was, relates them all. -/
theorem ring_rel {R : Ring → Ring → Prop} (hrefl : ∀ r, R r r)
    (hothers : ∀ j, j ≠ i → w'.ring j = w.ring j) (h : R (w.ring i) (w'.ring i)) (j : QueueId) :
    R (w.ring j) (w'.ring j) := by
  by_cases hj : j = i
  · exact hj ▸ h
  · rw [hothers j hj]
    exact hrefl _

/-- A field that the change leaves as it is. -/
theorem ring_field {β : Type} (f : Ring → β) (hothers : ∀ j, j ≠ i → w'.ring j = w.ring j)
    (h : f (w'.ring i) = f (w.ring i)) (j : QueueId) : f (w'.ring j) = f (w.ring j) :=
  ring_rel (R := fun r r' => f r' = f r) (fun _ => rfl) hothers h j

/-- A relation of each ring to itself needs proof at the changed ring only. -/
theorem setRing_rel {R : Ring → Ring → Prop} {r : Ring} (hrefl : ∀ r, R r r)
    (h : R (w.ring i) r) (j : QueueId) : R (w.ring j) ((w.setRing i r).ring j) :=
  ring_rel hrefl (fun _ => setRing_ring_of_ne) (by rwa [setRing_ring_self]) j

theorem setRing_field {β : Type} (f : Ring → β) {r : Ring} (h : f r = f (w.ring i))
    (j : QueueId) : f ((w.setRing i r).ring j) = f (w.ring j) :=
  setRing_rel (R := fun r r' => f r' = f r) (fun _ => rfl) h j

@[simp] theorem setRing_mem (r : Ring) : (w.setRing i r).mem = w.mem := rfl

@[simp] theorem setRing_enabled (r : Ring) : (w.setRing i r).enabled = w.enabled := rfl

@[simp] theorem sqe_setRing (r : Ring) : (w.setRing i r).sqe P j = w.sqe P j := rfl

@[simp] theorem cqe_setRing (r : Ring) : (w.setRing i r).cqe P j = w.cqe P j := rfl

/-- The entries of a ring only depend on the memory. -/
theorem sqe_congr {s : Nat} (h : ∀ x, address P (i.submissionOffset + 64 * s) ≤ x →
    x < address P (i.submissionOffset + 64 * s) + 64 → w'.mem x = w.mem x) :
    w'.sqe P i s = w.sqe P i s :=
  congrArg _ (Mem.read_congr h)

/-- A slot is the sixteen bytes it occupies. -/
theorem cqe_congr {s : Nat} (h : ∀ x, address P (i.completionOffset + 16 * s) ≤ x →
    x < address P (i.completionOffset + 16 * s) + 16 → w'.mem x = w.mem x) :
    w'.cqe P i s = w.cqe P i s :=
  congrArg _ (Mem.read_congr h)

/-- A doorbell of the queue reaches its ring. -/
theorem writeRegister_submission (value : UInt32) :
    w.writeRegister P (NvmeBar.submissionDoorbell i.number P.stride) value =
      w.setRing i ((w.ring i).ringTail value.toNat) := by
  have hstride := P.stride_pos
  cases i with
  | admin => exact if_pos rfl
  | io =>
    have hnumber : IO_QUEUE_ID.toNat = 1 := rfl
    have hzero : (0 : UInt16).toNat = 0 := rfl
    simp only [writeRegister, QueueId.number, NvmeBar.submissionDoorbell,
      NvmeBar.completionDoorbell, hnumber, hzero]
    rw [if_neg (by omega), if_neg (by omega), if_pos trivial]

/-- The completion doorbell of a queue moves that queue's head. -/
theorem writeRegister_completion (value : UInt32) :
    w.writeRegister P (NvmeBar.completionDoorbell i.number P.stride) value =
      w.setRing i ((w.ring i).ringHead value.toNat) := by
  have hstride := P.stride_pos
  have hnumber : IO_QUEUE_ID.toNat = 1 := rfl
  have hzero : (0 : UInt16).toNat = 0 := rfl
  cases i <;>
    simp only [writeRegister, QueueId.number, NvmeBar.submissionDoorbell,
      NvmeBar.completionDoorbell, hnumber, hzero]
  · rw [if_neg (by omega), if_pos trivial]
  · rw [if_neg (by omega), if_neg (by omega), if_neg (by omega), if_pos trivial]

end World

/-! ### The controller's steps, seen from one ring -/

/-- The ring is the same, but for the status of its commands. -/
structure Ring.Same (r r' : Ring) : Prop where
  rest : r' = { r with live := r'.live }
  live : r'.live.map (fun c => (c.number, c.entry)) = r.live.map fun c => (c.number, c.entry)

theorem Ring.Same.refl (r : Ring) : r.Same r := ⟨rfl, rfl⟩

/-- A step keeps a ring and the memory of its slots. -/
structure RingKept (P : Platform) (i : QueueId) (w w' : World) : Prop where
  ring : (w.ring i).Same (w'.ring i)
  sqe : ∀ s, s < QUEUE_DEPTH → w'.sqe P i s = w.sqe P i s
  cqe : ∀ s, s < QUEUE_DEPTH → w'.cqe P i s = w.cqe P i s

/-- What a step of the controller does to ring `i`. -/
inductive RingStep (P : Platform) (C : Behaviour) (i : QueueId) (w w' : World) : Prop where
  | keep (h : RingKept P i w w')
  | fetch (hpending : (w.ring i).sqHead ≠ (w.ring i).sqTail)
      (hring : w'.ring i = (w.ring i).fetch (w.sqe P i (w.ring i).sqHead))
      (hsqe : ∀ s, s < QUEUE_DEPTH → w'.sqe P i s = w.sqe P i s)
      (hcqe : ∀ s, s < QUEUE_DEPTH → w'.cqe P i s = w.cqe P i s)
  | post (c : CompletionQueueEntry) (k : Nat) (live : List FetchedCommand)
      (hroom : ((w.ring i).posted.length + 1) % QUEUE_DEPTH ≠ (w.ring i).cqHead)
      (hphase : c.phase = PhaseRing.phaseOf QUEUE_DEPTH (w.ring i).posted.length)
      (hmay : C.mayPost (w.ring i) c k live) (hring : w'.ring i = (w.ring i).post c k live)
      (hsqe : ∀ s, s < QUEUE_DEPTH → w'.sqe P i s = w.sqe P i s)
      (hnew : w'.cqe P i ((w.ring i).posted.length % QUEUE_DEPTH) = c)
      (hcqe : ∀ s, s < QUEUE_DEPTH → s ≠ (w.ring i).posted.length % QUEUE_DEPTH →
        w'.cqe P i s = w.cqe P i s)

/-- The transfers of the controller keep the rings, where `K` holds. -/
def Behaviour.Keeps (P : Platform) (C : Behaviour) (K : World → Prop) : Prop :=
  ∀ w w', K w → C.transfer w w' → ∀ i, RingKept P i w w'

/-- The slots of the rings lie in the first four pages of the region, apart from each
other. -/
theorem QueueId.slots_apart (i j : QueueId) {s t : Nat} (hs : s < QUEUE_DEPTH)
    (ht : t < QUEUE_DEPTH) :
    i.submissionOffset + 64 * s + 64 ≤ PRP_LIST_OFFSET ∧
    i.completionOffset + 16 * t + 16 ≤ PRP_LIST_OFFSET ∧
    (i.submissionOffset + 64 * s + 64 ≤ j.completionOffset + 16 * t ∨
      j.completionOffset + 16 * t + 16 ≤ i.submissionOffset + 64 * s) := by
  unfold QUEUE_DEPTH at hs ht
  cases i <;> cases j <;>
    simp only [QueueId.submissionOffset, QueueId.completionOffset, ADMIN_SUBMISSION_QUEUE_OFFSET,
      ADMIN_COMPLETION_QUEUE_OFFSET, IO_SUBMISSION_QUEUE_OFFSET, IO_COMPLETION_QUEUE_OFFSET,
      PRP_LIST_OFFSET] <;> omega

/-- The slots of different completion rings do not overlap. -/
theorem QueueId.completions_apart {i j : QueueId} (h : j ≠ i) {s t : Nat} (hs : s < QUEUE_DEPTH)
    (ht : t < QUEUE_DEPTH) :
    i.completionOffset + 16 * s + 16 ≤ j.completionOffset + 16 * t ∨
      j.completionOffset + 16 * t + 16 ≤ i.completionOffset + 16 * s := by
  unfold QUEUE_DEPTH at hs ht
  cases i <;> cases j <;>
    simp_all [QueueId.completionOffset, ADMIN_COMPLETION_QUEUE_OFFSET,
      IO_COMPLETION_QUEUE_OFFSET] <;> omega

/-- Whatever the controller writes outside the rings keeps them. -/
theorem Scribbles.keeps (h : Scribbles P w w') (i : QueueId) : RingKept P i w w' where
  ring := by rw [h.rest]; exact .refl _
  sqe := fun s hs => World.sqe_congr fun x hx hlt => by
    have happart := (QueueId.slots_apart i i hs hs).1
    refine h.mem x (le_trans ?_ hx) (lt_of_lt_of_le hlt ?_) <;> simp only [World.address] <;> omega
  cqe := fun s hs => World.cqe_congr fun x hx hlt => by
    have happart := (QueueId.slots_apart i i hs hs).2.1
    refine h.mem x (le_trans ?_ hx) (lt_of_lt_of_le hlt ?_) <;> simp only [World.address] <;> omega

/-- Neither controller is asked to keep anything. -/
theorem anyController_keeps (K : World → Prop) : (anyController P).Keeps P K :=
  fun _ _ _ h => h.keeps

theorem answeringController_keeps (K : World → Prop) : (answeringController P).Keeps P K :=
  fun _ _ _ h => h.keeps

/-- A posted completion is in its slot. -/
theorem cqe_of_write {s : Nat} {c : CompletionQueueEntry}
    (h : w'.mem = w.mem.write (World.address P (i.completionOffset + 16 * s)) c.encode) :
    w'.cqe P i s = c := by
  have hlen : c.encode.length = 16 := c.length_encode
  rw [World.cqe, h, ← hlen, Mem.read_write_self, CompletionQueueEntry.decode_encode]

/-- **Inversion of a step**, for one ring. -/
theorem EnvStep.ringStep {K : World → Prop} (hC : C.Keeps P K) (hK : K w)
    (h : EnvStep P C w w') (i : QueueId) : RingStep P C i w w' := by
  cases h with
  | fetch j hpending henabled =>
    by_cases hij : j = i
    · subst hij
      exact .fetch hpending (by simp) (fun _ _ => rfl) fun _ _ => rfl
    -- a fetch of the other ring: this one and the memory are as they were
    · have hring : (w.setRing j ((w.ring j).fetch (w.sqe P j (w.ring j).sqHead))).ring i =
          w.ring i := World.setRing_ring_of_ne (Ne.symm hij)
      exact .keep ⟨by rw [hring]; exact .refl _, fun _ _ => rfl, fun _ _ => rfl⟩
  | @post j c k live hroom hphase hmay henabled =>
    have hslot : (w.ring j).posted.length % QUEUE_DEPTH < QUEUE_DEPTH :=
      Nat.mod_lt _ (by decide)
    have hlen : c.encode.length = 16 := c.length_encode
    have hsqe (s : Nat) (hs : s < QUEUE_DEPTH) := (QueueId.slots_apart i j hs hslot).2.2
    by_cases hij : j = i
    · subst hij
      refine .post c k live hroom hphase hmay (by simp) (fun s hs => World.sqe_congr ?_)
        (cqe_of_write rfl) fun s hs hne => World.cqe_congr ?_
      -- the entry written lies in the completion queue, which no submission slot meets
      · intro x hx hlt
        have := hsqe s hs
        refine Mem.write_of_outside ?_
        simp only [World.address, hlen] at hx hlt ⊢
        omega
      · intro x hx hlt
        refine Mem.write_of_outside ?_
        simp only [World.address, hlen] at hx hlt ⊢
        omega
    · have hring : (w.setRing j ((w.ring j).post c k live)).ring i = w.ring i :=
        World.setRing_ring_of_ne (Ne.symm hij)
      -- a post to the other ring: its slot is apart from every slot of this one
      refine .keep ⟨?_, fun s hs => World.sqe_congr ?_, fun s hs => World.cqe_congr ?_⟩
      · change (w.ring i).Same ((w.setRing j ((w.ring j).post c k live)).ring i)
        rw [hring]
        exact .refl _
      · intro x hx hlt
        have := hsqe s hs
        refine Mem.write_of_outside ?_
        simp only [World.address, hlen] at hx hlt ⊢
        omega
      · intro x hx hlt
        have := QueueId.completions_apart hij hs hslot
        refine Mem.write_of_outside ?_
        simp only [World.address, hlen] at hx hlt ⊢
        omega
  -- what a transfer may touch is the assumption on the controller
  | transfer h henabled => exact .keep (hC _ _ hK h i)

/-! ### The completion ring -/

/-- The completion ring of queue `i`: the driver has taken the first completions posted, in
order, at most a ring's length behind, and the slots hold the last ones posted. -/
structure RingOk (P : Platform) (i : QueueId) (w : World) : Prop where
  head : (w.ring i).cqHead = (w.ring i).taken.length % QUEUE_DEPTH
  le : (w.ring i).taken.length ≤ (w.ring i).posted.length
  room : (w.ring i).posted.length < (w.ring i).taken.length + QUEUE_DEPTH
  taken : (w.ring i).taken = ((w.ring i).posted.map Prod.fst).take (w.ring i).taken.length
  holds : PhaseRing.Holds QUEUE_DEPTH CompletionQueueEntry.phase (w.cqe P i)
    ((w.ring i).posted.map Prod.fst)

/-- Two consecutive residues: a ring that is not full has room for one more. -/
theorem room_succ {posted taken : Nat} (hroom : posted < taken + QUEUE_DEPTH)
    (hfull : (posted + 1) % QUEUE_DEPTH ≠ taken % QUEUE_DEPTH) :
    posted + 1 < taken + QUEUE_DEPTH := by
  rcases Nat.lt_or_ge (posted + 1) (taken + QUEUE_DEPTH) with h | h
  · exact h
  · have heq : posted + 1 = taken + QUEUE_DEPTH := by omega
    rw [heq, Nat.add_mod_right] at hfull
    exact absurd rfl hfull

/-- **The completion ring is kept** by every step of the controller. -/
theorem RingOk.step (hok : RingOk P i w) (h : RingStep P C i w w') : RingOk P i w' := by
  cases h with
  | keep h =>
    have hring : w'.ring i = { w.ring i with live := (w'.ring i).live } := h.ring.rest
    refine ⟨?_, ?_, ?_, ?_, ?_⟩
    · rw [hring]; exact hok.head
    · rw [hring]; exact hok.le
    · rw [hring]; exact hok.room
    · rw [hring]; exact hok.taken
    · rw [hring]; exact hok.holds.congr (by decide) h.cqe
  -- a fetch is on the submission side
  | fetch _ hring _ hcqe =>
    refine ⟨?_, ?_, ?_, ?_, ?_⟩ <;> rw [hring]
    · exact hok.head
    · exact hok.le
    · exact hok.room
    · exact hok.taken
    · exact hok.holds.congr (by decide) hcqe
  | post c k live hroom hphase hmay hring hsqe hnew hcqe =>
    refine ⟨?_, ?_, ?_, ?_, ?_⟩ <;> rw [hring] <;>
      simp only [Ring.post, List.length_append, List.length_cons, List.length_nil, List.map_append,
        List.map_cons, List.map_nil]
    · exact hok.head
    · have := hok.le
      omega
    · exact room_succ hok.room (hok.head ▸ hroom)
    · rw [List.take_append_of_le_length (by simpa using hok.le)]
      exact hok.taken
    -- the phase tag of the new entry is what the ring holds the slot to
    · refine hok.holds.post (by decide) ?_ ?_ ?_
      · rw [hphase, List.length_map]
      · rw [List.length_map]
        exact hnew
      · rw [List.length_map]
        exact hcqe

/-- Where the history of a queue stands: the completions taken, the commands submitted, the
tail last rung, and the submissions that expired. -/
structure At (P : Platform) (i : QueueId) (taken submitted tail expired : Nat) (w : World) :
    Prop where
  ok : RingOk P i w
  taken : (w.ring i).taken.length = taken
  submitted : (w.ring i).submitted = submitted
  tail : (w.ring i).sqTail = tail
  expired : (w.ring i).expired = expired

/-- A ring after a step of the controller: what the driver has done is as it was, and
completions are only added. -/
structure Ring.Later (r r' : Ring) : Prop where
  posted : r.posted <+: r'.posted
  sqTail : r'.sqTail = r.sqTail
  cqHead : r'.cqHead = r.cqHead
  submitted : r'.submitted = r.submitted
  issuer : r'.issuer = r.issuer
  cid : r'.cid = r.cid
  taken : r'.taken = r.taken
  polled : r'.polled = r.polled
  polls : r'.polls = r.polls
  seen : r'.seen = r.seen
  expired : r'.expired = r.expired
  begun : r'.begun = r.begun
  records : r'.records = r.records
  overrun : r'.overrun = r.overrun

/-- Every step of the controller only adds to the history of a ring. -/
theorem RingStep.later (h : RingStep P C i w w') : (w.ring i).Later (w'.ring i) := by
  cases h with
  | keep h =>
    rw [h.ring.rest]
    exact ⟨List.prefix_refl _, rfl, rfl, rfl, rfl, rfl, rfl, rfl, rfl, rfl, rfl, rfl, rfl, rfl⟩
  | fetch _ hring =>
    rw [hring]
    exact ⟨List.prefix_refl _, rfl, rfl, rfl, rfl, rfl, rfl, rfl, rfl, rfl, rfl, rfl, rfl, rfl⟩
  | post c k _ _ _ _ hring =>
    rw [hring]
    exact ⟨⟨[(c, k)], rfl⟩, rfl, rfl, rfl, rfl, rfl, rfl, rfl, rfl, rfl, rfl, rfl, rfl, rfl⟩

/-- What has been posted stays where it is. -/
theorem Ring.Later.getElem {r r' : Ring} (h : r.Later r') {k : Nat} {c : CompletionQueueEntry}
    (hk : (r.posted.map Prod.fst)[k]? = some c) : (r'.posted.map Prod.fst)[k]? = some c := by
  obtain ⟨more, hmore⟩ := h.posted
  rw [← hmore, List.map_append, List.getElem?_append_left (List.getElem?_eq_some_iff.mp hk).1]
  exact hk

/-- The controller moves neither index of the driver, nor what it has taken. -/
theorem At.step {T S t E : Nat} (hat : At P i T S t E w) (h : RingStep P C i w w') :
    At P i T S t E w' :=
  let hd := h.later
  ⟨hat.ok.step h, by rw [hd.taken, hat.taken], by rw [hd.submitted, hat.submitted],
    by rw [hd.sqTail, hat.tail], by rw [hd.expired, hat.expired]⟩

/-- The indices of the submission ring are indices. -/
structure Indexed (r : Ring) : Prop where
  head : r.sqHead < QUEUE_DEPTH
  tail : r.sqTail < QUEUE_DEPTH

/-- The controller keeps its own indices on the ring. -/
theorem Indexed.step (h : Indexed (w.ring i)) (hstep : RingStep P C i w w') :
    Indexed (w'.ring i) := by
  refine ⟨?_, hstep.later.sqTail ▸ h.tail⟩
  -- only a fetch moves the head, and it moves it around the ring
  cases hstep with
  | keep hkeep =>
    rw [hkeep.ring.rest]
    exact h.head
  | fetch _ hring =>
    rw [hring]
    exact Nat.mod_lt _ (by decide)
  | post _ _ _ _ _ _ hring =>
    rw [hring]
    exact h.head

/-! ### The driver's side -/

/-- The queue pair of a driver that has taken `taken` completions and submitted `submitted`
commands. -/
structure Driven (q : QueuePair) (i : QueueId) (taken submitted : Nat) : Prop where
  id : q.id = i.number
  submissionOffset : q.submissionOffset = i.submissionOffset
  completionOffset : q.completionOffset = i.completionOffset
  head : q.completionHead = taken % QUEUE_DEPTH
  phase : q.completionPhase = PhaseRing.phaseOf QUEUE_DEPTH taken
  tail : q.submissionTail = submitted % QUEUE_DEPTH
  cid : q.nextCid = UInt16.ofNat submitted

variable {q : QueuePair} {T S : Nat}

/-- A fresh queue pair has submitted and taken nothing. -/
theorem Driven.queuePair (i : QueueId) : Driven i.queuePair i 0 0 :=
  ⟨rfl, rfl, rfl, rfl, rfl, rfl, rfl⟩

/-- After a submission. -/
theorem Driven.submit (h : Driven q i T S) : Driven q.takeCid.advanceTail i T (S + 1) where
  id := h.id
  submissionOffset := h.submissionOffset
  completionOffset := h.completionOffset
  head := h.head
  phase := h.phase
  tail := by
    rw [QueuePair.advanceTail_submissionTail, QueuePair.takeCid_submissionTail, h.tail,
      PhaseRing.succ_mod]
  cid := by
    rw [QueuePair.advanceTail_nextCid, QueuePair.takeCid_nextCid, h.cid]
    exact UInt16.toNat_inj.mp (by simp)

/-- After a completion. -/
theorem Driven.advanceHead (h : Driven q i T S) : Driven q.advanceHead i (T + 1) S where
  id := h.id
  submissionOffset := h.submissionOffset
  completionOffset := h.completionOffset
  head := by rw [QueuePair.advanceHead_completionHead, h.head, PhaseRing.succ_mod]
  phase := by
    simp only [QueuePair.advanceHead, h.head, h.phase, PhaseRing.succ_mod, PhaseRing.phaseOf_succ]
  tail := h.tail
  cid := h.cid

/-- The next entry goes to the slot of the submissions made so far. -/
theorem Driven.sqeOffset (h : Driven q i T S) :
    q.sqeOffset = i.submissionOffset + 64 * (S % QUEUE_DEPTH) := by
  rw [QueuePair.sqeOffset, h.submissionOffset, h.tail, SubmissionQueueEntry.SIZE, Nat.mul_comm]

theorem Driven.cqeOffset (h : Driven q i T S) :
    q.cqeOffset = i.completionOffset + 16 * (T % QUEUE_DEPTH) := by
  rw [QueuePair.cqeOffset, h.completionOffset, h.head, CompletionQueueEntry.SIZE, Nat.mul_comm]

/-- Its rings are where the driver put them. -/
theorem Driven.placed (h : Driven q i T S) :
    q.Placed i.number i.submissionOffset i.completionOffset where
  id_eq := h.id
  submission_eq := h.submissionOffset
  completion_eq := h.completionOffset
  tail_lt := h.tail ▸ Nat.mod_lt _ (by decide)
  head_lt := h.head ▸ Nat.mod_lt _ (by decide)

/-- The rings of both queues lie in the hugepage. -/
theorem QueueId.rings (i : QueueId) :
    QueuePair.Rings P.region i.submissionOffset i.completionOffset := by
  have hlength : P.region.length = HUGE_PAGE_SIZE := rfl
  cases i <;> exact ⟨rfl, rfl, hlength ▸ by decide, hlength ▸ by decide, hlength ▸ by decide⟩

/-! ### The driver's operations, on the world -/

section Operations

variable {t E : Nat} {s : Nat} {e : SubmissionQueueEntry} {c : CompletionQueueEntry}

/-- The entry is stored in the ring the offset belongs to. -/
theorem storeSqe_ring (hs : s < QUEUE_DEPTH) :
    (w.storeSqe P (i.submissionOffset + 64 * s) e).ring i = (w.ring i).store s e.cid := by
  simp [World.storeSqe, QueueId.sqSlot_self hs]

theorem storeSqe_ring_of_ne (hs : s < QUEUE_DEPTH) (hij : j ≠ i) :
    (w.storeSqe P (i.submissionOffset + 64 * s) e).ring j = w.ring j := by
  simp [World.storeSqe, QueueId.sqSlot_of_ne hs hij]

/-- A command is written outside the completion rings. -/
theorem storeSqe_cqe (hs : s < QUEUE_DEPTH) {k : Nat} (hk : k < QUEUE_DEPTH) :
    (w.storeSqe P (i.submissionOffset + 64 * s) e).cqe P j k = w.cqe P j k := by
  refine World.cqe_congr fun x hx hlt => Mem.write_of_outside ?_
  have happart := (QueueId.slots_apart i j hs hk).2.2
  have hlen : e.encode.length = 64 := e.length_encode
  simp only [World.address, hlen] at hx hlt ⊢
  omega

/-- The completion ring, where the driver has not taken anything. -/
theorem RingOk.kept (h : RingOk P i w) (hhead : (w'.ring i).cqHead = (w.ring i).cqHead)
    (htaken : (w'.ring i).taken = (w.ring i).taken)
    (hposted : (w'.ring i).posted = (w.ring i).posted)
    (hcqe : ∀ k, k < QUEUE_DEPTH → w'.cqe P i k = w.cqe P i k) : RingOk P i w' where
  head := by rw [hhead, htaken, h.head]
  le := by rw [htaken, hposted]; exact h.le
  room := by rw [htaken, hposted]; exact h.room
  taken := by rw [hposted, htaken]; exact h.taken
  holds := by rw [hposted]; exact h.holds.congr (by decide) hcqe

/-- Only the head, the completions and how many were taken count. -/
theorem RingOk.setRing {r : Ring} (h : RingOk P i w) (hhead : r.cqHead = (w.ring i).cqHead)
    (htaken : r.taken = (w.ring i).taken) (hposted : r.posted = (w.ring i).posted) :
    RingOk P i (w.setRing i r) := by
  refine h.kept ?_ ?_ ?_ fun _ _ => rfl <;> rw [World.setRing_ring_self]
  · exact hhead
  · exact htaken
  · exact hposted

/-- Storing an entry counts as a submission. -/
theorem At.storeSqe (h : At P i T S t E w) (hs : s < QUEUE_DEPTH) :
    At P i T (S + 1) t E (w.storeSqe P (i.submissionOffset + 64 * s) e) := by
  have hring : (w.storeSqe P (i.submissionOffset + 64 * s) e).ring i = _ := storeSqe_ring hs
  have hok : RingOk P i (w.storeSqe P (i.submissionOffset + 64 * s) e) := by
    refine h.ok.kept ?_ ?_ ?_ fun k hk => storeSqe_cqe hs hk
    all_goals rw [hring]; rfl
  refine ⟨hok, ?_, ?_, ?_, ?_⟩ <;> rw [hring]
  · exact h.taken
  · exact congrArg (· + 1) h.submitted
  · exact h.tail
  · exact h.expired

theorem At.ringTail (h : At P i T S t E w) (tail : Nat) :
    At P i T S tail E (w.setRing i ((w.ring i).ringTail tail)) := by
  refine ⟨h.ok.setRing rfl rfl rfl, ?_, ?_, ?_, ?_⟩ <;> rw [World.setRing_ring_self]
  · exact h.taken
  · exact h.submitted
  · rfl
  · exact h.expired

/-- A change of the driver's history of a call. -/
theorem At.setRing {r : Ring} (h : At P i T S t E w) (hhead : r.cqHead = (w.ring i).cqHead)
    (htaken : r.taken = (w.ring i).taken) (hposted : r.posted = (w.ring i).posted)
    (hsubmitted : r.submitted = (w.ring i).submitted) (htail : r.sqTail = (w.ring i).sqTail)
    (hexpired : r.expired = (w.ring i).expired) : At P i T S t E (w.setRing i r) := by
  refine ⟨h.ok.setRing hhead htaken hposted, ?_, ?_, ?_, ?_⟩ <;> rw [World.setRing_ring_self]
  · rw [htaken, h.taken]
  · rw [hsubmitted, h.submitted]
  · rw [htail, h.tail]
  · rw [hexpired, h.expired]

/-- A poll is recorded at the ring it reads. -/
theorem pollCqe_ring (hs : s < QUEUE_DEPTH) :
    (w.pollCqe (i.completionOffset + 16 * s) c).ring i = (w.ring i).poll c := by
  simp [World.pollCqe, QueueId.inCompletions_self hs]

theorem pollCqe_ring_of_ne (hs : s < QUEUE_DEPTH) (hij : j ≠ i) :
    (w.pollCqe (i.completionOffset + 16 * s) c).ring j = w.ring j := by
  simp [World.pollCqe, QueueId.not_inCompletions_of_ne hs hij]

/-- The last poll in vain makes one more expired command. -/
theorem At.pollCqe (h : At P i T S t E w) (hs : s < QUEUE_DEPTH) :
    At P i T S t (if (w.ring i).polls = POLL_LIMIT ∧ (w.ring i).posted.length ≤ T then E + 1
      else E) (w.pollCqe (i.completionOffset + 16 * s) c) := by
  have hring : (w.pollCqe (i.completionOffset + 16 * s) c).ring i = _ := pollCqe_ring hs
  have hok : RingOk P i (w.pollCqe (i.completionOffset + 16 * s) c) := by
    refine h.ok.kept ?_ ?_ ?_ fun _ _ => rfl
    all_goals rw [hring]; rfl
  refine ⟨hok, ?_, ?_, ?_, ?_⟩ <;> rw [hring]
  · exact h.taken
  · exact h.submitted
  · exact h.tail
  · simp only [Ring.poll, h.taken, h.expired]

/-- The tag in the driver's slot says whether there is something to take. -/
theorem RingOk.fresh_iff (h : RingOk P i w) (hT : (w.ring i).taken.length = T) :
    (w.cqe P i (T % QUEUE_DEPTH)).phase = PhaseRing.phaseOf QUEUE_DEPTH T ↔
      T < (w.ring i).posted.length := by
  have hle := h.le
  have hroom := h.room
  rw [hT] at hle hroom
  have := h.holds.fresh_iff (by decide) (by simpa using hle) (by simpa using hroom.le)
  rwa [List.length_map] at this

/-- What is there to take is the next completion that was posted. -/
theorem RingOk.next (h : RingOk P i w) (hT : (w.ring i).taken.length = T)
    (hlt : T < (w.ring i).posted.length) :
    ((w.ring i).posted.map Prod.fst)[T]? = some (w.cqe P i (T % QUEUE_DEPTH)) := by
  have hroom := h.room
  rw [hT] at hroom
  exact h.holds.next (by simpa using hlt) (by simpa using hroom.le)

/-- The doorbell after a completion counts it as taken. -/
theorem At.ringHead (h : At P i T S t E w)
    (hc : ((w.ring i).posted.map Prod.fst)[T]? = some (w.ring i).polled) :
    At P i (T + 1) S t E (w.setRing i ((w.ring i).ringHead ((T + 1) % QUEUE_DEPTH))) := by
  have hlt : T < ((w.ring i).posted.map Prod.fst).length := (List.getElem?_eq_some_iff.mp hc).1
  have hlen : (w.ring i).taken.length = T := h.taken
  have htaken := h.ok.taken
  rw [hlen] at htaken
  refine ⟨⟨?_, ?_, ?_, ?_, ?_⟩, ?_, ?_, ?_, ?_⟩ <;> rw [World.setRing_ring_self] <;>
    simp only [Ring.ringHead, List.length_append, List.length_cons, List.length_nil, hlen]
  · exact Nat.succ_le_of_lt (by simpa using hlt)
  -- one more taken, and room for one more
  · have := h.ok.room
    omega
  · rw [List.take_add_one, hc, ← htaken]
    rfl
  · exact h.ok.holds
  · exact h.submitted
  · exact h.tail
  · exact h.expired

end Operations

/-! ### One call of `submit_and_wait` -/

/-- `J` is carried along by the controller's steps, and keeps the global invariant `K`. -/
structure Carried (P : Platform) (C : Behaviour) (i : QueueId) (K J : World → Prop) : Prop where
  inv : ∀ w, J w → K w
  step : ∀ w w', RingOk P i w → J w → EnvStep P C w w' → J w'

section Triples

variable {G : Op → World → Prop} {K J J₀ J₁ X : World → Prop} {t E n : Nat}
  {command : SubmissionQueueEntry} {cid : UInt16}

/-- What holds at every point of a run. -/
abbrev Global (P : Platform) (i : QueueId) (K : World → Prop) (w : World) : Prop :=
  RingOk P i w ∧ K w

/-- Assertions on the driver's history of a ring are kept by the controller. -/
theorem stable_at (hC : C.Keeps P K) (hJ : Carried P C i K J) {F : Ring → Prop}
    (hF : ∀ r r', Ring.Later r r' → F r → F r') :
    (machine P C G).Stable fun w => At P i T S t E w ∧ F (w.ring i) ∧ J w := by
  rintro w w' ⟨hat, hf, hj⟩ henv
  have hstep := henv.ringStep hC (hJ.inv w hj) i
  exact ⟨hat.step hstep, hF _ _ hstep.later hf, hJ.step w w' hat.ok hj henv⟩

/-- What is carried through `submit`: `J₀` before the command is written, `J₁` until the
doorbell, `J` after it. -/
structure SubmitFrame (P : Platform) (C : Behaviour) (G : Op → World → Prop) (i : QueueId)
    (T S E : Nat) (entry : SubmissionQueueEntry) (K J₀ J₁ J : World → Prop) : Prop where
  before : Carried P C i K J₀
  written : Carried P C i K J₁
  after : Carried P C i K J
  store : ∀ w, At P i T S (S % QUEUE_DEPTH) E w → J₀ w →
    G (.writeSqe (i.submissionOffset + 64 * (S % QUEUE_DEPTH)) entry) w →
    J₁ (w.storeSqe P (i.submissionOffset + 64 * (S % QUEUE_DEPTH)) entry)
  ring : ∀ w, At P i T (S + 1) (S % QUEUE_DEPTH) E w → J₁ w →
    J (w.setRing i ((w.ring i).ringTail ((S + 1) % QUEUE_DEPTH)))

/-- **The first half.** The command is in its slot under its identifier, and the doorbell is
rung with the next tail. It panics before the doorbell, or not at all. -/
theorem submit_triple (hC : C.Keeps P K) (hq : Driven q i T S)
    (hF : SubmitFrame P C G i T S E { command with cid := UInt16.ofNat S } K J₀ J₁ J)
    (hpanic : ∀ w, At P i T (S + 1) (S % QUEUE_DEPTH) E w → J₁ w → X w) :
    (machine P C G).Triple (Global P i K) (fun w => At P i T S (S % QUEUE_DEPTH) E w ∧ J₀ w)
      (QueuePair.submit P.bar P.region P.stride command q) fun x w =>
        (x.1.Panics ∧ X w) ∨ x = (.ok (UInt16.ofNat S), q.takeCid.advanceTail) ∧
          At P i T (S + 1) ((S + 1) % QUEUE_DEPTH) E w ∧ (w.ring i).polls = 0 ∧ J w := by
  have hslot : S % QUEUE_DEPTH < QUEUE_DEPTH := Nat.mod_lt _ (by decide)
  have htail : (UInt32.ofNat ((S + 1) % QUEUE_DEPTH)).toNat = (S + 1) % QUEUE_DEPTH :=
    UInt32.toNat_ofNat_of_lt' (Nat.lt_trans (Nat.mod_lt _ (by decide)) (by decide))
  -- the three points where the controller may act: before the entry is stored, before the doorbell
  -- and after it
  have hbefore : (machine P C G).Stable fun w =>
      At P i T S (S % QUEUE_DEPTH) E w ∧ True ∧ J₀ w :=
    stable_at hC hF.before (F := fun _ => True) fun _ _ _ h => h
  have hwritten : (machine P C G).Stable fun w =>
      At P i T (S + 1) (S % QUEUE_DEPTH) E w ∧ (w.ring i).polls = 0 ∧ J₁ w :=
    stable_at hC hF.written (F := fun r => r.polls = 0) fun r r' hr h => hr.polls.trans h
  have hafter : (machine P C G).Stable fun w =>
      At P i T (S + 1) ((S + 1) % QUEUE_DEPTH) E w ∧ (w.ring i).polls = 0 ∧ J w :=
    stable_at hC hF.after (F := fun r => r.polls = 0) fun r r' hr h => hr.polls.trans h
  simp only [QueuePair.submit, DmaRegion.writeSqe, DmaRegion.readSqe,
    hq.placed.sqe_ok i.rings, NvmeBar.ringSubmissionDoorbell, NvmeBar.write32,
    Method.bind_assoc, Method.get_bind, Method.set_bind, Method.lift_ok_bind]
  -- the store of the entry
  refine (Triple.call_bind (R := fun _ w => At P i T (S + 1) (S % QUEUE_DEPTH) E w ∧
    (w.ring i).polls = 0 ∧ J₁ w) hbefore (fun w hw => ⟨hw.1.ok, hF.before.inv w hw.2.2⟩)
    ?_ fun _ => ?_).pre fun w hw => ⟨hw.1, trivial, hw.2⟩
  · rintro w r w' ⟨hat, -, hj⟩ ⟨rfl, hg⟩
    rw [hq.sqeOffset, hq.cid] at hg ⊢
    exact ⟨hat.storeSqe hslot, by rw [storeSqe_ring hslot]; rfl, hF.store w hat hj hg⟩
  refine Triple.call_bind (R := fun _ w => At P i T (S + 1) (S % QUEUE_DEPTH) E w ∧
    (w.ring i).polls = 0 ∧ J₁ w) hwritten (fun w hw => ⟨hw.1.ok, hF.written.inv w hw.2.2⟩)
    ?_ fun _ => ?_
  · rintro w r w' hw ⟨⟨-, rfl⟩, -⟩
    exact hw
  rw [Method.set_bind]
  -- the register check, which the offsets of a large stride can fail by a panic
  refine Triple.lift_bind hwritten (fun w hw => ⟨hw.1.ok, hF.written.inv w hw.2.2⟩)
    (fun _ _ => ?_) (fun e w he => absurd he (NvmeBar.check_ne_err e))
    fun why w _ hw => .inl ⟨trivial, hpanic w hw.1 hw.2.2⟩
  refine Triple.call_bind (R := fun _ w => At P i T (S + 1) ((S + 1) % QUEUE_DEPTH) E w ∧
    (w.ring i).polls = 0 ∧ J w) hwritten (fun w hw => ⟨hw.1.ok, hF.written.inv w hw.2.2⟩)
    ?_ fun _ => ?_
  -- the doorbell hands the entry over: the tail the controller knows catches up with the driver
  · rintro w r w' ⟨hat, hpolls, hj⟩ ⟨rfl, -⟩
    rw [hq.id, hq.submit.tail, World.writeRegister_submission, htail]
    exact ⟨hat.ringTail _, by rw [World.setRing_ring_self]; exact hpolls, hF.ring w hat hj⟩
  · exact Triple.ret hafter (fun w hw => ⟨hw.1.ok, hF.after.inv w hw.2.2⟩)
      fun w hw => .inr ⟨by rw [hq.cid], hw⟩

/-- What is carried through the poll loop: `J` while polling, `Jc` after the completion has
been taken. -/
structure PollFrame (P : Platform) (C : Behaviour) (i : QueueId) (T S t : Nat)
    (K J : World → Prop) (Jc : CompletionQueueEntry → World → Prop) : Prop where
  polling : Carried P C i K J
  taken : ∀ c, Carried P C i K (Jc c)
  poll : ∀ w c E, At P i T S t E w → J w →
    J (w.pollCqe (i.completionOffset + 16 * (T % QUEUE_DEPTH)) c)
  consume : ∀ w E, At P i T S t E w → J w →
    ((w.ring i).posted.map Prod.fst)[T]? = some (w.ring i).polled →
    Jc (w.ring i).polled (w.setRing i ((w.ring i).ringHead ((T + 1) % QUEUE_DEPTH)))

/-- A completion `c` has been taken, which the last poll has found. -/
def Took (T : Nat) (c : CompletionQueueEntry) (r : Ring) : Prop :=
  r.taken[T]? = some c ∧ T < r.seen

/-- How a poll loop ends that does not panic: with the completion it has taken, for this
command or another, or with nothing to take. -/
def Polled (P : Platform) (i : QueueId) (T S t E : Nat) (q : QueuePair) (cid : UInt16)
    (J : World → Prop) (Jc : CompletionQueueEntry → World → Prop)
    (x : Outcome IoError CompletionQueueEntry × QueuePair) (w : World) : Prop :=
  (∃ c, x = (if c.cid = cid then .ok c else .err (.cidMismatch c.cid cid), q.advanceHead) ∧
      At P i (T + 1) S t E w ∧ Took T c (w.ring i) ∧ Jc c w) ∨
    x = (.err .pollTimeout, q) ∧ At P i T S t (E + 1) w ∧ (w.ring i).seen = T ∧ J w

theorem Took.same {c : CompletionQueueEntry} (r r' : Ring) (h : r.Later r')
    (ht : Took T c r) : Took T c r' := by
  rw [Took, h.taken, h.seen]
  exact ht

variable {Jc : CompletionQueueEntry → World → Prop}

/-- The entry that has been found is taken. It panics before the doorbell, or not at all. -/
theorem consume_triple (hC : C.Keeps P K) (hq : Driven q i T S)
    (hF : PollFrame P C i T S t K J Jc)
    (hpanic : ∀ w, At P i T S t E w → T < (w.ring i).posted.length → J w → X w)
    (c : CompletionQueueEntry) :
    (machine P C G).Triple (Global P i K)
      (fun w => At P i T S t E w ∧ (((w.ring i).posted.map Prod.fst)[T]? = some c ∧
        (w.ring i).polled = c ∧ T < (w.ring i).seen) ∧ J w)
      (QueuePair.consume P.bar P.stride cid c q)
      fun x w => (x.1.Panics ∧ X w) ∨ Polled P i T S t E q cid J Jc x w := by
  have hhead : (UInt32.ofNat ((T + 1) % QUEUE_DEPTH)).toNat = (T + 1) % QUEUE_DEPTH :=
    UInt32.toNat_ofNat_of_lt' (Nat.lt_trans (Nat.mod_lt _ (by decide)) (by decide))
  have hfound : (machine P C G).Stable fun w => At P i T S t E w ∧
      (((w.ring i).posted.map Prod.fst)[T]? = some c ∧ (w.ring i).polled = c ∧
        T < (w.ring i).seen) ∧ J w := by
    refine stable_at hC hF.polling (F := fun r => (r.posted.map Prod.fst)[T]? = some c ∧
      r.polled = c ∧ T < r.seen) ?_
    rintro r r' hr ⟨hposted, hpolled, hseen⟩
    exact ⟨hr.getElem hposted, hr.polled.trans hpolled, hr.seen ▸ hseen⟩
  simp only [QueuePair.consume, Method.get_bind, Method.set_bind, NvmeBar.ringCompletionDoorbell,
    NvmeBar.write32, Method.bind_assoc]
  -- the doorbell offset is checked after the head has moved, so a panic here leaves it moved
  refine Triple.lift_bind hfound (fun w hw => ⟨hw.1.ok, hF.polling.inv w hw.2.2⟩)
    (fun _ _ => ?_) (fun e w he => absurd he (NvmeBar.check_ne_err e))
    fun why w _ hw => .inl ⟨trivial, hpanic w hw.1 ?_ hw.2.2⟩
  swap
  · simpa using (List.getElem?_eq_some_iff.mp hw.2.1.1).1
  refine Triple.call_bind (R := fun _ w => At P i (T + 1) S t E w ∧ Took T c (w.ring i) ∧ Jc c w)
    hfound (fun w hw => ⟨hw.1.ok, hF.polling.inv w hw.2.2⟩) ?_ fun _ => ?_
  -- the head doorbell: the entry read at the poll is the one counted as taken
  · rintro w r w' ⟨hat, ⟨hposted, rfl, hseen⟩, hj⟩ ⟨rfl, -⟩
    rw [hq.id, hq.advanceHead.head, World.writeRegister_completion, hhead]
    refine ⟨hat.ringHead hposted, ⟨?_, ?_⟩, hF.consume w E hat hj hposted⟩
    · rw [World.setRing_ring_self, Ring.ringHead, ← hat.taken, List.getElem?_concat_length]
    · rw [World.setRing_ring_self]
      exact hseen
  · have hstable : (machine P C G).Stable fun w =>
        At P i (T + 1) S t E w ∧ Took T c (w.ring i) ∧ Jc c w :=
      stable_at hC (hF.taken c) fun r r' hr => Took.same r r' hr
    have hinv : ∀ w, At P i (T + 1) S t E w ∧ Took T c (w.ring i) ∧ Jc c w → Global P i K w :=
      fun w hw => ⟨hw.1.ok, (hF.taken c).inv w hw.2.2⟩
    -- a completion with another identifier is consumed all the same
    by_cases hcid : c.cid = cid
    · rw [if_neg (by simpa using hcid)]
      exact Triple.ret hstable hinv fun w hw => .inr (.inl ⟨c, by rw [if_pos hcid], hw⟩)
    · rw [if_pos hcid]
      exact Triple.ret hstable hinv fun w hw => .inr (.inl ⟨c, by rw [if_neg hcid], hw⟩)

/-- **The second half.** The poll loop takes the next completion that was posted, if there is
one in time, and compares its identifier. -/
theorem poll_triple (hC : C.Keeps P K) (hq : Driven q i T S)
    (hF : PollFrame P C i T S t K J Jc)
    (hpanic : ∀ w, At P i T S t E w → T < (w.ring i).posted.length → J w → X w) :
    (machine P C G).Triple (Global P i K)
      (fun w => At P i T S t (if n = 0 then E + 1 else E) w ∧
        ((w.ring i).polls + n = POLL_LIMIT + 1 ∧ (n = 0 → (w.ring i).seen = T)) ∧ J w)
      (QueuePair.pollCompletion P.bar P.region P.stride cid n q)
      fun x w => (x.1.Panics ∧ X w) ∨ Polled P i T S t E q cid J Jc x w := by
  have hslot : T % QUEUE_DEPTH < QUEUE_DEPTH := Nat.mod_lt _ (by decide)
  have hstable (n : Nat) : (machine P C G).Stable fun w =>
      At P i T S t (if n = 0 then E + 1 else E) w ∧
        ((w.ring i).polls + n = POLL_LIMIT + 1 ∧ (n = 0 → (w.ring i).seen = T)) ∧ J w := by
    refine stable_at hC hF.polling (F := fun r => r.polls + n = POLL_LIMIT + 1 ∧
      (n = 0 → r.seen = T)) ?_
    rintro r r' hr ⟨hpolls, hseen⟩
    exact ⟨hr.polls.symm ▸ hpolls, fun h => hr.seen.trans (hseen h)⟩
  have hglobal (n : Nat) : ∀ w, At P i T S t (if n = 0 then E + 1 else E) w ∧
      ((w.ring i).polls + n = POLL_LIMIT + 1 ∧ (n = 0 → (w.ring i).seen = T)) ∧ J w →
      Global P i K w := fun w hw => ⟨hw.1.ok, hF.polling.inv w hw.2.2⟩
  -- on the polls left: the ghost counter of polls and `n` add up to the limit
  induction n with
  | zero =>
    exact Triple.ret (hstable 0) (hglobal 0) fun w hw =>
      .inr (.inr ⟨rfl, hw.1, hw.2.1.2 rfl, hw.2.2⟩)
  | succ n ih =>
    simp only [QueuePair.pollCompletion, DmaRegion.readCqe, hq.placed.cqe_ok i.rings,
      Method.get_bind, Method.lift_ok_bind]
    refine Triple.call_bind (R := fun c w =>
      if c.phase = q.completionPhase then
        At P i T S t E w ∧ (((w.ring i).posted.map Prod.fst)[T]? = some c ∧
          (w.ring i).polled = c ∧ T < (w.ring i).seen) ∧ J w
      else At P i T S t (if n = 0 then E + 1 else E) w ∧
        ((w.ring i).polls + n = POLL_LIMIT + 1 ∧ (n = 0 → (w.ring i).seen = T)) ∧ J w)
      (hstable (n + 1)) (hglobal (n + 1)) ?_ fun c => ?_
    · rintro w c w' ⟨hat, ⟨hpolls, -⟩, hj⟩ ⟨⟨hc, rfl⟩, -⟩
      rw [hq.cqeOffset] at hc ⊢
      obtain rfl : c = w.cqe P i (T % QUEUE_DEPTH) := hc
      simp only [Nat.add_one_ne_zero, if_false] at hat
      have hring := pollCqe_ring (w := w) (i := i) (c := w.cqe P i (T % QUEUE_DEPTH)) hslot
      have hpoll := hat.pollCqe (c := w.cqe P i (T % QUEUE_DEPTH)) hslot
      have hfresh := hat.ok.fresh_iff hat.taken
      have hle := hat.ok.le
      rw [hat.taken] at hle
      have hjpoll := hF.poll w (w.cqe P i (T % QUEUE_DEPTH)) E hat hj
      rw [hq.phase]
      -- the phase bit tells whether the slot holds the entry at `T`
      split
      · next hphase =>
        have hlt := hfresh.mp hphase
        rw [if_neg (by omega)] at hpoll
        refine ⟨hpoll, ?_, hjpoll⟩
        rw [hring]
        exact ⟨hat.ok.next hat.taken hlt, rfl, hlt⟩
      · next hphase =>
        have hge : (w.ring i).posted.length ≤ T := Nat.not_lt.mp fun h => hphase (hfresh.mpr h)
        -- the last poll that finds nothing is the one that the ghost counts as an expiry
        have hexpired : ((w.ring i).polls = POLL_LIMIT ∧ (w.ring i).posted.length ≤ T) ↔ n = 0 :=
          ⟨fun h => by omega, fun h => ⟨by omega, hge⟩⟩
        rw [hring]
        simp only [hexpired] at hpoll
        exact ⟨hpoll, ⟨by simp only [Ring.poll]; omega, fun _ => Nat.le_antisymm hge hle⟩, hjpoll⟩
    -- fresh: consume it; stale: poll again
    · by_cases hphase : c.phase = q.completionPhase
      · simp only [hphase, if_true, BEq.rfl]
        exact consume_triple hC hq hF hpanic c
      · have hbeq : (c.phase == q.completionPhase) = false := by simpa using hphase
        simp only [hbeq, hphase, Bool.false_eq_true, if_false]
        exact ih

/-- **One call.** -/
theorem submitAndWait_triple (hC : C.Keeps P K) (hq : Driven q i T S)
    (hF : SubmitFrame P C G i T S E { command with cid := UInt16.ofNat S } K J₀ J₁ J)
    (hF' : PollFrame P C i T (S + 1) ((S + 1) % QUEUE_DEPTH) K J Jc)
    (hpanic : ∀ w, At P i T (S + 1) (S % QUEUE_DEPTH) E w → J₁ w → X w)
    (hpanic' : ∀ w, At P i T (S + 1) ((S + 1) % QUEUE_DEPTH) E w →
      T < (w.ring i).posted.length → J w → X w) :
    (machine P C G).Triple (Global P i K) (fun w => At P i T S (S % QUEUE_DEPTH) E w ∧ J₀ w)
      (QueuePair.submitAndWait P.bar P.region P.stride command q) fun x w => (x.1.Panics ∧ X w) ∨
        Polled P i T (S + 1) ((S + 1) % QUEUE_DEPTH) E q.takeCid.advanceTail (UInt16.ofNat S)
          J Jc x w := by
  refine Triple.method_bind (submit_triple hC hq hF hpanic) (fun cid q' => ?_)
    (fun e q' w hw => by simp at hw) fun why q' w hw => .inl ?_
  swap
  · exact hw.elim id fun h => by simp at h
  -- `submit` has no error of its own, so the poll loop starts from its normal end
  refine fun w hw => ?_
  obtain ⟨hx, hat, hpolls, hj⟩ := hw.resolve_left (by simp)
  obtain ⟨rfl, rfl⟩ : cid = UInt16.ofNat S ∧ q' = q.takeCid.advanceTail := by simpa using hx
  refine poll_triple hC hq.submit hF' hpanic' w ⟨?_, ⟨by omega, by simp⟩, hj⟩
  simpa using hat

end Triples

end Nvmetoy
