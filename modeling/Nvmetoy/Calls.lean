import Nvmetoy.Driver

/-!
# What a call does, whatever the controller answers

Facts about the methods of the driver that hold under every response: which operations
they issue, with what they end, and what they leave of the driver. Nothing is assumed
about the controller here; the completions, the Identify data and the bytes found in the
data area are arbitrary.

* `QueuePair.Placed` / `NvmeUserspaceDriver.Ready` — the shape of a queue and of a driver
  that `open` has returned, kept by every call (`sat_openDriver`).
* `sat_submitAndWait` — one command: the entry it stores, and the queue it leaves.
* `sat_read`, `sat_write`, `sat_identifyController` — the calls: the commands they put on
  the I/O queue (`Asks`), the length of what a read returns, and where they panic.
* `submitAndWait_answers`, `read_answers`, `write_panics` — what a controller can make of a
  call.
-/

namespace Nvmetoy

open Framework

/-! ### Accesses that pass their checks -/

section Checks

variable {dma : DmaRegion} {bar : NvmeBar} {offset size align : Nat}

theorem DmaRegion.checkBytes_ok (h : offset + size ≤ dma.length) (hdma : dma.length < U64_SIZE) :
    dma.checkBytes offset size = .ok () := by
  rw [DmaRegion.checkBytes, if_pos (Nat.lt_of_le_of_lt h hdma), if_pos h]

theorem DmaRegion.checkTyped_ok (h : offset + size ≤ dma.length) (hdma : dma.length < U64_SIZE)
    (halign : offset % align = 0) : dma.checkTyped offset size align = .ok () := by
  rw [DmaRegion.checkTyped, DmaRegion.checkBytes_ok h hdma]
  exact if_pos halign

theorem NvmeBar.check_ok (h : offset + size ≤ bar.length) (hbar : bar.length < U64_SIZE)
    (halign : offset % size = 0) : bar.check offset size = .ok () := by
  rw [NvmeBar.check, if_pos (Nat.lt_of_le_of_lt h hbar), if_pos h, if_pos halign]

/-- A register access is made, or it panics. -/
theorem NvmeBar.check_ne_err (e : IoError) : bar.check offset size ≠ .err e := by
  unfold NvmeBar.check
  split_ifs <;> simp

/-- Both doorbells of a queue can be written. -/
structure NvmeBar.Covers (bar : NvmeBar) (id : UInt16) (stride : Nat) : Prop where
  submission : bar.check (NvmeBar.submissionDoorbell id stride) 4 = .ok ()
  completion : bar.check (NvmeBar.completionDoorbell id stride) 4 = .ok ()

end Checks

/-! ### A queue pair -/

namespace QueuePair

/-- The queue lies where the driver has put it, and its indices lie in the rings. -/
structure Placed (q : QueuePair) (id : UInt16) (submission completion : Nat) : Prop where
  id_eq : q.id = id
  submission_eq : q.submissionOffset = submission
  completion_eq : q.completionOffset = completion
  tail_lt : q.submissionTail < 64
  head_lt : q.completionHead < 64

/-- The two rings are pages of the region. -/
structure Rings (dma : DmaRegion) (submission completion : Nat) : Prop where
  submission_aligned : submission % 8 = 0
  completion_aligned : completion % 4 = 0
  submission_le : submission + 4096 ≤ dma.length
  completion_le : completion + 4096 ≤ dma.length
  length_lt : dma.length < U64_SIZE

variable {q : QueuePair} {id : UInt16} {sq cq : Nat} {dma : DmaRegion} {bar : NvmeBar}
  {stride : Nat}

/-- A new queue pair lies where it was put, with both indices at the start. -/
theorem Placed.new (id : UInt16) (sq cq : Nat) : (QueuePair.new id sq cq).Placed id sq cq where
  id_eq := rfl
  submission_eq := rfl
  completion_eq := rfl
  tail_lt := Nat.zero_lt_succ _
  head_lt := Nat.zero_lt_succ _

theorem Placed.takeCid (h : q.Placed id sq cq) : q.takeCid.Placed id sq cq := { h with }

theorem Placed.advanceTail (h : q.Placed id sq cq) : q.advanceTail.Placed id sq cq :=
  { h with tail_lt := Nat.mod_lt _ (Nat.zero_lt_succ _) }

theorem Placed.advanceHead (h : q.Placed id sq cq) : q.advanceHead.Placed id sq cq :=
  { h with head_lt := Nat.mod_lt _ (Nat.zero_lt_succ _) }

/-- The next command goes into the submission ring. -/
theorem Placed.sqeOffset_bounds (h : q.Placed id sq cq) :
    sq ≤ q.sqeOffset ∧ q.sqeOffset + 64 ≤ sq + 4096 := by
  have htail := h.tail_lt
  simp only [sqeOffset, h.submission_eq, SubmissionQueueEntry.SIZE]
  omega

/-- The next completion is expected in the completion ring. -/
theorem Placed.cqeOffset_bounds (h : q.Placed id sq cq) :
    cq ≤ q.cqeOffset ∧ q.cqeOffset + 16 ≤ cq + 4096 := by
  have hhead := h.head_lt
  simp only [cqeOffset, h.completion_eq, CompletionQueueEntry.SIZE]
  omega

/-- The slot at the tail is in bounds and aligned. -/
theorem Placed.sqe_ok (h : q.Placed id sq cq) (hr : Rings dma sq cq) :
    dma.checkTyped q.sqeOffset SubmissionQueueEntry.SIZE SubmissionQueueEntry.ALIGN = .ok () := by
  refine DmaRegion.checkTyped_ok (h.sqeOffset_bounds.2.trans hr.submission_le) hr.length_lt ?_
  -- the ring begins at a page, and each slot is a multiple of its size further
  have := hr.submission_aligned
  simp only [sqeOffset, h.submission_eq, SubmissionQueueEntry.SIZE, SubmissionQueueEntry.ALIGN]
  omega

theorem Placed.cqe_ok (h : q.Placed id sq cq) (hr : Rings dma sq cq) :
    dma.checkTyped q.cqeOffset CompletionQueueEntry.SIZE CompletionQueueEntry.ALIGN = .ok () := by
  refine DmaRegion.checkTyped_ok (h.cqeOffset_bounds.2.trans hr.completion_le) hr.length_lt ?_
  have := hr.completion_aligned
  simp only [cqeOffset, h.completion_eq, CompletionQueueEntry.SIZE, CompletionQueueEntry.ALIGN]
  omega

/-- The operations of one call that puts the entry `stored` into the ring at `offset`. -/
inductive Issues (offset : Nat) (stored : SubmissionQueueEntry) : Op → Prop where
  | store : Issues offset stored (.writeSqe offset stored)
  | readBack : Issues offset stored (.readSqe offset)
  | doorbell (register : Nat) (value : UInt32) (h : DOORBELL_BASE ≤ register) :
    Issues offset stored (.write32 register value)
  | poll (slot : Nat) : Issues offset stored (.readCqe slot)

variable {R : (o : Op) → Res o → Prop} {φ : Op → Prop} {command : SubmissionQueueEntry}
  {cid : UInt16} {n : Nat}

/-- What is left of a queue after its poll loop: nothing taken, or one completion. -/
def AfterPoll (bar : NvmeBar) (stride : Nat) (cid : UInt16) (q : QueuePair)
    (x : Outcome IoError CompletionQueueEntry × QueuePair) : Prop :=
  (x.2 = q ∨ x.2 = q.advanceHead) ∧ (∀ c, x.1 = .ok c → c.cid = cid) ∧
    (x.1.Panics → ¬ bar.Covers q.id stride)

/-- **Consuming a completion.** The head has moved, and the completion is this command's or reported
as another's. -/
theorem sat_consume {c : CompletionQueueEntry}
    (hdoorbell : ∀ register value, DOORBELL_BASE ≤ register → φ (.write32 register value)) :
    (consume bar stride cid c q).Sat R φ (AfterPoll bar stride cid q) := by
  simp only [consume, Method.get_bind, Method.set_bind, NvmeBar.ringCompletionDoorbell,
    NvmeBar.write32, Method.bind_assoc]
  -- the head moves first, so it has moved even where the doorbell is out of bounds
  cases hcheck : bar.check (NvmeBar.completionDoorbell q.id stride) 4 with
  | ok _ =>
    refine ⟨hdoorbell _ _ (Nat.le_add_right _ _), fun _ _ => ?_⟩
    split
    · exact ⟨.inr rfl, by simp, by simp⟩
    · next hcid => exact ⟨.inr rfl, by simpa using hcid, by simp⟩
  | err e => exact ⟨.inr rfl, by simp, by simp⟩
  | panic why =>
    exact ⟨.inr rfl, by simp, fun _ hc => by simpa [hcheck] using hc.completion⟩

/-- **The poll loop** issues reads of one slot and at most one doorbell. -/
theorem sat_pollCompletion (hq : q.Placed id sq cq) (hr : Rings dma sq cq)
    (hpoll : ∀ slot, φ (.readCqe slot))
    (hdoorbell : ∀ register value, DOORBELL_BASE ≤ register → φ (.write32 register value)) :
    (pollCompletion bar dma stride cid n q).Sat R φ (AfterPoll bar stride cid q) := by
  -- by induction on the polls that are left; without one, nothing was taken
  induction n with
  | zero => exact ⟨.inl rfl, by simp, by simp⟩
  | succ n ih =>
    simp only [pollCompletion, Method.get_bind, DmaRegion.readCqe, hq.cqe_ok hr,
      Method.lift_ok_bind, Method.call_bind, Prog.sat_op]
    refine ⟨hpoll _, fun c _ => ?_⟩
    split
    · exact sat_consume hdoorbell
    · exact ih

/-- **One command.** It is stored in the next slot under the next identifier; the call
leaves the queue with the tail advanced, and the head too when a completion was taken. -/
theorem sat_submitAndWait (hq : q.Placed id sq cq) (hr : Rings dma sq cq) :
    (submitAndWait bar dma stride command q).Sat R
      (Issues q.sqeOffset { command with cid := q.nextCid }) fun x =>
        (x.2 = q.takeCid.advanceTail ∨ x.2 = q.takeCid.advanceTail.advanceHead) ∧
        (∀ c, x.1 = .ok c → c.cid = q.nextCid) ∧
        (x.1.Panics → ¬ bar.Covers q.id stride) := by
  simp only [submitAndWait, submit, DmaRegion.writeSqe, DmaRegion.readSqe, hq.sqe_ok hr,
    NvmeBar.ringSubmissionDoorbell, NvmeBar.write32, Method.bind_assoc, Method.get_bind,
    Method.set_bind, Method.lift_ok_bind, Method.call_bind, Prog.sat_op]
  refine ⟨.store, fun _ _ => ⟨.readBack, fun _ _ => ?_⟩⟩
  -- an unmapped doorbell is the one way to stop before the poll loop
  cases hcheck : bar.check (NvmeBar.submissionDoorbell q.id stride) 4 with
  | ok _ =>
    refine ⟨.doorbell _ _ (Nat.le_add_right _ _), fun _ _ => ?_⟩
    exact sat_pollCompletion hq.takeCid.advanceTail hr (fun _ => .poll _) .doorbell
  | err e => exact ⟨.inl rfl, by simp, by simp⟩
  | panic why =>
    exact ⟨.inl rfl, by simp, fun _ hc => by simpa [hcheck] using hc.submission⟩

/-- A completion that the queue takes for its next command. -/
def expected (q : QueuePair) : CompletionQueueEntry where
  result := 0
  reserved := 0
  sqHead := 0
  sqId := 0
  cid := q.nextCid
  status := if q.completionPhase then 1 else 0

/-- The completion that the driver waits for has the phase it looks for. -/
theorem expected_phase (q : QueuePair) : q.expected.phase = q.completionPhase := by
  cases h : q.completionPhase <;> simp [expected, CompletionQueueEntry.phase, h]

theorem expected_isSuccess (q : QueuePair) : q.expected.isSuccess = true := by
  cases h : q.completionPhase <;>
    simp only [expected, h, CompletionQueueEntry.isSuccess, CompletionQueueEntry.statusCode,
      CompletionQueueEntry.statusCodeType] <;> decide

/-- A controller can answer a command at the first poll. -/
theorem submitAndWait_answers (hq : q.Placed id sq cq) (hr : Rings dma sq cq)
    (hbar : bar.Covers q.id stride) :
    (submitAndWait bar dma stride command q).Returns Prog.Any
      (.ok q.expected, q.takeCid.advanceTail.advanceHead) := by
  simp only [submitAndWait, submit, DmaRegion.writeSqe, DmaRegion.readSqe, hq.sqe_ok hr,
    NvmeBar.ringSubmissionDoorbell, NvmeBar.write32, Method.bind_assoc, Method.get_bind,
    Method.set_bind, Method.lift_ok_bind, Method.call_bind, Prog.returns_op]
  -- the entry is stored and read back, and the doorbell is rung
  refine ⟨(), trivial, .new 0, trivial, ?_⟩
  simp only [hbar.submission, Method.lift_ok_bind, Method.call_bind, Method.pure_bind,
    Prog.returns_op]
  refine ⟨(), trivial, ?_⟩
  have hplaced := hq.takeCid.advanceTail
  simp only [pollCompletion, Method.get_bind, DmaRegion.readCqe, hplaced.cqe_ok hr,
    Method.lift_ok_bind, Method.call_bind, Prog.returns_op]
  -- the controller answers the first poll, with the phase and the identifier awaited
  refine ⟨q.expected, trivial, ?_⟩
  rw [if_pos (by simp [expected_phase])]
  simp only [consume, Method.get_bind, Method.set_bind, NvmeBar.ringCompletionDoorbell,
    NvmeBar.write32, Method.bind_assoc, advanceTail_id, takeCid_id, hbar.completion,
    Method.lift_ok_bind, Method.call_bind, Prog.returns_op]
  exact ⟨(), trivial, by simp [expected]⟩

end QueuePair

/-! ### The driver -/

namespace NvmeUserspaceDriver

/-- The DMA region is one hugepage, and the queues lie in their pages of it. -/
structure Shaped (d : NvmeUserspaceDriver) : Prop where
  length_eq : d.dmaRegion.length = HUGE_PAGE_SIZE
  admin : d.adminQueue.Placed 0 ADMIN_SUBMISSION_QUEUE_OFFSET ADMIN_COMPLETION_QUEUE_OFFSET
  io : d.ioQueue.Placed IO_QUEUE_ID IO_SUBMISSION_QUEUE_OFFSET IO_COMPLETION_QUEUE_OFFSET

/-- The driver knows the block size `B` of its namespace. -/
structure Ready (d : NvmeUserspaceDriver) (B : Nat) : Prop extends d.Shaped where
  cached : d.blockSizes d.nsid = some B
  pos : 0 < B
  lt : B < U64_SIZE

/-- The BAR holds the doorbells of both queues. -/
structure DoorbellsMapped (d : NvmeUserspaceDriver) : Prop where
  admin : d.nvmeBar.Covers 0 d.doorbellStride
  io : d.nvmeBar.Covers IO_QUEUE_ID d.doorbellStride

/-- A call changes the queues of the driver, and nothing else. -/
def Kept (d d' : NvmeUserspaceDriver) : Prop :=
  ∃ admin io : QueuePair, d' = { d with adminQueue := admin, ioQueue := io } ∧ d'.Shaped

variable {d d' : NvmeUserspaceDriver} {B : Nat} {R : (o : Op) → Res o → Prop} {φ : Op → Prop}
  {p : Profile}

theorem Kept.refl (h : d.Shaped) : d.Kept d := ⟨d.adminQueue, d.ioQueue, rfl, h⟩

theorem Kept.ready (h : d.Kept d') (hd : d.Ready B) : d'.Ready B := by
  obtain ⟨admin, io, rfl, hs⟩ := h
  exact { hs with cached := hd.cached, pos := hd.pos, lt := hd.lt }

theorem Kept.doorbellsMapped (h : d.Kept d') (hd : d.DoorbellsMapped) : d'.DoorbellsMapped := by
  obtain ⟨admin, io, rfl, -⟩ := h
  exact ⟨hd.admin, hd.io⟩

theorem Shaped.adminRings (h : d.Shaped) : QueuePair.Rings d.dmaRegion
    ADMIN_SUBMISSION_QUEUE_OFFSET ADMIN_COMPLETION_QUEUE_OFFSET := by
  refine ⟨rfl, rfl, ?_, ?_, ?_⟩ <;> rw [h.length_eq] <;> decide

theorem Shaped.ioRings (h : d.Shaped) : QueuePair.Rings d.dmaRegion
    IO_SUBMISSION_QUEUE_OFFSET IO_COMPLETION_QUEUE_OFFSET := by
  refine ⟨rfl, rfl, ?_, ?_, ?_⟩ <;> rw [h.length_eq] <;> decide

/-- What a call may issue: a command on the I/O queue satisfies `ψ`, and an allocation
stays within the transfer limit. -/
def Asks (ψ : SubmissionQueueEntry → Prop) : Op → Prop
  | .writeSqe offset entry => IO_SUBMISSION_QUEUE_OFFSET ≤ offset → ψ entry
  | .alloc bytes => bytes ≤ MAX_TRANSFER_BYTES
  | _ => True

theorem Asks.mono {ψ ψ' : SubmissionQueueEntry → Prop} {o : Op} (h : Asks ψ o)
    (hψ : ∀ e, ψ e → ψ' e) : Asks ψ' o := by
  cases o <;> first | trivial | exact h | exact fun ho => hψ _ (h ho)

/-- **An admin command** is not one of the calls that `ψ` speaks of. -/
theorem sat_submitAdmin {ψ : SubmissionQueueEntry → Prop} {command : SubmissionQueueEntry}
    (hd : d.Shaped) : (submitAdmin command d).Sat R (Asks ψ) fun x =>
      d.Kept x.2 ∧ (x.1.Panics → ¬ d.DoorbellsMapped) := by
  simp only [submitAdmin, Method.get_bind]
  refine Method.sat_onField ((QueuePair.sat_submitAndWait hd.admin hd.adminRings).mono ?_ ?_)
  · intro o ho
    cases ho with
    | store =>
      intro hio
      -- an admin entry lies below the I/O submission queue, so nothing is asked of it
      have hb := hd.admin.sqeOffset_bounds
      simp only [IO_SUBMISSION_QUEUE_OFFSET, ADMIN_SUBMISSION_QUEUE_OFFSET] at hio hb
      omega
    | _ => trivial
  · -- the admin queue has moved, and the I/O queue has not
    rintro ⟨x, q⟩ ⟨hq, -, hpanic⟩
    refine ⟨⟨q, d.ioQueue, rfl, hd.length_eq, ?_, hd.io⟩, fun hx hm => ?_⟩
    · rcases hq with rfl | rfl
      · exact hd.admin.takeCid.advanceTail
      · exact hd.admin.takeCid.advanceTail.advanceHead
    · exact hpanic hx (hd.admin.id_eq ▸ hm.admin)

/-- **An I/O command** has to satisfy `ψ` under the identifier that it is sent with. -/
theorem sat_submitIo {ψ : SubmissionQueueEntry → Prop} {command : SubmissionQueueEntry}
    (hd : d.Shaped) (hψ : ψ { command with cid := d.ioQueue.nextCid }) :
    (submitIo command d).Sat R (Asks ψ) fun x =>
      d.Kept x.2 ∧ (x.1.Panics → ¬ d.DoorbellsMapped) := by
  simp only [submitIo, Method.get_bind]
  refine Method.sat_onField ((QueuePair.sat_submitAndWait hd.io hd.ioRings).mono ?_ ?_)
  · -- only the entry that is stored has to be looked at
    intro o ho
    cases ho with
    | store => exact fun _ => hψ
    | _ => trivial
  · -- the I/O queue has moved, and the admin queue has not
    rintro ⟨x, q⟩ ⟨hq, -, hpanic⟩
    refine ⟨⟨d.adminQueue, q, rfl, hd.length_eq, hd.admin, ?_⟩, fun hx hm => ?_⟩
    · rcases hq with rfl | rfl
      · exact hd.io.takeCid.advanceTail
      · exact hd.io.takeCid.advanceTail.advanceHead
    · exact hpanic hx (hd.io.id_eq ▸ hm.io)

/-- The check of a completion issues nothing, and does not panic. -/
theorem sat_checkCompletion {σ : Type} {s : σ} {c : CompletionQueueEntry} {what : String} :
    (checkCompletion c what s).Sat R φ fun x => x.2 = s ∧ ¬ x.1.Panics := by
  unfold checkCompletion
  split
  · exact ⟨rfl, by simp⟩
  · exact ⟨rfl, by simp⟩

/-- Every entry of the PRP list lies in its page. -/
theorem prpEntry_ok (hd : d.dmaRegion.length = HUGE_PAGE_SIZE) {index : Nat}
    (h : index < PRP_LIST_CAPACITY) :
    d.dmaRegion.checkTyped (PRP_LIST_OFFSET + index * 8) 8 8 = .ok () := by
  simp only [PRP_LIST_CAPACITY, DATA_OFFSET, PRP_LIST_OFFSET, HUGE_PAGE_SIZE] at h hd ⊢
  exact DmaRegion.checkTyped_ok (by omega) (by rw [hd]; decide) (by omega)

/-- No transfer within the limit needs more entries than fit. -/
theorem pageCount_le {length : Nat} (h : length ≤ MAX_TRANSFER_BYTES) :
    (length + (PAGE_SIZE - 1)) / PAGE_SIZE - 1 ≤ PRP_LIST_CAPACITY := by
  simp only [MAX_TRANSFER_BYTES, HUGE_PAGE_SIZE, DATA_OFFSET, PAGE_SIZE, PRP_LIST_CAPACITY,
    PRP_LIST_OFFSET] at h ⊢
  omega

/-- A transfer within the limit fits in the data area. -/
theorem payload_ok {dma : DmaRegion} (hd : dma.length = HUGE_PAGE_SIZE) {len : Nat}
    (h : len ≤ MAX_TRANSFER_BYTES) : dma.checkBytes DATA_OFFSET len = .ok () := by
  refine DmaRegion.checkBytes_ok ?_ (by rw [hd]; decide)
  have : DATA_OFFSET ≤ HUGE_PAGE_SIZE := by decide
  simp only [MAX_TRANSFER_BYTES, hd] at h ⊢
  omega

/-- The list of entries is written one entry at a time, and there is room for it. -/
theorem sat_writePrpEntries (hd : d.dmaRegion.length = HUGE_PAGE_SIZE)
    (hφ : ∀ offset value, φ (.writeU64 offset value)) {index count : Nat}
    (h : index + count ≤ PRP_LIST_CAPACITY) :
    (writePrpEntries index count d).Sat R φ fun x => x = (.ok (), d) := by
  induction count generalizing index with
  | zero => exact rfl
  | succ count ih =>
    -- the entry lies in the page of the list
    have hentry := prpEntry_ok hd (show index < PRP_LIST_CAPACITY by omega)
    simp only [writePrpEntries, Method.get_bind, DmaRegion.writeU64, hentry,
      Method.lift_ok_bind, Method.call_bind, Prog.sat_op]
    exact ⟨hφ _ _, fun _ _ => ih (by omega)⟩

/-- The PRP list always fits: no transfer within the limit makes `data_pointers` panic. -/
theorem sat_dataPointers (hd : d.dmaRegion.length = HUGE_PAGE_SIZE)
    (hφ : ∀ offset value, φ (.writeU64 offset value)) {length : Nat}
    (h : length ≤ MAX_TRANSFER_BYTES) :
    (dataPointers p length d).Sat R φ fun x => ∃ pointers, x = (.ok pointers, d) := by
  have hpages := pageCount_le h
  simp only [dataPointers, Method.get_bind]
  split
  · exact ⟨_, rfl⟩
  split
  · exact ⟨_, rfl⟩
  split
  · -- the list is never longer than its page, since the transfer is within the limit
    next hbad => exact absurd hbad.2 (Nat.not_lt.mpr hpages)
  · refine Method.sat_bind (sat_writePrpEntries hd hφ (by simpa using hpages)) ?_ ?_ ?_
    · rintro a t ⟨⟩
      exact ⟨_, rfl⟩
    all_goals simp

/-! ### Identify -/

section Identify

variable {ψ : SubmissionQueueEntry → Prop}

/-- A copy out of the region has the length that was asked for. -/
theorem sat_readBytes {offset len : Nat} (hd : d.dmaRegion.length = HUGE_PAGE_SIZE)
    (hφ : ∀ offset len, φ (.readBytes offset len)) (h : offset + len ≤ HUGE_PAGE_SIZE) :
    (d.dmaRegion.readBytes offset len d).Sat R φ fun x =>
      x.2 = d ∧ ∃ data, x.1 = .ok data ∧ data.length = len := by
  have hcheck : d.dmaRegion.checkBytes offset len = .ok () :=
    DmaRegion.checkBytes_ok (hd ▸ h) (by rw [hd]; decide)
  simp only [DmaRegion.readBytes, hcheck, Method.lift_ok_bind, Method.call_bind, Prog.sat_op]
  exact ⟨hφ _ _, fun r _ => ⟨rfl, r.val, rfl, r.property⟩⟩

/-- An Identify that ends well gives 4096 bytes. -/
theorem sat_identify {«structure» : IdentifyStructure} {nsid : UInt32} (hd : d.Shaped) :
    (identify «structure» nsid d).Sat R (Asks ψ) fun x =>
      d.Kept x.2 ∧ (∀ data, x.1 = .ok data → data.length = IDENTIFY_SIZE) ∧
        (x.1.Panics → ¬ d.DoorbellsMapped) := by
  simp only [identify, Method.get_bind]
  -- the three exits: the submission fails, the completion reports an error, or the data is copied
  refine Method.sat_bind (sat_submitAdmin hd) (fun c t hc => ?_) ?_ ?_
  · refine Method.sat_bind sat_checkCompletion ?_ ?_ ?_
    · rintro _ t' ⟨rfl, -⟩
      -- the region is that of the driver it began with
      obtain ⟨admin, io, rfl, hs⟩ := hc.1
      refine (sat_readBytes hs.length_eq (fun _ _ => trivial) (by decide)).post ?_
      rintro ⟨x, t⟩ ⟨rfl, data, rfl, hlen⟩
      exact ⟨hc.1, by simpa using hlen, by simp⟩
    · rintro e t' ⟨rfl, -⟩
      exact ⟨hc.1, by simp, by simp⟩
    · rintro why t' ⟨-, hp⟩
      simp at hp
  · rintro e t ⟨hk, -⟩
    exact ⟨hk, by simp, by simp⟩
  · rintro why t ⟨hk, hp⟩
    exact ⟨hk, by simp, hp⟩

end Identify

/-! ### Read and write -/

/-- A known block size is not asked for again. -/
theorem namespaceBlockSize_cached (hd : d.blockSizes d.nsid = some B) :
    namespaceBlockSize p d.nsid d = .pure (.ok B, d) := by
  simp only [namespaceBlockSize, Method.get_bind, hd]
  rfl

/-- The rest of a call, when the block size is known. -/
theorem namespaceBlockSize_bind {α : Type} (hd : d.blockSizes d.nsid = some B)
    (f : Nat → DriverMethod α) : (namespaceBlockSize p d.nsid >>= f) d = f B d := by
  rw [Method.bind_apply, namespaceBlockSize_cached hd]
  rfl

/-- **`read`.** The command names the namespace and the blocks asked for; what is returned has the
length of `blockCount` blocks, as the driver computes it. -/
theorem sat_read {slba : UInt64} {blockCount : UInt16} (hd : d.Ready B) :
    (read p slba blockCount d).Sat R
      (Asks fun e => e.nsid = d.nsid ∧ e.slba = slba.toNat ∧ e.blockCount = blockCount.toNat)
        fun x =>
        d.Kept x.2 ∧
        (∀ data, x.1 = .ok data → blockCount ≠ 0 ∧ data.length ≤ MAX_TRANSFER_BYTES ∧
          p.mulUsize B blockCount.toNat = (.ok data.length : Outcome IoError Nat)) ∧
        (x.1.Panics → d.DoorbellsMapped →
          p = .debug ∧ U64_SIZE ≤ B * blockCount.toNat) := by
  unfold read
  split
  · exact ⟨.refl hd.toShaped, by simp, by simp⟩
  next hzero =>
  simp only [Method.get_bind, namespaceBlockSize_bind hd.cached]
  -- the product of the block size and the count, which a debug build checks
  cases htotal : (p.mulUsize B blockCount.toNat : Outcome IoError Nat) with
  | err e => exact absurd htotal Profile.fit_ne_err
  | panic why =>
    have hpanics : (p.mulUsize B blockCount.toNat : Outcome IoError Nat).Panics := by
      rw [htotal]
      trivial
    exact ⟨.refl hd.toShaped, by simp, fun _ _ => Profile.fit_panics.mp hpanics⟩
  | ok total =>
    rw [Method.lift_ok_bind]
    split
    · exact ⟨.refl hd.toShaped, by simp, by simp⟩
    next hmax =>
    rw [Nat.not_lt] at hmax
    refine Method.sat_bind (sat_dataPointers hd.length_eq (fun _ _ => trivial) hmax) ?_
      (by simp) (by simp)
    rintro pointers t ⟨_, ⟨⟩⟩
    -- the command names the blocks of the call
    refine Method.sat_bind (sat_submitIo hd.toShaped ?_) ?_ ?_ ?_
    · exact ⟨rfl, nvmeTransfer_slba .read d.nsid slba (blockCount - 1) pointers.1 pointers.2,
        (nvmeTransfer_blockCount .read d.nsid slba (blockCount - 1) pointers.1
          pointers.2).trans (toNat_sub_one hzero)⟩
    · rintro c t ⟨hk, -⟩
      refine Method.sat_bind sat_checkCompletion ?_ ?_ (by simp)
      · rintro _ t' ⟨rfl, -⟩
        have hs := (hk.ready hd).length_eq
        have hfits : total < 2 ^ 63 := Nat.lt_of_le_of_lt hmax (by decide)
        have hdma : d.dmaRegion = t'.dmaRegion := by obtain ⟨_, _, rfl, -⟩ := hk; rfl
        -- and what is copied out has their length
        simp only [allocVec, if_pos hfits, Method.call_bind, Prog.sat_op]
        refine ⟨hmax, fun _ _ => ?_⟩
        rw [hdma]
        refine (sat_readBytes hs (fun _ _ => trivial) ?_).post ?_
        · simp only [MAX_TRANSFER_BYTES] at hmax
          have : DATA_OFFSET ≤ HUGE_PAGE_SIZE := by decide
          omega
        · rintro ⟨x, t⟩ ⟨rfl, data, rfl, hlen⟩
          refine ⟨hk, fun data' h => ?_, by simp⟩
          obtain rfl := Outcome.ok.inj h
          exact ⟨hzero, hlen ▸ hmax, by rw [hlen]⟩
      · rintro e t' ⟨rfl, -⟩
        exact ⟨hk, by simp, by simp⟩
    · rintro e t ⟨hk, -⟩
      exact ⟨hk, by simp, by simp⟩
    · rintro why t ⟨hk, hp⟩
      exact ⟨hk, by simp, fun _ hm => absurd hm (hp trivial)⟩

/-- A payload that `write` sends to the device: whole blocks, within the limit. -/
def Accepts (B : Nat) (data : List UInt8) : Prop :=
  data ≠ [] ∧ B ∣ data.length ∧ data.length ≤ MAX_TRANSFER_BYTES

instance (B : Nat) (data : List UInt8) : Decidable (Accepts B data) :=
  inferInstanceAs (Decidable (_ ∧ _ ∧ _))

/-- The blocks of the command that `write` sends: the count is cut to 16 bits after it has
been made zero-based. -/
def sentBlocks (B len : Nat) : Nat := (len / B - 1) % 2 ^ 16 + 1

/-- The check lets whole blocks through, and no empty payload. -/
theorem notMultiple_eq_false {data : List UInt8} (hB : 0 < B) :
    notMultiple data B = .ok false ↔ data ≠ [] ∧ B ∣ data.length := by
  unfold notMultiple
  split
  · next h => simp_all
  · next h =>
    simp only [remUsize, if_neg hB.ne', Outcome.bind, Outcome.ok.injEq, bne_eq_false_iff_eq]
    rw [Nat.dvd_iff_mod_eq_zero]
    simp_all

/-- It does not panic, since a block is not empty. -/
theorem notMultiple_ok (data : List UInt8) (hB : 0 < B) :
    ∃ b, notMultiple data B = .ok b := by
  unfold notMultiple
  split
  · exact ⟨_, rfl⟩
  · simp only [remUsize, if_neg hB.ne', Outcome.bind]
    exact ⟨_, rfl⟩

/-- The cut to 16 bits leaves nothing to subtract the one from, and the build checks it. -/
def CutsToZero (p : Profile) (B len : Nat) : Prop := p = .debug ∧ len / B % 2 ^ 16 = 0

instance (p : Profile) (B len : Nat) : Decidable (CutsToZero p B len) :=
  inferInstanceAs (Decidable (_ ∧ _))

/-- **`write`.** A command is sent only for an accepted payload, and names the namespace and
`sentBlocks` blocks of it from `slba` on. -/
theorem sat_write {slba : UInt64} {data : List UInt8} (hd : d.Ready B) :
    (write p slba data d).Sat R
      (Asks fun e => Accepts B data ∧ ¬ CutsToZero p B data.length ∧ e.nsid = d.nsid ∧
        e.slba = slba.toNat ∧ e.blockCount = sentBlocks B data.length) fun x =>
        d.Kept x.2 ∧
        (x.1.Panics → d.DoorbellsMapped → Accepts B data ∧ CutsToZero p B data.length) := by
  simp only [write, Method.get_bind, namespaceBlockSize_bind hd.cached]
  -- the two refusals come first, and send nothing
  obtain ⟨refused, hrefused⟩ := notMultiple_ok data hd.pos
  rw [hrefused, Method.lift_ok_bind]
  cases refused with
  | true => exact ⟨.refl hd.toShaped, by simp⟩
  | false =>
    -- what is left is a payload of whole blocks, one at least
    obtain ⟨hne, hdvd⟩ := (notMultiple_eq_false hd.pos).mp hrefused
    simp only [Bool.false_eq_true, if_false]
    split
    · exact ⟨.refl hd.toShaped, by simp⟩
    next hmax =>
    rw [Nat.not_lt] at hmax
    have hacc : Accepts B data := ⟨hne, hdvd, hmax⟩
    have hcount : 0 < data.length / B :=
      Nat.div_pos (Nat.le_of_dvd (List.length_pos_iff.mpr hne) hdvd) hd.pos
    simp only [divUsize, if_neg hd.pos.ne', Method.lift_ok_bind, DmaRegion.writeBytes,
      payload_ok hd.length_eq hmax, Method.call_bind, Prog.sat_op]
    refine ⟨trivial, fun _ _ => ?_⟩
    refine Method.sat_bind (sat_dataPointers hd.length_eq (fun _ _ => trivial) hmax) ?_
      (by simp) (by simp)
    rintro pointers t ⟨_, ⟨⟩⟩
    -- `blocks - 1` in `u16`: the one panic the call has
    cases hnlb : (p.decU16 (UInt16.ofNat (data.length / B)) : Outcome IoError UInt16) with
    | err e => exact absurd hnlb Profile.decU16_ne_err
    | panic why =>
      exact ⟨.refl hd.toShaped, fun _ _ => ⟨hacc, Profile.decU16_ofNat_panic hnlb⟩⟩
    | ok nlb =>
      rw [Method.lift_ok_bind]
      refine Method.sat_bind (sat_submitIo hd.toShaped ?_) ?_ ?_ ?_
      · -- the decrement did not panic, so the cast left something
        have hcut : ¬ CutsToZero p B data.length := by
          rintro ⟨rfl, hzero⟩
          have hcast : UInt16.ofNat (data.length / B) = 0 :=
            UInt16.toNat_inj.mp (by simpa using hzero)
          simp [hcast, Profile.decU16] at hnlb
        refine ⟨hacc, hcut, rfl, nvmeTransfer_slba .write d.nsid slba nlb pointers.1 pointers.2, ?_⟩
        refine (nvmeTransfer_blockCount .write d.nsid slba nlb pointers.1 pointers.2).trans ?_
        rw [Profile.decU16_ofNat hcount hnlb, sentBlocks]
      · rintro c t ⟨hk, -⟩
        refine sat_checkCompletion.post ?_
        rintro x ⟨rfl, hp⟩
        exact ⟨hk, fun h => absurd h hp⟩
      · rintro e t ⟨hk, -⟩
        exact ⟨hk, by simp⟩
      · rintro why t ⟨hk, hp⟩
        exact ⟨hk, fun _ hm => absurd hm (hp trivial)⟩

/-! ### Bring-up -/

section Open

/-- The reset issues only what `φ` allows: it polls the status, and writes these values to the
registers of the admin queue. -/
structure AllowsReset (d : NvmeUserspaceDriver) (φ : Op → Prop) : Prop where
  read : ∀ offset, φ (.read32 offset)
  sleep : ∀ milliseconds, φ (.sleep milliseconds)
  configuration : ∀ value, φ (.write32 CC value)
  attributes : φ (.write32 AQA
    (((UInt32.ofNat QUEUE_DEPTH - 1) <<< 16) ||| (UInt32.ofNat QUEUE_DEPTH - 1)))
  submissionQueue : φ (.write64 ASQ d.adminSubmissionQueuePhysicalAddress)
  completionQueue : φ (.write64 ACQ d.adminCompletionQueuePhysicalAddress)

/-- A register access does not touch the driver. -/
theorem sat_write32 {offset : Nat} {value : UInt32} (h : φ (.write32 offset value)) :
    (d.nvmeBar.write32 offset value d).Sat R φ fun x => x.2 = d := by
  rw [NvmeBar.write32]
  cases d.nvmeBar.check offset 4 with
  | ok _ => exact ⟨h, fun _ _ => rfl⟩
  | err e => exact rfl
  | panic why => exact rfl

/-- A register is written if it is in the BAR, and the driver stays as it is. -/
theorem sat_write64 {offset : Nat} {value : UInt64} (h : φ (.write64 offset value)) :
    (d.nvmeBar.write64 offset value d).Sat R φ fun x => x.2 = d := by
  rw [NvmeBar.write64]
  cases d.nvmeBar.check offset 8 with
  | ok _ => exact ⟨h, fun _ _ => rfl⟩
  | err e => exact rfl
  | panic why => exact rfl

/-- CC is read. -/
theorem sat_readConfiguration (h : φ (.read32 CC)) :
    (d.nvmeBar.readConfiguration d).Sat R φ fun x => x.2 = d := by
  rw [NvmeBar.readConfiguration, NvmeBar.read32]
  cases d.nvmeBar.check CC 4 with
  | ok _ => exact ⟨h, fun _ _ => rfl⟩
  | err e => exact rfl
  | panic why => exact rfl

/-- A sequence of steps that each leave the driver alone leaves it alone. -/
theorem sat_bind_same {α β : Type} {m : DriverMethod α} {f : α → DriverMethod β}
    (hm : (m d).Sat R φ fun x => x.2 = d) (hf : ∀ a, (f a d).Sat R φ fun x => x.2 = d) :
    ((m >>= f) d).Sat R φ fun x => x.2 = d :=
  Method.sat_bind hm (fun a t (h : t = d) => h ▸ hf a) (fun _ _ => id) fun _ _ => id

section Reset

variable (hφ : AllowsReset d φ)
include hφ

/-- **The wait** reads CSTS and sleeps, as long as polls are left. -/
theorem sat_waitReady {wantReady : Bool} {n : Nat} :
    (waitReady wantReady n d).Sat R φ fun x => x.2 = d := by
  -- by induction on the polls that are left
  induction n with
  | zero => exact rfl
  | succ n ih =>
    simp only [waitReady, Method.get_bind, NvmeBar.readStatus, NvmeBar.read32, Method.bind_assoc]
    cases d.nvmeBar.check CSTS 4 with
    | ok _ =>
      simp only [Method.lift_ok_bind, Method.call_bind, Prog.sat_op]
      -- it ends at once where CSTS says so, or reports a fatal status
      refine ⟨hφ.read _, fun status _ => ?_⟩
      split
      · exact rfl
      split
      · exact rfl
      · exact ⟨hφ.sleep _, fun _ _ => ih⟩
    | err e => exact rfl
    | panic why => exact rfl

/-- **The reset**, with the values that it writes. -/
theorem sat_reset : (resetAndEnable d).Sat R φ fun x => x.2 = d := by
  simp only [resetAndEnable, Method.get_bind]
  refine sat_bind_same (sat_readConfiguration (hφ.read _)) fun _ => ?_
  refine sat_bind_same (sat_write32 (hφ.configuration _)) fun _ => ?_
  refine sat_bind_same (sat_waitReady hφ) fun _ => ?_
  refine sat_bind_same (sat_write32 hφ.attributes) fun _ => ?_
  refine sat_bind_same (sat_write64 hφ.submissionQueue) fun _ => ?_
  refine sat_bind_same (sat_write64 hφ.completionQueue) fun _ => ?_
  exact sat_bind_same (sat_write32 (hφ.configuration _)) fun _ => sat_waitReady hφ

end Reset

/-- The accesses that configure a controller: to the registers below the doorbells. -/
def Configures : Op → Prop
  | .read32 _ | .write64 _ _ | .sleep _ => True
  | .write32 offset _ => offset < DOORBELL_BASE
  | _ => False

/-- The reset touches the registers below the doorbells alone. -/
theorem sat_resetAndEnable :
    (resetAndEnable d).Sat R Configures fun x => x.2 = d := by
  refine sat_reset ⟨fun _ => trivial, fun _ => trivial, fun _ => ?_, ?_, trivial, trivial⟩
  · show CC < DOORBELL_BASE
    decide
  · show AQA < DOORBELL_BASE
    decide

/-- Calls that keep the driver, one after the other. -/
theorem sat_bind_kept {α β : Type} {m : DriverMethod α} {f : α → DriverMethod β}
    (hm : (m d).Sat R (fun _ => True) fun x => d.Kept x.2)
    (hf : ∀ a t, d.Kept t → (f a t).Sat R (fun _ => True) fun x => d.Kept x.2) :
    ((m >>= f) d).Sat R (fun _ => True) fun x => d.Kept x.2 :=
  Method.sat_bind hm hf (fun _ _ => id) fun _ _ => id

/-- Two calls in a row. -/
theorem Kept.trans {d₂ : NvmeUserspaceDriver} (h : d.Kept d') (h' : d'.Kept d₂) :
    d.Kept d₂ := by
  obtain ⟨a, q, rfl, -⟩ := h
  obtain ⟨a', q', rfl, hs⟩ := h'
  exact ⟨a', q', rfl, hs⟩

theorem Kept.shaped (h : d.Kept d') : d'.Shaped := by
  obtain ⟨_, _, -, hs⟩ := h
  exact hs

theorem sat_identify_kept {«structure» : IdentifyStructure} {nsid : UInt32} (hd : d.Shaped) :
    (identify «structure» nsid d).Sat R (fun _ => True) fun x => d.Kept x.2 :=
  (sat_identify (ψ := fun _ => True) hd).mono (fun _ _ => trivial) fun _ h => h.1

theorem sat_submitAdmin_kept {command : SubmissionQueueEntry} (hd : d.Shaped) :
    (submitAdmin command d).Sat R (fun _ => True) fun x => d.Kept x.2 :=
  (sat_submitAdmin (ψ := fun _ => True) hd).mono (fun _ _ => trivial) fun _ h => h.1

/-- The check of an entry size issues nothing. -/
theorem sat_checkEntrySize {what : String} {supported required : UInt8} :
    (checkEntrySize what supported required d).Sat R φ fun x => x.2 = d := by
  unfold checkEntrySize
  split
  · exact rfl
  · exact rfl

/-- The check of both entry sizes is an Identify and two comparisons. -/
theorem sat_checkQueueEntrySizes (hd : d.Shaped) :
    (checkQueueEntrySizes d).Sat R (fun _ => True) fun x => d.Kept x.2 := by
  refine sat_bind_kept (sat_identify_kept hd) fun data t ht => ?_
  cases IdentifyController.readFromPrefix data with
  | none => exact ht
  | some controller =>
    have hsame {t'} (h : t' = t) : d.Kept t' := h ▸ ht
    refine Method.sat_bind sat_checkEntrySize ?_ (fun _ _ => hsame) fun _ _ => hsame
    rintro _ t' rfl
    exact sat_checkEntrySize.post fun _ => hsame

/-- Both I/O queues are created; the driver is the one that it was. -/
theorem sat_createIoQueues (hd : d.Shaped) :
    (createIoQueues d).Sat R (fun _ => True) fun x => d.Kept x.2 := by
  have hcheck {c what} {t : NvmeUserspaceDriver} (ht : d.Kept t) :
      (checkCompletion c what t).Sat R (fun _ => True) fun x => d.Kept x.2 :=
    sat_checkCompletion.post fun _ h => h.1 ▸ ht
  simp only [createIoQueues, Method.get_bind]
  -- the completion queue comes first, then the submission queue that posts to it
  refine sat_bind_kept (sat_submitAdmin_kept hd) fun _ t ht => ?_
  refine Method.sat_bind (hcheck ht) (fun _ t' ht' => ?_) (fun _ _ => id) fun _ _ => id
  refine Method.sat_bind ((sat_submitAdmin_kept ht'.shaped).post fun _ => ht'.trans) ?_
    (fun _ _ => id) fun _ _ => id
  exact fun _ _ ht => hcheck ht

/-- A block size that is learnt is a power of two below `2 ^ 64`. -/
theorem oneShlUsize_ok {shift n : Nat}
    (h : (p.oneShlUsize shift : Outcome IoError Nat) = .ok n) : 0 < n ∧ n < U64_SIZE := by
  have hpow {k : Nat} (hk : k < 64) : 0 < 2 ^ k ∧ 2 ^ k < U64_SIZE :=
    ⟨Nat.two_pow_pos k, Nat.pow_lt_pow_right (by decide) hk⟩
  -- a build that does not check the shift takes it modulo 64
  unfold Profile.oneShlUsize at h
  split at h
  · next hlt => obtain rfl := Outcome.ok.inj h; exact hpow hlt
  · cases p with
    | debug => cases h
    | release => obtain rfl := Outcome.ok.inj h; exact hpow (Nat.mod_lt _ (by decide))

/-- The first time a block size is asked for, it is learnt and kept. -/
theorem sat_namespaceBlockSize (hd : d.Shaped) (hnone : d.blockSizes d.nsid = none) :
    (namespaceBlockSize p d.nsid d).Sat R (fun _ => True) fun x =>
      ∀ B, x.1 = .ok B → x.2.nsid = d.nsid ∧ x.2.Ready B := by
  simp only [namespaceBlockSize, Method.get_bind, hnone]
  refine Method.sat_bind (sat_identify_kept hd) (fun data t ht => ?_) (by simp) (by simp)
  cases IdentifyNamespace.readFromPrefix data with
  | none => exact fun B h => by cases h
  | some ns =>
  dsimp only
  cases hsize : (p.oneShlUsize (ns.lbaFormats ns.formatIndex).lbads.toNat :
      Outcome IoError Nat) with
  | err e => exact fun B h => by cases h
  | panic why => exact fun B h => by cases h
  | ok size =>
    rintro B ⟨⟩
    -- the entry for this namespace is the one that the cache gains
    have hs := ht.shaped
    obtain ⟨hpos, hlt⟩ := oneShlUsize_ok hsize
    have hnsid : t.nsid = d.nsid := by obtain ⟨_, _, rfl, -⟩ := ht; rfl
    exact ⟨hnsid, { hs with cached := by simp [hnsid], pos := hpos, lt := hlt }⟩

/-- The bring-up learns the block size of the driver's namespace. -/
theorem sat_bringUp (hd : d.Shaped) (hnone : d.blockSizes d.nsid = none) :
    (bringUp p d).Sat R (fun _ => True) fun x =>
      x.1 = .ok () → x.2.nsid = d.nsid ∧ ∃ B, x.2.Ready B := by
  refine Method.sat_bind (sat_resetAndEnable.mono (fun _ _ => trivial) fun _ h => h) ?_ (by simp)
    (by simp)
  intro _ _ hd'
  obtain rfl := hd'.symm
  refine Method.sat_bind (sat_checkQueueEntrySizes hd) (fun _ t ht => ?_) (by simp) (by simp)
  refine Method.sat_bind ((sat_createIoQueues ht.shaped).post fun _ => ht.trans)
    (fun _ t ht => ?_) (by simp) (by simp)
  rw [Method.get_bind]
  -- none of the three calls so far looks at the cache
  have hsame : t.nsid = d.nsid ∧ t.blockSizes = d.blockSizes := by
    obtain ⟨_, _, rfl, -⟩ := ht
    exact ⟨rfl, rfl⟩
  refine Method.sat_bind (sat_namespaceBlockSize ht.shaped ?_) ?_ (by simp) (by simp)
  · rw [hsame.1, hsame.2, hnone]
  · rintro B t' h -
    obtain ⟨hn, hr⟩ := h B rfl
    exact ⟨hn.trans hsame.1, B, hr⟩

/-- **`open`.** A driver that is returned is ready: its queues are in place and it knows
the block size of its namespace. -/
theorem sat_openDriver {σ : Type} {s : σ} {bdf : Str} {nsid : UInt32} :
    ((openDriver p bdf nsid : Method Op Res σ IoError _) s).Sat R (fun _ => True) fun x =>
      ∀ d, x.1 = .ok d → d.nsid = nsid ∧ ∃ B, d.Ready B := by
  -- what the system answers does not matter until the driver is built
  refine Method.sat_bind (Prog.sat_true _) (fun _ _ _ => ?_) (by simp) (by simp)
  refine Method.sat_bind (Prog.sat_true _) (fun _ _ _ => ?_) (by simp) (by simp)
  refine Method.sat_bind (Prog.sat_true _) (fun _ _ _ => ?_) (by simp) (by simp)
  refine Method.sat_bind (Prog.sat_true _) (fun length _ _ => ?_) (by simp) (by simp)
  refine Method.sat_bind (Prog.sat_true _) (fun physical _ _ => ?_) (by simp) (by simp)
  refine Method.sat_bind (Prog.sat_true _) (fun capabilities _ _ => ?_) (by simp) (by simp)
  have hshaped (dma : DmaRegion) (h : dma.length = HUGE_PAGE_SIZE) :
      (fresh ⟨length⟩ dma (doorbellStrideOf capabilities) nsid).Shaped :=
    ⟨h, .new _ _ _, .new _ _ _⟩
  -- the driver is built on a fresh region, and bring-up makes it ready
  refine Method.sat_unwinding (Method.sat_owning ((sat_bringUp (hshaped _ rfl) rfl).post ?_))
  rintro ⟨x, t⟩ hx
  cases x with
  | ok _ =>
    rintro d ⟨⟩
    exact hx rfl
  | err e => exact (Prog.sat_true _).post fun _ _ d h => by cases h
  | panic why => exact (Prog.sat_true _).post fun _ _ d h => by cases h

end Open

end NvmeUserspaceDriver

end Nvmetoy
