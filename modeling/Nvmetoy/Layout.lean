import Nvmetoy.Lifetime
import Nvmetoy.Controller

/-!
# The areas of the DMA region

The region is cut into a submission and a completion page for each queue, a page of PRP entries
and the data area. Everything `open` does is done through the admin queue, and every call goes
through one queue (`Call.queue`).

* `QueueId.access` — the access an operation makes to the region, with the area it belongs to
  when it is made for that queue.
* `QueueId.Confines` — the access lies in its area, aligned. The accessors of `DmaRegion` issue
  nothing else, and none of their assertions fails (`AssertionsHold`).
* `act_frame` — an operation alters no byte outside its access.
* `layout_isolated` — the whole life of a driver.
-/

namespace Nvmetoy

open Framework NvmeUserspaceDriver

/-- The messages of the assertions of `DmaRegion`. -/
def DmaRegion.assertions : List String :=
  ["DMA access offset overflow", "DMA access exceeds length", "DMA access is not aligned"]

/-- An access to the region, and the area it belongs to. -/
structure Access where
  offset : Nat
  size : Nat
  align : Nat
  first : Nat
  last : Nat

/-- The access is aligned and stays inside its area. -/
structure Access.Inside (a : Access) : Prop where
  first_le : a.first ≤ a.offset
  le_last : a.offset + a.size ≤ a.last
  aligned : a.offset % a.align = 0

/-- The access of an operation that is made for queue `i`. -/
def QueueId.access (i : QueueId) : Op → Option Access
  | .writeSqe offset _ | .readSqe offset =>
    some ⟨offset, SubmissionQueueEntry.SIZE, SubmissionQueueEntry.ALIGN, i.submissionOffset,
      i.submissionOffset + PAGE_SIZE⟩
  | .readCqe offset =>
    some ⟨offset, CompletionQueueEntry.SIZE, CompletionQueueEntry.ALIGN, i.completionOffset,
      i.completionOffset + PAGE_SIZE⟩
  | .writeU64 offset _ => some ⟨offset, 8, 8, PRP_LIST_OFFSET, PRP_LIST_OFFSET + PAGE_SIZE⟩
  | .readBytes offset len => some ⟨offset, len, 1, DATA_OFFSET, HUGE_PAGE_SIZE⟩
  | .writeBytes offset source => some ⟨offset, source.length, 1, DATA_OFFSET, HUGE_PAGE_SIZE⟩
  | _ => none

/-- The operation stays in its area. -/
def QueueId.Confines (i : QueueId) (o : Op) : Prop := ∀ a, i.access o = some a → a.Inside

/-- No assertion of `DmaRegion` has failed. -/
def AssertionsHold {α : Type} (x : Outcome IoError α) : Prop :=
  ∀ why, x = .panic why → why ∉ DmaRegion.assertions

/-- The queue a call goes through. -/
def Call.queue : Call → QueueId
  | .identifyController => .admin
  | .read _ _ => .io
  | .write _ _ => .io

/-! ### What an operation alters -/

section Frame

variable {P : Platform} {w w' : World} {i : QueueId}

/-- A register is no memory of the hugepage. -/
theorem writeRegister_mem {offset : Nat} {value : UInt32} :
    (w.writeRegister P offset value).mem = w.mem := by
  unfold World.writeRegister World.writeConfiguration
  split_ifs <;> rfl

theorem mark_mem {m : Mark} : (w.mark m).mem = w.mem := by
  cases m with
  | beginSubmit i => rfl
  | endSubmit i result => rfl
  | beginCall call => rfl
  | endCall result =>
    rw [World.mark]
    cases w.current with
    | none => rfl
    | some call => rfl

/-- Apart from the mapping of the region, an operation alters the bytes of its access alone. -/
theorem act_frame {o : Op} {r : Res o} (h : act P o w r w') (ho : o ≠ .allocHuge) {x : Nat}
    (hx : ∀ a, i.access o = some a →
      x < World.address P a.offset ∨ World.address P a.offset + a.size ≤ x) :
    w'.mem x = w.mem x := by
  cases o with
  -- the three operations that write to memory do so inside their access
  | writeSqe offset entry =>
    obtain rfl : w' = w.storeSqe P offset entry := h
    refine Mem.write_of_outside ?_
    rw [SubmissionQueueEntry.length_encode]
    exact hx _ rfl
  | writeU64 offset value =>
    obtain rfl : w' = { w with mem := w.mem.write (World.address P offset) (toLe 8 value.toNat) } :=
      h
    refine Mem.write_of_outside ?_
    rw [length_toLe]
    exact hx _ rfl
  | writeBytes offset source =>
    obtain rfl : w' = { w with mem := w.mem.write (World.address P offset) source } := h
    exact Mem.write_of_outside (hx _ rfl)
  -- registers and marks do not touch it
  | write32 offset value =>
    obtain rfl : w' = w.writeRegister P offset value := h
    rw [writeRegister_mem]
  | mark m =>
    obtain rfl : w' = w.mark m := h
    rw [mark_mem]
  | unmapDma =>
    obtain rfl : w' = w.release := h
    rfl
  -- nor does what only reads
  | readCqe offset =>
    obtain ⟨-, rfl⟩ : r = .decode (w.mem.read (World.address P offset) 16) ∧
      w' = w.pollCqe offset r := h
    rfl
  | allocHuge => exact absurd rfl ho
  | readSqe offset =>
    obtain ⟨-, rfl⟩ : r = .decode (w.mem.read (World.address P offset) 64) ∧ w' = w := h
    rfl
  | readBytes offset len =>
    obtain ⟨-, rfl⟩ : r.val = w.mem.read (World.address P offset) len ∧ w' = w := h
    rfl
  | read64 offset =>
    obtain ⟨-, rfl⟩ : (offset = CAP → doorbellStrideOf r = P.stride) ∧ w' = w := h
    rfl
  | mapBar bdf index =>
    obtain ⟨-, rfl⟩ : (∀ length, r = .ok length → length = P.barLength) ∧ w' = w := h
    rfl
  | read32 _ | write64 _ _ | sleep _ | readDriverLink _ | configOpen _ | configSeek _
  | configRead _ | configWrite _ | unmapBar | alloc _ | println _ =>
    obtain rfl : w' = w := h
    rfl

end Frame

/-- The operation stays in its area, and leaves every other byte of the region as it was. -/
structure QueueId.Isolates (i : QueueId) (o : Op) : Prop where
  inside : ∀ a, i.access o = some a → a.Inside
  frame : o ≠ .allocHuge → ∀ (P : Platform) (w w' : World) (r : Res o), act P o w r w' →
    ∀ offset, (∀ a, i.access o = some a → offset < a.first ∨ a.last ≤ offset) →
      w'.mem (World.address P offset) = w.mem (World.address P offset)

/-- What stays in its own area isolates the others. -/
theorem QueueId.Confines.isolates {i : QueueId} {o : Op} (h : i.Confines o) : i.Isolates o where
  inside := h
  frame := by
    intro ho P w w' r hact offset hoffset
    refine act_frame (i := i) hact ho fun a ha => ?_
    obtain ⟨hfirst, hlast, -⟩ := h a ha
    have hout := hoffset a ha
    simp only [World.address]
    omega

/-! ### Accesses -/

section Accesses

variable {i : QueueId} {R : (o : Op) → Res o → Prop} {σ : Type} {s : σ}

theorem assertionsHold_ok {α : Type} (a : α) : AssertionsHold (.ok a : Outcome IoError α) := by
  simp [AssertionsHold]

theorem assertionsHold_err {α : Type} (e : IoError) :
    AssertionsHold (.err e : Outcome IoError α) := by
  simp [AssertionsHold]

/-- A panic that is none of theirs breaks no assertion. -/
theorem assertionsHold_panic {α : Type} {why : String} (h : why ∉ DmaRegion.assertions) :
    AssertionsHold (.panic why : Outcome IoError α) := by
  intro why' hwhy
  obtain rfl := Outcome.panic.inj hwhy
  exact h

/-- A panic of one computation is a panic of the other. -/
theorem AssertionsHold.panic {α β : Type} {why : String}
    (h : AssertionsHold (.panic why : Outcome IoError α)) :
    AssertionsHold (.panic why : Outcome IoError β) :=
  assertionsHold_panic (h why rfl)

/-- An operation that is no access to the region. -/
theorem confines_of_none {o : Op} (h : i.access o = none) : i.Confines o := by
  intro a ha
  rw [h] at ha
  cases ha

/-- The check of a register access is none of them. -/
theorem NvmeBar.assertionsHold_check (bar : NvmeBar) (offset size : Nat) :
    AssertionsHold (bar.check offset size) := by
  unfold NvmeBar.check
  split_ifs
  · exact assertionsHold_ok _
  all_goals exact assertionsHold_panic (by simp [DmaRegion.assertions])

/-- A register access does not touch the region. -/
theorem sat_barAccess {bar : NvmeBar} {offset size : Nat} {o : Op} (ho : i.access o = none) :
    ((do Method.lift (bar.check offset size); Method.call o :
      Method Op Res σ IoError (Res o)) s).Sat R i.Confines
      fun x => x.2 = s ∧ AssertionsHold x.1 := by
  have htame := bar.assertionsHold_check offset size
  cases hcheck : bar.check offset size with
  | ok _ => exact ⟨confines_of_none ho, fun r _ => ⟨rfl, assertionsHold_ok r⟩⟩
  | err e => exact ⟨rfl, assertionsHold_err e⟩
  | panic why => exact ⟨rfl, (hcheck ▸ htame).panic⟩

end Accesses

/-! ### A command -/

namespace QueuePair

variable {i : QueueId} {q : QueuePair} {bar : NvmeBar} {dma : DmaRegion} {stride : Nat}
  {R : (o : Op) → Res o → Prop}

/-- The queue pair of `i` lies in its pages. -/
abbrev PlacedAs (q : QueuePair) (i : QueueId) : Prop :=
  q.Placed i.number i.submissionOffset i.completionOffset

/-- The slot the driver writes lies in its own submission ring. -/
theorem confines_sqe (hq : q.PlacedAs i) (hr : Rings dma i.submissionOffset i.completionOffset)
    (entry : SubmissionQueueEntry) :
    i.Confines (.writeSqe q.sqeOffset entry) ∧ i.Confines (.readSqe q.sqeOffset) := by
  have hbounds := hq.sqeOffset_bounds
  have haligned : q.sqeOffset % SubmissionQueueEntry.ALIGN = 0 := by
    have := hr.submission_aligned
    simp only [sqeOffset, hq.submission_eq, SubmissionQueueEntry.SIZE, SubmissionQueueEntry.ALIGN]
    omega
  constructor
  all_goals
    rintro a ⟨⟩
    exact ⟨hbounds.1, hbounds.2, haligned⟩

theorem confines_cqe (hq : q.PlacedAs i) (hr : Rings dma i.submissionOffset i.completionOffset) :
    i.Confines (.readCqe q.cqeOffset) := by
  have hbounds := hq.cqeOffset_bounds
  rintro a ⟨⟩
  refine ⟨hbounds.1, hbounds.2, ?_⟩
  have := hr.completion_aligned
  simp only [cqeOffset, hq.completion_eq, CompletionQueueEntry.SIZE, CompletionQueueEntry.ALIGN]
  omega

/-- Taking a completion is a register access. -/
theorem confined_consume {cid : UInt16} {c : CompletionQueueEntry} (hq : q.PlacedAs i) :
    (consume bar stride cid c q).Sat R i.Confines fun x => x.2.PlacedAs i ∧ AssertionsHold x.1 := by
  simp only [consume, Method.get_bind, Method.set_bind, NvmeBar.ringCompletionDoorbell]
  refine Method.sat_bind (sat_barAccess rfl) ?_ ?_ ?_
  · intro _ t ht
    obtain rfl := ht.1
    -- the head has moved, whether the identifier is the expected one or not
    split
    · exact ⟨hq.advanceHead, assertionsHold_err _⟩
    · exact ⟨hq.advanceHead, assertionsHold_ok _⟩
  · intro e t ht
    exact ⟨ht.1 ▸ hq.advanceHead, assertionsHold_err e⟩
  · intro why t ht
    exact ⟨ht.1 ▸ hq.advanceHead, ht.2.panic⟩

/-- Every poll is a read in the completion page: the head stays below the depth. -/
theorem confined_pollCompletion {cid : UInt16} {n : Nat} (hq : q.PlacedAs i)
    (hr : Rings dma i.submissionOffset i.completionOffset) :
    (pollCompletion bar dma stride cid n q).Sat R i.Confines fun x =>
      x.2.PlacedAs i ∧ AssertionsHold x.1 := by
  induction n with
  | zero => exact ⟨hq, assertionsHold_err _⟩
  | succ n ih =>
    simp only [pollCompletion, Method.get_bind, DmaRegion.readCqe, hq.cqe_ok hr,
      Method.lift_ok_bind, Method.call_bind, Prog.sat_op]
    -- the entry that is polled lies in the completion ring, and the next poll is of the same
    refine ⟨confines_cqe hq hr, fun c _ => ?_⟩
    split
    · exact confined_consume hq
    · exact ih

/-- **One command** touches the pages of its queue alone, however it ends. -/
theorem confined_submitAndWait {command : SubmissionQueueEntry} (hq : q.PlacedAs i)
    (hr : Rings dma i.submissionOffset i.completionOffset) :
    (submitAndWait bar dma stride command q).Sat R i.Confines fun x =>
      x.2.PlacedAs i ∧ AssertionsHold x.1 := by
  simp only [submitAndWait, submit, DmaRegion.writeSqe, DmaRegion.readSqe, hq.sqe_ok hr,
    NvmeBar.ringSubmissionDoorbell, Method.bind_assoc, Method.get_bind, Method.set_bind,
    Method.lift_ok_bind, Method.call_bind, Prog.sat_op]
  -- the entry is written and read back in one slot
  have hsqe := confines_sqe hq hr { command with cid := q.nextCid }
  refine ⟨hsqe.1, fun _ _ => ⟨hsqe.2, fun _ _ => ?_⟩⟩
  have hnext := hq.takeCid.advanceTail
  refine Method.sat_bind (sat_barAccess rfl) ?_ ?_ ?_
  · -- the doorbell is rung, and the polls follow; otherwise the call is over
    intro _ t ht
    obtain rfl := ht.1
    exact confined_pollCompletion hnext hr
  · intro e t ht
    exact ⟨ht.1 ▸ hnext, assertionsHold_err e⟩
  · intro why t ht
    exact ⟨ht.1 ▸ hnext, ht.2.panic⟩

end QueuePair

/-! ### The driver -/

namespace NvmeUserspaceDriver

variable {i : QueueId} {d : NvmeUserspaceDriver} {R : (o : Op) → Res o → Prop} {p : Profile}
  {B : Nat} {α β : Type}

/-- From `d`, the method stays in the areas of queue `i`. It keeps the shape of the driver, and
no assertion of the region fails. -/
def Contained (i : QueueId) (d : NvmeUserspaceDriver) (m : DriverMethod α) : Prop :=
  (m d).Sat Prog.Any i.Confines fun x => x.2.Shaped ∧ AssertionsHold x.1

/-- **Sequencing.** The placement survives every end of the first half. -/
theorem Contained.bind {m : DriverMethod α} {f : α → DriverMethod β} (hm : Contained i d m)
    (hf : ∀ a t, t.Shaped → Contained i t (f a)) : Contained i d (m >>= f) := by
  refine Method.sat_bind hm ?_ ?_ ?_
  · intro a t ht
    exact hf a t ht.1
  · intro e t ht
    exact ⟨ht.1, assertionsHold_err e⟩
  · intro why t ht
    exact ⟨ht.1, ht.2.panic⟩

theorem contained_get {f : NvmeUserspaceDriver → DriverMethod α} :
    Contained i d (Method.get >>= f) ↔ Contained i d (f d) := Iff.rfl

/-- A register access leaves the driver as it is. -/
theorem contained_barAccess (hd : d.Shaped) {bar : NvmeBar} {offset size : Nat} {o : Op}
    (ho : i.access o = none) :
    Contained i d (do Method.lift (bar.check offset size); Method.call o) :=
  (sat_barAccess ho).post fun _ h => ⟨h.1 ▸ hd, h.2⟩

theorem contained_ok (hd : d.Shaped) (a : α) : Contained i d (pure a) := ⟨hd, assertionsHold_ok a⟩

theorem contained_fail (hd : d.Shaped) (e : IoError) :
    Contained i d (Method.fail e : DriverMethod α) := ⟨hd, assertionsHold_err e⟩

/-- A command on the admin queue touches that queue's rings alone. -/
theorem contained_submitAdmin (hd : d.Shaped) (command : SubmissionQueueEntry) :
    Contained .admin d (submitAdmin command) := by
  refine contained_get.mpr (Method.sat_onField
    ((QueuePair.confined_submitAndWait (i := .admin) hd.admin hd.adminRings).post ?_))
  intro x hx
  exact ⟨⟨hd.length_eq, hx.1, hd.io⟩, hx.2⟩

theorem contained_submitIo (hd : d.Shaped) (command : SubmissionQueueEntry) :
    Contained .io d (submitIo command) := by
  refine contained_get.mpr (Method.sat_onField ((QueuePair.confined_submitAndWait (i := .io) hd.io
    hd.ioRings).post ?_))
  intro x hx
  exact ⟨⟨hd.length_eq, hd.admin, hx.1⟩, hx.2⟩

/-- What a completion says is checked without an access. -/
theorem contained_checkCompletion (hd : d.Shaped) (c : CompletionQueueEntry) (what : String) :
    Contained i d (checkCompletion c what) := by
  unfold checkCompletion
  split
  · exact contained_ok hd ()
  · exact contained_fail hd _

/-- A copy out of the data area. -/
theorem contained_readBytes {dma : DmaRegion} (hd : d.Shaped) (hdma : dma.length = HUGE_PAGE_SIZE)
    {len : Nat} (h : len ≤ MAX_TRANSFER_BYTES) :
    Contained i d (dma.readBytes DATA_OFFSET len) := by
  unfold Contained
  simp only [DmaRegion.readBytes, payload_ok hdma h, Method.lift_ok_bind, Method.call_bind,
    Prog.sat_op]
  refine ⟨?_, fun r _ => ⟨hd, assertionsHold_ok _⟩⟩
  rintro a ⟨⟩
  refine ⟨le_rfl, ?_, Nat.mod_one _⟩
  have : DATA_OFFSET ≤ HUGE_PAGE_SIZE := by decide
  simp only [MAX_TRANSFER_BYTES] at h ⊢
  omega

/-- The answer to Identify is read from the data buffer. -/
theorem contained_identify (hd : d.Shaped) («structure» : IdentifyStructure) (nsid : UInt32) :
    Contained .admin d (identify «structure» nsid) := by
  refine contained_get.mpr ((contained_submitAdmin hd _).bind fun c t ht => ?_)
  refine (contained_checkCompletion ht c "Identify").bind fun _ t' ht' => ?_
  exact contained_readBytes ht' hd.length_eq (by decide)

/-- The entry at `index < PRP_LIST_CAPACITY` lies in the PRP-list page. -/
theorem confines_prpEntry {index : Nat} {value : UInt64} (h : index < PRP_LIST_CAPACITY) :
    i.Confines (.writeU64 (PRP_LIST_OFFSET + index * 8) value) := by
  simp only [PRP_LIST_CAPACITY, DATA_OFFSET, PRP_LIST_OFFSET] at h
  rintro a ⟨⟩
  constructor
  all_goals
    simp only [PRP_LIST_OFFSET, PAGE_SIZE]
    omega

/-- The list is written below its capacity. -/
theorem contained_writePrpEntries (hd : d.Shaped) {index count : Nat}
    (h : index + count ≤ PRP_LIST_CAPACITY) :
    Contained i d (writePrpEntries index count) := by
  -- by induction on the entries left, the next one being below the capacity
  induction count generalizing index with
  | zero => exact contained_ok hd ()
  | succ count ih =>
    have hentry := prpEntry_ok hd.length_eq (show index < PRP_LIST_CAPACITY by omega)
    unfold Contained
    simp only [writePrpEntries, Method.get_bind, DmaRegion.writeU64, hentry,
      Method.lift_ok_bind, Method.call_bind, Prog.sat_op]
    exact ⟨confines_prpEntry (by omega), fun _ _ => ih (by omega)⟩

/-- The transfer limit keeps the list in its page. -/
theorem contained_dataPointers (hd : d.Shaped) {length : Nat} (h : length ≤ MAX_TRANSFER_BYTES) :
    Contained i d (dataPointers p length) := by
  have hpages := pageCount_le h
  unfold Contained
  simp only [dataPointers, Method.get_bind]
  split
  · exact contained_ok hd _
  split
  · exact contained_ok hd _
  split
  · -- a transfer within the limit never exceeds the list
    next hbad => exact absurd hbad.2 (Nat.not_lt.mpr hpages)
  · exact (contained_writePrpEntries hd (by simpa using hpages)).bind fun _ t ht =>
      contained_ok ht _

/-- An allocation may panic, but not with an assertion of the region. -/
theorem contained_allocVec (hd : d.Shaped) (bytes : Nat) : Contained i d (allocVec bytes) := by
  unfold allocVec
  split
  · exact ⟨confines_of_none rfl, fun _ _ => ⟨hd, assertionsHold_ok _⟩⟩
  · exact ⟨hd, assertionsHold_panic (by simp [DmaRegion.assertions])⟩

/-- The rest of a method after a pure computation, whose panics are not of the region. -/
theorem contained_lift {x : Outcome IoError α} {f : α → DriverMethod β} (hd : d.Shaped)
    (hx : AssertionsHold x) (hf : ∀ a, x = .ok a → Contained i d (f a)) :
    Contained i d (Method.lift x >>= f) :=
  Method.sat_lift hf (fun e _ => ⟨hd, assertionsHold_err e⟩) fun _ h => ⟨hd, (h ▸ hx).panic⟩

/-! ### Read and write -/

section Arithmetic

/-- The panics of the arithmetic are no assertions of the region. -/
theorem assertionsHold_fit (n : Nat) : AssertionsHold (p.fit n) := by
  unfold Profile.fit
  split
  · exact assertionsHold_ok _
  · cases p with
    | debug => exact assertionsHold_panic (by simp [DmaRegion.assertions])
    | release => exact assertionsHold_ok _

theorem assertionsHold_oneShlUsize (shift : Nat) : AssertionsHold (p.oneShlUsize shift) := by
  unfold Profile.oneShlUsize
  split
  · exact assertionsHold_ok _
  · cases p with
    | debug => exact assertionsHold_panic (by simp [DmaRegion.assertions])
    | release => exact assertionsHold_ok _

theorem assertionsHold_decU16 (a : UInt16) : AssertionsHold (p.decU16 a) := by
  unfold Profile.decU16
  split
  · cases p with
    | debug => exact assertionsHold_panic (by simp [DmaRegion.assertions])
    | release => exact assertionsHold_ok _
  · exact assertionsHold_ok _

end Arithmetic

/-- A read is bounded by the data buffer before it is sent or copied. -/
theorem contained_read (hd : d.Ready B) (slba : UInt64) (blockCount : UInt16) :
    Contained .io d (read p slba blockCount) := by
  have hs := hd.toShaped
  unfold Contained read
  split
  · exact contained_fail hs _
  simp only [Method.get_bind, namespaceBlockSize_bind hd.cached]
  refine contained_lift hs (assertionsHold_fit _) fun total _ => ?_
  -- nothing is sent or copied for a read that does not fit
  split
  · exact contained_fail hs _
  next hmax =>
  rw [Nat.not_lt] at hmax
  refine (contained_dataPointers hs hmax).bind fun pointers t ht => ?_
  refine (contained_submitIo ht _).bind fun c t ht => ?_
  refine (contained_checkCompletion ht c "Read").bind fun _ t ht => ?_
  refine (contained_allocVec ht total).bind fun _ t ht => ?_
  exact contained_readBytes ht hd.length_eq hmax

/-- A write is bounded by the data buffer before it is copied. -/
theorem contained_write (hd : d.Ready B) (slba : UInt64) (data : List UInt8) :
    Contained .io d (write p slba data) := by
  have hs := hd.toShaped
  unfold Contained
  simp only [write, Method.get_bind, namespaceBlockSize_bind hd.cached]
  -- the refusals submit nothing
  obtain ⟨refused, hrefused⟩ := notMultiple_ok data hd.pos
  rw [hrefused, Method.lift_ok_bind]
  split
  · exact contained_fail hs _
  split
  · exact contained_fail hs _
  next hmax =>
  rw [Nat.not_lt] at hmax
  simp only [divUsize, if_neg hd.pos.ne', Method.lift_ok_bind, DmaRegion.writeBytes,
    payload_ok hd.length_eq hmax, Method.call_bind, Prog.sat_op]
  -- the payload ends within the region
  refine ⟨?_, fun _ _ => ?_⟩
  · rintro a ⟨⟩
    refine ⟨le_rfl, ?_, Nat.mod_one _⟩
    have : DATA_OFFSET ≤ HUGE_PAGE_SIZE := by decide
    simp only [MAX_TRANSFER_BYTES] at hmax ⊢
    omega
  refine (contained_dataPointers hs hmax).bind fun pointers t ht => ?_
  refine contained_lift ht (assertionsHold_decU16 _) fun nlb _ => ?_
  refine (contained_submitIo ht _).bind fun c t ht => ?_
  exact contained_checkCompletion ht c "Write"

/-- Every call, on its own queue. -/
theorem contained_perform (hd : d.Ready B) (call : Call) :
    Contained call.queue d (perform p call) := by
  cases call with
  | identifyController => exact contained_identify hd.toShaped .controller 0
  | read slba blockCount => exact contained_read hd slba blockCount
  | write slba data => exact (contained_write hd slba data).bind fun _ t ht => contained_ok ht []

/-! ### Bring-up -/

/-- The polls of CSTS are register accesses. -/
theorem contained_waitReady (hd : d.Shaped) {wantReady : Bool} {polls : Nat} :
    Contained i d (waitReady wantReady polls) := by
  induction polls generalizing d with
  | zero => exact contained_fail hd _
  | succ polls ih =>
    have hstatus : Contained i d d.nvmeBar.readStatus := contained_barAccess hd rfl
    refine contained_get.mpr (hstatus.bind fun status t ht => ?_)
    split
    · exact contained_fail ht _
    split
    · exact contained_ok ht ()
    · exact ⟨confines_of_none rfl, fun _ _ => ih ht⟩

/-- So is everything else of the reset. -/
theorem contained_resetAndEnable (hd : d.Shaped) : Contained i d resetAndEnable := by
  have hread {t : NvmeUserspaceDriver} (ht : t.Shaped) :
      Contained i t d.nvmeBar.readConfiguration := contained_barAccess ht rfl
  have hwrite32 {t : NvmeUserspaceDriver} (ht : t.Shaped) (offset : Nat) (value : UInt32) :
      Contained i t (d.nvmeBar.write32 offset value) := contained_barAccess ht rfl
  have hwrite64 {t : NvmeUserspaceDriver} (ht : t.Shaped) (offset : Nat) (value : UInt64) :
      Contained i t (d.nvmeBar.write64 offset value) := contained_barAccess ht rfl
  -- every operation but the polls is one access to a register
  refine contained_get.mpr ((hread hd).bind fun configuration t ht => ?_)
  refine (hwrite32 ht CC _).bind fun _ t ht => ?_
  refine (contained_waitReady ht).bind fun _ t ht => ?_
  refine (hwrite32 ht AQA _).bind fun _ t ht => ?_
  refine (hwrite64 ht ASQ _).bind fun _ t ht => ?_
  refine (hwrite64 ht ACQ _).bind fun _ t ht => ?_
  exact (hwrite32 ht CC _).bind fun _ t ht => contained_waitReady ht

theorem contained_checkEntrySize (hd : d.Shaped) (what : String) (supported required : UInt8) :
    Contained i d (checkEntrySize what supported required) := by
  unfold checkEntrySize
  split
  · exact contained_ok hd ()
  · exact contained_fail hd _

/-- The entry sizes come from one Identify. -/
theorem contained_checkQueueEntrySizes (hd : d.Shaped) :
    Contained .admin d checkQueueEntrySizes := by
  refine (contained_identify hd .controller 0).bind fun data t ht => ?_
  cases IdentifyController.readFromPrefix data with
  | none => exact contained_fail ht _
  | some controller =>
    refine (contained_checkEntrySize ht "SQ" _ _).bind fun _ t ht => ?_
    exact contained_checkEntrySize ht "CQ" _ _

/-- Two commands on the admin queue. -/
theorem contained_createIoQueues (hd : d.Shaped) : Contained .admin d createIoQueues := by
  refine contained_get.mpr ((contained_submitAdmin hd _).bind fun c t ht => ?_)
  refine (contained_checkCompletion ht c _).bind fun _ t ht => ?_
  refine (contained_submitAdmin ht _).bind fun c t ht => ?_
  exact contained_checkCompletion ht c _

/-- The block size is known, or asked for on the admin queue. -/
theorem contained_namespaceBlockSize (hd : d.Shaped) (nsid : UInt32) :
    Contained .admin d (namespaceBlockSize p nsid) := by
  unfold Contained
  simp only [namespaceBlockSize, Method.get_bind]
  cases d.blockSizes nsid with
  | some blockSize => exact contained_ok hd blockSize
  -- the size is not known yet, and Identify is asked for it
  | none =>
    refine (contained_identify hd .namespace nsid).bind fun data t ht => ?_
    cases IdentifyNamespace.readFromPrefix data with
    | none => exact contained_fail ht _
    | some ns =>
      refine contained_lift ht (assertionsHold_oneShlUsize _) fun blockSize _ => ?_
      exact ⟨⟨ht.length_eq, ht.admin, ht.io⟩, assertionsHold_ok _⟩

/-- Hence the whole bring-up is on the admin queue. -/
theorem contained_bringUp (hd : d.Shaped) : Contained .admin d (bringUp p) := by
  refine (contained_resetAndEnable hd).bind fun _ t ht => ?_
  refine (contained_checkQueueEntrySizes ht).bind fun _ t ht => ?_
  refine (contained_createIoQueues ht).bind fun _ t ht => ?_
  refine contained_get.mpr ((contained_namespaceBlockSize ht t.nsid).bind fun _ t ht => ?_)
  exact contained_ok ht ()

section Open

variable {σ : Type} {s : σ}

/-- Sequencing, for methods of any state. -/
theorem sat_asserts_bind {m : Method Op Res σ IoError α} {f : α → Method Op Res σ IoError β}
    (hm : (m s).Sat R i.Confines fun x => AssertionsHold x.1)
    (hf : ∀ a t, (f a t).Sat R i.Confines fun x => AssertionsHold x.1) :
    ((m >>= f) s).Sat R i.Confines fun x => AssertionsHold x.1 :=
  Method.sat_bind hm (fun a t _ => hf a t) (fun e _ _ => assertionsHold_err e) fun _ _ h => h.panic

/-- `?` breaks no assertion. -/
theorem sat_asserts_question (r : Except IoError α) :
    ((question r : Method Op Res σ IoError α) s).Sat R i.Confines fun x => AssertionsHold x.1 := by
  cases r with
  | ok a => exact assertionsHold_ok a
  | error e => exact assertionsHold_err e

theorem sat_asserts_enableBusMaster (bdf : Str) :
    ((enableBusMaster bdf : Method Op Res σ IoError Unit) s).Sat R i.Confines
      fun x => AssertionsHold x.1 := by
  refine ⟨confines_of_none rfl, fun _ _ => sat_asserts_bind (sat_asserts_question _) fun _ t => ?_⟩
  refine ⟨confines_of_none rfl, fun _ _ => sat_asserts_bind (sat_asserts_question _) fun _ t => ?_⟩
  refine ⟨confines_of_none rfl, fun _ _ => sat_asserts_bind (sat_asserts_question _) fun _ t => ?_⟩
  refine ⟨confines_of_none rfl, fun _ _ => sat_asserts_bind (sat_asserts_question _) fun _ t => ?_⟩
  exact ⟨confines_of_none rfl, fun _ _ => sat_asserts_question _⟩

/-- A cleanup unmaps and does nothing else. -/
theorem sat_asserts_unwinding {cleanup : Method Op Res σ IoError Unit}
    {m : Method Op Res σ IoError α} (hm : (m s).Sat R i.Confines fun x => AssertionsHold x.1)
    (hcleanup : ∀ t, (cleanup t).Sat R i.Confines fun _ => True) :
    (Method.unwinding cleanup m s).Sat R i.Confines fun x => AssertionsHold x.1 := by
  refine Method.sat_unwinding (hm.post ?_)
  rintro ⟨x, t⟩ hx
  cases x with
  | ok a => exact hx
  | err e => exact (hcleanup t).post fun _ _ => hx
  | panic why => exact (hcleanup t).post fun _ _ => hx

/-- **`open`** works through the admin queue alone. -/
theorem sat_openDriver_asserts (bdf : Str) (nsid : UInt32) :
    ((openDriver p bdf nsid : Method Op Res σ IoError _) s).Sat Prog.Any QueueId.admin.Confines
      fun x => AssertionsHold x.1 := by
  have hnone {o : Op} (ho : QueueId.admin.access o = none) : QueueId.admin.Confines o :=
    confines_of_none ho
  refine sat_asserts_bind ?_ fun _ t => ?_
  · simp only [refuseIfKernelDriverBound, Method.call_bind, Prog.sat_op]
    refine ⟨hnone rfl, fun link _ => ?_⟩
    cases link with
    | notFound => exact assertionsHold_ok _
    | failed e => exact assertionsHold_err e
    | found fileName =>
      by_cases hnvme : fileName = some "nvme".toList
      · simp only [hnvme, if_true]
        exact assertionsHold_err _
      · simp only [hnvme, if_false]
        exact assertionsHold_ok _
  refine sat_asserts_bind (sat_asserts_enableBusMaster bdf) fun _ t => ?_
  -- the mappings, which do not access the region
  refine ⟨hnone rfl, fun _ _ => sat_asserts_bind (sat_asserts_question _) fun length t => ?_⟩
  refine sat_asserts_bind (sat_asserts_unwinding ?_ fun t => ?_) fun physical t => ?_
  · exact ⟨hnone rfl, fun _ _ => sat_asserts_question _⟩
  · exact ⟨hnone rfl, fun _ _ => trivial⟩
  refine sat_asserts_bind (sat_asserts_unwinding ?_ fun t => ?_) fun capabilities t => ?_
  · exact (sat_barAccess rfl).post fun _ h => h.2
  · exact ⟨hnone rfl, fun _ _ => ⟨hnone rfl, fun _ _ => trivial⟩⟩
  -- the bring-up submits on the admin queue alone
  refine sat_asserts_unwinding (Method.sat_owning ?_) fun t => ?_
  · have hshaped : (fresh ⟨length⟩ ⟨HUGE_PAGE_SIZE, physical.val, physical.property⟩
        (doorbellStrideOf capabilities) nsid).Shaped := ⟨rfl, .new _ _ _, .new _ _ _⟩
    refine (contained_bringUp hshaped).post ?_
    rintro ⟨x, d⟩ ⟨-, htame⟩
    cases x with
    | ok _ => exact assertionsHold_ok _
    | err e => exact assertionsHold_err e
    | panic why => exact htame.panic
  · exact ⟨hnone rfl, fun _ _ => ⟨hnone rfl, fun _ _ => trivial⟩⟩

end Open

end NvmeUserspaceDriver

/-! ### The life of a driver -/

/-- **Isolation.** Whatever the controller does, `open` keeps to the areas of the admin queue,
and every call on every driver it leaves behind keeps to the areas of the call's queue: each
access to the region is aligned and inside its area, alters nothing outside it, and no
assertion of the region fails. -/
theorem layout_isolated (p : Profile) (bdf : Str) (nsid : UInt32) :
    ((openDriver p bdf nsid : Method Op Res Unit IoError _) ()).Sat Prog.Any
        QueueId.admin.Isolates (fun x => AssertionsHold x.1) ∧
      ∀ d, Reachable p bdf nsid d → ∀ call : Call,
        (perform p call d).Sat Prog.Any call.queue.Isolates fun x => AssertionsHold x.1 := by
  refine ⟨(sat_openDriver_asserts bdf nsid).mono (fun o ho => ho.isolates) fun _ h => h, ?_⟩
  intro d hreach call
  obtain ⟨-, B, hd⟩ := hreach.ready
  exact (contained_perform hd call).mono (fun o ho => ho.isolates) fun _ h => h.2

/-- A controller that has opened a namespace of 512-byte blocks. -/
theorem layout_isolated_read : ∃ d, Reachable .release [] 1 d ∧
    (perform .release (.read 7 8) d).Sat Prog.Any QueueId.io.Isolates
      fun x => AssertionsHold x.1 := by
  obtain ⟨d, hret, -⟩ := opens () .release [] 1 (show 9 < 64 by decide)
  exact ⟨d, .opened hret, (layout_isolated .release [] 1).2 d (.opened hret) (.read 7 8)⟩

end Nvmetoy
