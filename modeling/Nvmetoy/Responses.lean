import Nvmetoy.Calls

/-!
# What a controller can make of a call

The facts of `Calls` hold under every response; the ones here name responses under which
something happens: a call returns given data, puts its command on the queue, or panics. The
condition is always that the accesses of the call pass their checks, which is what `Ready`
and `DoorbellsMapped` say.

`opens` is a whole bring-up: every namespace block size a controller can report is met by a
driver that `open` returns.
-/

namespace Nvmetoy

open Framework

namespace NvmeUserspaceDriver

variable {p : Profile} {B : Nat} {d : NvmeUserspaceDriver}

/-! ### Commands -/

/-- There are responses with which a command succeeds, on the admin queue -/
theorem submitAdmin_answers (command : SubmissionQueueEntry) (hd : d.Shaped)
    (hm : d.DoorbellsMapped) :
    ∃ c d', (submitAdmin command d).Returns Prog.Any (.ok c, d') ∧ c.isSuccess = true ∧
      d.Kept d' := by
  refine ⟨d.adminQueue.expected,
    { d with adminQueue := d.adminQueue.takeCid.advanceTail.advanceHead }, ?_,
    d.adminQueue.expected_isSuccess, _, d.ioQueue, rfl, hd.length_eq,
    hd.admin.takeCid.advanceTail.advanceHead, hd.io⟩
  simp only [submitAdmin, Method.get_bind]
  exact Method.returns_onField.mpr ⟨_, QueuePair.submitAndWait_answers hd.admin hd.adminRings
    (hd.admin.id_eq ▸ hm.admin), rfl⟩

theorem submitIo_answers (command : SubmissionQueueEntry) (hd : d.Shaped)
    (hm : d.DoorbellsMapped) :
    ∃ c d', (submitIo command d).Returns Prog.Any (.ok c, d') ∧ c.isSuccess = true ∧
      d.Kept d' := by
  refine ⟨d.ioQueue.expected,
    { d with ioQueue := d.ioQueue.takeCid.advanceTail.advanceHead }, ?_,
    d.ioQueue.expected_isSuccess, d.adminQueue, _, rfl, hd.length_eq, hd.admin,
    hd.io.takeCid.advanceTail.advanceHead⟩
  simp only [submitIo, Method.get_bind]
  exact Method.returns_onField.mpr ⟨_, QueuePair.submitAndWait_answers hd.io hd.ioRings
    (hd.io.id_eq ▸ hm.io), rfl⟩

theorem checkCompletion_success {σ : Type} {c : CompletionQueueEntry} {what : String}
    (h : c.isSuccess = true) :
    (checkCompletion c what : Method Op Res σ IoError Unit) = pure () := if_pos h

/-- A copy out of the region can find any bytes. -/
theorem readBytes_answers {dma : DmaRegion} {offset : Nat} {data : List UInt8}
    (hd : dma.length = HUGE_PAGE_SIZE) (h : offset + data.length ≤ HUGE_PAGE_SIZE) :
    (dma.readBytes offset data.length d).Returns Prog.Any (.ok data, d) := by
  have hcheck : dma.checkBytes offset data.length = .ok () :=
    DmaRegion.checkBytes_ok (hd ▸ h) (by rw [hd]; decide)
  simp only [DmaRegion.readBytes, hcheck, Method.lift_ok_bind, Method.call_bind, Prog.returns_op]
  exact ⟨⟨data, rfl⟩, trivial, rfl⟩

/-- Identify may return any data of its length. -/
theorem identify_answers («structure» : IdentifyStructure) (nsid : UInt32) {data : List UInt8}
    (hd : d.Shaped) (hm : d.DoorbellsMapped) (hlen : data.length = IDENTIFY_SIZE) :
    ∃ d', (identify «structure» nsid d).Returns Prog.Any (.ok data, d') ∧ d.Kept d' := by
  obtain ⟨c, d', hret, hc, hk⟩ := submitAdmin_answers
    (nvmeIdentify «structure» nsid (d.dataPagePhysicalAddress 0)) hd hm
  refine ⟨d', ?_, hk⟩
  simp only [identify, Method.get_bind]
  refine Method.returns_bind_ok.mpr ⟨c, d', hret, ?_⟩
  rw [checkCompletion_success hc, Method.pure_bind, ← hlen]
  exact readBytes_answers hd.length_eq (by rw [hlen]; decide)

/-! ### Read and write -/

/-- The list is written whatever the responses. -/
theorem writePrpEntries_answers (hd : d.dmaRegion.length = HUGE_PAGE_SIZE) {index count : Nat}
    (h : index + count ≤ PRP_LIST_CAPACITY) :
    (writePrpEntries index count d).Returns Prog.Any (.ok (), d) := by
  induction count generalizing index with
  | zero => exact rfl
  | succ count ih =>
    have hentry := prpEntry_ok hd (show index < PRP_LIST_CAPACITY by omega)
    simp only [writePrpEntries, Method.get_bind, DmaRegion.writeU64, hentry,
      Method.lift_ok_bind, Method.call_bind, Prog.returns_op]
    exact ⟨(), trivial, ih (by omega)⟩

theorem dataPointers_answers (hd : d.dmaRegion.length = HUGE_PAGE_SIZE) {length : Nat}
    (h : length ≤ MAX_TRANSFER_BYTES) :
    ∃ pointers, (dataPointers p length d).Returns Prog.Any (.ok pointers, d) := by
  have hpages := pageCount_le h
  simp only [dataPointers, Method.get_bind]
  split
  · exact ⟨_, rfl⟩
  split
  · exact ⟨_, rfl⟩
  split
  · -- a transfer within the limit fits the list
    next hbad => exact absurd hbad.2 (Nat.not_lt.mpr hpages)
  · exact ⟨_, Method.returns_bind_ok.mpr
      ⟨(), d, writePrpEntries_answers hd (by simpa using hpages), rfl⟩⟩

/-- A read of whole blocks within the limit can return any bytes of that length. -/
theorem read_answers {slba : UInt64} {blockCount : UInt16} {data : List UInt8} (hd : d.Ready B)
    (hm : d.DoorbellsMapped) (hzero : blockCount ≠ 0) (hmax : data.length ≤ MAX_TRANSFER_BYTES)
    (htotal : p.mulUsize B blockCount.toNat = (.ok data.length : Outcome IoError Nat)) :
    ∃ d', (read p slba blockCount d).Returns Prog.Any (.ok data, d') ∧ d.Kept d' := by
  obtain ⟨pointers, hpointers⟩ := dataPointers_answers hd.length_eq hmax (p := p)
  obtain ⟨c, d', hret, hc, hk⟩ := submitIo_answers
    (nvmeRead d.nsid slba (blockCount - 1) pointers.1 pointers.2) hd.toShaped hm
  refine ⟨d', ?_, hk⟩
  have hfits : data.length < 2 ^ 63 := Nat.lt_of_le_of_lt hmax (by decide)
  -- the total is known, and fits; the command succeeds
  simp only [read, if_neg hzero, Method.get_bind, namespaceBlockSize_bind hd.cached, htotal,
    Method.lift_ok_bind, if_neg (Nat.not_lt.mpr hmax)]
  refine Method.returns_bind_ok.mpr ⟨pointers, d, hpointers, ?_⟩
  refine Method.returns_bind_ok.mpr ⟨c, d', hret, ?_⟩
  simp only [checkCompletion_success hc, Method.pure_bind, allocVec, if_pos hfits,
    Method.call_bind, Prog.returns_op]
  refine ⟨(), trivial, readBytes_answers hd.length_eq ?_⟩
  have : DATA_OFFSET ≤ HUGE_PAGE_SIZE := by decide
  simp only [MAX_TRANSFER_BYTES] at hmax
  omega

/-- A read whose byte count overflows panics, where the build checks it. -/
theorem read_panics (slba : UInt64) {blockCount : UInt16} (hd : d.Ready B)
    (hzero : blockCount ≠ 0) (h : U64_SIZE ≤ B * blockCount.toNat) :
    (read .debug slba blockCount d).Returns Prog.Any (.panic "arithmetic overflow", d) := by
  simp only [read, if_neg hzero, Method.get_bind, namespaceBlockSize_bind hd.cached,
    Profile.mulUsize, Profile.fit_debug_of_ge h, Method.lift_panic_bind]
  rfl

/-- An accepted payload is copied into the data area; the command follows. -/
theorem write_accepts (slba : UInt64) {data : List UInt8} (hd : d.Ready B)
    (hacc : Accepts B data) :
    write p slba data d = .op (.writeBytes DATA_OFFSET data) fun _ =>
      (dataPointers p data.length >>= fun pointers =>
        Method.lift (p.decU16 (UInt16.ofNat (data.length / B))) >>= fun nlb =>
          submitIo (nvmeWrite d.nsid slba nlb pointers.1 pointers.2) >>= fun completion =>
            checkCompletion completion "Write") d := by
  obtain ⟨hne, hdvd, hmax⟩ := hacc
  simp only [write, Method.get_bind, namespaceBlockSize_bind hd.cached,
    (notMultiple_eq_false hd.pos).mpr ⟨hne, hdvd⟩, Method.lift_ok_bind, Bool.false_eq_true,
    if_false, if_neg (Nat.not_lt.mpr hmax), divUsize, if_neg hd.pos.ne', DmaRegion.writeBytes,
    payload_ok hd.length_eq hmax, Method.call_bind]

/-- A command is stored before anything is waited for. -/
theorem submitIo_emits (command : SubmissionQueueEntry) (hd : d.Shaped) :
    (submitIo command d).Emits Prog.Any
      (.writeSqe d.ioQueue.sqeOffset { command with cid := d.ioQueue.nextCid }) := by
  simp only [submitIo, Method.get_bind, Method.emits_onField, QueuePair.submitAndWait,
    QueuePair.submit, DmaRegion.writeSqe, hd.io.sqe_ok hd.ioRings, Method.bind_assoc,
    Method.set_bind, Method.lift_ok_bind, Method.call_bind, Prog.emits_op]
  exact .inl trivial

/-- An accepted payload is sent, whatever the controller does afterwards. -/
theorem write_emits (slba : UInt64) {data : List UInt8} (hd : d.Ready B)
    (hacc : Accepts B data) (hcut : ¬ CutsToZero p B data.length) :
    ∃ offset entry, (write p slba data d).Emits Prog.Any (.writeSqe offset entry) ∧
      IO_SUBMISSION_QUEUE_OFFSET ≤ offset ∧ entry.slba = slba.toNat ∧
      entry.blockCount = sentBlocks B data.length := by
  obtain ⟨hne, hdvd, hmax⟩ := hacc
  obtain ⟨pointers, hpointers⟩ := dataPointers_answers hd.length_eq hmax (p := p)
  have hcount : 0 < data.length / B :=
    Nat.div_pos (Nat.le_of_dvd (List.length_pos_iff.mpr hne) hdvd) hd.pos
  -- `blocks - 1` panics only where the cast cuts the count to zero
  cases hnlb : (p.decU16 (UInt16.ofNat (data.length / B)) : Outcome IoError UInt16) with
  | err e => exact absurd hnlb Profile.decU16_ne_err
  | panic why => exact absurd (Profile.decU16_ofNat_panic hnlb) hcut
  | ok nlb =>
    refine ⟨_, { nvmeWrite d.nsid slba nlb pointers.1 pointers.2 with cid := d.ioQueue.nextCid },
      ?_, hd.io.sqeOffset_bounds.1,
      nvmeTransfer_slba .write d.nsid slba nlb pointers.1 pointers.2, ?_⟩
    · -- the payload is copied and the pointers made before the command is sent
      rw [write_accepts slba hd ⟨hne, hdvd, hmax⟩]
      refine .inr ⟨(), trivial, Method.emits_bind.mpr (.inr ⟨pointers, d, hpointers, ?_⟩)⟩
      rw [hnlb, Method.lift_ok_bind]
      exact Method.emits_bind.mpr (.inl (submitIo_emits _ hd.toShaped))
    · refine (nvmeTransfer_blockCount .write d.nsid slba nlb pointers.1 pointers.2).trans ?_
      rw [Profile.decU16_ofNat hcount hnlb, sentBlocks]

/-- A payload whose count is cut to nothing panics, where the build checks it. -/
theorem write_panics (slba : UInt64) {data : List UInt8} (hd : d.Ready B)
    (hacc : Accepts B data) (hcut : data.length / B % 2 ^ 16 = 0) :
    (write .debug slba data d).Returns Prog.Any
      (.panic "attempt to subtract with overflow", d) := by
  obtain ⟨pointers, hpointers⟩ := dataPointers_answers hd.length_eq hacc.2.2 (p := .debug)
  have hzero : UInt16.ofNat (data.length / B) = 0 := UInt16.toNat_inj.mp (by simpa using hcut)
  rw [write_accepts slba hd hacc]
  refine ⟨(), trivial, Method.returns_bind_panic.mpr (.inr ⟨pointers, d, hpointers, ?_⟩)⟩
  rw [hzero]
  rfl

/-! ### Identify data -/

section Opens

/-- Identify data with given bytes at given offsets. -/
def identifyData (byteAt : Nat → UInt8) : List UInt8 := (List.range IDENTIFY_SIZE).map byteAt

theorem length_identifyData (byteAt : Nat → UInt8) :
    (identifyData byteAt).length = IDENTIFY_SIZE := by simp [identifyData]

theorem leField_identifyData (byteAt : Nat → UInt8) {off : Nat} (h : off < IDENTIFY_SIZE) :
    leField (identifyData byteAt) off 1 = (byteAt off).toNat := by
  simp [leField_one, identifyData, List.getElem?_range h]

/-- A controller that takes 64-byte commands and 16-byte completions. -/
def controllerData : List UInt8 :=
  identifyData fun off => if off = 512 then 0x66 else if off = 513 then 0x44 else 0

/-- A namespace whose current format has blocks of `2 ^ lbads` bytes. -/
def namespaceData (lbads : Nat) : List UInt8 :=
  identifyData fun off => if off = 130 then UInt8.ofNat lbads else 0

theorem length_namespaceData (lbads : Nat) : (namespaceData lbads).length = IDENTIFY_SIZE :=
  length_identifyData _

/-- The controller of the examples supports just the sizes needed. -/
theorem read_controllerData :
    ∃ controller, IdentifyController.readFromPrefix controllerData = some controller ∧
      controller.sqes = 0x66 ∧ controller.cqes = 0x44 := by
  have hbyte {off : Nat} (h : off < IDENTIFY_SIZE) := leField_identifyData
    (fun off => if off = 512 then 0x66 else if off = 513 then 0x44 else 0) h
  rw [IdentifyController.readFromPrefix, controllerData,
    if_neg (by rw [length_identifyData]; decide)]
  refine ⟨_, rfl, ?_, ?_⟩
  · exact congrArg UInt8.ofNat (hbyte (by decide))
  · exact congrArg UInt8.ofNat (hbyte (by decide))

/-- With FLBAS zero, the first format of the table is the current one. -/
theorem read_firstFormat {data : List UInt8} (hlen : data.length = IDENTIFY_SIZE)
    (hflbas : leField data 26 1 = 0) :
    ∃ ns, IdentifyNamespace.readFromPrefix data = some ns ∧
      (ns.lbaFormats ns.formatIndex).lbads = .ofNat (leField data 130 1) := by
  rw [IdentifyNamespace.readFromPrefix, if_neg (by rw [hlen]; decide)]
  refine ⟨_, rfl, ?_⟩
  simp only [IdentifyNamespace.formatIndex, hflbas]
  rfl

theorem read_namespaceData {lbads : Nat} (h : lbads < 64) :
    ∃ ns, IdentifyNamespace.readFromPrefix (namespaceData lbads) = some ns ∧
      (ns.lbaFormats ns.formatIndex).lbads.toNat = lbads := by
  have hbyte {off : Nat} (h : off < IDENTIFY_SIZE) := leField_identifyData
    (fun off => if off = 130 then UInt8.ofNat lbads else 0) h
  obtain ⟨ns, hread, hlbads⟩ := read_firstFormat (length_namespaceData lbads)
    (hbyte (show 26 < IDENTIFY_SIZE by decide))
  refine ⟨ns, hread, ?_⟩
  rw [hlbads, namespaceData, hbyte (by decide)]
  simp
  omega

/-! ### A whole bring-up -/

/-- The entry sizes can be accepted. -/
theorem checkQueueEntrySizes_answers (hd : d.Shaped) (hm : d.DoorbellsMapped) :
    ∃ d', (checkQueueEntrySizes d).Returns Prog.Any (.ok (), d') ∧ d.Kept d' := by
  obtain ⟨d', hret, hk⟩ := identify_answers .controller 0 hd hm (length_identifyData _)
  refine ⟨d', ?_, hk⟩
  obtain ⟨controller, hread, hsqes, hcqes⟩ := read_controllerData
  refine Method.returns_bind_ok.mpr ⟨controllerData, d', hret, ?_⟩
  simp only [hread]
  simp only [hsqes, hcqes]
  rfl

theorem createIoQueues_answers (hd : d.Shaped) (hm : d.DoorbellsMapped) :
    ∃ d', (createIoQueues d).Returns Prog.Any (.ok (), d') ∧ d.Kept d' := by
  simp only [createIoQueues, Method.get_bind]
  obtain ⟨c, d₁, hret, hc, hk⟩ := submitAdmin_answers (nvmeCreateIoCompletionQueue IO_QUEUE_ID
    (UInt16.ofNat QUEUE_DEPTH) d.ioCompletionQueuePhysicalAddress) hd hm
  obtain ⟨c', d₂, hret', hc', hk'⟩ := submitAdmin_answers (nvmeCreateIoSubmissionQueue IO_QUEUE_ID
    (UInt16.ofNat QUEUE_DEPTH) IO_QUEUE_ID d.ioSubmissionQueuePhysicalAddress) hk.shaped
    (hk.doorbellsMapped hm)
  refine ⟨d₂, ?_, hk.trans hk'⟩
  refine Method.returns_bind_ok.mpr ⟨c, d₁, hret, ?_⟩
  rw [checkCompletion_success hc, Method.pure_bind]
  refine Method.returns_bind_ok.mpr ⟨c', d₂, hret', ?_⟩
  rw [checkCompletion_success hc']
  rfl

theorem namespaceBlockSize_answers (hd : d.Shaped) (hm : d.DoorbellsMapped)
    (hnone : d.blockSizes d.nsid = none) {lbads : Nat} (h : lbads < 64) :
    ∃ d', (namespaceBlockSize p d.nsid d).Returns Prog.Any (.ok (2 ^ lbads), d') ∧
      d'.nvmeBar = d.nvmeBar ∧ d'.doorbellStride = d.doorbellStride := by
  obtain ⟨d₁, hret, hk⟩ := identify_answers .namespace d.nsid hd hm (length_namespaceData lbads)
  obtain ⟨ns, hread, hlbads⟩ := read_namespaceData h
  -- the namespace has not been asked for its size before
  simp only [namespaceBlockSize, Method.get_bind, hnone]
  refine ⟨{ d₁ with
      blockSizes := fun n => if n = d.nsid then some (2 ^ lbads) else d₁.blockSizes n },
    Method.returns_bind_ok.mpr ⟨_, d₁, hret, ?_⟩, ?_⟩
  · simp only [hread, Profile.oneShlUsize, hlbads, if_pos h, Method.lift_ok_bind,
      Method.get_bind, Method.set_bind]
    exact rfl
  · obtain ⟨_, _, rfl, -⟩ := hk
    exact ⟨rfl, rfl⟩

/-- A BAR of two pages covers the registers, and the doorbells at the smallest stride. -/
theorem registers_ok {length offset size : Nat} (hlength : 8192 ≤ length)
    (hlt : length < U64_SIZE) (h : offset + size ≤ 8192) (halign : offset % size = 0) :
    NvmeBar.check ⟨length⟩ offset size = .ok () :=
  NvmeBar.check_ok (h.trans hlength) hlt halign

theorem resetAndEnable_answers (hlength : 8192 ≤ d.nvmeBar.length)
    (hlt : d.nvmeBar.length < U64_SIZE) :
    (resetAndEnable d).Returns Prog.Any (.ok (), d) := by
  have hok {offset size : Nat} (h : offset + size ≤ 8192) (halign : offset % size = 0) :
      d.nvmeBar.check offset size = .ok () := registers_ok hlength hlt h halign
  have hready (wantReady : Bool) :
      (waitReady wantReady READY_POLLS d).Returns Prog.Any (.ok (), d) := by
    -- the first poll is enough
    rw [show READY_POLLS = 999 + 1 from rfl, waitReady]
    simp only [Method.get_bind, NvmeBar.readStatus, NvmeBar.read32,
      hok (show CSTS + 4 ≤ 8192 by decide) (by decide), Method.lift_ok_bind, Method.call_bind,
      Prog.returns_op]
    cases wantReady
    · exact ⟨0, trivial, rfl⟩
    · exact ⟨1, trivial, rfl⟩
  have hcc := hok (show CC + 4 ≤ 8192 by decide) (by decide)
  have haqa := hok (show AQA + 4 ≤ 8192 by decide) (by decide)
  have hasq := hok (show ASQ + 8 ≤ 8192 by decide) (by decide)
  have hacq := hok (show ACQ + 8 ≤ 8192 by decide) (by decide)
  simp only [resetAndEnable, Method.get_bind, NvmeBar.readConfiguration, NvmeBar.read32,
    NvmeBar.writeConfiguration, NvmeBar.write32, NvmeBar.writeAdminQueueAttributes,
    NvmeBar.writeAdminSubmissionQueue, NvmeBar.writeAdminCompletionQueue, NvmeBar.write64, hcc,
    haqa, hasq, hacq, Method.lift_ok_bind, Method.call_bind, Prog.returns_op]
  -- not ready after the disable, ready after the enable
  refine ⟨0, trivial, (), trivial, Method.returns_bind_ok.mpr ⟨(), d, hready false, ?_⟩⟩
  simp only [Method.call_bind, Prog.returns_op]
  exact ⟨(), trivial, (), trivial, (), trivial, (), trivial, hready true⟩

theorem covers_twoPages : NvmeBar.Covers ⟨8192⟩ 0 4 ∧ NvmeBar.Covers ⟨8192⟩ IO_QUEUE_ID 4 := by
  have hcheck {offset : Nat} (h : offset + 4 ≤ 8192) (halign : offset % 4 = 0) :
      NvmeBar.check ⟨8192⟩ offset 4 = .ok () := registers_ok le_rfl (by decide) h halign
  exact ⟨⟨hcheck (by decide) (by decide), hcheck (by decide) (by decide)⟩,
    ⟨hcheck (by decide) (by decide), hcheck (by decide) (by decide)⟩⟩

theorem bringUp_answers (hd : d.Shaped) (hm : d.DoorbellsMapped)
    (hlength : 8192 ≤ d.nvmeBar.length) (hlt : d.nvmeBar.length < U64_SIZE)
    (hnone : d.blockSizes d.nsid = none) {lbads : Nat} (h : lbads < 64) :
    ∃ d', (bringUp p d).Returns Prog.Any (.ok (), d') ∧ d'.nsid = d.nsid ∧
      d'.Ready (2 ^ lbads) ∧ d'.DoorbellsMapped := by
  obtain ⟨d₁, h₁, hk₁⟩ := checkQueueEntrySizes_answers hd hm
  obtain ⟨d₂, h₂, hk₂⟩ := createIoQueues_answers hk₁.shaped (hk₁.doorbellsMapped hm)
  have hk := hk₁.trans hk₂
  have hm₂ := hk.doorbellsMapped hm
  have hsame : d₂.nsid = d.nsid ∧ d₂.blockSizes = d.blockSizes := by
    obtain ⟨_, _, rfl, -⟩ := hk
    exact ⟨rfl, rfl⟩
  have hnone₂ : d₂.blockSizes d₂.nsid = none := by rw [hsame.1, hsame.2, hnone]
  -- the third method learns the block size, and leaves the BAR alone
  obtain ⟨d₃, h₃, hbar, hstride⟩ := namespaceBlockSize_answers hk.shaped hm₂ hnone₂ h (p := p)
  obtain ⟨hnsid, hready⟩ := (sat_namespaceBlockSize hk.shaped hnone₂).returns h₃ _ rfl
  have hm₃ : d₃.DoorbellsMapped := by
    constructor
    · rw [hbar, hstride]; exact hm₂.admin
    · rw [hbar, hstride]; exact hm₂.io
  refine ⟨d₃, ?_, hnsid.trans hsame.1, hready, hm₃⟩
  rw [bringUp]
  refine Method.returns_bind_ok.mpr ⟨(), d, resetAndEnable_answers hlength hlt, ?_⟩
  refine Method.returns_bind_ok.mpr ⟨(), d₁, h₁, ?_⟩
  refine Method.returns_bind_ok.mpr ⟨(), d₂, h₂, ?_⟩
  rw [Method.get_bind]
  exact Method.returns_bind_ok.mpr ⟨_, d₃, h₃, rfl⟩

/-- **A bring-up.** Every power of two below `2 ^ 64` is the block size of a driver that
`open` can return, with its doorbells mapped. -/
theorem opens {σ : Type} (s : σ) (p : Profile) (bdf : Str) (nsid : UInt32) {lbads : Nat}
    (h : lbads < 64) :
    ∃ d, ((openDriver p bdf nsid : Method Op Res σ IoError _) s).Returns Prog.Any (.ok d, s) ∧
      d.nsid = nsid ∧ d.Ready (2 ^ lbads) ∧ d.DoorbellsMapped := by
  -- a BAR of two pages, a hugepage at bus address 0, and the smallest doorbell stride
  have hfits : (0 : UInt64).toNat + HUGE_PAGE_SIZE ≤ U64_SIZE := by decide
  have hcap : doorbellStrideOf 0 = 4 := by decide
  obtain ⟨d, hbring, hnsid, hready, hm⟩ := bringUp_answers (p := p)
    (d := fresh ⟨8192⟩ ⟨HUGE_PAGE_SIZE, 0, hfits⟩ (doorbellStrideOf 0) nsid)
    ⟨rfl, .new _ _ _, .new _ _ _⟩
    ⟨hcap.symm ▸ covers_twoPages.1, hcap.symm ▸ covers_twoPages.2⟩
    (by simp [fresh]) (by simp [fresh, U64_SIZE]) rfl h
  refine ⟨d, ?_, hnsid, hready, hm⟩
  simp only [openDriver, refuseIfKernelDriverBound, enableBusMaster, Method.bind_assoc,
    Method.call_bind, Prog.returns_op]
  -- no driver is bound; every answer of the host is a success
  refine ⟨.notFound, trivial, ?_⟩
  simp only [Method.pure_bind, Method.call_bind, Prog.returns_op]
  refine ⟨.ok (), trivial, ?_⟩
  simp only [question, Method.lift_ok_bind, Method.call_bind, Prog.returns_op]
  refine ⟨.ok (), trivial, ?_⟩
  simp only [Method.lift_ok_bind, Method.call_bind, Prog.returns_op]
  refine ⟨.ok ⟨[0, 0], rfl⟩, trivial, ?_⟩
  simp only [Method.lift_ok_bind, Method.call_bind, Prog.returns_op]
  refine ⟨.ok (), trivial, ?_⟩
  simp only [Method.lift_ok_bind, Method.call_bind, Prog.returns_op]
  refine ⟨.ok (), trivial, ?_⟩
  simp only [Method.lift_ok_bind, Method.call_bind, Prog.returns_op]
  refine ⟨.ok 8192, trivial, ?_⟩
  rw [Method.lift_ok_bind]
  refine Method.returns_bind_ok.mpr ⟨⟨0, hfits⟩, s, Method.returns_unwinding_ok
    ⟨.ok ⟨0, hfits⟩, trivial, rfl⟩, ?_⟩
  have hcap8 : NvmeBar.check ⟨8192⟩ CAP 8 = .ok () :=
    registers_ok le_rfl (by decide) (by decide) (by decide)
  refine Method.returns_bind_ok.mpr ⟨0, s, Method.returns_unwinding_ok ?_, ?_⟩
  · rw [NvmeBar.readCapabilities, NvmeBar.read64, hcap8]
    exact ⟨0, trivial, rfl⟩
  · exact Method.returns_unwinding_ok (Method.returns_owning_ok hbring)

end Opens

end NvmeUserspaceDriver

end Nvmetoy
