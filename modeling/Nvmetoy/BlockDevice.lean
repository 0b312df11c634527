import Nvmetoy.Progress

/-!
# The driver, as a block device

On a controller that serves a namespace of `2 ^ lbads`-byte blocks, and answers in time, the calls
on a driver do what the same calls do to an array of blocks (`refines_blocks`). Two conditions are
its own, not the controller's: the block size it learns is that of the namespace (`Plain`), and the
length it computes for a read is the true one (`Unwrapped`).

Without the first, it is not so: a namespace with more than sixteen formats is read by a driver
that takes its blocks to be shorter than they are (`not_refines_blocks`).
-/

namespace Nvmetoy

open Framework Machine NvmeUserspaceDriver

variable {P : Platform} {N : Namespace} {i : QueueId} {w w' : World} {τ : Task}
  {explains : Prop} {b₀ : Mem} {nsid : UInt32} {p : Profile}

/-! ### The start, and the format -/

/-- The controller was never used, and nothing has been recorded. -/
structure NeverUsed (w : World) : Prop extends BeforeOpen w where
  transfers : w.transfers = []
  calls : w.calls = []
  current : w.current = none

/-- A world that nothing has used has nothing under way. -/
theorem NeverUsed.unused (h : NeverUsed w) : Unused w.disk w where
  drained := fun i => by
    rw [h.ring i]
    exact ⟨⟨rfl, rfl⟩, rfl⟩
  posted := fun i => by
    rw [h.ring i]
    rfl
  transfers := h.transfers
  calls := h.calls
  current := h.current
  disk := rfl

/-- The controller reports the format of the namespace: `ns` is what the driver may read in the
data of an Identify Namespace. -/
def Namespace.Formatted (N : Namespace) (nsid : UInt32) : Prop :=
  ∀ data ns, Identified N .namespace nsid data → IdentifyNamespace.readFromPrefix data = some ns →
    N.blockSize = 2 ^ ns.formattedLbads

/-- The entry that the driver takes for the current format has the size of the selected one, or is
one that a build with overflow checks refuses. -/
def Namespace.Plain (p : Profile) (N : Namespace) (nsid : UInt32) : Prop :=
  ∀ data ns, Identified N .namespace nsid data → IdentifyNamespace.readFromPrefix data = some ns →
    ns.formattedLbads = ns.takenLbads % 64 ∨ p = .debug ∧ 64 ≤ ns.takenLbads

/-- A size that is given is a power of two by the low six bits, and the others do not count only
in a build that does not check. -/
theorem oneShlUsize_eq_ok {E : Type} {shift size : Nat}
    (h : (p.oneShlUsize shift : Outcome E Nat) = .ok size) :
    size = 2 ^ (shift % 64) ∧ ¬ (p = .debug ∧ 64 ≤ shift) := by
  unfold Profile.oneShlUsize at h
  split at h
  · next hlt =>
    rw [Nat.mod_eq_of_lt hlt]
    exact ⟨(Outcome.ok.inj h).symm, fun hcheck => absurd hlt (Nat.not_lt.mpr hcheck.2)⟩
  · cases p with
    | debug => cases h
    | release => exact ⟨(Outcome.ok.inj h).symm, fun hcheck => by cases hcheck.1⟩

/-- What the driver learns is then the length of a block. -/
theorem Namespace.Formatted.learns (h : N.Formatted nsid) (hplain : N.Plain p nsid)
    {data : List UInt8} {size : Nat} (hdata : Identified N .namespace nsid data)
    (hsize : blockSizeOf p data = .ok size) : size = N.blockSize := by
  unfold blockSizeOf at hsize
  cases hread : IdentifyNamespace.readFromPrefix data with
  | none =>
    rw [hread] at hsize
    cases hsize
  | some ns =>
    rw [hread] at hsize
    -- the size is a power of two, and the entry that was taken is the formatted one
    obtain ⟨hpower, hchecked⟩ := oneShlUsize_eq_ok hsize
    rw [h data ns hdata hread, (hplain data ns hdata hread).resolve_right hchecked]
    exact hpower

/-- A block is not empty. -/
theorem Namespace.Formatted.pos (h : N.Formatted nsid) : 0 < N.blockSize := by
  -- an Identify has an answer
  have hlen : ¬ ((N.identify { nvmeIdentify .namespace nsid 0 with cid := 0 }).read 0
      IDENTIFY_SIZE).length < IDENTIFY_SIZE := by
    rw [Mem.length_read]
    exact Nat.lt_irrefl _
  rw [h _ _ ⟨0, 0, rfl⟩ (if_neg hlen)]
  exact Nat.two_pow_pos _

/-! ### A driver for 512-byte blocks -/

section Formats

variable {d : NvmeUserspaceDriver} {G : Op → World → Prop} (hG : AllowsDrained G)
  (halign : P.base.val.toNat % PAGE_SIZE = 0)
  (hbar : ∀ i, P.bar.Covers (QueueId.number i) P.stride)
include hG halign hbar

/-- One block is read by a driver that takes blocks to be of 512 bytes, of whatever length they
are. -/
theorem read_answers (hd : BuiltFor P d) (hsize : d.blockSizes d.nsid = some 512)
    (hpage : N.blockSize ≤ PAGE_SIZE) (hbefore : BeforeCommand P N True b₀ (some (.read 0 1)) d w)
    (hanswering : Answering w) :
    ∃ bytes d' w', (machine P (servingController N) G).Reaches
        (NvmeUserspaceDriver.read p 0 1 d, w) (.pure (.ok bytes, d'), w') ∧
      bytes.length = 512 ∧ Answering w' ∧ w'.current = some (.read 0 1) := by
  let command := nvmeRead d.nsid 0 (1 - 1) (d.dataPagePhysicalAddress 0) 0
  have hprp1 (prp1 prp2 : UInt64) : (nvmeRead d.nsid 0 (1 - 1) prp1 prp2).prp1 = prp1 := rfl
  have horders : Orders (.read 0 1) .io command [] := by
    change QueueId.io.direction command ≠ .fromHost
    rw [nvmeRead_direction]
    simp
  -- one block fits in a page, so there is nothing to place before the command
  have hloaded (m : Mem) : Loaded P N .io command [] m := by
    have hlength : N.length .io command = N.blockSize :=
      (nvmeRead_length ..).trans (Nat.one_mul _)
    exact ⟨fun _ => hd.listed_page (hlength.le.trans hpage) (hprp1 _ _) m,
      fun h => absurd h horders⟩
  -- some schedule completes the command; what the rings guarantee of every schedule says in which
  -- state it is then
  obtain ⟨c, t, w', hsubmit, hok, hanswering'⟩ := answers_submitIo hG halign hbar hd horders w
    ⟨hbefore, hloaded _, .inr hloaded⟩ hanswering
  obtain ⟨-, hcommand⟩ := (callTriple_submitIo halign (inTime_regime P N) (.refl d) hd rfl horders w
    ⟨hbefore, hloaded _, .inr hloaded⟩ _ (reaches_inTime hsubmit hanswering'.inTime)).2 _ rfl
  refine ⟨w'.mem.read (World.address P DATA_OFFSET) 512, t, w', ?_, Mem.length_read, hanswering',
    hcommand.current⟩
  -- what is left is the code around the command
  have hone : ¬ (1 : UInt16) = 0 := by decide
  have htotal : (p.mulUsize 512 (1 : UInt16).toNat : Outcome IoError Nat) = .ok 512 :=
    Profile.fit_of_lt (by decide)
  have halloc : 512 < 2 ^ 63 := by decide
  unfold NvmeUserspaceDriver.read
  rw [if_neg hone, Method.get_bind, namespaceBlockSize_bind hsize, htotal, Method.lift_ok_bind,
    if_neg (show ¬ MAX_TRANSFER_BYTES < 512 by decide)]
  have hpointers : (machine P (servingController N) G).Reaches (dataPointers p 512 d, w)
      (.pure (.ok (d.dataPagePhysicalAddress 0, 0), d), w) := by
    rw [dataPointers_page (show transferPages 512 = 1 by decide).le]
  refine Reaches.bind_ok hpointers (Reaches.bind_ok hsubmit ?_)
  rw [checkCompletion, if_pos hok, Method.pure_bind, allocVec, if_pos halloc]
  exact Reaches.call_bind () ⟨rfl, hG.allowsNonFills _ _ id⟩
    (readBytes_reaches hG.allowsNonFills hd.length (show 512 ≤ MAX_TRANSFER_BYTES by decide) w')

end Formats

/-! ### One block is written -/

section Written

variable {d : NvmeUserspaceDriver} {slba : UInt64} {data : List UInt8}

theorem blockWrite_length (d : NvmeUserspaceDriver) (slba : UInt64) (hblock : N.blockSize = 512) :
    N.length .io (nvmeWrite d.nsid slba 0 (d.dataPagePhysicalAddress 0) 0) = 512 := by
  rw [nvmeWrite_length, hblock]
  rfl

/-- Its data is the first page of the data area, whatever lies elsewhere. -/
theorem blockWrite_listed (hd : BuiltFor P d) (slba : UInt64) (hblock : N.blockSize = 512)
    (m : Mem) :
    Listed P (N.length .io (nvmeWrite d.nsid slba 0 (d.dataPagePhysicalAddress 0) 0))
      (nvmeWrite d.nsid slba 0 (d.dataPagePhysicalAddress 0) 0) m := by
  have hprp1 (prp1 prp2 : UInt64) : (nvmeWrite d.nsid slba 0 prp1 prp2).prp1 = prp1 := rfl
  have hpage : N.length .io (nvmeWrite d.nsid slba 0 (d.dataPagePhysicalAddress 0) 0) ≤
      PAGE_SIZE := (blockWrite_length d slba hblock).le.trans (by decide)
  exact hd.listed_page hpage (hprp1 _ 0) m

theorem blockWrite_orders (d : NvmeUserspaceDriver) (slba : UInt64) (data : List UInt8) :
    Orders (.write slba data) .io
      (nvmeWrite d.nsid slba 0 (d.dataPagePhysicalAddress 0) 0) data :=
  ⟨nvmeWrite_direction .., rfl, nvmeTransfer_slba ..⟩

/-- The payload is put into the data area, and its command may follow. -/
theorem BeforeCommand.fillBlock (h : BeforeCommand P N True b₀ (some (.write slba data)) d w)
    (hd : BuiltFor P d) (hblock : N.blockSize = 512) (hlen : data.length = 512) :
    BeforeCommand P N True b₀ (some (.write slba data)) d
        { w with mem := w.mem.write (World.address P DATA_OFFSET) data } ∧
      MemoryReady P N .io (nvmeWrite d.nsid slba 0 (d.dataPagePhysicalAddress 0) 0) data
        { w with mem := w.mem.write (World.address P DATA_OFFSET) data } := by
  obtain ⟨hdrained, -⟩ := h.blocks trivial
  have hpayload : (w.mem.write (World.address P DATA_OFFSET) data).read
      (World.address P DATA_OFFSET) data.length = data := Mem.read_write_self
  -- the queues are drained, so that no command is reading the page
  refine ⟨h.fill hdrained (show PRP_LIST_OFFSET ≤ DATA_OFFSET by decide) data, ⟨?_, ?_⟩,
    .inl hdrained⟩
  · exact fun _ => blockWrite_listed hd slba hblock _
  · exact fun _ => ⟨hlen.trans (blockWrite_length d slba hblock).symm, hpayload⟩

/-- The driver's part of a write of one block, up to its command. -/
theorem write_reaches (hd : BuiltFor P d) (hsize : d.blockSizes d.nsid = some 512)
    (hlen : data.length = 512) (slba : UInt64) (w : World) :
    (machine P (servingController N) Always).Reaches (NvmeUserspaceDriver.write p slba data d, w)
      ((submitIo (nvmeWrite d.nsid slba 0 (d.dataPagePhysicalAddress 0) 0) >>= fun completion =>
        checkCompletion completion "Write") d,
        { w with mem := w.mem.write (World.address P DATA_OFFSET) data }) := by
  have hne : data ≠ [] := by
    intro hnil
    rw [hnil] at hlen
    cases hlen
  have hrefused : notMultiple data 512 = .ok false :=
    (notMultiple_eq_false (by decide)).mpr ⟨hne, hlen ▸ dvd_rfl⟩
  have hmax : 512 ≤ MAX_TRANSFER_BYTES := by decide
  have hpages : transferPages 512 = 1 := by decide
  have hcount : (divUsize 512 512 : Outcome IoError Nat) = .ok 1 := rfl
  have hnlb : (p.decU16 (UInt16.ofNat 1) : Outcome IoError UInt16) = .ok 0 := rfl
  unfold NvmeUserspaceDriver.write
  rw [Method.get_bind, namespaceBlockSize_bind hsize, hrefused, Method.lift_ok_bind,
    if_neg (by simp), if_neg (by rw [hlen]; exact Nat.not_lt.mpr hmax), hlen, hcount,
    Method.lift_ok_bind, DmaRegion.writeBytes, hlen, payload_ok hd.length hmax,
    Method.lift_ok_bind]
  -- the payload goes to the data area before the command is built
  refine Reaches.call_bind () ⟨rfl, trivial⟩ ?_
  have hpointers (w : World) : (machine P (servingController N) Always).Reaches
      (dataPointers p 512 d, w) (.pure (.ok (d.dataPagePhysicalAddress 0, 0), d), w) := by
    -- one page: no list is written
    rw [dataPointers_page hpages.le]
  refine Reaches.bind_ok (hpointers _) ?_
  rw [hnlb, Method.lift_ok_bind]

/-- **A write that succeeds**, of one block. -/
theorem write_answers (halign : P.base.val.toNat % PAGE_SIZE = 0)
    (hbar : ∀ i, P.bar.Covers (QueueId.number i) P.stride) (hd : BuiltFor P d)
    (hsize : d.blockSizes d.nsid = some 512) (hblock : N.blockSize = 512)
    (hlen : data.length = 512) (hbefore : BeforeCommand P N True b₀ (some (.write slba data)) d w)
    (hanswering : Answering w) :
    ∃ t w', (machine P (servingController N) Always).Reaches
      (NvmeUserspaceDriver.write p slba data d, w) (.pure (.ok (), t), w') ∧ Answering w' := by
  obtain ⟨hfilled, hlaid⟩ := hbefore.fillBlock hd hblock hlen
  obtain ⟨c, t, w', hsubmit, hok, hanswering'⟩ := answers_submitIo allowsDrained_always halign hbar
    hd (blockWrite_orders d slba data) _ ⟨hfilled, hlaid⟩ ⟨hanswering.enabled, hanswering.inTime⟩
  refine ⟨t, w', (write_reaches hd hsize hlen slba w).trans (Reaches.bind_ok hsubmit ?_),
    hanswering'⟩
  -- the completion is a success, so that nothing is left to do
  rw [checkCompletion, if_pos hok]
  exact .refl

end Written

/-- A read of one block gives one block. -/
theorem Explained.length_read {B : Nat} {earlier : List CallRecord} {number : Nat}
    {bytes : List UInt8} (h : Explained B b₀ w)
    (hcalls : w.calls = earlier ++ [⟨.read 0 1, number, .ok bytes⟩]) : bytes.length = B := by
  obtain ⟨b', hrun, -⟩ := h
  rw [hcalls] at hrun
  obtain ⟨b, -, hdid⟩ := hrun.last
  cases hdid with
  | read => exact Mem.length_read.trans (Nat.one_mul B)

/-- A driver is opened, on a controller that reports 512 bytes for the length of a block. -/
theorem opens_512 {G : Op → World → Prop} (hG : AllowsDrained G) {data : List UInt8}
    (blockSize : Nat) (hlen : data.length = IDENTIFY_SIZE)
    (hsize : blockSizeOf p data = .ok 512) :
    ∃ d w, (machine .twoPages (servingController (.answering blockSize data)) G).Reaches
        ((openDriver p [] 1 : Method Op Res Unit IoError _) (), World.zeroed)
        (.pure (.ok d, ()), w) ∧ Answering w ∧ BuiltFor .twoPages d ∧
      d.blockSizes d.nsid = some 512 ∧
      BeforeCommand .twoPages (.answering blockSize data) True World.zeroed.disk none d w := by
  have hsizable : (Namespace.answering blockSize data).Sizable p 1 := fun given hgiven =>
    ⟨512, by rw [answering_namespace hlen hgiven, hsize]⟩
  obtain ⟨d, w, hopen, hanswering, hlearnt, -, hbefore⟩ := openDriver_answers hG [] answering_sized
    hsizable
  -- the size that was learnt is that of the given data
  obtain ⟨given, size, hgiven, hlearn, hknown⟩ := hlearnt.known
  rw [answering_namespace hlen hgiven, hsize] at hlearn
  exact ⟨d, w, hopen, hanswering, hlearnt.builtFor, by rw [hknown, ← Outcome.ok.inj hlearn],
    hbefore⟩

/-- The first block is read, on such a controller. -/
theorem reads_512 {G : Op → World → Prop} (hG : AllowsDrained G) {data : List UInt8}
    (blockSize : Nat) (hlen : data.length = IDENTIFY_SIZE) (hsize : blockSizeOf p data = .ok 512)
    (hpage : blockSize ≤ PAGE_SIZE) :
    ∃ c earlier number bytes,
      (machine .twoPages (servingController (.answering blockSize data)) G).Reaches
        (lifetime p [] 1 [.read 0 1] (), World.zeroed) c ∧
      (∀ i, (c.2.ring i).expired = 0) ∧
      c.2.calls = earlier ++ [⟨.read 0 1, number, .ok bytes⟩] ∧ bytes.length = 512 := by
  obtain ⟨d, w, hopen, hanswering, hd, hknown, hbefore⟩ := opens_512 hG blockSize hlen hsize
  obtain ⟨bytes, d', w', hread, hbytes, hanswering', hcurrent⟩ := read_answers (p := p) hG
    twoPages_aligned Platform.twoPages_covers hd hknown hpage
    (hbefore.beginCall (.read 0 1)) ⟨hanswering.enabled, hanswering.inTime⟩
  have hcall : (machine .twoPages (servingController (.answering blockSize data)) G).Reaches
      (callOne p (.read 0 1) d, w) (.pure (.ok (), d'), w'.mark (.endCall (.ok bytes))) :=
    callOne_reaches hG.allowsNonFills hread
  -- the mark files the call with its bytes
  have hmark : w'.mark (.endCall (.ok bytes)) = { w' with
      current := none
      calls := w'.calls ++ [⟨.read 0 1, (w'.ring .io).submitted - 1, .ok bytes⟩] } := by
    rw [World.mark, hcurrent]
  have hcalls : (machine .twoPages (servingController (.answering blockSize data)) G).Reaches
      (callAll p [.read 0 1] d, w) (callAll p [] d', w'.mark (.endCall (.ok bytes))) :=
    Reaches.bind_ok hcall .refl
  obtain ⟨q, hlife⟩ := lifetime_reaches hopen hcalls
  refine ⟨_, _, _, bytes, hlife, fun i => ?_, congrArg World.calls hmark, hbytes⟩
  rw [hmark]
  exact hanswering'.inTime i

/-- A namespace of 512-byte blocks, and one format. -/
def Namespace.ofSectors : Namespace := .answering 512 (namespaceData 9)

/-- What the namespace of sectors answers: format 0, of `2^9` bytes. -/
theorem ofSectors_data {given : List UInt8} (h : Identified .ofSectors .namespace nsid given) :
    ∃ ns, IdentifyNamespace.readFromPrefix given = some ns ∧ ns.takenLbads = 9 ∧
      ns.formattedLbads = 9 := by
  obtain ⟨ns, hread, htaken⟩ := read_namespaceData (show 9 < 64 by decide)
  rw [answering_namespace (length_namespaceData 9) h]
  refine ⟨ns, hread, htaken, ?_⟩
  -- FLBAS is zero, and so the formatted entry is the one that is taken
  have hflbas : ns.flbas = 0 := by
    rw [(ns.read_fields hread).2.1, namespaceData, leField_identifyData _ (by decide)]
    rfl
  have hfidxu : ns.fidxu = 0 := by
    rw [IdentifyNamespace.fidxu, hflbas]
    rfl
  rw [IdentifyNamespace.formattedLbads, ns.formattedIndex_eq.mpr (.inr hfidxu)]
  exact htaken

/-- The size taken is the size the namespace is formatted with. -/
theorem ofSectors_formatted : Namespace.ofSectors.Formatted nsid := by
  intro given ns hgiven hread
  obtain ⟨ns', hread', -, hformatted⟩ := ofSectors_data hgiven
  obtain rfl := Option.some.inj (hread'.symm.trans hread)
  rw [hformatted]
  rfl

theorem ofSectors_plain : Namespace.ofSectors.Plain p nsid := by
  intro given ns hgiven hread
  obtain ⟨ns', hread', htaken, hformatted⟩ := ofSectors_data hgiven
  obtain rfl := Option.some.inj (hread'.symm.trans hread)
  exact .inl (by rw [hformatted, htaken])

theorem ofSectors_size : blockSizeOf p (namespaceData 9) = .ok 512 := by
  obtain ⟨ns, hread, htaken⟩ := read_namespaceData (show 9 < 64 by decide)
  unfold blockSizeOf
  rw [hread]
  change p.oneShlUsize (ns.lbaFormats ns.formatIndex).lbads.toNat = _
  rw [htaken]
  rfl

/-! ### The block array -/

/-- A read or write call that was accepted: its command was completed, and the call returned `Ok`
exactly when it was reported successful. -/
def Reported (B : Nat) (w : World) (record : CallRecord) : Prop :=
  record.call.Accepted B → w.issuedBy record.number = some record.call ∧
    ∃ c, (w.ring .io).posted[record.number]? = some (c, record.number) ∧
      (c.isSuccess = true ↔ ∃ bytes, record.result = .ok bytes)

/-- What a history says of a call. -/
theorem Answered.reported {B : Nat} {record : CallRecord} (h : Answered w record)
    (htold : Told B w record) : Reported B w record := by
  intro haccepted
  obtain ⟨hissued, c, hc, hok⟩ := htold haccepted
  refine ⟨hissued, c, hc, hok, ?_⟩
  rintro ⟨bytes, hresult⟩
  -- Identify is no call on the blocks, so that the answer is that of a transfer
  have hcall : record.call ≠ .identifyController := by
    intro hcall
    rw [hcall] at haccepted
    exact haccepted
  obtain ⟨-, ⟨c', hc', hsuccess⟩, -⟩ := h bytes hcall hresult
  rw [hc] at hc'
  rwa [← (Prod.mk.inj (Option.some.inj hc')).1] at hsuccess

/-- The call's arithmetic does not wrap unnoticed when it is done on the blocks of a disk. -/
def Unwrapped (p : Profile) (B : Nat) (calls : List Call) : Prop :=
  ∀ slba blockCount, Call.read slba blockCount ∈ calls → (Call.read slba blockCount).Fits p B

/-- A payload of blocks of 512 bytes or more has few of them. -/
theorem Unwrapped.fits {calls : List Call} (h : Unwrapped p N.blockSize calls)
    (hdisk : 512 ≤ N.blockSize) : ∀ k ∈ calls, k.Fits p N.blockSize := by
  intro k hk
  cases k with
  | identifyController => trivial
  | read slba blockCount => exact h slba blockCount hk
  | write slba data =>
    intro hmax
    calc data.length / N.blockSize
      _ ≤ MAX_TRANSFER_BYTES / 512 := Nat.div_le_div hmax hdisk (by decide)
      _ ≤ 2 ^ 16 := by decide

/-- **The block array.** The calls that were made have done to the disk what they do to an array of
blocks, and an accepted call has returned `Ok` exactly when the controller reported success. -/
theorem refines_blocks (P : Platform) (N : Namespace) (p : Profile) (bdf : Str) (nsid : UInt32)
    (calls : List Call) (w₀ : World) (halign : P.base.val.toNat % PAGE_SIZE = 0)
    (hformat : N.Formatted nsid) (hdisk : 512 ≤ N.blockSize) (hplain : N.Plain p nsid)
    (hreads : Unwrapped p N.blockSize calls) (hstart : NeverUsed w₀)
    (c : Config Op Res World (Outcome IoError Unit × Unit))
    (hc : (machine P (servingController N) InTime).Reaches
      (lifetime p bdf nsid calls (), w₀) c) :
    Explained N.blockSize w₀.disk c.2 ∧ ∀ record ∈ c.2.calls, Reported N.blockSize c.2 record := by
  have hlife : (machine P (servingController N) InTime).Triple (SingleTask P N True w₀.disk) _
      (lifetime p bdf nsid calls ()) _ := lifetime_triple halign (inTime_regime P N) bdf nsid
    (fun data size hdata hsize => hformat.learns hplain hdata hsize) hformat.pos
    (hreads.fits hdisk)
  -- the invariant explains the disk, and the record of each call is part of it
  have hsingle := (hlife w₀ ⟨hstart.toBeforeOpen, hstart.unused⟩ c hc).1
  refine ⟨hsingle.explained trivial, fun record hrecord => ?_⟩
  exact (hsingle.recorded.answered record hrecord).reported (hsingle.told trivial record hrecord)

/-- A read of one block. -/
theorem refines_blocks_read : ∃ c earlier number bytes,
    (machine .twoPages (servingController .ofSectors) InTime).Reaches
      (lifetime .release [] 1 [.read 0 1] (), World.zeroed) c ∧
    c.2.calls = earlier ++ [⟨.read 0 1, number, .ok bytes⟩] ∧
    Explained 512 World.zeroed.disk c.2 ∧ ∀ record ∈ c.2.calls, Reported 512 c.2 record := by
  obtain ⟨c, earlier, number, bytes, hrun, hexpired, hcalls, -⟩ := reads_512 (p := .release)
    allowsDrained_always 512 (length_namespaceData 9) ofSectors_size (by decide)
  have hreach := reaches_inTime hrun hexpired
  -- one block of 512 bytes does not wrap
  have hreads : Unwrapped .release 512 [.read 0 1] := by
    intro slba blockCount hmem
    obtain ⟨rfl, rfl⟩ := Call.read.inj (List.mem_singleton.mp hmem)
    exact fun _ => .inl (by decide)
  exact ⟨c, earlier, number, bytes, hreach, hcalls, refines_blocks .twoPages .ofSectors .release []
    1 [.read 0 1] .zeroed twoPages_aligned ofSectors_formatted (show 512 ≤ 512 from le_rfl)
    ofSectors_plain hreads ⟨⟨fun _ => rfl, rfl⟩, rfl, rfl, rfl⟩ c hreach⟩

/-- A driver that takes blocks to be shorter than they are does not refine the block array. -/
theorem not_refines_blocks : ¬ ∀ (P : Platform) (N : Namespace) (p : Profile) (bdf : Str)
    (nsid : UInt32) (calls : List Call) (w₀ : World), P.base.val.toNat % PAGE_SIZE = 0 →
    N.Formatted nsid → 512 ≤ N.blockSize → NeverUsed w₀ →
    ∀ c : Config Op Res World (Outcome IoError Unit × Unit),
      (machine P (servingController N) InTime).Reaches (lifetime p bdf nsid calls (), w₀) c →
      Explained N.blockSize w₀.disk c.2 ∧
        ∀ record ∈ c.2.calls, Reported N.blockSize c.2 record := by
  intro h
  obtain ⟨ns, hdata, hformatted, htaken⟩ := read_twentyFormats
  have hlen : twentyFormats.length = IDENTIFY_SIZE := length_identifyData _
  -- the namespace is formatted with blocks of 4096 bytes,
  have hformat : (Namespace.answering 4096 twentyFormats).Formatted 1 := by
    intro given ns' hgiven hread
    rw [answering_namespace hlen hgiven, hdata] at hread
    obtain rfl := Option.some.inj hread
    rw [hformatted]
    rfl
  -- but the driver learns 512
  have hsize : blockSizeOf .release twentyFormats = .ok 512 := by
    unfold blockSizeOf
    rw [hdata]
    change Profile.release.oneShlUsize ns.takenLbads = _
    rw [htaken]
    rfl
  obtain ⟨c, earlier, number, bytes, hrun, hexpired, hcalls, hbytes⟩ := reads_512
    allowsDrained_always 4096 hlen hsize le_rfl
  obtain ⟨hexplained, -⟩ := h .twoPages (.answering 4096 twentyFormats) .release [] 1
    [.read 0 1] .zeroed twoPages_aligned hformat (show 512 ≤ 4096 by decide)
    ⟨⟨fun _ => rfl, rfl⟩, rfl, rfl, rfl⟩ c
    (reaches_inTime hrun hexpired)
  -- a block of the device would be longer than what the read returned
  have hblock : bytes.length = 4096 := hexplained.length_read hcalls
  omega

end Nvmetoy
