import Nvmetoy.QueuePair

/-!
# The userspace driver

`NvmeUserspaceDriver` and its methods: bring-up (`openDriver`), Identify, and the `read`
and `write` calls. Every buffer of a call lies in the one data area of the hugepage, and
`dataPointers` describes it to the controller as PRP entries.

The arithmetic that can overflow is done at a build profile `p`.
-/

namespace Nvmetoy

open Framework

/-- The id of the I/O queue pair. -/
def IO_QUEUE_ID : UInt16 := 1
/-- An I/O submission entry is `2^6` bytes. -/
def IO_SUBMISSION_ENTRY_SIZE_EXPONENT : UInt32 := 6
/-- An I/O completion entry is `2^4` bytes. -/
def IO_COMPLETION_ENTRY_SIZE_EXPONENT : UInt32 := 4

/-- The polls `wait_ready` makes, and the milliseconds between two of them. -/
def READY_POLLS : Nat := 1000
/-- The pause between two polls of CSTS.RDY. -/
def READY_POLL_MILLISECONDS : Nat := 5

/-- `NvmeUserspaceDriver`. A field of `block_sizes` is read through a function, its map being only
looked up and filled. -/
structure NvmeUserspaceDriver where
  nvmeBar : NvmeBar
  dmaRegion : DmaRegion
  doorbellStride : Nat
  adminQueue : QueuePair
  ioQueue : QueuePair
  blockSizes : UInt32 → Option Nat
  nsid : UInt32

/-- `vec![byte; bytes]`: an allocation above `isize::MAX` panics. -/
def allocVec {σ : Type} (bytes : Nat) : Method Op Res σ IoError Unit :=
  if bytes < 2 ^ 63 then Method.call (Op.alloc bytes) else Method.panic "capacity overflow"

/-- `check`: the completion reports success. -/
def checkCompletion {σ : Type} (completion : CompletionQueueEntry) (what : String) :
    Method Op Res σ IoError Unit :=
  if completion.isSuccess then pure ()
  else Method.fail (.commandFailed what completion.statusCodeType completion.statusCode)

namespace IdentifyNamespace

/-- The entry of the format table that the driver takes as the current format. -/
def formatIndex (ns : IdentifyNamespace) : Fin 64 :=
  ⟨(ns.flbas &&& 0xF).toNat, by
    have h : (ns.flbas &&& 0xF).toNat ≤ 0xF := by
      rw [UInt8.toNat_and]; exact Nat.and_le_right
    omega⟩

end IdentifyNamespace

namespace NvmeUserspaceDriver

/-- The methods of the driver. -/
abbrev DriverMethod (α : Type) : Type := Method Op Res NvmeUserspaceDriver IoError α

section Addresses

variable (d : NvmeUserspaceDriver)

/-- Where the controller finds the admin submission queue. -/
def adminSubmissionQueuePhysicalAddress : UInt64 :=
  d.dmaRegion.physicalAddressAt ADMIN_SUBMISSION_QUEUE_OFFSET

/-- Where the controller finds the admin completion queue. -/
def adminCompletionQueuePhysicalAddress : UInt64 :=
  d.dmaRegion.physicalAddressAt ADMIN_COMPLETION_QUEUE_OFFSET

/-- Where the controller finds the I/O submission queue. -/
def ioSubmissionQueuePhysicalAddress : UInt64 :=
  d.dmaRegion.physicalAddressAt IO_SUBMISSION_QUEUE_OFFSET

/-- Where the controller finds the I/O completion queue. -/
def ioCompletionQueuePhysicalAddress : UInt64 :=
  d.dmaRegion.physicalAddressAt IO_COMPLETION_QUEUE_OFFSET

/-- Where the controller finds a page of the data buffer. -/
def dataPagePhysicalAddress (page : Nat) : UInt64 :=
  d.dmaRegion.physicalAddressAt (DATA_OFFSET + page * PAGE_SIZE)

/-- Where the controller finds the list of pointers to the pages of the data buffer. -/
def prpListPhysicalAddress : UInt64 := d.dmaRegion.physicalAddressAt PRP_LIST_OFFSET

end Addresses

/-- One command on the admin queue. -/
def submitAdmin (command : SubmissionQueueEntry) : DriverMethod CompletionQueueEntry := do
  let d ← Method.get
  Method.onField adminQueue (fun d q => { d with adminQueue := q })
    (QueuePair.submitAndWait d.nvmeBar d.dmaRegion d.doorbellStride command)

/-- One command on the I/O queue. -/
def submitIo (command : SubmissionQueueEntry) : DriverMethod CompletionQueueEntry := do
  let d ← Method.get
  Method.onField ioQueue (fun d q => { d with ioQueue := q })
    (QueuePair.submitAndWait d.nvmeBar d.dmaRegion d.doorbellStride command)

/-- The poll loop of `wait_ready`, with the number of polls that are left. -/
def waitReady (wantReady : Bool) : Nat → DriverMethod Unit
  | 0 => Method.fail .readyTimeout
  | polls + 1 => do
    let d ← Method.get
    let controllerStatus ← d.nvmeBar.readStatus
    -- CSTS.CFS first: a controller that has failed is not waited for
    if controllerStatus &&& 0x2 ≠ 0 then Method.fail .fatalStatus
    else if (controllerStatus &&& 0x1 != 0) == wantReady then pure ()
    else do
      Method.call (Op.sleep READY_POLL_MILLISECONDS)
      waitReady wantReady polls

/-- `NvmeUserspaceDriver::reset_and_enable`. -/
def resetAndEnable : DriverMethod Unit := do
  let d ← Method.get
  let configuration ← d.nvmeBar.readConfiguration
  d.nvmeBar.writeConfiguration (configuration &&& ~~~1)
  -- the queue attributes and addresses are written only while the controller is disabled
  waitReady false READY_POLLS
  d.nvmeBar.writeAdminQueueAttributes
    -- both sizes are zero-based: the completion queue's above, the submission queue's below
    (((UInt32.ofNat QUEUE_DEPTH - 1) <<< 16) ||| (UInt32.ofNat QUEUE_DEPTH - 1))
  d.nvmeBar.writeAdminSubmissionQueue d.adminSubmissionQueuePhysicalAddress
  d.nvmeBar.writeAdminCompletionQueue d.adminCompletionQueuePhysicalAddress
  d.nvmeBar.writeConfiguration
    ((IO_COMPLETION_ENTRY_SIZE_EXPONENT <<< 20) |||
      (IO_SUBMISSION_ENTRY_SIZE_EXPONENT <<< 16) ||| 1)
  waitReady true READY_POLLS

/-- `NvmeUserspaceDriver::identify`. The structure arrives in the first page of the data buffer. -/
def identify («structure» : IdentifyStructure) (nsid : UInt32) : DriverMethod (List UInt8) := do
  let d ← Method.get
  let completion ← submitAdmin (nvmeIdentify «structure» nsid (d.dataPagePhysicalAddress 0))
  checkCompletion completion "Identify"
  d.dmaRegion.readBytes DATA_OFFSET IDENTIFY_SIZE

/-- `NvmeUserspaceDriver::identify_controller`. -/
def identifyController : DriverMethod (List UInt8) := identify .controller 0

/-- The entry sizes a controller supports: the low nibble is the smallest exponent, the
high nibble the largest. -/
def checkEntrySize (what : String) (supported required : UInt8) : DriverMethod Unit :=
  if supported &&& 0xF ≤ required ∧ required ≤ supported >>> 4 then pure ()
  else Method.fail (.entrySizeExcluded what (supported &&& 0xF) (supported >>> 4) required)

/-- `NvmeUserspaceDriver::check_queue_entry_sizes`. -/
def checkQueueEntrySizes : DriverMethod Unit := do
  let data ← identify .controller 0
  match IdentifyController.readFromPrefix data with
  | none => Method.fail (.identifyTooShort "Controller")
  | some controller => do
    checkEntrySize "SQ" controller.sqes IO_SUBMISSION_ENTRY_SIZE_EXPONENT.toUInt8
    checkEntrySize "CQ" controller.cqes IO_COMPLETION_ENTRY_SIZE_EXPONENT.toUInt8

/-- `NvmeUserspaceDriver::create_io_queues`. The completion queue comes first, the submission queue
names it. -/
def createIoQueues : DriverMethod Unit := do
  let d ← Method.get
  let completion ← submitAdmin (nvmeCreateIoCompletionQueue IO_QUEUE_ID
    (UInt16.ofNat QUEUE_DEPTH) d.ioCompletionQueuePhysicalAddress)
  checkCompletion completion "Create I/O Completion Queue"
  let completion ← submitAdmin (nvmeCreateIoSubmissionQueue IO_QUEUE_ID
    (UInt16.ofNat QUEUE_DEPTH) IO_QUEUE_ID d.ioSubmissionQueuePhysicalAddress)
  checkCompletion completion "Create I/O Submission Queue"

section Calls

variable (p : Profile)

/-- The block size of a namespace: cached, or learnt by an Identify and cached. -/
def namespaceBlockSize (nsid : UInt32) : DriverMethod Nat := do
  let d ← Method.get
  match d.blockSizes nsid with
  | some blockSize => pure blockSize
  | none => do
    let data ← identify .namespace nsid
    match IdentifyNamespace.readFromPrefix data with
    | none => Method.fail (.identifyTooShort "Namespace")
    | some ns => do
      -- `1 << lbads`: the exponent is the device's, so the shift may overflow
      let blockSize ← Method.lift (p.oneShlUsize (ns.lbaFormats ns.formatIndex).lbads.toNat)
      let d ← Method.get
      Method.set { d with
        blockSizes := fun n => if n = nsid then some blockSize else d.blockSizes n }
      pure blockSize

/-- The `count` PRP-list entries from entry `index` on. -/
def writePrpEntries (index : Nat) : Nat → DriverMethod Unit
  | 0 => pure ()
  | count + 1 => do
    let d ← Method.get
    d.dmaRegion.writeU64 (PRP_LIST_OFFSET + index * 8) (d.dataPagePhysicalAddress (index + 1))
    writePrpEntries (index + 1) count

/-- The PRP pair that describes the first `length` bytes of the data area. -/
def dataPointers (length : Nat) : DriverMethod (UInt64 × UInt64) := do
  let d ← Method.get
  let prp1 := d.dataPagePhysicalAddress 0
  let pageCount := (length + (PAGE_SIZE - 1)) / PAGE_SIZE
  if pageCount ≤ 1 then pure (prp1, 0)
  -- for two pages the second pointer is a page, for more it is the list
  else if pageCount = 2 then pure (prp1, d.dataPagePhysicalAddress 1)
  -- `debug_assert!`
  else if p = .debug ∧ PRP_LIST_CAPACITY < pageCount - 1 then
    Method.panic "PRP list does not fit"
  else do
    writePrpEntries 0 (pageCount - 1)
    pure (prp1, d.prpListPhysicalAddress)

/-- `NvmeUserspaceDriver::read`. -/
def read (slba : UInt64) (blockCount : UInt16) : DriverMethod (List UInt8) :=
  if blockCount = 0 then Method.fail .readZeroBlocks
  else do
    let d ← Method.get
    let blockSize ← namespaceBlockSize p d.nsid
    let total ← Method.lift (p.mulUsize blockSize blockCount.toNat)
    if MAX_TRANSFER_BYTES < total then Method.fail .readTooLarge
    else do
      let pointers ← dataPointers p total
      let completion ← submitIo
        -- the count is zero-based; it is not zero here
        (nvmeRead d.nsid slba (blockCount - 1) pointers.1 pointers.2)
      checkCompletion completion "Read"
      allocVec total
      d.dmaRegion.readBytes DATA_OFFSET total

/-- `data.is_empty() || data.len() % block_size != 0`, with its short circuit. -/
def notMultiple (data : List UInt8) (blockSize : Nat) : Outcome IoError Bool :=
  if data.isEmpty then .ok true
  else (remUsize data.length blockSize).bind fun r => .ok (r != 0)

/-- `NvmeUserspaceDriver::write`. -/
def write (slba : UInt64) (data : List UInt8) : DriverMethod Unit := do
  let d ← Method.get
  let blockSize ← namespaceBlockSize p d.nsid
  let refused ← Method.lift (notMultiple data blockSize)
  if refused then Method.fail .writeNotMultiple
  else if MAX_TRANSFER_BYTES < data.length then Method.fail .writeTooLarge
  else do
    -- the number of blocks is cast to `u16`, so it is reduced modulo 65536
    let blockCount ← Method.lift (divUsize data.length blockSize)
    -- the data area is the same for every call
    d.dmaRegion.writeBytes DATA_OFFSET data
    let pointers ← dataPointers p data.length
    let nlb ← Method.lift (p.decU16 (UInt16.ofNat blockCount))
    let completion ← submitIo (nvmeWrite d.nsid slba nlb pointers.1 pointers.2)
    checkCompletion completion "Write"

end Calls

/-! ### Bring-up and drop -/

section Open

variable {σ : Type} (p : Profile)

/-- `refuse_if_kernel_driver_bound`. -/
def refuseIfKernelDriverBound (bdf : Str) : Method Op Res σ IoError Unit := do
  let link ← Method.call (Op.readDriverLink bdf)
  match link with
  -- no link, no driver
  | DriverLink.notFound => pure ()
  | DriverLink.failed e => Method.fail e
  | DriverLink.found fileName =>
    if fileName = some "nvme".toList then Method.fail (.kernelDriverBound bdf) else pure ()

/-- `enable_bus_master`: set Memory Space and Bus Master in the PCI command register. -/
def enableBusMaster (bdf : Str) : Method Op Res σ IoError Unit := do
  question (← Method.call (Op.configOpen bdf))
  question (← Method.call (Op.configSeek 0x04))
  let buffer ← question (← Method.call (Op.configRead 2))
  let before := UInt16.ofNat (ofLe buffer.val)
  -- bit 1 is Memory Space, bit 2 is Bus Master; the other bits are kept
  let command := before ||| ((1 : UInt16) <<< 1) ||| ((1 : UInt16) <<< 2)
  question (← Method.call (Op.configSeek 0x04))
  question (← Method.call (Op.configWrite (toLe 2 command.toNat)))

/-- Dropping the driver drops its fields in declaration order. -/
def drop : Method Op Res σ IoError Unit := do
  Method.call Op.unmapBar
  Method.call Op.unmapDma

/-- The part of `open` that works on the constructed driver. -/
def bringUp : DriverMethod Unit := do
  resetAndEnable
  checkQueueEntrySizes
  createIoQueues
  let d ← Method.get
  let _ ← namespaceBlockSize p d.nsid

/-- The driver as `open` constructs it, before any command. -/
def fresh (bar : NvmeBar) (dma : DmaRegion) (doorbellStride : Nat) (nsid : UInt32) :
    NvmeUserspaceDriver where
  nvmeBar := bar
  dmaRegion := dma
  doorbellStride := doorbellStride
  adminQueue := .new 0 ADMIN_SUBMISSION_QUEUE_OFFSET ADMIN_COMPLETION_QUEUE_OFFSET
  ioQueue := .new IO_QUEUE_ID IO_SUBMISSION_QUEUE_OFFSET IO_COMPLETION_QUEUE_OFFSET
  blockSizes := fun _ => none
  nsid := nsid

/-- The doorbell stride, from CAP.DSTRD. -/
def doorbellStrideOf (capabilities : UInt64) : Nat :=
  4 * 2 ^ ((capabilities >>> 32) &&& 0xF).toNat

/-- `open`. An early exit drops what has been acquired so far. -/
def openDriver (bdf : Str) (nsid : UInt32) : Method Op Res σ IoError NvmeUserspaceDriver := do
  refuseIfKernelDriverBound bdf
  enableBusMaster bdf
  let length ← question (← Method.call (Op.mapBar bdf 0))
  let bar : NvmeBar := ⟨length⟩
  -- an early exit drops the locals in reverse order: the region, then the BAR
  let physical ← Method.unwinding (Method.call Op.unmapBar)
    (do question (← Method.call Op.allocHuge))
  let dma : DmaRegion := ⟨HUGE_PAGE_SIZE, physical.val, physical.property⟩
  let capabilities ← Method.unwinding (do Method.call Op.unmapDma; Method.call Op.unmapBar)
    bar.readCapabilities
  -- the driver is constructed: what fails now drops it as a whole
  Method.unwinding drop
    (Method.owning (fresh bar dma (doorbellStrideOf capabilities) nsid) (bringUp p))

end Open

end NvmeUserspaceDriver

end Nvmetoy
