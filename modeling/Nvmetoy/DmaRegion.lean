import Nvmetoy.Interface

/-!
# The DMA region and the register BAR

The bounds-checked accessors of the two mappings. A failed check is a panic, as the
source's `assert!` is, and issues no access.
-/

namespace Nvmetoy

open Framework

/-- A live hugepage mapping of `length` bytes, backed from bus address `physicalAddress`
on. -/
structure DmaRegion where
  length : Nat
  physicalAddress : UInt64
  /-- The region ends inside the bus address space. -/
  fits : physicalAddress.toNat + length ≤ U64_SIZE
deriving DecidableEq, Repr

namespace DmaRegion

variable {σ : Type} (dma : DmaRegion)

/-- The bus address of an offset. No offset of the region overflows it, by `fits`. -/
def physicalAddressAt (offset : Nat) : UInt64 := dma.physicalAddress + UInt64.ofNat offset

/-- The bounds check of every access. -/
def checkBytes (offset size : Nat) : Outcome IoError Unit :=
  -- `checked_add`: the sum is compared with the length only where it does not overflow
  if offset + size < U64_SIZE then
    if offset + size ≤ dma.length then .ok ()
    else .panic "DMA access exceeds length"
  else .panic "DMA access offset overflow"

/-- The bounds and alignment check of a typed access. -/
def checkTyped (offset size align : Nat) : Outcome IoError Unit := do
  dma.checkBytes offset size
  -- the base is a page, so an offset is as aligned as its address
  if offset % align = 0 then .ok () else .panic "DMA access is not aligned"

/-- `write_volatile::<SubmissionQueueEntry>`. -/
def writeSqe (offset : Nat) (entry : SubmissionQueueEntry) : Method Op Res σ IoError Unit := do
  Method.lift (dma.checkTyped offset SubmissionQueueEntry.SIZE SubmissionQueueEntry.ALIGN)
  Method.call (Op.writeSqe offset entry)

/-- `read_volatile::<SubmissionQueueEntry>`. -/
def readSqe (offset : Nat) : Method Op Res σ IoError SubmissionQueueEntry := do
  Method.lift (dma.checkTyped offset SubmissionQueueEntry.SIZE SubmissionQueueEntry.ALIGN)
  Method.call (Op.readSqe offset)

/-- `read_volatile::<CompletionQueueEntry>`. -/
def readCqe (offset : Nat) : Method Op Res σ IoError CompletionQueueEntry := do
  Method.lift (dma.checkTyped offset CompletionQueueEntry.SIZE CompletionQueueEntry.ALIGN)
  Method.call (Op.readCqe offset)

/-- `write_volatile::<u64>`. -/
def writeU64 (offset : Nat) (value : UInt64) : Method Op Res σ IoError Unit := do
  Method.lift (dma.checkTyped offset 8 8)
  Method.call (Op.writeU64 offset value)

/-- `read_bytes` into a buffer of `len` bytes. -/
def readBytes (offset len : Nat) : Method Op Res σ IoError (List UInt8) := do
  Method.lift (dma.checkBytes offset len)
  let bytes ← Method.call (Op.readBytes offset len)
  pure bytes.val

/-- `DmaRegion::write_bytes`. -/
def writeBytes (offset : Nat) (source : List UInt8) : Method Op Res σ IoError Unit := do
  Method.lift (dma.checkBytes offset source.length)
  Method.call (Op.writeBytes offset source)

end DmaRegion

/-- The mapped register BAR. -/
structure NvmeBar where
  length : Nat
deriving DecidableEq, Repr

namespace NvmeBar

variable {σ : Type} (bar : NvmeBar)

/-- The bounds and alignment check of a register access. -/
def check (offset size : Nat) : Outcome IoError Unit :=
  if offset + size < U64_SIZE then
    if offset + size ≤ bar.length then
      -- a register is aligned to its own size
      if offset % size = 0 then .ok () else .panic "BAR access is not aligned"
    else .panic "BAR access exceeds length"
  else .panic "BAR access offset overflow"

/-- `NvmeBar::read32`: a volatile load, once the offset is checked. -/
def read32 (offset : Nat) : Method Op Res σ IoError UInt32 := do
  Method.lift (bar.check offset 4)
  Method.call (Op.read32 offset)

/-- `NvmeBar::write32`. -/
def write32 (offset : Nat) (value : UInt32) : Method Op Res σ IoError Unit := do
  Method.lift (bar.check offset 4)
  Method.call (Op.write32 offset value)

/-- `NvmeBar::read64`. -/
def read64 (offset : Nat) : Method Op Res σ IoError UInt64 := do
  Method.lift (bar.check offset 8)
  Method.call (Op.read64 offset)

/-- `NvmeBar::write64`. -/
def write64 (offset : Nat) (value : UInt64) : Method Op Res σ IoError Unit := do
  Method.lift (bar.check offset 8)
  Method.call (Op.write64 offset value)

/-- `NvmeBar::read_capabilities`. -/
def readCapabilities : Method Op Res σ IoError UInt64 := bar.read64 CAP

/-- `NvmeBar::read_configuration`. -/
def readConfiguration : Method Op Res σ IoError UInt32 := bar.read32 CC

/-- `NvmeBar::write_configuration`. -/
def writeConfiguration (value : UInt32) : Method Op Res σ IoError Unit := bar.write32 CC value

/-- `NvmeBar::read_status`. -/
def readStatus : Method Op Res σ IoError UInt32 := bar.read32 CSTS

/-- `NvmeBar::write_admin_queue_attributes`. -/
def writeAdminQueueAttributes (value : UInt32) : Method Op Res σ IoError Unit :=
  bar.write32 AQA value

/-- `NvmeBar::write_admin_submission_queue`. -/
def writeAdminSubmissionQueue (physical : UInt64) : Method Op Res σ IoError Unit :=
  bar.write64 ASQ physical

/-- `NvmeBar::write_admin_completion_queue`. -/
def writeAdminCompletionQueue (physical : UInt64) : Method Op Res σ IoError Unit :=
  bar.write64 ACQ physical

/-- The doorbell of a queue's submission tail. -/
def submissionDoorbell (queueId : UInt16) (stride : Nat) : Nat :=
  DOORBELL_BASE + (2 * queueId.toNat) * stride

/-- The doorbell of a queue's completion head. -/
def completionDoorbell (queueId : UInt16) (stride : Nat) : Nat :=
  DOORBELL_BASE + (2 * queueId.toNat + 1) * stride

/-- `NvmeBar::ring_submission_doorbell`. -/
def ringSubmissionDoorbell (queueId : UInt16) (stride value : Nat) :
    Method Op Res σ IoError Unit :=
  bar.write32 (submissionDoorbell queueId stride) (.ofNat value)

/-- `NvmeBar::ring_completion_doorbell`. -/
def ringCompletionDoorbell (queueId : UInt16) (stride value : Nat) :
    Method Op Res σ IoError Unit :=
  bar.write32 (completionDoorbell queueId stride) (.ofNat value)

end NvmeBar

end Nvmetoy
