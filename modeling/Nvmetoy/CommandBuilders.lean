import Nvmetoy.NvmeSpec

/-!
# Command builders

The five commands the driver sends, as submission queue entries.
-/

namespace Nvmetoy

/-- `nvme_identify`. The data goes to one page, so there is no second pointer. -/
def nvmeIdentify («structure» : IdentifyStructure) (nsid : UInt32) (prp1 : UInt64) :
    SubmissionQueueEntry :=
  { SubmissionQueueEntry.new AdminOpcode.identify.toUInt8 with
    nsid := nsid
    prp1 := prp1
    cdw10 := «structure».toUInt32 }

/-- `nvme_create_io_completion_queue`. The size is zero-based; the queue is contiguous, without
interrupts. -/
def nvmeCreateIoCompletionQueue (queueId size : UInt16) (prp1 : UInt64) :
    SubmissionQueueEntry :=
  { SubmissionQueueEntry.new AdminOpcode.createIoCompletionQueue.toUInt8 with
    prp1 := prp1
    cdw10 := queueId.toUInt32 ||| ((size.toUInt32 - 1) <<< 16)
    -- PC; IEN stays clear
    cdw11 := 1 }

/-- `nvme_create_io_submission_queue`. The size is zero-based; the queue is contiguous, and its
completions go to `completionQueueId`. -/
def nvmeCreateIoSubmissionQueue (queueId size completionQueueId : UInt16) (prp1 : UInt64) :
    SubmissionQueueEntry :=
  { SubmissionQueueEntry.new AdminOpcode.createIoSubmissionQueue.toUInt8 with
    prp1 := prp1
    cdw10 := queueId.toUInt32 ||| ((size.toUInt32 - 1) <<< 16)
    cdw11 := (1 : UInt32) ||| (completionQueueId.toUInt32 <<< 16) }

/-- A read or write of `nlb + 1` blocks from `slba`: the two builders differ in the
opcode alone. -/
def nvmeTransfer (opcode : IoOpcode) (nsid : UInt32) (slba : UInt64) (nlb : UInt16)
    (prp1 prp2 : UInt64) : SubmissionQueueEntry :=
  { SubmissionQueueEntry.new opcode.toUInt8 with
    nsid := nsid
    prp1 := prp1
    prp2 := prp2
    -- the starting block is cut in two dwords, the low one first
    cdw10 := slba.toUInt32
    cdw11 := (slba >>> 32).toUInt32
    cdw12 := nlb.toUInt32 }

/-- `nvme_read`. -/
def nvmeRead (nsid : UInt32) (slba : UInt64) (nlb : UInt16) (prp1 prp2 : UInt64) :
    SubmissionQueueEntry :=
  nvmeTransfer .read nsid slba nlb prp1 prp2

/-- `nvme_write`. -/
def nvmeWrite (nsid : UInt32) (slba : UInt64) (nlb : UInt16) (prp1 prp2 : UInt64) :
    SubmissionQueueEntry :=
  nvmeTransfer .write nsid slba nlb prp1 prp2

/-! ### The transfer a command asks for -/

namespace SubmissionQueueEntry

/-- The starting block, from dwords 10 and 11. -/
def slba (e : SubmissionQueueEntry) : Nat := e.cdw10.toNat + 2 ^ 32 * e.cdw11.toNat

/-- The number of blocks: the low half of dword 12 is zero-based. -/
def blockCount (e : SubmissionQueueEntry) : Nat := e.cdw12.toNat % 2 ^ 16 + 1

end SubmissionQueueEntry

section Transfer

variable (opcode : IoOpcode) (nsid : UInt32) (slba : UInt64) (nlb : UInt16) (prp1 prp2 : UInt64)

@[simp] theorem nvmeTransfer_opc :
    (nvmeTransfer opcode nsid slba nlb prp1 prp2).opc = opcode.toUInt8 := rfl

@[simp] theorem nvmeTransfer_prp1 :
    (nvmeTransfer opcode nsid slba nlb prp1 prp2).prp1 = prp1 := rfl

@[simp] theorem nvmeTransfer_prp2 :
    (nvmeTransfer opcode nsid slba nlb prp1 prp2).prp2 = prp2 := rfl

/-- The two halves of the starting block are put together again. -/
@[simp] theorem nvmeTransfer_slba :
    (nvmeTransfer opcode nsid slba nlb prp1 prp2).slba = slba.toNat := by
  have h := slba.toNat_lt
  simp [SubmissionQueueEntry.slba, nvmeTransfer, Nat.shiftRight_eq_div_pow]
  omega

/-- The zero-based count of a command that moves `nlb + 1` blocks. -/
@[simp] theorem nvmeTransfer_blockCount :
    (nvmeTransfer opcode nsid slba nlb prp1 prp2).blockCount = nlb.toNat + 1 := by
  simp [SubmissionQueueEntry.blockCount, nvmeTransfer]

end Transfer

end Nvmetoy
