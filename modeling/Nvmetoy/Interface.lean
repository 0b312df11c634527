import Nvmetoy.Rust
import Nvmetoy.CommandBuilders

/-!
# What the driver does to the world

The DMA region is one hugepage, cut into two queue pairs, a PRP-list page and a data
area at fixed offsets. `IoError` lists the errors of the crate with their texts, and `Op`
the operations through which the code touches anything outside its own memory: the DMA region, the
device registers, the PCI configuration files, the terminal and the allocator. The
generic `DmaRegion::read_volatile::<T>` and `write_volatile::<T>` appear once for each
type they are used at. `Op.mark` is the one operation the source does not have: the
callers below use it to record in the history where a call begins and ends.
-/

namespace Nvmetoy

open Framework

/-! ### The layout of the DMA region -/

/-- `HUGE_PAGE_SIZE`: the bytes of the one region that is shared with the device. -/
def HUGE_PAGE_SIZE : Nat := 2 * 1024 * 1024
/-- `PAGE_SIZE`: the unit of the pointers in a command. -/
def PAGE_SIZE : Nat := 4096

/-- The region begins with the admin submission queue. -/
def ADMIN_SUBMISSION_QUEUE_OFFSET : Nat := 0x0000
/-- The admin completion queue lies behind the admin submission queue. -/
def ADMIN_COMPLETION_QUEUE_OFFSET : Nat := 0x1000
/-- The I/O submission queue lies behind the admin queues. -/
def IO_SUBMISSION_QUEUE_OFFSET : Nat := 0x2000
/-- The I/O completion queue lies behind the I/O submission queue. -/
def IO_COMPLETION_QUEUE_OFFSET : Nat := 0x3000
/-- The PRP list lies behind the queues. -/
def PRP_LIST_OFFSET : Nat := 0x4000
/-- The data buffer goes up to the end. -/
def DATA_OFFSET : Nat := 0x5000

/-- The largest single read or write: the data area is the tail of the hugepage. -/
def MAX_TRANSFER_BYTES : Nat := HUGE_PAGE_SIZE - DATA_OFFSET

/-- How many PRP entries fit in the PRP-list page. -/
def PRP_LIST_CAPACITY : Nat := (DATA_OFFSET - PRP_LIST_OFFSET) / 8

/-! ### Errors -/

/-- The errors of the crate and of the operating system calls it passes on. -/
inductive IoError where
  | os (text : String)
  | pollTimeout
  | cidMismatch (got expected : UInt16)
  | commandFailed (what : String) (statusCodeType statusCode : UInt8)
  | kernelDriverBound (bdf : Str)
  | fatalStatus
  | readyTimeout
  | identifyTooShort (what : String)
  | entrySizeExcluded (what : String) (low high required : UInt8)
  | readZeroBlocks
  | readTooLarge
  | writeNotMultiple
  | writeTooLarge
  | rangeOverflows
  | notInFile (block : UInt64)
  | malformedLine (line : Str)
  | invalidUtf8
  | cannotParse (text : Str)
  | notSingleChar (text : Str)
  | unknownCommand
  | readTooLargeForOneCommand
  | payloadNotMultiple (blockSize : Nat)
  | zeroBlockCount
  | fillTooLarge (count : UInt64)
  | nothingToWrite
  | rangeNotInBlock (offset len blockSize : Nat)
deriving DecidableEq, Repr

/-- The text of an error. -/
def IoError.message [Unicode] : IoError → String
  | os text => text
  | pollTimeout => "timed out polling completion queue"
  | cidMismatch got expected =>
    "completion for command " ++ toString got ++ " but expected " ++ toString expected
  | commandFailed what sct sc =>
    what ++ " failed: SCT=" ++ hex sct ++ " SC=" ++ hex sc
  | kernelDriverBound bdf =>
    String.ofList bdf ++ " is bound to the kernel nvme driver; unbind it first " ++
      "(resetting the controller under the live driver will hang it)"
  | fatalStatus => "controller reported fatal status (CSTS.CFS)"
  | readyTimeout => "timed out waiting for CSTS.RDY"
  | identifyTooShort what => "Identify " ++ what ++ " data too short"
  | entrySizeExcluded what low high required =>
    "controller " ++ what ++ " entry size range 2^" ++ toString low ++ "..=2^" ++
      toString high ++ " excludes the required 2^" ++ toString required
  | readZeroBlocks => "read of zero blocks"
  | readTooLarge => "read larger than the data buffer"
  | writeNotMultiple => "write length must be a non-zero multiple of the block size"
  | writeTooLarge => "write larger than the data buffer"
  | rangeOverflows => "range overflows"
  | notInFile block => "block " ++ toString block ++ " is not part of the file"
  | malformedLine line => "malformed block map line: " ++ String.ofList line
  | invalidUtf8 => "stream did not contain valid UTF-8"
  | cannotParse text => "cannot parse " ++ String.ofList (debugStr text)
  | notSingleChar text =>
    "fill character must be a single ASCII character: " ++ String.ofList (debugStr text)
  | unknownCommand => "unknown command; type 'help'"
  | readTooLargeForOneCommand => "read too large for one command"
  | payloadNotMultiple blockSize =>
    "write payload must be a non-zero multiple of the " ++ toString blockSize ++
      "-byte block size"
  | zeroBlockCount => "block count must be non-zero"
  | fillTooLarge count =>
    "fill of " ++ toString count ++ " blocks exceeds the " ++ toString MAX_TRANSFER_BYTES ++
      "-byte transfer limit"
  | nothingToWrite => "nothing to write"
  | rangeNotInBlock offset len blockSize =>
    "range at offset " ++ toString offset ++ " (len " ++ toString len ++
      ") does not fit in the " ++ toString blockSize ++ "-byte block"
where
  /-- `{:#x}`. -/
  hex (b : UInt8) : String := "0x" ++ String.ofList (Nat.toDigits 16 b.toNat)

/-! ### Operations -/

/-- The answer of `read_link` on the device's `driver` entry. -/
inductive DriverLink where
  | found (fileName : Option Str)
  | notFound
  | failed (e : IoError)
deriving DecidableEq, Repr

/-- A call to the driver, as a caller makes it. -/
inductive Call where
  | identifyController
  | read (slba : UInt64) (blockCount : UInt16)
  | write (slba : UInt64) (data : List UInt8)
deriving DecidableEq, Repr

/-- The two queue pairs of the driver. -/
inductive QueueId where
  | admin
  | io
deriving DecidableEq, Repr

/-- Where a call begins, and how it ended. A `write` that ends well gives no bytes. -/
inductive Mark where
  | beginSubmit (queue : QueueId)
  | endSubmit (queue : QueueId) (result : Except IoError CompletionQueueEntry)
  | beginCall (call : Call)
  | endCall (result : Except IoError (List UInt8))
deriving DecidableEq

/-- The operations on the outside world. -/
inductive Op where
  | writeSqe (offset : Nat) (entry : SubmissionQueueEntry)
  | readSqe (offset : Nat)
  | readCqe (offset : Nat)
  | writeU64 (offset : Nat) (value : UInt64)
  | readBytes (offset len : Nat)
  | writeBytes (offset : Nat) (source : List UInt8)
  | read32 (offset : Nat)
  | write32 (offset : Nat) (value : UInt32)
  | read64 (offset : Nat)
  | write64 (offset : Nat) (value : UInt64)
  | sleep (milliseconds : Nat)
  | readDriverLink (bdf : Str)
  | configOpen (bdf : Str)
  | configSeek (position : Nat)
  | configRead (len : Nat)
  | configWrite (bytes : List UInt8)
  | mapBar (bdf : Str) (index : Nat)
  | allocHuge
  | unmapBar
  | unmapDma
  | alloc (bytes : Nat)
  | println (line : Str)
  | mark (m : Mark)
deriving DecidableEq

/-- The bus address of a hugepage: the page lies inside the 64-bit address space. -/
abbrev HugePageAddress : Type := { a : UInt64 // a.toNat + HUGE_PAGE_SIZE ≤ U64_SIZE }

/-- The response of each operation. A byte read gives as many bytes as were asked for. -/
abbrev Res : Op → Type
  | .readSqe _ => SubmissionQueueEntry
  | .readCqe _ => CompletionQueueEntry
  | .readBytes _ len => { bytes : List UInt8 // bytes.length = len }
  | .read32 _ => UInt32
  | .read64 _ => UInt64
  | .readDriverLink _ => DriverLink
  | .configOpen _ => Except IoError Unit
  | .configSeek _ => Except IoError Unit
  | .configRead len => Except IoError { bytes : List UInt8 // bytes.length = len }
  | .configWrite _ => Except IoError Unit
  | .mapBar _ _ => Except IoError Nat
  | .allocHuge => Except IoError HugePageAddress
  | _ => Unit

/-- `?` on the response of an operating system call. -/
def question {σ α : Type} : Except IoError α → Method Op Res σ IoError α
  | .ok a => Method.lift (.ok a)
  | .error e => Method.fail e

end Nvmetoy
