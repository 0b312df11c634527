import Nvmetoy.DmaRegion

/-!
# A submission and completion queue pair

`submitAndWait` puts one command in the submission ring, rings its doorbell and polls
the completion ring for an entry of the expected phase. The poll loop is bounded: after
`POLL_LIMIT` idle polls one more is made, and the call gives up.
-/

namespace Nvmetoy

open Framework

/-- `QUEUE_DEPTH`: the entries of either ring. -/
def QUEUE_DEPTH : Nat := 64

/-- The idle polls a call tolerates. -/
def POLL_LIMIT : Nat := 200000

/-- `QueuePair`: a submission and a completion ring, with the driver's side of their indices. -/
structure QueuePair where
  id : UInt16
  submissionOffset : Nat
  completionOffset : Nat
  submissionTail : Nat
  completionHead : Nat
  completionPhase : Bool
  nextCid : UInt16
deriving DecidableEq, Repr

namespace QueuePair

/-- `QueuePair::new`. Both rings begin at slot 0, in the phase that a zeroed ring does not have. -/
def new (id : UInt16) (submissionOffset completionOffset : Nat) : QueuePair where
  id := id
  submissionOffset := submissionOffset
  completionOffset := completionOffset
  submissionTail := 0
  completionHead := 0
  completionPhase := true
  nextCid := 0

/-- Where the next command goes. -/
def sqeOffset (q : QueuePair) : Nat :=
  q.submissionOffset + q.submissionTail * SubmissionQueueEntry.SIZE

/-- Where the next completion is expected. -/
def cqeOffset (q : QueuePair) : Nat :=
  q.completionOffset + q.completionHead * CompletionQueueEntry.SIZE

/-- The queue after a command identifier has been taken. -/
def takeCid (q : QueuePair) : QueuePair := { q with nextCid := q.nextCid + 1 }

/-- The queue after a command has been put in its slot. -/
def advanceTail (q : QueuePair) : QueuePair :=
  { q with submissionTail := (q.submissionTail + 1) % QUEUE_DEPTH }

/-- The queue after a completion has been taken; the expected phase flips on the wrap. -/
def advanceHead (q : QueuePair) : QueuePair :=
  { q with
    completionHead := (q.completionHead + 1) % QUEUE_DEPTH
    completionPhase :=
      if (q.completionHead + 1) % QUEUE_DEPTH = 0 then !q.completionPhase
      else q.completionPhase }

variable (bar : NvmeBar) (dma : DmaRegion) (doorbellStride : Nat)

/-- The body of the poll loop once an entry has the expected phase: take it, ring the
doorbell, and compare its command identifier. -/
def consume (cid : UInt16) (completion : CompletionQueueEntry) :
    Method Op Res QueuePair IoError CompletionQueueEntry := do
  let q ← Method.get
  -- the entry is taken whether or not it is the one the call waits for
  Method.set q.advanceHead
  bar.ringCompletionDoorbell q.id doorbellStride q.advanceHead.completionHead
  if completion.cid ≠ cid then Method.fail (.cidMismatch completion.cid cid)
  else pure completion

/-- The poll loop, with the number of polls that are left. -/
def pollCompletion (cid : UInt16) : Nat → Method Op Res QueuePair IoError CompletionQueueEntry
  | 0 => Method.fail .pollTimeout
  | polls + 1 => do
    let q ← Method.get
    let completion ← dma.readCqe q.cqeOffset
    -- the entry of the lap before bears the other phase
    if completion.phase == q.completionPhase then
      consume bar doorbellStride cid completion
    else pollCompletion cid polls

/-- The first half of `submit_and_wait`: put the command in its slot and ring. -/
def submit (command : SubmissionQueueEntry) : Method Op Res QueuePair IoError UInt16 := do
  let q ← Method.get
  -- the identifier is used up even if the command fails
  Method.set q.takeCid
  dma.writeSqe q.sqeOffset { command with cid := q.nextCid }
  -- read back for the log alone
  let _ ← dma.readSqe q.sqeOffset
  Method.set q.takeCid.advanceTail
  bar.ringSubmissionDoorbell q.id doorbellStride q.takeCid.advanceTail.submissionTail
  pure q.nextCid

/-- `QueuePair::submit_and_wait`. The loop polls once more than it sleeps. -/
def submitAndWait (command : SubmissionQueueEntry) :
    Method Op Res QueuePair IoError CompletionQueueEntry := do
  let cid ← submit bar dma doorbellStride command
  pollCompletion bar dma doorbellStride cid (POLL_LIMIT + 1)

section Fields

variable (q : QueuePair)

@[simp] theorem takeCid_id : q.takeCid.id = q.id := rfl
@[simp] theorem takeCid_submissionOffset : q.takeCid.submissionOffset = q.submissionOffset := rfl
@[simp] theorem takeCid_completionOffset : q.takeCid.completionOffset = q.completionOffset := rfl
@[simp] theorem takeCid_submissionTail : q.takeCid.submissionTail = q.submissionTail := rfl
@[simp] theorem takeCid_completionHead : q.takeCid.completionHead = q.completionHead := rfl
@[simp] theorem takeCid_completionPhase : q.takeCid.completionPhase = q.completionPhase := rfl
/-- The identifiers wrap around at 65536. -/
@[simp] theorem takeCid_nextCid : q.takeCid.nextCid = q.nextCid + 1 := rfl

@[simp] theorem advanceTail_id : q.advanceTail.id = q.id := rfl
@[simp] theorem advanceTail_submissionOffset :
    q.advanceTail.submissionOffset = q.submissionOffset := rfl
@[simp] theorem advanceTail_completionOffset :
    q.advanceTail.completionOffset = q.completionOffset := rfl
/-- The tail wraps around at the end of the ring. -/
@[simp] theorem advanceTail_submissionTail :
    q.advanceTail.submissionTail = (q.submissionTail + 1) % QUEUE_DEPTH := rfl
@[simp] theorem advanceTail_completionHead :
    q.advanceTail.completionHead = q.completionHead := rfl
@[simp] theorem advanceTail_completionPhase :
    q.advanceTail.completionPhase = q.completionPhase := rfl
@[simp] theorem advanceTail_nextCid : q.advanceTail.nextCid = q.nextCid := rfl

@[simp] theorem advanceHead_id : q.advanceHead.id = q.id := rfl
@[simp] theorem advanceHead_submissionOffset :
    q.advanceHead.submissionOffset = q.submissionOffset := rfl
@[simp] theorem advanceHead_completionOffset :
    q.advanceHead.completionOffset = q.completionOffset := rfl
@[simp] theorem advanceHead_submissionTail :
    q.advanceHead.submissionTail = q.submissionTail := rfl
@[simp] theorem advanceHead_completionHead :
    q.advanceHead.completionHead = (q.completionHead + 1) % QUEUE_DEPTH := rfl
@[simp] theorem advanceHead_nextCid : q.advanceHead.nextCid = q.nextCid := rfl

end Fields

end QueuePair

end Nvmetoy
