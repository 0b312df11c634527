import Nvmetoy.Framework.PhaseRing
import Nvmetoy.Framework.Interleave
import Nvmetoy.Calls

/-!
# The controller

The other side of the driver: bus memory, the controller's registers for the two queue
pairs, and what it does on its own.

* `Ring` — one queue pair as the controller has it: the doorbells, its fetch index, the
  commands in its hands and the completions it has posted. The rest of the record is
  history, which nothing in the code reads: the properties are stated on it.
* `World` — the memory, the two rings and the namespace.
* `act` — what each operation of the driver does. An access to the DMA region is an access
  to the bus memory at the address of the region.
* `EnvStep` — a step of the controller: it fetches the command at its head, posts a
  completion in its next slot while the ring is not full, or transfers data. Which
  completions it may post, and what a transfer does, are parameters (`Behaviour`).

The driver and the controller are interleaved freely (`Framework.Machine`).
-/

namespace Nvmetoy

open Framework NvmeUserspaceDriver

namespace QueueId

/-- The id of a queue, by which its doorbells are found. -/
def number : QueueId → UInt16
  | admin => 0
  | io => IO_QUEUE_ID

/-- The offset of the submission ring of a queue in the hugepage. -/
def submissionOffset : QueueId → Nat
  | admin => ADMIN_SUBMISSION_QUEUE_OFFSET
  | io => IO_SUBMISSION_QUEUE_OFFSET

def completionOffset : QueueId → Nat
  | admin => ADMIN_COMPLETION_QUEUE_OFFSET
  | io => IO_COMPLETION_QUEUE_OFFSET

/-- The queue pair as `open` constructs it. -/
def queuePair (i : QueueId) : QueuePair := .new i.number i.submissionOffset i.completionOffset

end QueueId

/-- A command in the hands of the controller: the submission it is, the entry that was
fetched, and the status once it has been executed. -/
structure FetchedCommand where
  number : Nat
  entry : SubmissionQueueEntry
  status : Option UInt16

/-- How a call of `submit_and_wait` ended: the submission it made and its identifier, how
many completions had been taken before it, how many had been posted when it polled last,
and its result. -/
structure SubmitRecord where
  number : Nat
  cid : UInt16
  before : Nat
  seen : Nat
  result : Except IoError CompletionQueueEntry

/-- One queue pair, at the controller. -/
structure Ring where
  /-- The doorbells, as last written. -/
  sqTail : Nat
  cqHead : Nat
  /-- The slot the controller fetches next. -/
  sqHead : Nat
  /-- The commands fetched and not completed. -/
  live : List FetchedCommand
  /-- The completions posted, each with the submission it is for. -/
  posted : List (CompletionQueueEntry × Nat)
  /-- The commands the driver has written, and which of them each slot was written with. -/
  submitted : Nat
  issuer : Nat → Nat
  cid : UInt16
  /-- The commands fetched, and the slots whose command has been. -/
  fetches : Nat
  fetched : Nat → Bool
  /-- A command was overwritten before it was fetched, or the tail was rung onto the head. -/
  overrun : Bool
  /-- The completions the driver has taken. -/
  taken : List CompletionQueueEntry
  /-- The entry polled last, the polls of this submission, and what was posted then. -/
  polled : CompletionQueueEntry
  polls : Nat
  seen : Nat
  /-- The submissions whose last poll found nothing. -/
  expired : Nat
  /-- The calls of `submit_and_wait`, and what the present one began with. -/
  begun : Nat
  records : List SubmitRecord

namespace Ring

/-- Before the first command. -/
def fresh : Ring where
  sqTail := 0
  cqHead := 0
  sqHead := 0
  live := []
  posted := []
  submitted := 0
  issuer := fun _ => 0
  cid := 0
  fetches := 0
  fetched := fun _ => true
  overrun := false
  taken := []
  polled := .decode []
  polls := 0
  seen := 0
  expired := 0
  begun := 0
  records := []

variable (r : Ring)

/-- The driver writes a command with identifier `cid` into slot `s`. -/
def store (s : Nat) (cid : UInt16) : Ring :=
  { r with
    submitted := r.submitted + 1
    -- submissions are numbered from 0, so this one bears the old count
    issuer := fun t => if t = s then r.submitted else r.issuer t
    cid := cid
    fetched := fun t => if t = s then false else r.fetched t
    -- what the slot held before is lost if it has not been fetched
    overrun := r.overrun || !r.fetched s
    polls := 0 }

/-- The driver rings the submission doorbell. Ringing the tail onto the head makes a ring
with commands look empty. -/
def ringTail (tail : Nat) : Ring :=
  { r with
    sqTail := tail
    overrun := r.overrun || (tail == r.sqHead && decide (r.fetches < r.submitted)) }

/-- The driver reads its next completion slot. -/
def poll (c : CompletionQueueEntry) : Ring :=
  { r with
    polled := c
    polls := r.polls + 1
    seen := r.posted.length
    -- the last poll of a call, and the ring is empty
    expired := if r.polls = POLL_LIMIT ∧ r.posted.length ≤ r.taken.length then r.expired + 1
      else r.expired }

/-- The driver rings the completion doorbell: it has taken the entry it polled last. -/
def ringHead (head : Nat) : Ring :=
  { r with
    cqHead := head
    taken := r.taken ++ [r.polled] }

/-- The controller fetches the entry at its head. -/
def fetch (entry : SubmissionQueueEntry) : Ring :=
  { r with
    sqHead := (r.sqHead + 1) % QUEUE_DEPTH
    live := r.live ++ [⟨r.issuer r.sqHead, entry, none⟩]
    fetches := r.fetches + 1
    fetched := fun t => if t = r.sqHead then true else r.fetched t }

/-- The controller posts a completion for submission `k`, and goes on with `live`. -/
def post (c : CompletionQueueEntry) (k : Nat) (live : List FetchedCommand) : Ring :=
  { r with
    live := live
    posted := r.posted ++ [(c, k)] }

/-- A call of `submit_and_wait` begins. -/
def beginSubmit : Ring := { r with begun := r.taken.length }

/-- A call of `submit_and_wait` has ended. -/
def endSubmit (result : Except IoError CompletionQueueEntry) : Ring :=
  { r with records := r.records ++ [⟨r.submitted - 1, r.cid, r.begun, r.seen, result⟩] }

/-- The controller is disabled: it forgets its queues. -/
def reset : Ring := { r with sqTail := 0, cqHead := 0, sqHead := 0, live := [] }

/-- The commands the controller holds: those it has not fetched yet, and those it has not
completed. -/
def held : Nat := (r.sqTail + QUEUE_DEPTH - r.sqHead) % QUEUE_DEPTH + r.live.length

/-- The submissions it has not fetched. -/
def unfetched : Nat := r.submitted - r.fetches

end Ring

/-- A transfer of data that the controller has made: for which submission, and what. -/
structure Transfer where
  queue : QueueId
  number : Nat
  bytes : List UInt8

/-- A call of the driver that has ended, and its last submission on the I/O queue. -/
structure CallRecord where
  call : Call
  number : Nat
  result : Except IoError (List UInt8)

/-- The memory, the controller and the namespace. -/
structure World where
  mem : Mem
  ring : QueueId → Ring
  enabled : Bool
  disk : Mem
  /-- The commands the controller held when the region was unmapped. -/
  released : Option Nat
  /-- The call in progress, and those that have ended. -/
  current : Option Call
  calls : List CallRecord
  /-- The call each submission on the I/O queue was made by. -/
  issuedBy : Nat → Option Call
  transfers : List Transfer

/-- Where the machine has put things: the hugepage, the BAR, and its doorbell stride. -/
structure Platform where
  base : HugePageAddress
  barLength : Nat
  stride : Nat
  stride_pos : 0 < stride

/-- The BAR and the region, as a driver on this machine has them. -/
def Platform.bar (P : Platform) : NvmeBar := ⟨P.barLength⟩

/-- The region of the driver on this platform. -/
def Platform.region (P : Platform) : DmaRegion :=
  ⟨HUGE_PAGE_SIZE, P.base.val, P.base.property⟩

/-- The slot of a submission ring at an offset of the region. -/
def QueueId.sqSlot (i : QueueId) (offset : Nat) : Option Nat :=
  if i.submissionOffset ≤ offset ∧ offset < i.submissionOffset + 64 * QUEUE_DEPTH then
    some ((offset - i.submissionOffset) / 64)
  else none

/-- The offset lies in the completion ring. -/
def QueueId.InCompletions (i : QueueId) (offset : Nat) : Prop :=
  i.completionOffset ≤ offset ∧ offset < i.completionOffset + 16 * QUEUE_DEPTH

instance (i : QueueId) (offset : Nat) : Decidable (i.InCompletions offset) :=
  inferInstanceAs (Decidable (_ ∧ _))

namespace World

variable (P : Platform) (w : World)

/-- The bus address of an offset of the region. -/
def address (offset : Nat) : Nat := P.base.val.toNat + offset

/-- The entry in a slot of a submission ring. -/
def sqe (i : QueueId) (s : Nat) : SubmissionQueueEntry :=
  .decode (w.mem.read (address P (i.submissionOffset + 64 * s)) 64)

/-- The entry in a slot of a completion ring. -/
def cqe (i : QueueId) (s : Nat) : CompletionQueueEntry :=
  .decode (w.mem.read (address P (i.completionOffset + 16 * s)) 16)

/-- Replace one ring. -/
def setRing (i : QueueId) (r : Ring) : World :=
  { w with ring := fun j => if j = i then r else w.ring j }

/-- `write_volatile` of a submission queue entry. -/
def storeSqe (offset : Nat) (entry : SubmissionQueueEntry) : World :=
  { w with
    mem := w.mem.write (address P offset) entry.encode
    -- an entry outside both submission rings is no command
    ring := fun i => match i.sqSlot offset with
      | some s => (w.ring i).store s entry.cid
      | none => w.ring i
    issuedBy := fun k => if k = (w.ring .io).submitted ∧ (QueueId.io.sqSlot offset).isSome
      then w.current else w.issuedBy k }

/-- `read_volatile` of a completion queue entry. -/
def pollCqe (offset : Nat) (c : CompletionQueueEntry) : World :=
  { w with
    ring := fun i => if i.InCompletions offset then (w.ring i).poll c else w.ring i }

/-- The controller is enabled or disabled, by CC.EN. -/
def writeConfiguration (value : UInt32) : World :=
  -- bit 0 is EN; a controller that is disabled resets
  if value &&& 1 = 0 then { w with enabled := false, ring := fun i => (w.ring i).reset }
  else { w with enabled := true }

/-- A register write: a doorbell, the configuration, or a register that does nothing here. The rings
are where the driver's constants say, which is what it writes to the registers of the admin
queue. -/
def writeRegister (offset : Nat) (value : UInt32) : World :=
  if offset = NvmeBar.submissionDoorbell 0 P.stride then
    w.setRing .admin ((w.ring .admin).ringTail value.toNat)
  else if offset = NvmeBar.completionDoorbell 0 P.stride then
    w.setRing .admin ((w.ring .admin).ringHead value.toNat)
  else if offset = NvmeBar.submissionDoorbell IO_QUEUE_ID P.stride then
    w.setRing .io ((w.ring .io).ringTail value.toNat)
  else if offset = NvmeBar.completionDoorbell IO_QUEUE_ID P.stride then
    w.setRing .io ((w.ring .io).ringHead value.toNat)
  else if offset = CC then w.writeConfiguration value
  else w

/-- The history, at a mark. -/
def mark : Mark → World
  | .beginSubmit i => w.setRing i (w.ring i).beginSubmit
  | .endSubmit i result => w.setRing i ((w.ring i).endSubmit result)
  | .beginCall call => { w with current := some call }
  | .endCall result =>
    match w.current with
    | some call =>
      { w with
        current := none
        calls := w.calls ++ [⟨call, (w.ring .io).submitted - 1, result⟩] }
    | none => w

/-- The hugepage is mapped, zeroed. -/
def allocate : World :=
  { w with mem := w.mem.write (address P 0) (List.replicate HUGE_PAGE_SIZE 0) }

/-- The hugepage is unmapped. -/
def release : World :=
  { w with
    released := if w.enabled then some ((w.ring .admin).held + (w.ring .io).held)
      else some 0 }

end World

section Steps

variable (P : Platform)

/-- What an operation of the driver does. -/
def act : (o : Op) → World → Res o → World → Prop
  | .writeSqe offset entry, w, _, w' => w' = w.storeSqe P offset entry
  | .readSqe offset, w, r, w' => r = .decode (w.mem.read (World.address P offset) 64) ∧ w' = w
  | .readCqe offset, w, r, w' =>
    r = .decode (w.mem.read (World.address P offset) 16) ∧ w' = w.pollCqe offset r
  | .writeU64 offset value, w, _, w' =>
    w' = { w with mem := w.mem.write (World.address P offset) (toLe 8 value.toNat) }
  | .readBytes offset len, w, r, w' => r.val = w.mem.read (World.address P offset) len ∧ w' = w
  | .writeBytes offset source, w, _, w' =>
    w' = { w with mem := w.mem.write (World.address P offset) source }
  | .write32 offset value, w, _, w' => w' = w.writeRegister P offset value
  -- of the registers, CAP alone has a content: the stride of this machine
  | .read64 offset, w, r, w' => (offset = CAP → doorbellStrideOf r = P.stride) ∧ w' = w
  | .mapBar _ _, w, r, w' => (∀ length, r = .ok length → length = P.barLength) ∧ w' = w
  | .allocHuge, w, .ok a, w' => a = P.base ∧ w' = w.allocate P
  | .unmapDma, w, _, w' => w' = w.release
  | .mark m, w, _, w' => w' = w.mark m
  -- whatever else is read may have any content, and changes nothing
  | _, w, _, w' => w' = w

/-- What is left open about a controller: which completion it may post for which
submission, with which commands in hand afterwards, and what its data transfers do. -/
structure Behaviour where
  mayPost : Ring → CompletionQueueEntry → Nat → List FetchedCommand → Prop
  transfer : World → World → Prop

/-- A step of the controller. -/
inductive EnvStep (C : Behaviour) : World → World → Prop where
  | fetch {w : World} (i : QueueId) (hpending : (w.ring i).sqHead ≠ (w.ring i).sqTail)
      (henabled : w.enabled) :
      EnvStep C w (w.setRing i ((w.ring i).fetch (w.sqe P i (w.ring i).sqHead)))
  -- the phase tag is what tells a new completion from an old one, so the controller keeps to it
  | post {w : World} (i : QueueId) {c : CompletionQueueEntry} {k : Nat} {live : List FetchedCommand}
      (hroom : ((w.ring i).posted.length + 1) % QUEUE_DEPTH ≠ (w.ring i).cqHead)
      (hphase : c.phase = PhaseRing.phaseOf QUEUE_DEPTH (w.ring i).posted.length)
      (hmay : C.mayPost (w.ring i) c k live) (henabled : w.enabled) :
      EnvStep C w { w.setRing i ((w.ring i).post c k live) with
        mem := w.mem.write (World.address P (i.completionOffset +
          16 * ((w.ring i).posted.length % QUEUE_DEPTH))) c.encode }
  | transfer {w w' : World} (h : C.transfer w w') (henabled : w.enabled) : EnvStep C w w'

/-- The driver and the controller, in any interleaving, in runs whose operations are all
allowed by `G`. -/
def machine (C : Behaviour) (G : Op → World → Prop) : Framework.Machine Op Res World where
  act := fun o w r w' => act P o w r w' ∧ G o w
  env := EnvStep P C

end Steps

/-- Every operation. -/
def Always : Op → World → Prop := fun _ _ => True

/-! ### Controllers -/

/-- The command is in hand, and answered with its own identifier. -/
def Discharges (r : Ring) (c : CompletionQueueEntry) (k : Nat) (live : List FetchedCommand) :
    Prop :=
  ∃ before command after, r.live = before ++ command :: after ∧ live = before ++ after ∧
    k = command.number ∧ c.cid = command.entry.cid

/-- The memory outside the rings, and the namespace, may change. -/
structure Scribbles (P : Platform) (w w' : World) : Prop where
  mem : ∀ x, World.address P 0 ≤ x → x < World.address P PRP_LIST_OFFSET → w'.mem x = w.mem x
  rest : w' = { w with mem := w'.mem, disk := w'.disk }

/-- A controller that may post anything, and for anything. -/
def anyController (P : Platform) : Behaviour where
  mayPost := fun _ _ _ _ => True
  transfer := Scribbles P

/-- A controller that answers the commands it has fetched, once each, late and in any
order as it likes. -/
def answeringController (P : Platform) : Behaviour where
  mayPost := Discharges
  transfer := Scribbles P

end Nvmetoy
