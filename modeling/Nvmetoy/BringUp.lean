import Nvmetoy.Framework.History
import Nvmetoy.Ready

/-!
# The order of bring-up

What `open` does to the device, as a property of its history under any responses: which
operation may be issued after which, and what has happened by the time that it succeeds.

* `Quiet`, `Live` — the controller has been disabled and seen not ready; it has been enabled
  again after that and seen ready. `CC` has not been written otherwise since.
* `Succeeds asks Q` — a command has been submitted while `Q` was the case, and a successful
  completion of it has been taken.
* `Allowed` — what may be issued in a history.
* `NamespaceIdentified` — the whole bring-up, step after step.
-/

namespace Nvmetoy

open Framework NvmeUserspaceDriver

namespace BringUp

/-! ### The exchanges -/

/-- What the driver has done, and what it has seen. -/
abbrev Past : Type := List (Exchange Op Res)

/-- A write of CC, with this value of CC.EN. -/
def WritesEnable (enable : Bool) : Exchange Op Res → Prop
  | ⟨.write32 offset value, _⟩ => offset = CC ∧ (value &&& 1 != 0) = enable
  | _ => False

/-- A write of CC. -/
def Configures (e : Exchange Op Res) : Prop := ∃ enable, WritesEnable enable e

/-- A write of this register. -/
def Programs (register : Nat) : Exchange Op Res → Prop
  | ⟨.write32 offset _, _⟩ => offset = register
  | ⟨.write64 offset _, _⟩ => offset = register
  | _ => False

/-- A read of CSTS, with this value of CSTS.RDY. -/
def ReadsReady (ready : Bool) : Exchange Op Res → Prop
  | ⟨.read32 offset, status⟩ => offset = CSTS ∧ statusReady status = ready
  | _ => False

/-- A command is put in a submission ring. -/
def Submits (asks : SubmissionQueueEntry → Prop) : Exchange Op Res → Prop
  | ⟨.writeSqe _ entry, _⟩ => asks entry
  | _ => False

/-- A completion is read. -/
def Takes (tells : CompletionQueueEntry → Prop) : Exchange Op Res → Prop
  | ⟨.readCqe _, completion⟩ => tells completion
  | _ => False

/-- The data of an Identify command is read. -/
def Learns (tells : List UInt8 → Prop) : Exchange Op Res → Prop
  | ⟨.readBytes offset len, bytes⟩ => offset = DATA_OFFSET ∧ len = IDENTIFY_SIZE ∧ tells bytes.val
  | _ => False

/-- The capabilities are read. -/
def Declares (capabilities : UInt64) : Exchange Op Res → Prop
  | ⟨.read64 offset, value⟩ => offset = CAP ∧ value = capabilities
  | _ => False

/-! ### The steps of bring-up -/

/-- CC.EN has been cleared, and not set since. -/
def Cleared : Past → Prop :=
  Since (fun _ => True) (WritesEnable false) (WritesEnable true)

/-- CSTS.RDY = 0 has been seen since CC.EN was cleared, and CC.EN has not been set since. -/
def Quiet : Past → Prop := Since Cleared (ReadsReady false) (WritesEnable true)

/-- AQA, ASQ and ACQ have been written to the quiet controller, and it is still quiet. -/
structure Programmed (past : Past) : Prop where
  quiet : Quiet past
  aqa : Once Quiet (Programs AQA) past
  asq : Once Quiet (Programs ASQ) past
  acq : Once Quiet (Programs ACQ) past

/-- CC.EN has been set after that, and CC has not been written since. -/
def Enabled : Past → Prop := Since Programmed (WritesEnable true) Configures

/-- CSTS.RDY = 1 has been seen after that, and CC has not been written since. -/
def Live : Past → Prop := Since Enabled (ReadsReady true) Configures

/-- A command with this identifier is the last that has been submitted, and `Q` was the case
when it was. -/
def Waits (asks : SubmissionQueueEntry → Prop) (Q : Past → Prop) (cid : UInt16) : Past → Prop :=
  Since Q (Submits fun entry => asks entry ∧ entry.cid = cid) (Submits fun _ => True)

/-- A completion of the command, tagged with the phase of the first lap, has been taken. -/
def Completes (asks : SubmissionQueueEntry → Prop) (Q : Past → Prop)
    (completion : CompletionQueueEntry) : Past → Prop :=
  Once (Waits asks Q completion.cid)
    (Takes fun taken => taken = completion ∧ completion.phase = true)

/-- The command has been completed with success. -/
def Succeeds (asks : SubmissionQueueEntry → Prop) (Q : Past → Prop) (past : Past) : Prop :=
  ∃ completion, completion.isSuccess = true ∧ Completes asks Q completion past

/-- The command is an Identify of this structure. -/
def Identifies («structure» : IdentifyStructure) (nsid : UInt32) (entry : SubmissionQueueEntry) :
    Prop :=
  entry.opc = AdminOpcode.identify.toUInt8 ∧ entry.cdw10 = «structure».toUInt32 ∧
    entry.nsid = nsid

/-- The command creates a queue of the I/O queue pair. -/
def Creates (opcode : AdminOpcode) (entry : SubmissionQueueEntry) : Prop :=
  entry.opc = opcode.toUInt8 ∧ entry.cdw10.toUInt16 = IO_QUEUE_ID

/-- The controller takes entries of this size. -/
def Supports (supported required : UInt8) : Prop :=
  supported &&& 0xF ≤ required ∧ required ≤ supported >>> 4

/-- The Identify Controller data allows the entry sizes of the driver. -/
def AcceptsEntrySizes (data : List UInt8) : Prop :=
  ∃ controller, IdentifyController.readFromPrefix data = some controller ∧
    Supports controller.sqes IO_SUBMISSION_ENTRY_SIZE_EXPONENT.toUInt8 ∧
    Supports controller.cqes IO_COMPLETION_ENTRY_SIZE_EXPONENT.toUInt8

/-- The entry sizes have been checked, on a live controller. -/
def SizesAccepted : Past → Prop :=
  Once (Succeeds (Identifies .controller 0) Live) (Learns AcceptsEntrySizes)

/-- The I/O completion queue has been created. -/
def CompletionQueueCreated : Past → Prop :=
  Succeeds (Creates .createIoCompletionQueue) SizesAccepted

/-- The I/O submission queue has been created, after its completion queue. -/
def SubmissionQueueCreated : Past → Prop :=
  Succeeds (Creates .createIoSubmissionQueue) CompletionQueueCreated

/-- The namespace has been identified, last of all. -/
def NamespaceIdentified (nsid : UInt32) : Past → Prop :=
  Once (Succeeds (Identifies .namespace nsid) SubmissionQueueCreated)
    (Learns fun data => (IdentifyNamespace.readFromPrefix data).isSome = true)

/-- Less may be learnt. -/
theorem Learns.mono {tells tells' : List UInt8 → Prop} {e : Exchange Op Res}
    (h : ∀ data, tells data → tells' data) (he : Learns tells e) : Learns tells' e := by
  obtain ⟨op, response⟩ := e
  cases op with
  | readBytes offset len => exact ⟨he.1, he.2.1, h _ he.2.2⟩
  | _ => exact he

/-! ### What may be issued -/

/-- The register is no doorbell of the I/O queue pair, at the stride that the controller has
declared. -/
def OffIoDoorbells (past : Past) (offset : Nat) : Prop :=
  ∃ capabilities, Once (fun _ => True) (Declares capabilities) past ∧
    offset ≠ NvmeBar.submissionDoorbell IO_QUEUE_ID (doorbellStrideOf capabilities) ∧
    offset ≠ NvmeBar.completionDoorbell IO_QUEUE_ID (doorbellStrideOf capabilities)

/-- The operation is in its place: AQA, ASQ and ACQ are written to a quiet controller;
commands are submitted to a live one, in the admin ring; the I/O submission queue is asked for
once the I/O completion queue has been created. Nothing else is written to the DMA region. -/
def Allowed (past : Past) : Op → Prop
  | .write32 offset _ => (offset = AQA → Quiet past) ∧
    (DOORBELL_BASE ≤ offset → Live past ∧ OffIoDoorbells past offset)
  | .write64 offset _ => offset = ASQ ∨ offset = ACQ → Quiet past
  | .writeSqe offset entry => Live past ∧
    offset + SubmissionQueueEntry.SIZE ≤ ADMIN_COMPLETION_QUEUE_OFFSET ∧
    (entry.opc = AdminOpcode.createIoSubmissionQueue.toUInt8 → CompletionQueueCreated past)
  | .writeU64 _ _ | .writeBytes _ _ => False
  | _ => True

/-! ### The registers -/

section Registers

variable {d : NvmeUserspaceDriver} {past : Past} {bar : NvmeBar} {σ α : Type} {s : σ}
  {ψ : Past → α → σ → Prop}

/-- A register access, behind its check. -/
theorem attains_write32 {offset : Nat} {value : UInt32} {f : Unit → Method Op Res σ IoError α}
    (ho : Allowed past (.write32 offset value))
    (h : (f ()).Attains Allowed s (past ++ [⟨.write32 offset value, ()⟩]) ψ) :
    (bar.write32 offset value >>= f).Attains Allowed s past ψ := by
  rw [NvmeBar.write32, Method.bind_assoc]
  exact Method.attains_lift_bind fun _ _ => Method.attains_call_bind ho fun _ => h

/-- A register write of the driver, at an offset that the BAR covers. -/
theorem attains_write64 {offset : Nat} {value : UInt64} {f : Unit → Method Op Res σ IoError α}
    (ho : Allowed past (.write64 offset value))
    (h : (f ()).Attains Allowed s (past ++ [⟨.write64 offset value, ()⟩]) ψ) :
    (bar.write64 offset value >>= f).Attains Allowed s past ψ := by
  rw [NvmeBar.write64, Method.bind_assoc]
  exact Method.attains_lift_bind fun _ _ => Method.attains_call_bind ho fun _ => h

theorem attains_read32 {offset : Nat} {f : UInt32 → Method Op Res σ IoError α}
    (h : ∀ value, (f value).Attains Allowed s (past ++ [⟨.read32 offset, value⟩]) ψ) :
    (bar.read32 offset >>= f).Attains Allowed s past ψ := by
  rw [NvmeBar.read32, Method.bind_assoc]
  exact Method.attains_lift_bind fun _ _ => Method.attains_call_bind trivial h

/-- **A wait.** What polling does not change is the case when the wanted value is seen. -/
theorem waitReady_attains {Q : Past → Prop} {B : Exchange Op Res → Prop} {want : Bool}
    (hread : ∀ past status, Q past → Q (past ++ [⟨.read32 CSTS, status⟩]))
    (hsleep : ∀ past time, Q past → Q (past ++ [⟨.sleep time, ()⟩])) (polls : Nat)
    (h : Q past) :
    (waitReady want polls).Attains Allowed d past fun past' _ d' =>
      d' = d ∧ Since Q (ReadsReady want) B past' := by
  induction polls generalizing past with
  | zero => exact Method.attains_fail
  | succ polls ih =>
    refine Method.attains_get (attains_read32 fun status => ?_)
    split
    · exact Method.attains_fail
    split
    · next hready =>
      exact Method.attains_pure ⟨rfl, Since.now h ⟨rfl, beq_iff_eq.mp hready⟩⟩
    · -- another poll, from a past with one more status
      exact Method.attains_call_bind trivial fun _ => ih (hsleep _ _ (hread _ _ h))

/-- The value written first clears CC.EN, whatever CC was. -/
theorem enable_cleared (configuration : UInt32) :
    ((configuration &&& ~~~1) &&& 1 != 0) = false := by
  have hzero : (configuration &&& ~~~1) &&& 1 = 0 := by
    rw [UInt32.and_assoc, show (~~~1 : UInt32) &&& 1 = 0 by decide, UInt32.and_zero]
  rw [hzero]
  decide

/-- A register of a quiet controller is written, and it stays quiet. -/
theorem quiet_write32 {offset : Nat} {value : UInt32} {f : Unit → Method Op Res σ IoError α}
    (hquiet : Quiet past) (hcc : offset ≠ CC) (hlt : offset < DOORBELL_BASE)
    (h : ∀ past', Quiet past' → Once Quiet (Programs offset) past' →
      (f ()).Attains Allowed s past' ψ) :
    (bar.write32 offset value >>= f).Attains Allowed s past ψ := by
  refine attains_write32 ⟨fun _ => hquiet, fun hge => absurd hlt (Nat.not_lt.mpr hge)⟩ ?_
  exact h _ (hquiet.still fun hwrites => hcc hwrites.1) (Since.now hquiet rfl)

/-- While no command is under way, a write of a register other than CC is followed by the state
before, and has happened. -/
theorem quiet_write64 {Q : Past → Prop} {offset : Nat} {value : UInt64}
    {f : Unit → Method Op Res σ IoError α} (hquiet : Quiet past) (hlasts : Lasts Q) (hQ : Q past)
    (h : ∀ past', Quiet past' → Q past' → Once Quiet (Programs offset) past' →
      (f ()).Attains Allowed s past' ψ) :
    (bar.write64 offset value >>= f).Attains Allowed s past ψ := by
  refine attains_write64 (fun _ => hquiet) ?_
  exact h _ (hquiet.still id) (hlasts _ _ hQ) (Since.now hquiet rfl)

/-- **The reset.** It ends well on a live controller alone, and AQA, ASQ and ACQ are written
while it is quiet. -/
theorem resetAndEnable_attains :
    resetAndEnable.Attains Allowed d past fun past' _ d' => d' = d ∧ Live past' := by
  refine Method.attains_get (attains_read32 fun configuration => ?_)
  refine attains_write32 ⟨nofun, nofun⟩ ?_
  have hcleared : Cleared ((past ++ [⟨.read32 CC, configuration⟩]) ++
      [⟨.write32 CC (configuration &&& ~~~1), ()⟩]) :=
    Since.now trivial ⟨rfl, enable_cleared configuration⟩
  -- the wait for `RDY = 0` ends well only on a status read after the write
  refine Method.attains_bind (waitReady_attains (Q := Cleared) (B := WritesEnable true)
    (fun _ _ h => h.still id) (fun _ _ h => h.still id) READY_POLLS hcleared) ?_
  rintro past' _ _ ⟨rfl, hquiet⟩
  have hquiet : Quiet past' := hquiet
  -- the three writes that need the controller quiet leave it so
  refine quiet_write32 hquiet (by decide) (by decide) fun past₁ hquiet haqa => ?_
  refine quiet_write64 hquiet Once.lasts haqa fun past₂ hquiet haqa hasq => ?_
  refine quiet_write64 hquiet (Once.lasts.and Once.lasts) ⟨haqa, hasq⟩
    fun past₃ hquiet hboth hacq => ?_
  refine attains_write32 ⟨nofun, nofun⟩ ?_
  -- and the last write sets `CC.EN` after all of them
  have henabled : Enabled (_ ++ [⟨.write32 CC ((IO_COMPLETION_ENTRY_SIZE_EXPONENT <<< 20) |||
      (IO_SUBMISSION_ENTRY_SIZE_EXPONENT <<< 16) ||| 1), ()⟩]) :=
    Since.now ⟨hquiet, hboth.1, hboth.2, hacq⟩ ⟨rfl, by decide⟩
  exact waitReady_attains (fun _ _ h => h.still (by rintro ⟨_, h⟩; exact h))
    (fun _ _ h => h.still (by rintro ⟨_, h⟩; exact h)) READY_POLLS henabled

end Registers

/-! ### The admin queue -/

section Admin

variable {asks : SubmissionQueueEntry → Prop} {Q : Past → Prop} {past : Past} {bar : NvmeBar}
  {dma : DmaRegion} {stride : Nat}

/-- The controller is live, and its doorbells are this far apart. -/
structure Serves (stride : Nat) (past : Past) : Prop where
  live : Live past
  declared : ∃ capabilities, Once (fun _ => True) (Declares capabilities) past ∧
    stride = doorbellStrideOf capabilities

/-- Whatever does not configure the controller leaves it serving. -/
theorem Serves.still {e : Exchange Op Res} (h : Serves stride past) (he : ¬ Configures e) :
    Serves stride (past ++ [e]) where
  live := h.live.still he
  declared := by
    obtain ⟨capabilities, hread, hstride⟩ := h.declared
    exact ⟨capabilities, Once.lasts _ _ hread, hstride⟩

/-- The admin queue on the first lap of its completion ring, `head` completions taken. -/
structure FirstLap (q : QueuePair) (head : Nat) : Prop where
  placed : q.Placed 0 ADMIN_SUBMISSION_QUEUE_OFFSET ADMIN_COMPLETION_QUEUE_OFFSET
  phase : q.completionPhase = true
  taken : q.completionHead = head

/-- Before the ring has wrapped, a completion taken is one step of the head. -/
theorem FirstLap.advanceHead {q : QueuePair} {head : Nat} (h : FirstLap q head)
    (hhead : head + 1 < QUEUE_DEPTH) : FirstLap q.advanceHead (head + 1) := by
  have hnext : (q.completionHead + 1) % QUEUE_DEPTH = head + 1 := by
    rw [h.taken, Nat.mod_eq_of_lt hhead]
  refine ⟨h.placed.advanceHead, ?_, hnext⟩
  simp only [QueuePair.advanceHead, hnext, Nat.succ_ne_zero, if_false, h.phase]

/-- Strides are positive, so the doorbells of the queue pairs are apart. -/
theorem Serves.offIoDoorbells (h : Serves stride past) {offset : Nat}
    (hoffset : offset = NvmeBar.submissionDoorbell 0 stride ∨
      offset = NvmeBar.completionDoorbell 0 stride) : OffIoDoorbells past offset := by
  obtain ⟨capabilities, hread, hstride⟩ := h.declared
  have hpos : 0 < stride := by
    rw [hstride, doorbellStrideOf]
    exact Nat.mul_pos (by decide) (Nat.two_pow_pos _)
  have hid : IO_QUEUE_ID.toNat = 1 := rfl
  refine ⟨capabilities, hread, ?_⟩
  rw [← hstride]
  simp only [NvmeBar.submissionDoorbell, NvmeBar.completionDoorbell, UInt16.toNat_zero, hid]
    at hoffset ⊢
  omega

theorem not_configures_doorbell {offset : Nat} {value : UInt32} (h : DOORBELL_BASE ≤ offset) :
    ¬ Configures ⟨.write32 offset value, ()⟩ := by
  rintro ⟨enable, rfl, -⟩
  exact absurd h (by decide)

/-- A doorbell of the admin queue is rung. -/
theorem attains_ring {σ α : Type} {s : σ} {ψ : Past → α → σ → Prop} {offset : Nat}
    {value : UInt32} {f : Unit → Method Op Res σ IoError α} (h : Serves stride past)
    (hoffset : offset = NvmeBar.submissionDoorbell 0 stride ∨
      offset = NvmeBar.completionDoorbell 0 stride)
    (hf : Serves stride (past ++ [⟨.write32 offset value, ()⟩]) →
      (f ()).Attains Allowed s (past ++ [⟨.write32 offset value, ()⟩]) ψ) :
    (bar.write32 offset value >>= f).Attains Allowed s past ψ := by
  -- a doorbell lies behind the registers, so that it is not CC
  have hge : DOORBELL_BASE ≤ offset := by
    simp only [NvmeBar.submissionDoorbell, NvmeBar.completionDoorbell] at hoffset
    omega
  refine attains_write32 ⟨?_, fun _ => ⟨h.live, h.offIoDoorbells hoffset⟩⟩ ?_
  · rintro rfl
    exact absurd hge (by decide)
  · exact hf (h.still (not_configures_doorbell hge))

/-- **Polling.** What it gives is the completion of the command that waits. -/
theorem pollCompletion_attains {cid : UInt16} {head : Nat} (hhead : head + 1 < QUEUE_DEPTH)
    {q : QueuePair} (hq : FirstLap q head) (polls : Nat) (h : Serves stride past)
    (hwaits : Waits asks Q cid past) :
    (QueuePair.pollCompletion bar dma stride cid polls).Attains Allowed q past
      fun past' completion q' => FirstLap q' (head + 1) ∧ Serves stride past' ∧
        Completes asks Q completion past' := by
  induction polls generalizing past with
  | zero => exact Method.attains_fail
  | succ polls ih =>
    refine Method.attains_get ?_
    rw [DmaRegion.readCqe, Method.bind_assoc]
    refine Method.attains_lift_bind fun _ _ => Method.attains_call_bind trivial fun completion => ?_
    have hserves : Serves stride (past ++ [⟨.readCqe q.cqeOffset, completion⟩]) :=
      h.still (by rintro ⟨_, h⟩; exact h)
    -- a stale tag is polled again
    split
    · next hphase =>
      have hphase : completion.phase = true := (beq_iff_eq.mp hphase).trans hq.phase
      refine Method.attains_get (Method.attains_set ?_)
      have hid : q.id = 0 := hq.placed.id_eq
      refine attains_ring hserves (.inr (by rw [hid])) fun hserves => ?_
      split
      · exact Method.attains_fail
      -- the identifier is the one that was sent
      · next hcid =>
        rw [ne_eq, not_not] at hcid
        refine Method.attains_pure ⟨hq.advanceHead hhead, hserves, Once.lasts _ _ ?_⟩
        exact Since.now (hcid ▸ hwaits) ⟨rfl, hphase⟩
    · exact ih hserves (hwaits.still id)

/-- **A command on the admin queue.** -/
theorem submitAndWait_attains {command : SubmissionQueueEntry} {head : Nat}
    (hhead : head + 1 < QUEUE_DEPTH) {q : QueuePair} (hq : FirstLap q head)
    (h : Serves stride past) (hpast : Q past) (hasks : ∀ cid, asks { command with cid := cid })
    (hcreates : command.opc = AdminOpcode.createIoSubmissionQueue.toUInt8 →
      CompletionQueueCreated past) :
    (QueuePair.submitAndWait bar dma stride command).Attains Allowed q past
      fun past' completion q' => FirstLap q' (head + 1) ∧ Serves stride past' ∧
        Completes asks Q completion past' := by
  have hid : q.id = 0 := hq.placed.id_eq
  have hoffset : q.sqeOffset + SubmissionQueueEntry.SIZE ≤ ADMIN_COMPLETION_QUEUE_OFFSET :=
    hq.placed.sqeOffset_bounds.2
  have hsubmit : (QueuePair.submit bar dma stride command).Attains Allowed q past
      fun past' cid q' => FirstLap q' head ∧ Serves stride past' ∧ Waits asks Q cid past' := by
    refine Method.attains_get (Method.attains_set ?_)
    rw [DmaRegion.writeSqe, Method.bind_assoc]
    refine Method.attains_lift_bind fun _ _ =>
      Method.attains_call_bind ⟨h.live, hoffset, hcreates⟩ fun _ => ?_
    -- the entry is written before the doorbell is rung
    have hserves : Serves stride
        (past ++ [⟨.writeSqe q.sqeOffset { command with cid := q.nextCid }, ()⟩]) :=
      h.still (by rintro ⟨_, h⟩; exact h)
    have hwaits : Waits asks Q q.nextCid
        (past ++ [⟨.writeSqe q.sqeOffset { command with cid := q.nextCid }, ()⟩]) :=
      Since.now hpast ⟨hasks _, rfl⟩
    rw [DmaRegion.readSqe, Method.bind_assoc]
    refine Method.attains_lift_bind fun _ _ => Method.attains_call_bind trivial fun entry => ?_
    refine Method.attains_set ?_
    refine attains_ring (hserves.still (by rintro ⟨_, h⟩; exact h)) (.inl (by rw [hid]))
      fun hserves => ?_
    refine Method.attains_pure ⟨⟨hq.placed.takeCid.advanceTail, hq.phase, hq.taken⟩, hserves, ?_⟩
    exact (hwaits.still id).still id
  -- and then its completion is waited for
  refine Method.attains_bind hsubmit ?_
  rintro past' cid q' ⟨hq', hserves, hwaits⟩
  exact pollCompletion_attains hhead hq' _ hserves hwaits

/-- The driver during bring-up, `head` completions taken from its admin queue. -/
structure Turn (nsid : UInt32) (head : Nat) (d : NvmeUserspaceDriver) (past : Past) : Prop where
  lap : FirstLap d.adminQueue head
  serves : Serves d.doorbellStride past
  nsid_eq : d.nsid = nsid
  unknown : d.blockSizes = fun _ => none

variable {nsid : UInt32} {d : NvmeUserspaceDriver} {head : Nat}

/-- A command that the state of the queue allows; its completion is part of the history afterwards.
-/
theorem submitAdmin_attains (asks : SubmissionQueueEntry → Prop) {command : SubmissionQueueEntry}
    (hhead : head + 1 < QUEUE_DEPTH)
    (h : Turn nsid head d past) (hpast : Q past) (hasks : ∀ cid, asks { command with cid := cid })
    (hcreates : command.opc = AdminOpcode.createIoSubmissionQueue.toUInt8 →
      CompletionQueueCreated past) :
    (submitAdmin command).Attains Allowed d past fun past' completion d' =>
      Turn nsid (head + 1) d' past' ∧ Completes asks Q completion past' := by
  refine Method.attains_get (Method.attains_onField ?_)
  refine (submitAndWait_attains hhead h.lap h.serves hpast hasks hcreates).mono ?_
  rintro past' completion q ⟨hlap, hserves, hcompletes⟩
  exact ⟨⟨hlap, hserves, h.nsid_eq, h.unknown⟩, hcompletes⟩

/-- **A command and its check.** -/
theorem submitAdmin_succeeds (asks : SubmissionQueueEntry → Prop) {α : Type}
    {ψ : Past → α → NvmeUserspaceDriver → Prop}
    {command : SubmissionQueueEntry} {what : String} {f : Unit → DriverMethod α}
    (hhead : head + 1 < QUEUE_DEPTH) (h : Turn nsid head d past) (hpast : Q past)
    (hasks : ∀ cid, asks { command with cid := cid })
    (hcreates : command.opc = AdminOpcode.createIoSubmissionQueue.toUInt8 →
      CompletionQueueCreated past)
    (hf : ∀ past' d', Turn nsid (head + 1) d' past' → Succeeds asks Q past' →
      (f ()).Attains Allowed d' past' ψ) :
    (submitAdmin command >>= fun completion =>
      checkCompletion completion what >>= f).Attains Allowed d past ψ := by
  refine Method.attains_bind (submitAdmin_attains asks hhead h hpast hasks hcreates) ?_
  rintro past' completion d' ⟨hturn, hcompletes⟩
  unfold checkCompletion
  split
  · -- only a success goes on
    next hsuccess => exact hf past' d' hturn ⟨completion, hsuccess, hcompletes⟩
  · exact Method.attains_bind (χ := fun _ _ _ => False) Method.attains_fail fun _ _ _ h => h.elim

/-- An exchange that does not configure the controller leaves the driver at its turn. -/
theorem Turn.still {e : Exchange Op Res} (h : Turn nsid head d past) (he : ¬ Configures e) :
    Turn nsid head d (past ++ [e]) :=
  { h with serves := h.serves.still he }

/-- **Identify.** -/
theorem identify_attains {«structure» : IdentifyStructure} {id : UInt32}
    (hhead : head + 1 < QUEUE_DEPTH) (h : Turn nsid head d past) (hpast : Q past) :
    (identify «structure» id).Attains Allowed d past fun past' data d' =>
      Turn nsid (head + 1) d' past' ∧
        Once (Succeeds (Identifies «structure» id) Q) (Learns fun bytes => bytes = data) past' := by
  refine Method.attains_get (submitAdmin_succeeds (Identifies «structure» id) hhead h hpast
    (fun _ => ⟨rfl, rfl, rfl⟩) (fun hopc => nomatch hopc) fun past' d' hturn hdone => ?_)
  refine Method.attains_lift_bind fun _ _ => Method.attains_call_bind trivial fun bytes => ?_
  refine Method.attains_pure ⟨hturn.still (by rintro ⟨_, h⟩; exact h), ?_⟩
  exact Since.now hdone ⟨rfl, rfl, rfl⟩

/-- After the check the size is supported. -/
theorem checkEntrySize_attains {what : String} {supported required : UInt8} :
    (checkEntrySize what supported required).Attains Allowed d past fun past' _ d' =>
      d' = d ∧ past' = past ∧ Supports supported required := by
  unfold checkEntrySize
  split
  · next h => exact Method.attains_pure ⟨rfl, rfl, h⟩
  · exact Method.attains_fail

/-- After one command, both entry sizes are. -/
theorem checkQueueEntrySizes_attains (h : Turn nsid 0 d past) :
    checkQueueEntrySizes.Attains Allowed d past fun past' _ d' =>
      Turn nsid 1 d' past' ∧ SizesAccepted past' := by
  refine Method.attains_bind (identify_attains (Q := Live) (by decide) h h.serves.live) ?_
  rintro past' data d' ⟨hturn, hlearned⟩
  cases hcontroller : IdentifyController.readFromPrefix data with
  | none => exact Method.attains_fail
  | some controller =>
    -- the two sizes are of the structure that was just learnt
    refine Method.attains_bind checkEntrySize_attains ?_
    rintro _ _ _ ⟨rfl, rfl, hsqes⟩
    refine checkEntrySize_attains.mono ?_
    rintro _ _ _ ⟨rfl, rfl, hcqes⟩
    refine ⟨hturn, hlearned.mono (fun _ => id) (fun _ => Learns.mono ?_) fun _ => id⟩
    rintro bytes rfl
    exact ⟨controller, hcontroller, hsqes, hcqes⟩

/-- The queue identifier of the two commands that create a queue. -/
theorem createQueue_id : (IO_QUEUE_ID.toUInt32 |||
    (((UInt16.ofNat QUEUE_DEPTH).toUInt32 - 1) <<< 16)).toUInt16 = IO_QUEUE_ID := by
  decide

/-- After three, both queues exist. -/
theorem createIoQueues_attains (h : Turn nsid 1 d past) (hsizes : SizesAccepted past) :
    createIoQueues.Attains Allowed d past fun past' _ d' =>
      Turn nsid 3 d' past' ∧ SubmissionQueueCreated past' := by
  refine Method.attains_get (submitAdmin_succeeds (Q := SizesAccepted)
    (Creates .createIoCompletionQueue) (by decide) h hsizes (fun _ => ⟨rfl, createQueue_id⟩)
    (fun hopc => nomatch hopc) fun past₁ d₁ hturn₁ hcompletion => ?_)
  -- the submission queue is asked for only once its completion queue is there
  refine Method.attains_bind (submitAdmin_attains (Q := CompletionQueueCreated)
    (Creates .createIoSubmissionQueue) (by decide) hturn₁ hcompletion
    (fun _ => ⟨rfl, createQueue_id⟩) fun _ => hcompletion) ?_
  rintro past₂ completion d₂ ⟨hturn₂, hcompletes⟩
  unfold checkCompletion
  split
  · next hsuccess => exact Method.attains_pure ⟨hturn₂, completion, hsuccess, hcompletes⟩
  · exact Method.attains_fail

/-- And the block size comes from the namespace asked about. -/
theorem namespaceBlockSize_attains {p : Profile} (h : Turn nsid 3 d past)
    (hcreated : SubmissionQueueCreated past) :
    (namespaceBlockSize p nsid).Attains Allowed d past fun past' _ _ =>
      NamespaceIdentified nsid past' := by
  refine Method.attains_get ?_
  -- nothing is known yet, so the namespace is asked
  rw [h.unknown]
  refine Method.attains_bind (identify_attains (Q := SubmissionQueueCreated) (by decide) h hcreated)
    ?_
  rintro past' data d' ⟨-, hlearned⟩
  cases hns : IdentifyNamespace.readFromPrefix data with
  | none => exact Method.attains_fail
  | some ns =>
    refine Method.attains_lift_bind fun size _ => ?_
    refine Method.attains_get (Method.attains_set (Method.attains_pure ?_))
    -- what was learnt is what these bytes say
    refine hlearned.mono (fun _ => id) (fun _ => Learns.mono ?_) fun _ => id
    rintro bytes rfl
    rw [hns]
    rfl

/-- **Bring-up, from a driver that has been constructed.** -/
theorem bringUp_attains {p : Profile} {capabilities : UInt64} (hlap : FirstLap d.adminQueue 0)
    (hunknown : d.blockSizes = fun _ => none)
    (hdeclared : Once (fun _ => True) (Declares capabilities) past)
    (hstride : d.doorbellStride = doorbellStrideOf capabilities) :
    (bringUp p).Attains Allowed d past fun past' _ _ => NamespaceIdentified d.nsid past' := by
  refine Method.attains_bind (resetAndEnable_attains.frame Once.lasts hdeclared) ?_
  rintro past₁ _ _ ⟨⟨rfl, hlive⟩, hdeclared⟩
  -- the controller is live and no command has been submitted yet
  have hturn : Turn _ 0 _ past₁ := ⟨hlap, ⟨hlive, capabilities, hdeclared, hstride⟩, rfl, hunknown⟩
  refine Method.attains_bind (checkQueueEntrySizes_attains hturn) ?_
  rintro past₂ _ d₂ ⟨hturn, hsizes⟩
  refine Method.attains_bind (createIoQueues_attains hturn hsizes) ?_
  rintro past₃ _ d₃ ⟨hturn, hcreated⟩
  refine Method.attains_get ?_
  rw [hturn.nsid_eq]
  refine Method.attains_bind (namespaceBlockSize_attains hturn hcreated) ?_
  exact fun _ _ _ hidentified => Method.attains_pure hidentified

end Admin

/-! ### `open` -/

section Open

variable {σ : Type} {s : σ} {past : Past}

/-- `?` on an answer of the operating system. -/
theorem question_attains {α β : Type} {x : Except IoError α} {f : α → Method Op Res σ IoError β}
    {ψ : Past → β → σ → Prop} (h : ∀ a, (f a).Attains Allowed s past ψ) :
    (question x >>= f).Attains Allowed s past ψ := by
  cases x with
  | ok a => exact h a
  | error e =>
    exact Method.attains_bind (χ := fun _ _ _ => False) Method.attains_fail fun _ _ _ h => h.elim

/-- The driver link is looked up before there is a BAR. -/
theorem refuseIfKernelDriverBound_attains {bdf : Str} :
    (refuseIfKernelDriverBound bdf).Attains Allowed s past fun _ _ _ => True := by
  refine Method.attains_call_bind trivial fun link => ?_
  cases link with
  | notFound => exact Method.attains_pure trivial
  | failed e => exact Method.attains_fail
  | found fileName =>
    dsimp only
    split
    · exact Method.attains_fail
    · exact Method.attains_pure trivial

theorem enableBusMaster_attains {bdf : Str} :
    (enableBusMaster bdf).Attains Allowed s past fun _ _ _ => True := by
  refine Method.attains_call_bind trivial fun _ => question_attains fun _ => ?_
  refine Method.attains_call_bind trivial fun _ => question_attains fun _ => ?_
  refine Method.attains_call_bind trivial fun _ => question_attains fun buffer => ?_
  refine Method.attains_call_bind trivial fun _ => question_attains fun _ => ?_
  refine Method.attains_call_bind trivial fun x => ?_
  cases x with
  | ok _ => exact Method.attains_pure trivial
  | error e => exact Method.attains_fail

/-- **The order of bring-up.** Under any responses of the operating system and the
controller, every operation of `open` is in its place, and when it returns a driver every step
has succeeded, in order. -/
theorem openDriver_inOrder (p : Profile) (bdf : Str) (nsid : UInt32) (s : σ) :
    ((openDriver p bdf nsid : Method Op Res σ IoError NvmeUserspaceDriver) s).Always Allowed
      fun past x => ∀ d, x.1 = .ok d → NamespaceIdentified nsid past := by
  refine Prog.Traced.always (?_ : Method.Attains Allowed (openDriver p bdf nsid) s []
    fun past _ _ => NamespaceIdentified nsid past)
  refine Method.attains_bind refuseIfKernelDriverBound_attains fun past₁ _ _ _ => ?_
  refine Method.attains_bind enableBusMaster_attains fun past₂ _ _ _ => ?_
  -- the BAR, and then the hugepage
  refine Method.attains_call_bind trivial fun _ => question_attains fun length => ?_
  refine Method.attains_bind (χ := fun _ _ _ => True) (Method.attains_unwinding ?_ ?_)
    fun past₃ physical _ _ => ?_
  · refine Method.attains_call_bind trivial fun x => ?_
    cases x with
    | ok a => exact Method.attains_pure trivial
    | error e => exact Method.attains_fail
  · exact fun _ _ => Method.attains_call trivial fun _ => trivial
  -- the capabilities declare the doorbell stride that later doorbells are rung with
  refine Method.attains_bind (χ := fun past capabilities _ =>
    Once (fun _ => True) (Declares capabilities) past) (Method.attains_unwinding ?_ ?_)
    fun past₄ capabilities _ hdeclared => ?_
  · refine Method.attains_lift_bind fun _ _ => Method.attains_call trivial fun _ => ?_
    exact Since.now trivial ⟨rfl, rfl⟩
  · exact fun _ _ => Method.attains_call_bind trivial fun _ =>
      Method.attains_call trivial fun _ => trivial
  -- the driver is dropped if the bring-up fails
  refine Method.attains_unwinding (Method.attains_owning ?_) ?_
  · exact bringUp_attains (d := fresh ⟨length⟩ _ (doorbellStrideOf capabilities) nsid)
      ⟨.new _ _ _, rfl, rfl⟩ rfl hdeclared rfl
  · exact fun _ _ => Method.attains_call_bind trivial fun _ =>
      Method.attains_call trivial fun _ => trivial

end Open

end BringUp

end Nvmetoy
