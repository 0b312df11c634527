import Nvmetoy.Controller
import Nvmetoy.Lifetime

/-!
# What the driver touches

Which operations each method can issue, under any responses. A command stores its entry in a slot
of its ring, rings the doorbells, polls, and copies out of the data area (`OfCommand`); a call does
that, and fills the data area and the PRP list, and allocates (`OfCall`); bring-up issues commands
and configures the controller, but it never fills (`OfBringUp`). What is known of the entries is a
parameter.

None of them prints, or marks its place in the history (`Silent`).
-/

namespace Nvmetoy

open Framework NvmeUserspaceDriver

/-- The operations of a command, whose entry is one that `ψ` allows in its ring. -/
def OfCommand (ψ : QueueId → SubmissionQueueEntry → Prop) : Op → Prop
  | .writeSqe offset entry =>
    ∃ i s, s < QUEUE_DEPTH ∧ offset = QueueId.submissionOffset i + 64 * s ∧ ψ i entry
  | .write32 offset _ => DOORBELL_BASE ≤ offset
  | .readSqe _ | .readCqe _ | .readBytes _ _ => True
  | _ => False

/-- The operations of a call. -/
def OfCall : Op → Prop
  | .writeU64 _ _ | .writeBytes _ _ | .alloc _ => True
  | o => OfCommand (fun _ _ => True) o

/-- The operations of bring-up. -/
def OfBringUp (ψ : QueueId → SubmissionQueueEntry → Prop) : Op → Prop
  | .read32 _ | .write32 _ _ | .write64 _ _ | .sleep _ => True
  | o => OfCommand ψ o

/-- An operation on the machine beside the controller. -/
def OnHost : Op → Prop
  | .readDriverLink _ | .configOpen _ | .configSeek _ | .configRead _ | .configWrite _ => True
  | _ => False

/-- The driver itself prints nothing, and leaves no marks. -/
def Silent : Op → Prop
  | .mark _ | .println _ => False
  | _ => True

section Operations

variable {ψ : QueueId → SubmissionQueueEntry → Prop} {o : Op}

theorem OfCommand.ofCall (h : OfCommand (fun _ _ => True) o) : OfCall o := by
  cases o <;> first | exact h | trivial

theorem OfCommand.ofBringUp (h : OfCommand ψ o) : OfBringUp ψ o := by
  cases o <;> first | exact h | trivial

theorem NvmeUserspaceDriver.Configures.ofBringUp (h : Configures o) : OfBringUp ψ o := by
  cases o <;> first | exact h.elim | trivial

/-- The entry of a command goes into a slot of its ring. -/
theorem QueuePair.Issues.ofCommand {i : QueueId} {q : QueuePair} {stored : SubmissionQueueEntry}
    (hq : q.Placed i.number i.submissionOffset i.completionOffset) (hψ : ψ i stored)
    (h : QueuePair.Issues q.sqeOffset stored o) : OfCommand ψ o := by
  cases h with
  | doorbell register value hregister => exact hregister
  | store =>
    refine ⟨i, q.submissionTail, hq.tail_lt, ?_, hψ⟩
    rw [QueuePair.sqeOffset, hq.submission_eq, SubmissionQueueEntry.SIZE, Nat.mul_comm]
  | _ => trivial

end Operations

namespace NvmeUserspaceDriver

variable {d t : NvmeUserspaceDriver} {B : Nat} {R : (o : Op) → Res o → Prop} {φ : Op → Prop}
  {ψ : QueueId → SubmissionQueueEntry → Prop} {p : Profile} {command : SubmissionQueueEntry}

/-- Calls that keep the driver, one after the other. -/
theorem sat_then {α β : Type} {m : DriverMethod α} {f : α → DriverMethod β}
    (hm : (m t).Sat R φ fun x => d.Kept x.2)
    (hf : ∀ a t', d.Kept t' → (f a t').Sat R φ fun x => d.Kept x.2) :
    ((m >>= f) t).Sat R φ fun x => d.Kept x.2 :=
  Method.sat_bind hm hf (fun _ _ => id) fun _ _ => id

/-! ### Commands -/

/-- An admin command, whose entry is allowed under any identifier. -/
theorem submitAdmin_ofCommand (ht : d.Kept t) (hψ : ∀ cid, ψ .admin { command with cid := cid }) :
    (submitAdmin command t).Sat R (OfCommand ψ) fun x => d.Kept x.2 := by
  have hissued : (submitAdmin command t).Sat R (OfCommand ψ) fun _ => True := by
    rw [submitAdmin, Method.get_bind]
    exact Method.sat_onField ((QueuePair.sat_submitAndWait ht.shaped.admin
      ht.shaped.adminRings).mono (fun _ h => h.ofCommand (i := .admin) ht.shaped.admin (hψ _))
      fun _ _ => trivial)
  exact hissued.returning ((sat_submitAdmin (ψ := fun _ => True) ht.shaped).post
    fun _ hx => ht.trans hx.1)

/-- An I/O command, likewise. -/
theorem submitIo_ofCommand (ht : d.Kept t) (hψ : ∀ cid, ψ .io { command with cid := cid }) :
    (submitIo command t).Sat R (OfCommand ψ) fun x => d.Kept x.2 := by
  have hissued : (submitIo command t).Sat R (OfCommand ψ) fun _ => True := by
    rw [submitIo, Method.get_bind]
    exact Method.sat_onField ((QueuePair.sat_submitAndWait ht.shaped.io
      ht.shaped.ioRings).mono (fun _ h => h.ofCommand (i := .io) ht.shaped.io (hψ _))
      fun _ _ => trivial)
  exact hissued.returning ((sat_submitIo (ψ := fun _ => True) ht.shaped trivial).post
    fun _ hx => ht.trans hx.1)

theorem checkCompletion_kept {c : CompletionQueueEntry} {what : String} (ht : d.Kept t) :
    (checkCompletion c what t).Sat R φ fun x => d.Kept x.2 :=
  sat_checkCompletion.post fun _ hx => hx.1 ▸ ht

/-- The data of a command is copied out. -/
theorem readBytes_ofCommand {dma : DmaRegion} {offset len : Nat} (ht : d.Kept t) :
    (dma.readBytes offset len t).Sat R (OfCommand ψ) fun x => d.Kept x.2 := by
  rw [DmaRegion.readBytes]
  exact Method.sat_lift (fun _ _ => ⟨trivial, fun _ _ => ht⟩) (fun _ _ => ht) fun _ _ => ht

theorem Kept.dataPage (h : d.Kept t) (page : Nat) :
    t.dataPagePhysicalAddress page = d.dataPagePhysicalAddress page := by
  obtain ⟨admin, io, rfl, -⟩ := h
  rfl

/-- An Identify, to the first page of the data area. -/
theorem identify_ofCommand {«structure» : IdentifyStructure} {nsid : UInt32} (ht : d.Kept t)
    (hψ : ∀ cid, ψ .admin
      { nvmeIdentify «structure» nsid (d.dataPagePhysicalAddress 0) with cid := cid }) :
    (identify «structure» nsid t).Sat R (OfCommand ψ) fun x => d.Kept x.2 := by
  rw [identify, Method.get_bind, ht.dataPage]
  refine sat_then (submitAdmin_ofCommand ht hψ) fun c t₁ ht₁ => ?_
  exact sat_then (checkCompletion_kept ht₁) fun _ t₂ ht₂ => readBytes_ofCommand ht₂

/-! ### Calls -/

/-- The pointers of a transfer within the limit are part of a call. -/
theorem dataPointers_ofCall {length : Nat} (ht : d.Kept t) (hmax : length ≤ MAX_TRANSFER_BYTES) :
    (dataPointers p length t).Sat R OfCall fun x => d.Kept x.2 := by
  refine (sat_dataPointers ht.shaped.length_eq (fun _ _ => trivial) hmax).post ?_
  rintro x ⟨pointers, rfl⟩
  exact ht

theorem allocVec_ofCall {bytes : Nat} (ht : d.Kept t) :
    (allocVec bytes t).Sat R OfCall fun x => d.Kept x.2 := by
  unfold allocVec
  split
  · exact ⟨trivial, fun _ _ => ht⟩
  · exact ht

/-- A command of a call, with its check. -/
theorem transfer_ofCall {α : Type} {what : String} {f : DriverMethod α} (ht : d.Kept t)
    (hf : ∀ t', d.Kept t' → (f t').Sat R OfCall fun x => d.Kept x.2) :
    ((submitIo command >>= fun c => checkCompletion c what >>= fun _ => f) t).Sat R OfCall
      fun x => d.Kept x.2 := by
  refine sat_then ((submitIo_ofCommand ht fun _ => trivial).mono (fun _ h => h.ofCall) fun _ => id)
    fun c t₁ ht₁ => ?_
  exact sat_then (checkCompletion_kept ht₁) fun _ t₂ ht₂ => hf t₂ ht₂

theorem read_ofCall {slba : UInt64} {blockCount : UInt16} (hd : d.Ready B) :
    (read p slba blockCount d).Sat R OfCall fun x => d.Kept x.2 := by
  have hkept : d.Kept d := .refl hd.toShaped
  unfold read
  split
  · exact hkept
  rw [Method.get_bind, namespaceBlockSize_bind hd.cached]
  refine Method.sat_lift (fun total _ => ?_) (fun _ _ => hkept) fun _ _ => hkept
  split
  · exact hkept
  next hmax =>
  -- what follows is a transfer within the limit
  refine sat_then (dataPointers_ofCall hkept (Nat.not_lt.mp hmax)) fun pointers t ht => ?_
  refine transfer_ofCall ht fun t' ht' => sat_then (allocVec_ofCall ht') fun _ t'' ht'' => ?_
  exact (readBytes_ofCommand ht'').mono (fun _ h => h.ofCall) fun _ => id

theorem write_ofCall {slba : UInt64} {data : List UInt8} (hd : d.Ready B) :
    (write p slba data d).Sat R OfCall fun x => d.Kept x.2 := by
  have hkept : d.Kept d := .refl hd.toShaped
  rw [write, Method.get_bind, namespaceBlockSize_bind hd.cached]
  refine Method.sat_lift (fun refused _ => ?_) (fun _ _ => hkept) fun _ _ => hkept
  split
  · exact hkept
  split
  · exact hkept
  next hmax =>
  refine Method.sat_lift (fun count _ => ?_) (fun _ _ => hkept) fun _ _ => hkept
  -- the payload goes into the data area, then the pointers are made
  refine sat_then ?_ fun _ t ht => ?_
  · rw [DmaRegion.writeBytes]
    exact Method.sat_lift (fun _ _ => ⟨trivial, fun _ _ => hkept⟩) (fun _ _ => hkept)
      fun _ _ => hkept
  refine sat_then (dataPointers_ofCall ht (Nat.not_lt.mp hmax)) fun pointers t₁ ht₁ => ?_
  refine Method.sat_lift (fun nlb _ => ?_) (fun _ _ => ht₁) fun _ _ => ht₁
  -- the command itself may be any, under any identifier
  refine sat_then ((submitIo_ofCommand ht₁ fun _ => trivial).mono (fun _ h => h.ofCall) fun _ => id)
    fun c t₂ ht₂ => checkCompletion_kept ht₂

/-- **A call.** -/
theorem perform_ofCall (hd : d.Ready B) (call : Call) :
    (perform p call d).Sat R OfCall fun x => d.Kept x.2 := by
  cases call with
  | identifyController =>
    exact (identify_ofCommand (.refl hd.toShaped) fun _ => trivial).mono (fun _ h => h.ofCall)
      fun _ => id
  | read slba blockCount => exact read_ofCall hd
  | write slba data => exact sat_then (write_ofCall hd) fun _ _ ht => ht

/-! ### Bring-up -/

/-- The entries of bring-up are allowed: two Identify commands and the two that create the I/O
queues, with the addresses of the driver. -/
structure AllowsBringUp (d : NvmeUserspaceDriver) (ψ : QueueId → SubmissionQueueEntry → Prop) :
    Prop where
  identify : ∀ «structure» nsid cid, ψ .admin
    { nvmeIdentify «structure» nsid (d.dataPagePhysicalAddress 0) with cid := cid }
  completionQueue : ∀ cid, ψ .admin { nvmeCreateIoCompletionQueue IO_QUEUE_ID
    (UInt16.ofNat QUEUE_DEPTH) d.ioCompletionQueuePhysicalAddress with cid := cid }
  submissionQueue : ∀ cid, ψ .admin { nvmeCreateIoSubmissionQueue IO_QUEUE_ID
    (UInt16.ofNat QUEUE_DEPTH) IO_QUEUE_ID d.ioSubmissionQueuePhysicalAddress with cid := cid }

section BringUp

variable (hψ : AllowsBringUp d ψ)
include hψ

/-- The entry sizes are read by one Identify command. -/
theorem checkQueueEntrySizes_ofCommand (ht : d.Kept t) :
    (checkQueueEntrySizes t).Sat R (OfCommand ψ) fun x => d.Kept x.2 := by
  refine sat_then (identify_ofCommand ht (hψ.identify _ _)) fun data t₁ ht₁ => ?_
  have hcheck {what : String} {supported required : UInt8} {t' : NvmeUserspaceDriver}
      (ht' : d.Kept t') : (checkEntrySize what supported required t').Sat R (OfCommand ψ) fun x =>
        d.Kept x.2 :=
    sat_checkEntrySize.post fun _ hx => hx ▸ ht'
  cases IdentifyController.readFromPrefix data with
  | none => exact ht₁
  | some controller => exact sat_then (hcheck ht₁) fun _ t₂ ht₂ => hcheck ht₂

/-- The two commands that create the I/O queues name the addresses that the driver began with. -/
theorem createIoQueues_ofCommand (ht : d.Kept t) :
    (createIoQueues t).Sat R (OfCommand ψ) fun x => d.Kept x.2 := by
  rw [createIoQueues, Method.get_bind]
  -- a call moves no queue, so the addresses are still those of `d`
  have haddresses : t.ioCompletionQueuePhysicalAddress = d.ioCompletionQueuePhysicalAddress ∧
      t.ioSubmissionQueuePhysicalAddress = d.ioSubmissionQueuePhysicalAddress := by
    obtain ⟨admin, io, rfl, -⟩ := ht
    exact ⟨rfl, rfl⟩
  rw [haddresses.1, haddresses.2]
  refine sat_then (submitAdmin_ofCommand ht hψ.completionQueue) fun c t₁ ht₁ => ?_
  refine sat_then (checkCompletion_kept ht₁) fun _ t₂ ht₂ => ?_
  exact sat_then (submitAdmin_ofCommand ht₂ hψ.submissionQueue) fun c' t₃ ht₃ =>
    checkCompletion_kept ht₃

/-- The block size is known, or is read by one Identify command. -/
theorem namespaceBlockSize_ofCommand {nsid : UInt32} (ht : d.Kept t) :
    (namespaceBlockSize p nsid t).Sat R (OfCommand ψ) fun _ => True := by
  rw [namespaceBlockSize, Method.get_bind]
  cases t.blockSizes nsid with
  | some size => trivial
  | none =>
    refine Method.sat_bind (identify_ofCommand ht (hψ.identify _ _)) (fun data t₁ _ => ?_)
      (fun _ _ _ => trivial) fun _ _ _ => trivial
    cases IdentifyNamespace.readFromPrefix data with
    | none => trivial
    | some ns => exact Method.sat_lift (fun _ _ => trivial) (fun _ _ => trivial) fun _ _ => trivial

/-- **Bring-up.** -/
theorem bringUp_ofBringUp (hd : d.Shaped) :
    (bringUp p d).Sat R (OfBringUp ψ) fun _ => True := by
  -- the reset, the two checks and the two queues come first, in this order
  have hreset : (resetAndEnable d).Sat R (OfBringUp ψ) fun x => d.Kept x.2 :=
    sat_resetAndEnable.mono (fun _ h => h.ofBringUp) (by rintro ⟨x, t⟩ rfl; exact .refl hd)
  refine Method.sat_bind hreset (fun _ t ht => ?_) (fun _ _ _ => trivial) fun _ _ _ => trivial
  refine Method.sat_bind ((checkQueueEntrySizes_ofCommand hψ ht).mono (fun _ h => h.ofBringUp)
    fun _ => id) (fun _ t₁ ht₁ => ?_) (fun _ _ _ => trivial) fun _ _ _ => trivial
  refine Method.sat_bind ((createIoQueues_ofCommand hψ ht₁).mono (fun _ h => h.ofBringUp)
    fun _ => id) (fun _ t₂ ht₂ => ?_) (fun _ _ _ => trivial) fun _ _ _ => trivial
  rw [Method.get_bind]
  -- then the prelude, which learns the block size
  exact Method.sat_bind ((namespaceBlockSize_ofCommand hψ ht₂).mono (fun _ h => h.ofBringUp)
    fun _ => id) (fun _ _ _ => trivial) (fun _ _ _ => trivial) fun _ _ _ => trivial

end BringUp

/-! ### `open` -/

section Open

variable {σ : Type} {s : σ}

/-- A system call that fails ends what called it. -/
theorem onHost_question {α : Type} (r : Except IoError α) :
    Method.Only OnHost (question r : Method Op Res σ IoError α) := by
  cases r with
  | ok a => exact .pure a
  | error e => exact .fail e

/-- The check of the kernel driver only looks at a link. -/
theorem onHost_refuse (bdf : Str) :
    Method.Only OnHost (refuseIfKernelDriverBound bdf : Method Op Res σ IoError Unit) := by
  refine (Method.Stays.call trivial).bind fun link => ?_
  cases link with
  | notFound => exact .pure _
  | failed e => exact .fail _
  | found fileName => exact .ite (fun _ => .fail _) fun _ => .pure _

/-- The two bits of the command register are set through the config file. -/
theorem onHost_enableBusMaster (bdf : Str) :
    Method.Only OnHost (enableBusMaster bdf : Method Op Res σ IoError Unit) := by
  -- open, seek, read, seek, write
  refine (Method.Stays.call trivial).bind fun r => (onHost_question r).bind fun _ => ?_
  refine (Method.Stays.call trivial).bind fun r => (onHost_question r).bind fun _ => ?_
  refine (Method.Stays.call trivial).bind fun r => (onHost_question r).bind fun buffer => ?_
  refine (Method.Stays.call trivial).bind fun r => (onHost_question r).bind fun _ => ?_
  exact (Method.Stays.call trivial).bind fun r => onHost_question r

/-- The operations of `open` beside bring-up are allowed. -/
structure AllowsOpen (φ : Op → Prop) : Prop where
  host : ∀ o, OnHost o → φ o
  mapBar : ∀ bdf index, φ (.mapBar bdf index)
  allocHuge : φ .allocHuge
  capabilities : φ (.read64 CAP)
  unmapBar : φ .unmapBar
  unmapDma : φ .unmapDma

/-- **`open`**, given what bring-up issues with a hugepage that the system can return. -/
theorem openDriver_issues {bdf : Str} {nsid : UInt32} (hφ : AllowsOpen φ)
    (hbring : ∀ length (physical : HugePageAddress) capabilities,
      R .allocHuge (.ok physical) →
        (bringUp p (.fresh ⟨length⟩ ⟨HUGE_PAGE_SIZE, physical.val, physical.property⟩
          (doorbellStrideOf capabilities) nsid)).Sat R φ fun _ => True) :
    ((openDriver p bdf nsid : Method Op Res σ IoError _) s).Sat R φ fun _ => True := by
  -- what is done on the host beside the controller
  have hhost {α : Type} {m : Method Op Res σ IoError α} (hm : Method.Only OnHost m) (t : σ) :
      (m t).Sat R φ fun _ => True := (hm t trivial).under.mono hφ.host fun _ => id
  have hunmapBar (t : σ) : ((Method.call Op.unmapBar : Method Op Res σ IoError Unit) t).Sat R φ
      fun _ => True := ⟨hφ.unmapBar, fun _ _ => trivial⟩
  -- what was acquired is given up on every exit
  have hsafe {α : Type} {cleanup : Method Op Res σ IoError Unit}
      {m : Method Op Res σ IoError α} {t : σ} {ψ : α → Prop}
      (hm : (m t).Sat R φ fun x => ∀ a, x.1 = .ok a → ψ a)
      (hcleanup : ∀ t, (cleanup t).Sat R φ fun _ => True) :
      (Method.unwinding cleanup m t).Sat R φ fun x => ∀ a, x.1 = .ok a → ψ a := by
    refine Method.sat_unwinding (hm.post ?_)
    rintro ⟨x, t'⟩ hx
    cases x with
    | ok a => exact hx
    | err e => exact (hcleanup t').post fun _ _ a h => by cases h
    | panic why => exact (hcleanup t').post fun _ _ a h => by cases h
  -- the steps of `open`, in their order: the check, the bits, the BAR,
  refine Method.sat_bind (hhost (onHost_refuse bdf) s) (fun _ t _ => ?_) (fun _ _ _ => trivial)
    fun _ _ _ => trivial
  refine Method.sat_bind (hhost (onHost_enableBusMaster bdf) t) (fun _ t _ => ?_)
    (fun _ _ _ => trivial) fun _ _ _ => trivial
  refine ⟨hφ.mapBar _ _, fun r _ => ?_⟩
  refine Method.sat_bind (hhost (onHost_question r) t) (fun length t _ => ?_)
    (fun _ _ _ => trivial) fun _ _ _ => trivial
  -- the hugepage,
  refine Method.sat_bind (hsafe (ψ := fun physical => R .allocHuge (.ok physical)) ?_ hunmapBar)
    (fun physical t hphysical => ?_) (fun _ _ _ => trivial) fun _ _ _ => trivial
  · refine ⟨hφ.allocHuge, fun r hr => ?_⟩
    cases r with
    | ok physical => exact fun a h => Outcome.ok.inj h ▸ hr
    | error e => exact fun a h => by cases h
  -- and the capabilities, with both mappings to give up
  have hunmap (t : σ) : ((do
      Method.call Op.unmapDma
      Method.call Op.unmapBar : Method Op Res σ IoError Unit) t).Sat R φ fun _ => True :=
    ⟨hφ.unmapDma, fun _ _ => hunmapBar t⟩
  refine Method.sat_bind (hsafe (ψ := fun _ => True) ?_ hunmap) (fun capabilities t _ => ?_)
    (fun _ _ _ => trivial) fun _ _ _ => trivial
  · refine Method.sat_lift (fun _ _ => ?_) (fun _ _ _ _ => trivial) fun _ _ _ _ => trivial
    exact ⟨hφ.capabilities, fun _ _ _ _ => trivial⟩
  -- the driver owns the mappings from here on
  have hdrop (t : σ) : ((drop : Method Op Res σ IoError Unit) t).Sat R φ fun _ => True :=
    ⟨hφ.unmapBar, fun _ _ => ⟨hφ.unmapDma, fun _ _ => trivial⟩⟩
  refine (hsafe (ψ := fun _ => True) (Method.sat_owning ?_) hdrop).post fun _ _ => trivial
  -- what is left is bring-up, on the mappings that were made
  refine (hbring length physical capabilities (hphysical physical rfl)).post ?_
  rintro ⟨x, d⟩ -
  cases x <;> exact fun _ _ => trivial

end Open

end NvmeUserspaceDriver

/-! ### The accesses -/

/-- What the driver does once the mappings are made: its accesses lie inside of them, and are
aligned. -/
def Inbounds (bar : NvmeBar) (dma : DmaRegion) : Op → Prop
  | .writeSqe offset _ | .readSqe offset => offset + 64 ≤ dma.length ∧ offset % 8 = 0
  | .readCqe offset => offset + 16 ≤ dma.length ∧ offset % 4 = 0
  | .writeU64 offset _ => offset + 8 ≤ dma.length ∧ offset % 8 = 0
  | .readBytes offset len => offset + len ≤ dma.length
  | .writeBytes offset source => offset + source.length ≤ dma.length
  | .read32 offset | .write32 offset _ => offset + 4 ≤ bar.length ∧ offset % 4 = 0
  | .read64 offset | .write64 offset _ => offset + 8 ≤ bar.length ∧ offset % 8 = 0
  | .sleep _ | .alloc _ => True
  | _ => False

/-- A check that passes has shown that the access is inside. -/
theorem DmaRegion.bytes_of_check {dma : DmaRegion} {offset size : Nat}
    (h : dma.checkBytes offset size = .ok ()) : offset + size ≤ dma.length := by
  unfold DmaRegion.checkBytes at h
  split_ifs at h
  assumption

theorem DmaRegion.typed_of_check {dma : DmaRegion} {offset size align : Nat}
    (h : dma.checkTyped offset size align = .ok ()) :
    offset + size ≤ dma.length ∧ offset % align = 0 := by
  unfold DmaRegion.checkTyped at h
  -- the bounds are checked before the alignment
  cases hcheck : dma.checkBytes offset size with
  | ok _ =>
    rw [hcheck, Outcome.ok_bind] at h
    split_ifs at h with halign
    exact ⟨DmaRegion.bytes_of_check hcheck, halign⟩
  | err e => rw [hcheck] at h; cases h
  | panic why => rw [hcheck] at h; cases h

/-- The same of a register. -/
theorem NvmeBar.bounds_of_check {bar : NvmeBar} {offset size : Nat}
    (h : bar.check offset size = .ok ()) : offset + size ≤ bar.length ∧ offset % size = 0 := by
  unfold NvmeBar.check at h
  split_ifs at h
  exact ⟨by assumption, by assumption⟩

namespace NvmeUserspaceDriver

section Accesses

variable {σ : Type} {I : σ → Prop} {φ : Op → Prop} {bar : NvmeBar} {dma : DmaRegion}
  {p : Profile}

/-- The driver has these mappings. -/
def Holds (bar : NvmeBar) (dma : DmaRegion) (d : NvmeUserspaceDriver) : Prop :=
  d.nvmeBar = bar ∧ d.dmaRegion = dma

/-- An access behind its check. -/
theorem stays_checked {x : Outcome IoError Unit} {o : Op} (ho : x = .ok () → φ o) :
    Method.Stays I φ (do
      Method.lift x
      Method.call o : Method Op Res σ IoError (Res o)) := by
  cases x with
  | ok _ => exact .call (ho rfl)
  | err e => exact .fail e
  | panic why => exact .panic why

/-- An access follows its check. -/
theorem stays_then {α : Type} {x : Outcome IoError Unit} {o : Op}
    {f : Res o → Method Op Res σ IoError α} (ho : x = .ok () → φ o)
    (hf : ∀ r, Method.Stays I φ (f r)) : Method.Stays I φ (do
      let r ← (do
        Method.lift x
        Method.call o)
      f r) :=
  (stays_checked ho).bind hf

/-- The poll loop stays within the completion ring. -/
theorem inbounds_pollCompletion (stride : Nat) (cid : UInt16) (polls : Nat) :
    Method.Only (Inbounds bar dma) (QueuePair.pollCompletion bar dma stride cid polls) := by
  -- each round reads the slot at the head, which is checked anew
  induction polls with
  | zero => exact .fail _
  | succ polls ih =>
    refine .get_bind fun q _ => stays_then DmaRegion.typed_of_check fun completion => ?_
    refine .ite (fun _ => .get_bind fun q _ => .set_bind trivial ?_) fun _ => ih
    exact stays_then NvmeBar.bounds_of_check fun _ => .ite (fun _ => .fail _) fun _ => .pure _

theorem inbounds_submitAndWait (stride : Nat) (command : SubmissionQueueEntry) :
    Method.Only (Inbounds bar dma) (QueuePair.submitAndWait bar dma stride command) := by
  refine Method.Stays.bind ?_ fun cid => inbounds_pollCompletion stride cid _
  refine .get_bind fun q _ => .set_bind trivial ?_
  refine stays_then DmaRegion.typed_of_check fun _ => ?_
  refine stays_then DmaRegion.typed_of_check fun _ => .set_bind trivial ?_
  exact stays_then NvmeBar.bounds_of_check fun _ => .pure _

theorem inbounds_submitAdmin (command : SubmissionQueueEntry) :
    Method.Stays (Holds bar dma) (Inbounds bar dma) (submitAdmin command) := by
  refine .get_bind fun d hd => ?_
  obtain ⟨rfl, rfl⟩ := hd
  exact .onField (inbounds_submitAndWait _ _) (fun _ _ => trivial) fun _ _ hs _ => hs

theorem inbounds_submitIo (command : SubmissionQueueEntry) :
    Method.Stays (Holds bar dma) (Inbounds bar dma) (submitIo command) := by
  refine .get_bind fun d hd => ?_
  obtain ⟨rfl, rfl⟩ := hd
  exact .onField (inbounds_submitAndWait _ _) (fun _ _ => trivial) fun _ _ hs _ => hs

theorem inbounds_checkCompletion (c : CompletionQueueEntry) (what : String) :
    Method.Stays I φ (checkCompletion c what : Method Op Res σ IoError Unit) :=
  .ite (fun _ => .pure _) fun _ => .fail _

theorem inbounds_readBytes (offset len : Nat) :
    Method.Stays I (Inbounds bar dma) (dma.readBytes offset len : Method Op Res σ IoError _) := by
  rw [DmaRegion.readBytes, ← Method.bind_assoc]
  exact stays_then DmaRegion.bytes_of_check fun _ => .pure _

/-- An Identify command and its data. -/
theorem inbounds_identify («structure» : IdentifyStructure) (nsid : UInt32) :
    Method.Stays (Holds bar dma) (Inbounds bar dma) (identify «structure» nsid) := by
  refine .get_bind fun d hd => (inbounds_submitAdmin _).bind fun _ =>
    (inbounds_checkCompletion _ _).bind fun _ => ?_
  obtain ⟨rfl, rfl⟩ := hd
  exact inbounds_readBytes _ _

/-- The block size, known or not. -/
theorem inbounds_namespaceBlockSize (nsid : UInt32) :
    Method.Stays (Holds bar dma) (Inbounds bar dma) (namespaceBlockSize p nsid) := by
  refine .get_bind fun d hd => ?_
  cases d.blockSizes nsid with
  | some size => exact .pure _
  | none =>
    refine (inbounds_identify _ _).bind fun data => ?_
    cases IdentifyNamespace.readFromPrefix data with
    | none => exact .fail _
    | some ns =>
      -- what is learnt changes the cache, not the mappings
      exact (Method.Stays.lift _).bind fun size => .get_bind fun _ ht => .set_bind ht (.pure _)

/-- The list, entry by entry. -/
theorem inbounds_writePrpEntries (index count : Nat) :
    Method.Stays (Holds bar dma) (Inbounds bar dma) (writePrpEntries index count) := by
  induction count generalizing index with
  | zero => exact .pure _
  | succ count ih =>
    -- the region is the driver's own, which the entry was checked against
    refine .get_bind fun d hd => stays_then (fun hx => ?_) fun _ => ih _
    obtain ⟨rfl, rfl⟩ := hd
    exact DmaRegion.typed_of_check hx

theorem inbounds_dataPointers (length : Nat) :
    Method.Stays (Holds bar dma) (Inbounds bar dma) (dataPointers p length) := by
  refine .get_bind fun d _ => .ite (fun _ => .pure _) fun _ => .ite (fun _ => .pure _) fun _ => ?_
  exact .ite (fun _ => .panic _) fun _ => (inbounds_writePrpEntries _ _).bind fun _ => .pure _

/-- **A read** stays inside the mappings. -/
theorem inbounds_read (slba : UInt64) (blockCount : UInt16) :
    Method.Stays (Holds bar dma) (Inbounds bar dma) (read p slba blockCount) := by
  refine .ite (fun _ => .fail _) fun _ => .get_bind fun d hd => ?_
  obtain ⟨rfl, rfl⟩ := hd
  refine (inbounds_namespaceBlockSize _).bind fun size => (Method.Stays.lift _).bind fun total => ?_
  -- no bound on the count is used: each access has its own check
  refine .ite (fun _ => .fail _) fun _ => (inbounds_dataPointers _).bind fun pointers => ?_
  refine (inbounds_submitIo _).bind fun c => (inbounds_checkCompletion _ _).bind fun _ => ?_
  exact (Method.Stays.ite (fun _ => .call trivial) fun _ => .panic _).bind fun _ =>
    inbounds_readBytes _ _

/-- **A write** does, too. -/
theorem inbounds_write (slba : UInt64) (data : List UInt8) :
    Method.Stays (Holds bar dma) (Inbounds bar dma) (write p slba data) := by
  refine .get_bind fun d hd => (inbounds_namespaceBlockSize _).bind fun size => ?_
  refine (Method.Stays.lift _).bind fun refused => .ite (fun _ => .fail _) fun _ => ?_
  refine .ite (fun _ => .fail _) fun _ => (Method.Stays.lift _).bind fun count => ?_
  refine stays_then (fun hx => ?_) fun _ => (inbounds_dataPointers _).bind fun pointers => ?_
  · obtain ⟨rfl, rfl⟩ := hd
    exact DmaRegion.bytes_of_check hx
  refine (Method.Stays.lift _).bind fun nlb => (inbounds_submitIo _).bind fun c => ?_
  exact inbounds_checkCompletion _ _

/-- **The calls.** -/
theorem inbounds_perform (call : Call) :
    Method.Stays (Holds bar dma) (Inbounds bar dma) (perform p call) := by
  cases call with
  | identifyController => exact inbounds_identify _ _
  | read slba blockCount => exact inbounds_read _ _
  | write slba data => exact (inbounds_write _ _).bind fun _ => .pure _

/-- The wait for the controller reads CSTS. -/
theorem inbounds_waitReady (wantReady : Bool) (polls : Nat) :
    Method.Stays (Holds bar dma) (Inbounds bar dma) (waitReady wantReady polls) := by
  induction polls with
  | zero => exact .fail _
  | succ polls ih =>
    refine .get_bind fun d hd => stays_then (fun hx => ?_) fun status => ?_
    · obtain ⟨rfl, rfl⟩ := hd
      exact NvmeBar.bounds_of_check hx
    refine .ite (fun _ => .fail _) fun _ => .ite (fun _ => .pure _) fun _ => ?_
    exact (Method.Stays.call trivial).bind fun _ => ih

/-- **Bring-up.** -/
theorem inbounds_bringUp :
    Method.Stays (Holds bar dma) (Inbounds bar dma) (bringUp p) := by
  have hreset : Method.Stays (Holds bar dma) (Inbounds bar dma) resetAndEnable := by
    refine .get_bind fun d hd => ?_
    obtain ⟨rfl, rfl⟩ := hd
    refine stays_then NvmeBar.bounds_of_check fun configuration => ?_
    refine stays_then NvmeBar.bounds_of_check fun _ => (inbounds_waitReady _ _).bind fun _ => ?_
    refine stays_then NvmeBar.bounds_of_check fun _ => ?_
    refine stays_then NvmeBar.bounds_of_check fun _ => ?_
    refine stays_then NvmeBar.bounds_of_check fun _ => ?_
    refine stays_then NvmeBar.bounds_of_check fun _ => ?_
    exact inbounds_waitReady _ _
  -- the comparisons of the entry sizes access nothing
  have hentry (what : String) (supported required : UInt8) :
      Method.Stays (Holds bar dma) (Inbounds bar dma) (checkEntrySize what supported required) :=
    .ite (fun _ => .pure _) fun _ => .fail _
  have hsizes : Method.Stays (Holds bar dma) (Inbounds bar dma) checkQueueEntrySizes := by
    refine (inbounds_identify _ _).bind fun data => ?_
    cases IdentifyController.readFromPrefix data with
    | none => exact .fail _
    | some controller => exact (hentry _ _ _).bind fun _ => hentry _ _ _
  have hqueues : Method.Stays (Holds bar dma) (Inbounds bar dma) createIoQueues := by
    refine .get_bind fun d _ => (inbounds_submitAdmin _).bind fun c => ?_
    refine (inbounds_checkCompletion _ _).bind fun _ => (inbounds_submitAdmin _).bind fun c => ?_
    exact inbounds_checkCompletion _ _
  -- the parts, one after the other
  refine hreset.bind fun _ => hsizes.bind fun _ => hqueues.bind fun _ => .get_bind fun d _ => ?_
  exact (inbounds_namespaceBlockSize _).bind fun _ => .pure _

end Accesses

/-! ### Silence -/

section Silence

variable {σ : Type} {p : Profile}

theorem Inbounds.silent {bar : NvmeBar} {dma : DmaRegion} {o : Op} (h : Inbounds bar dma o) :
    Silent o := by
  cases o <;> first | exact h.elim | trivial

/-- What keeps to the mappings that a driver has is silent, whatever these are. -/
theorem silent_of_inbounds {α : Type} {m : DriverMethod α}
    (h : ∀ bar dma, Method.Stays (Holds bar dma) (Inbounds bar dma) m) : Method.Only Silent m :=
  fun d _ => (h d.nvmeBar d.dmaRegion d ⟨rfl, rfl⟩).mono (fun _ => Inbounds.silent)
    fun _ _ => trivial

/-- **The calls** are silent. -/
theorem silent_perform (call : Call) : Method.Only Silent (perform p call) :=
  silent_of_inbounds fun _ _ => inbounds_perform call

theorem silent_bringUp : Method.Only Silent (bringUp p) :=
  silent_of_inbounds fun _ _ => inbounds_bringUp

theorem silent_drop : Method.Only Silent (drop : Method Op Res σ IoError Unit) :=
  (Method.Stays.call trivial).bind fun _ => .call trivial

/-- **`open`** is silent. -/
theorem silent_openDriver (bdf : Str) (nsid : UInt32) :
    Method.Only Silent (openDriver p bdf nsid : Method Op Res σ IoError _) := by
  have hhost (o : Op) (ho : OnHost o) : Silent o := by
    cases o <;> first | exact ho.elim | trivial
  refine fun s _ => openDriver_issues ⟨hhost, fun _ _ => trivial, trivial, trivial, trivial,
    trivial⟩ fun length physical capabilities _ => ?_
  exact (silent_bringUp _ trivial).post fun _ => id

end Silence

end NvmeUserspaceDriver

end Nvmetoy
