import Nvmetoy.Footprint
import Nvmetoy.Framework.Refine

/-!
# What the controller is told

The model of the controller leaves two things out that a driver could get wrong. It fetches and
posts at the offsets of the driver's own constants, and the registers that say where the rings are
do nothing there; and it has one namespace, whose identifier it does not look for in a command. Both
are right for this driver:

* `openDriver_programs` — whatever the controller answers, `open` writes the addresses and the
  lengths of these very rings to ASQ, ACQ and AQA, and into the two commands that create the I/O
  queues. No command writes to a register below the doorbells (`OfCommand`).
* `perform_names` — every command on the I/O queue is for the namespace that was opened.
-/

namespace Nvmetoy

open Framework Machine NvmeUserspaceDriver

/-- An admin command that creates an I/O queue gives the address of the ring, and its length. -/
structure NamesRings (P : Platform) (entry : SubmissionQueueEntry) : Prop where
  completion : entry.opc = AdminOpcode.createIoCompletionQueue.toUInt8 →
    entry.prp1.toNat = World.address P (QueueId.completionOffset .io) ∧
      entry.cdw10.toNat = (QueueId.number .io).toNat + 2 ^ 16 * (QUEUE_DEPTH - 1)
  submission : entry.opc = AdminOpcode.createIoSubmissionQueue.toUInt8 →
    entry.prp1.toNat = World.address P (QueueId.submissionOffset .io) ∧
      entry.cdw10.toNat = (QueueId.number .io).toNat + 2 ^ 16 * (QUEUE_DEPTH - 1)

/-- What the operation tells the controller about its rings is what the model has. The lengths are
zero-based. -/
def Programs (P : Platform) : Op → Prop
  | .write32 offset value =>
    offset = AQA → value.toNat = QUEUE_DEPTH - 1 + 2 ^ 16 * (QUEUE_DEPTH - 1)
  | .write64 offset value =>
    (offset = ASQ → value.toNat = World.address P (QueueId.submissionOffset .admin)) ∧
      (offset = ACQ → value.toNat = World.address P (QueueId.completionOffset .admin))
  | .writeSqe offset entry => (QueueId.admin.sqSlot offset).isSome → NamesRings P entry
  | _ => True

/-- The hugepage is where the platform has it. -/
def Places (P : Platform) : (o : Op) → Res o → Prop
  | .allocHuge, .ok physical => physical = P.base
  | _, _ => True

section Programming

variable {P : Platform} {d : NvmeUserspaceDriver} {R : (o : Op) → Res o → Prop} {p : Profile}

/-- The bus address of an offset does not wrap. -/
theorem toNat_physicalAddressAt {offset : Nat} (h : offset < HUGE_PAGE_SIZE) :
    (P.region.physicalAddressAt offset).toNat = World.address P offset := by
  have hfits : P.base.val.toNat + HUGE_PAGE_SIZE ≤ U64_SIZE := P.base.property
  have hoffset : offset < U64_SIZE := Nat.lt_of_lt_of_le h (Nat.le_of_add_left_le hfits)
  have hlt : P.base.val.toNat + offset < U64_SIZE := by omega
  show (P.base.val + UInt64.ofNat offset).toNat = P.base.val.toNat + offset
  rw [UInt64.toNat_add, UInt64.toNat_ofNat_of_lt' hoffset]
  exact Nat.mod_eq_of_lt hlt

/-- The reset programs the admin queue, and nothing else. -/
theorem programs_reset (hregion : d.dmaRegion = P.region) : AllowsReset d (Programs P) where
  read := fun _ => trivial
  sleep := fun _ => trivial
  configuration := fun _ h => absurd h (by decide)
  attributes := fun _ => by decide
  submissionQueue := by
    -- ASQ and ACQ are two registers, each with its own ring
    refine ⟨fun _ => ?_, fun h => absurd h (by decide)⟩
    rw [adminSubmissionQueuePhysicalAddress, hregion]
    exact toNat_physicalAddressAt (by decide)
  completionQueue := by
    refine ⟨fun h => absurd h (by decide), fun _ => ?_⟩
    rw [adminCompletionQueuePhysicalAddress, hregion]
    exact toNat_physicalAddressAt (by decide)

/-- Dword 10 of the commands that create the I/O queues. -/
theorem createQueue_length :
    (IO_QUEUE_ID.toUInt32 ||| (((UInt16.ofNat QUEUE_DEPTH).toUInt32 - 1) <<< 16)).toNat =
      (QueueId.number .io).toNat + 2 ^ 16 * (QUEUE_DEPTH - 1) := by decide

/-- The admin commands of bring-up name the rings. -/
theorem programs_commands (hregion : d.dmaRegion = P.region) :
    AllowsBringUp d fun i entry => i = .admin → NamesRings P entry := by
  -- the three commands differ in their opcodes
  have hidentify : AdminOpcode.identify.toUInt8 ≠ AdminOpcode.createIoCompletionQueue.toUInt8 ∧
      AdminOpcode.identify.toUInt8 ≠ AdminOpcode.createIoSubmissionQueue.toUInt8 := by decide
  have hcreate : AdminOpcode.createIoCompletionQueue.toUInt8 ≠
      AdminOpcode.createIoSubmissionQueue.toUInt8 := by decide
  refine ⟨fun _ _ _ _ => ?_, fun _ _ => ?_, fun _ _ => ?_⟩
  · exact ⟨fun h => absurd h hidentify.1, fun h => absurd h hidentify.2⟩
  · refine ⟨fun _ => ⟨?_, createQueue_length⟩, fun h => absurd h hcreate⟩
    show d.ioCompletionQueuePhysicalAddress.toNat = _
    rw [ioCompletionQueuePhysicalAddress, hregion]
    exact toNat_physicalAddressAt (by decide)
  · refine ⟨fun h => absurd h.symm hcreate, fun _ => ⟨?_, createQueue_length⟩⟩
    show d.ioSubmissionQueuePhysicalAddress.toNat = _
    rw [ioSubmissionQueuePhysicalAddress, hregion]
    exact toNat_physicalAddressAt (by decide)

/-- An entry in a slot of the admin ring is one that goes into the admin ring. -/
theorem admin_of_sqSlot {i : QueueId} {s : Nat}
    (h : (QueueId.admin.sqSlot (i.submissionOffset + 64 * s)).isSome) : i = .admin := by
  cases i with
  | admin => rfl
  | io =>
    have hout : ¬ (QueueId.submissionOffset .admin ≤ QueueId.submissionOffset .io + 64 * s ∧
        QueueId.submissionOffset .io + 64 * s <
          QueueId.submissionOffset .admin + 64 * QUEUE_DEPTH) := by
      rintro ⟨-, hlt⟩
      exact absurd (Nat.lt_of_le_of_lt (Nat.le_add_right _ _) hlt) (by decide)
    rw [QueueId.sqSlot, if_neg hout] at h
    cases h

/-- A command programs the I/O queues, if it is one of the two that create them. -/
theorem OfCommand.programs {o : Op}
    (h : OfCommand (fun i entry => i = .admin → NamesRings P entry) o) : Programs P o := by
  cases o with
  | writeSqe offset entry =>
    obtain ⟨i, s, -, rfl, hentry⟩ := h
    exact fun hslot => hentry (admin_of_sqSlot hslot)
  | write32 offset value =>
    rintro rfl
    exact absurd (show DOORBELL_BASE ≤ AQA from h) (by decide)
  | write64 => exact h.elim
  | _ => trivial

/-- **Bring-up** tells the controller where the rings are. -/
theorem bringUp_programs (hd : d.Shaped) (hregion : d.dmaRegion = P.region) :
    (bringUp p d).Sat R (Programs P) fun _ => True := by
  have hψ := programs_commands hregion
  have hreset : (resetAndEnable d).Sat R (Programs P) fun x => d.Kept x.2 :=
    (sat_reset (programs_reset hregion)).post (by rintro ⟨x, t⟩ rfl; exact .refl hd)
  -- one part after the other, each of which keeps the places of the rings
  refine Method.sat_bind hreset (fun _ t ht => ?_) (fun _ _ _ => trivial) fun _ _ _ => trivial
  refine Method.sat_bind ((checkQueueEntrySizes_ofCommand hψ ht).mono (fun _ h => h.programs)
    fun _ => id) (fun _ t₁ ht₁ => ?_) (fun _ _ _ => trivial) fun _ _ _ => trivial
  refine Method.sat_bind ((createIoQueues_ofCommand hψ ht₁).mono (fun _ h => h.programs)
    fun _ => id) (fun _ t₂ ht₂ => ?_) (fun _ _ _ => trivial) fun _ _ _ => trivial
  rw [Method.get_bind]
  exact Method.sat_bind ((namespaceBlockSize_ofCommand hψ ht₂).mono (fun _ h => h.programs)
    fun _ => id) (fun _ _ _ => trivial) (fun _ _ _ => trivial) fun _ _ _ => trivial

/-- **What the controller is told.** In every run of `open`, whatever the controller answers, each
operation that says where a ring is, or how long, says what the model of the controller has. -/
theorem openDriver_programs {σ : Type} {s : σ} {C : Behaviour} {G : Op → World → Prop}
    {w w' : World}
    {bdf : Str} {nsid : UInt32} {o : Op} {k : Res o → Prog Op Res (Outcome IoError _ × σ)}
    (h : (machine P C G).Reaches ((openDriver p bdf nsid : Method Op Res σ IoError _) s, w)
      (.op o k, w')) : Programs P o := by
  -- the hugepage lies where the platform puts it
  have hplaces (o : Op) (v : World) (r : Res o) (v' : World)
      (hact : (machine P C G).act o v r v') : Places P o r := by
    cases o with
    | allocHuge =>
      cases r with
      | ok physical => exact hact.1.1
      | error e => trivial
    | _ => trivial
  have hhost (o : Op) (ho : OnHost o) : Programs P o := by
    cases o <;> first | exact ho.elim | trivial
  -- so every operation of the code is one of those
  have hopen : ((openDriver p bdf nsid : Method Op Res σ IoError _) s).Sat (Places P) (Programs P)
      fun _ => True := by
    refine openDriver_issues ⟨hhost, fun _ _ => trivial, trivial, trivial, trivial, trivial⟩ ?_
    rintro length physical capabilities rfl
    exact bringUp_programs ⟨rfl, .new _ _ _, .new _ _ _⟩ rfl
  exact (Reaches.sat h hplaces hopen).1

end Programming

/-- **What the commands are for.** Whatever the controller has answered so far, a call names the
namespace of the driver in each command on the I/O queue. -/
theorem perform_names {p : Profile} {bdf : Str} {nsid : UInt32} {d : NvmeUserspaceDriver}
    {R : (o : Op) → Res o → Prop} (h : Reachable p bdf nsid d) (call : Call) :
    (perform p call d).Sat R (Asks fun e => e.nsid = nsid) fun _ => True := by
  obtain ⟨hnsid, B, hd⟩ := h.ready
  cases call with
  | identifyController => exact (sat_identify hd.toShaped).post fun _ _ => trivial
  | read slba blockCount =>
    exact (sat_read hd).mono (fun o ho => ho.mono fun e he => he.1.trans hnsid) fun _ _ => trivial
  | write slba data =>
    refine Method.sat_bind ((sat_write hd).mono (fun o ho => ho.mono fun e he =>
      he.2.2.1.trans hnsid) fun _ _ => trivial) (fun _ _ _ => trivial) (fun _ _ _ => trivial)
      fun _ _ _ => trivial

end Nvmetoy
