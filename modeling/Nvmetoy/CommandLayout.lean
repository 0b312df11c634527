import Nvmetoy.Framework.BitFields
import Nvmetoy.Calls

/-!
# The bits of a command

A command is 64 bytes, and to the controller 512 bits. `Lays` gives the fields of each of the five
commands where the command format has them, with the builder's arguments for values; the lowest
bit of byte `b` is bit `8 * b`, and the lowest of dword `d` is bit `32 * d`.

* `SubmissionQueueEntry.laid` — an entry whose reserved parts are zero, from the layouts of its
  parts.
* `lays_exact` — the bytes that `submit_and_wait` puts into the ring are these fields, under the
  identifier it took, and nothing else.
-/

namespace Nvmetoy

open Framework

/-! ### The parts of an entry -/

section Parts

variable {nsidFields prp2Fields dwordFields tailFields : List BitField}

/-- A single field, if it fits, is a layout. -/
theorem within_single {n width value : Nat} (h : width ≤ n) : Within n [⟨0, width, value⟩] := by
  intro f hf
  obtain rfl := List.mem_singleton.mp hf
  exact (Nat.zero_add width).trans_le h

theorem within_nil (n : Nat) : Within n [] := fun _ hf => by cases hf

/-- Opcode and identifier, the namespace, the two PRP entries, dwords 10 and 11 together, and dword
12. The rest of the entry is zero. -/
theorem SubmissionQueueEntry.laid {e : SubmissionQueueEntry}
    (hzero : e = { SubmissionQueueEntry.new e.opc with
      cid := e.cid
      nsid := e.nsid
      prp1 := e.prp1
      prp2 := e.prp2
      cdw10 := e.cdw10
      cdw11 := e.cdw11
      cdw12 := e.cdw12 })
    (hnsid : Laid e.nsid.toNat nsidFields) (hnsidIn : Within 32 nsidFields)
    (hprp2 : Laid e.prp2.toNat prp2Fields) (hprp2In : Within 64 prp2Fields)
    (hdwords : Laid (e.cdw10.toNat + 2 ^ 32 * e.cdw11.toNat) dwordFields)
    (hdwordsIn : Within 64 dwordFields)
    (htail : Laid e.cdw12.toNat tailFields) (htailIn : Within 32 tailFields) :
    Laid (ofLe e.encode) (⟨0, 8, e.opc.toNat⟩ :: ⟨16, 16, e.cid.toNat⟩ ::
      nsidFields.map (BitField.shift 32) ++ ⟨192, 64, e.prp1.toNat⟩ ::
      prp2Fields.map (BitField.shift 256) ++ dwordFields.map (BitField.shift 320) ++
      tailFields.map (BitField.shift 384)) := by
  -- the fields that no builder sets
  have hflags : e.flags = 0 := by rw [hzero]; rfl
  have hcdw2 : e.cdw2 = 0 := by rw [hzero]; rfl
  have hcdw3 : e.cdw3 = 0 := by rw [hzero]; rfl
  have hmptr : e.mptr = 0 := by rw [hzero]; rfl
  have hcdw13 : e.cdw13 = 0 := by rw [hzero]; rfl
  have hcdw14 : e.cdw14 = 0 := by rw [hzero]; rfl
  have hcdw15 : e.cdw15 = 0 := by rw [hzero]; rfl
  -- the reserved dwords at the end, and from there part by part to the front
  have hend : Laid (ofLe (toLe 4 0 ++ (toLe 4 0 ++ toLe 4 0))) [] := by
    rw [ofLe_append, ofLe_append]
    exact .nil
  have hcdw12 := htail.toLe_append (n := 4) e.cdw12.toNat_lt htailIn hend
  have hboth : e.cdw10.toNat + 2 ^ (8 * 4) * e.cdw11.toNat < 2 ^ (8 * 8) := by
    have hlow := e.cdw10.toNat_lt
    have hhigh := e.cdw11.toNat_lt
    omega
  have hcdw10 := hdwords.toLe_append (n := 8) hboth hdwordsIn hcdw12
  rw [← toLe_append_toLe 4 4 e.cdw10.toNat_lt, List.append_assoc] at hcdw10
  have hprp := hprp2.toLe_append (n := 8) e.prp2.toNat_lt hprp2In hcdw10
  have hprp1 := (Laid.single e.prp1.toNat_lt).toLe_append (n := 8) e.prp1.toNat_lt
    (within_single le_rfl) hprp
  -- the reserved dwords in the middle
  have hzeros := Laid.nil.toLe_append (n := 4) (by decide) (within_nil _)
    (Laid.nil.toLe_append (n := 4) (by decide) (within_nil _)
      (Laid.nil.toLe_append (n := 8) (by decide) (within_nil _) hprp1))
  have hns := hnsid.toLe_append (n := 4) e.nsid.toNat_lt hnsidIn hzeros
  have hcid := (Laid.single e.cid.toNat_lt).toLe_append (n := 2) e.cid.toNat_lt
    (within_single le_rfl) hns
  have hopc := (Laid.single e.opc.toNat_lt).toLe_append (n := 1) e.opc.toNat_lt
    (within_single le_rfl) (Laid.nil.toLe_append (n := 1) (by decide) (within_nil _) hcid)
  rw [SubmissionQueueEntry.encode, hflags, hcdw2, hcdw3, hmptr, hcdw13, hcdw14, hcdw15]
  simpa using hopc

end Parts

/-! ### The packed dwords -/

/-- A count in the upper half of a dword, over a number in its lower half. -/
theorem toNat_packed (low high : UInt16) :
    (low.toUInt32 ||| (high.toUInt32 <<< 16)).toNat = low.toNat + 2 ^ 16 * high.toNat := by
  have hlow := low.toNat_lt
  have hhigh := high.toNat_lt
  have hshift : (high.toUInt32 <<< 16).toNat = 2 ^ 16 * high.toNat := by
    rw [UInt32.toNat_shiftLeft, Nat.shiftLeft_eq, UInt16.toNat_toUInt32]
    change high.toNat * 2 ^ 16 % 2 ^ 32 = _
    omega
  rw [UInt32.toNat_or, hshift, UInt16.toNat_toUInt32, Nat.or_comm,
    ← Nat.two_pow_add_eq_or_of_lt hlow, Nat.add_comm]

/-- The queue's identifier, and its size less one. -/
theorem toNat_queueSize (queueId : UInt16) {size : UInt16} (h : 1 ≤ size.toNat) :
    (queueId.toUInt32 ||| ((size.toUInt32 - 1) <<< 16)).toNat =
      queueId.toNat + 2 ^ 16 * (size.toNat - 1) := by
  have hle : (1 : UInt16) ≤ size := UInt16.le_iff_toNat_le.mpr h
  have hle' : (1 : UInt32) ≤ size.toUInt32 := UInt32.le_iff_toNat_le.mpr h
  have hpred : size.toUInt32 - 1 = (size - 1).toUInt32 := by
    refine UInt32.toNat_inj.mp ?_
    rw [UInt32.toNat_sub_of_le _ _ hle', UInt16.toNat_toUInt32, UInt16.toNat_toUInt32,
      UInt16.toNat_sub_of_le _ _ hle]
    rfl
  rw [hpred, toNat_packed, UInt16.toNat_sub_of_le _ _ hle]
  rfl

/-- The two halves of a 64-bit number, in two dwords. -/
theorem toNat_halves (a : UInt64) :
    a.toUInt32.toNat + 2 ^ 32 * (a >>> 32).toUInt32.toNat = a.toNat := by
  have hlt := a.toNat_lt
  have hhigh : (a >>> 32).toUInt32.toNat = a.toNat / 2 ^ 32 := by
    rw [UInt64.toNat_toUInt32, UInt64.toNat_shiftRight, Nat.shiftRight_eq_div_pow]
    change a.toNat / 2 ^ 32 % 2 ^ 32 = _
    omega
  rw [hhigh, UInt64.toNat_toUInt32]
  omega

/-! ### The commands -/

/-- The fields of the builders' commands, under identifier `cid`. -/
inductive Lays (cid : UInt16) : SubmissionQueueEntry → List BitField → Prop where
  | identify («structure» : IdentifyStructure) (nsid : UInt32) (prp1 : UInt64) :
      Lays cid (nvmeIdentify «structure» nsid prp1)
        [⟨0, 8, 0x06⟩, ⟨16, 16, cid.toNat⟩, ⟨32, 32, nsid.toNat⟩, ⟨192, 64, prp1.toNat⟩,
          ⟨320, 8, «structure».toUInt32.toNat⟩]
  | createIoCompletionQueue (queueId size : UInt16) (prp1 : UInt64) (h : 1 ≤ size.toNat) :
      Lays cid (nvmeCreateIoCompletionQueue queueId size prp1)
        [⟨0, 8, 0x05⟩, ⟨16, 16, cid.toNat⟩, ⟨192, 64, prp1.toNat⟩, ⟨320, 16, queueId.toNat⟩,
          ⟨336, 16, size.toNat - 1⟩, ⟨352, 1, 1⟩]
  | createIoSubmissionQueue (queueId size completionQueueId : UInt16) (prp1 : UInt64)
      (h : 1 ≤ size.toNat) :
      Lays cid (nvmeCreateIoSubmissionQueue queueId size completionQueueId prp1)
        [⟨0, 8, 0x01⟩, ⟨16, 16, cid.toNat⟩, ⟨192, 64, prp1.toNat⟩, ⟨320, 16, queueId.toNat⟩,
          ⟨336, 16, size.toNat - 1⟩, ⟨352, 1, 1⟩, ⟨368, 16, completionQueueId.toNat⟩]
  | read (nsid : UInt32) (slba : UInt64) (nlb : UInt16) (prp1 prp2 : UInt64) :
      Lays cid (nvmeRead nsid slba nlb prp1 prp2)
        [⟨0, 8, 0x02⟩, ⟨16, 16, cid.toNat⟩, ⟨32, 32, nsid.toNat⟩, ⟨192, 64, prp1.toNat⟩,
          ⟨256, 64, prp2.toNat⟩, ⟨320, 64, slba.toNat⟩, ⟨384, 16, nlb.toNat⟩]
  | write (nsid : UInt32) (slba : UInt64) (nlb : UInt16) (prp1 prp2 : UInt64) :
      Lays cid (nvmeWrite nsid slba nlb prp1 prp2)
        [⟨0, 8, 0x01⟩, ⟨16, 16, cid.toNat⟩, ⟨32, 32, nsid.toNat⟩, ⟨192, 64, prp1.toNat⟩,
          ⟨256, 64, prp2.toNat⟩, ⟨320, 64, slba.toNat⟩, ⟨384, 16, nlb.toNat⟩]

section Commands

variable {cid : UInt16} {command : SubmissionQueueEntry} {fields : List BitField}

/-- The identifier of a queue and its size in dword 10, and what is in dword 11. -/
theorem laid_queue (queueId : UInt16) {size : UInt16} (h : 1 ≤ size.toNat) {dword : UInt32}
    (hdword : Laid dword.toNat fields) :
    Laid ((queueId.toUInt32 ||| ((size.toUInt32 - 1) <<< 16)).toNat + 2 ^ 32 * dword.toNat)
      (⟨0, 16, queueId.toNat⟩ :: ⟨16, 16, size.toNat - 1⟩ :: fields.map (BitField.shift 32)) := by
  have hsize : size.toNat - 1 < 2 ^ 16 := (Nat.sub_le _ _).trans_lt size.toNat_lt
  -- both halves of the dword fit, so that they lie beside each other
  have hlow : queueId.toNat + 2 ^ 16 * (size.toNat - 1) < 2 ^ 32 := by
    have hid := queueId.toNat_lt
    omega
  have hhalves := (Laid.single queueId.toNat_lt).join queueId.toNat_lt (within_single le_rfl)
    (.single hsize)
  rw [toNat_queueSize queueId h]
  refine hhalves.join hlow (fun f hf => ?_) hdword
  simp only [List.map_cons, List.map_nil, List.mem_append, List.mem_singleton] at hf
  rcases hf with rfl | rfl
  · exact show 0 + 16 ≤ 32 by decide
  · exact le_rfl

/-- A read or write. -/
theorem laid_transfer (opcode : IoOpcode) (cid : UInt16) (nsid : UInt32) (slba : UInt64)
    (nlb : UInt16) (prp1 prp2 : UInt64) :
    Laid (ofLe ({ nvmeTransfer opcode nsid slba nlb prp1 prp2 with cid := cid }).encode)
      [⟨0, 8, opcode.toUInt8.toNat⟩, ⟨16, 16, cid.toNat⟩, ⟨32, 32, nsid.toNat⟩,
        ⟨192, 64, prp1.toNat⟩, ⟨256, 64, prp2.toNat⟩, ⟨320, 64, slba.toNat⟩,
        ⟨384, 16, nlb.toNat⟩] := by
  -- the address of the first block takes two dwords, their count a half of one
  have hslba : Laid (slba.toUInt32.toNat + 2 ^ 32 * (slba >>> 32).toUInt32.toNat)
      [⟨0, 64, slba.toNat⟩] := by
    rw [toNat_halves]
    exact .single slba.toNat_lt
  have hnlb : Laid nlb.toUInt32.toNat [⟨0, 16, nlb.toNat⟩] := by
    rw [UInt16.toNat_toUInt32]
    exact .single nlb.toNat_lt
  exact SubmissionQueueEntry.laid
    (e := { nvmeTransfer opcode nsid slba nlb prp1 prp2 with cid := cid }) rfl
    (.single nsid.toNat_lt) (within_single le_rfl) (.single prp2.toNat_lt) (within_single le_rfl)
    hslba (within_single le_rfl) hnlb (within_single (by decide))

/-- The sixty-four bytes, as one number, with each field in its place. -/
theorem Lays.laid (h : Lays cid command fields) :
    Laid (ofLe ({ command with cid := cid }).encode) fields := by
  cases h with
  | identify s nsid prp1 =>
    have hcns : Laid (s.toUInt32.toNat + 2 ^ 32 * (0 : UInt32).toNat)
        [⟨0, 8, s.toUInt32.toNat⟩] := .single (by cases s <;> decide)
    exact SubmissionQueueEntry.laid (e := { nvmeIdentify s nsid prp1 with cid := cid }) rfl
      (.single nsid.toNat_lt) (within_single le_rfl) .nil (within_nil _) hcns
      (within_single (by decide)) .nil (within_nil _)
  | createIoCompletionQueue queueId size prp1 hsize =>
    -- the contiguous bit
    have hdword : Laid (1 : UInt32).toNat [⟨0, 1, 1⟩] := .single (by decide)
    exact SubmissionQueueEntry.laid
      (e := { nvmeCreateIoCompletionQueue queueId size prp1 with cid := cid }) rfl .nil
      (within_nil _) .nil (within_nil _) (laid_queue queueId hsize hdword)
      (by simp [Within]) .nil (within_nil _)
  | createIoSubmissionQueue queueId size completionQueueId prp1 hsize =>
    -- the contiguous bit, and the completion queue in the upper half
    have hdword : Laid ((1 : UInt32) ||| (completionQueueId.toUInt32 <<< 16)).toNat
        [⟨0, 1, 1⟩, ⟨16, 16, completionQueueId.toNat⟩] := by
      have hpacked := toNat_packed 1 completionQueueId
      change ((1 : UInt32) ||| (completionQueueId.toUInt32 <<< 16)).toNat = 1 + _ at hpacked
      rw [hpacked]
      exact (Laid.single (show 1 < 2 ^ 1 by decide)).join (by decide) (within_single (by decide))
        (.single completionQueueId.toNat_lt)
    exact SubmissionQueueEntry.laid
      (e := { nvmeCreateIoSubmissionQueue queueId size completionQueueId prp1 with cid := cid })
      rfl .nil (within_nil _) .nil (within_nil _) (laid_queue queueId hsize hdword)
      (by simp [Within]) .nil (within_nil _)
  | read nsid slba nlb prp1 prp2 => exact laid_transfer .read cid nsid slba nlb prp1 prp2
  | write nsid slba nlb prp1 prp2 => exact laid_transfer .write cid nsid slba nlb prp1 prp2

end Commands

/-! ### The entry in the ring -/

section Stored

variable {bar : NvmeBar} {dma : DmaRegion} {stride n : Nat} {q : QueuePair} {cid : UInt16}
  {command : SubmissionQueueEntry} {R : (o : Op) → Res o → Prop}

/-- Where the operation stores an entry, it is this one. -/
def Stores (entry : SubmissionQueueEntry) : Op → Prop
  | .writeSqe _ stored => stored = entry
  | _ => True

/-- What is stored in either half is stored. -/
theorem sat_stores_bind {α β σ : Type} {m : Method Op Res σ IoError α}
    {f : α → Method Op Res σ IoError β} {s : σ} {φ : Op → Prop}
    (hm : (m s).Sat R φ fun _ => True) (hf : ∀ a t, (f a t).Sat R φ fun _ => True) :
    ((m >>= f) s).Sat R φ fun _ => True :=
  Method.sat_bind hm (fun a t _ => hf a t) (fun _ _ _ => trivial) fun _ _ _ => trivial

/-- An access behind its check. -/
theorem sat_access {σ : Type} {s : σ} {check : Outcome IoError Unit} {o : Op} {φ : Op → Prop}
    (h : φ o) : ((do Method.lift check; Method.call o : Method Op Res σ IoError (Res o)) s).Sat R φ
      fun _ => True := by
  cases check with
  | ok _ => exact ⟨h, fun _ _ => trivial⟩
  | err e => trivial
  | panic why => trivial

/-- Polling stores nothing. -/
theorem pollCompletion_stores {entry : SubmissionQueueEntry} :
    (QueuePair.pollCompletion bar dma stride cid n q).Sat R (Stores entry) fun _ => True := by
  induction n generalizing q with
  | zero => trivial
  | succ n ih =>
    refine sat_stores_bind (m := dma.readCqe q.cqeOffset) (sat_access trivial) fun c t => ?_
    split
    · -- a completion to take: the doorbell, and the comparison
      refine sat_stores_bind (m := bar.ringCompletionDoorbell t.id stride
        t.advanceHead.completionHead) (sat_access trivial) fun _ t' => ?_
      split <;> trivial
    · exact ih

/-- Whatever happens to a call, what it stores is its command under the next identifier. -/
theorem submitAndWait_stores :
    (QueuePair.submitAndWait bar dma stride command q).Sat R
      (Stores { command with cid := q.nextCid }) fun _ => True := by
  refine sat_stores_bind (m := QueuePair.submit bar dma stride command) ?_
    fun _ _ => pollCompletion_stores
  refine sat_stores_bind (m := dma.writeSqe q.sqeOffset { command with cid := q.nextCid })
    (sat_access rfl) fun _ t => ?_
  refine sat_stores_bind (m := dma.readSqe q.sqeOffset) (sat_access trivial) fun _ t' => ?_
  exact sat_stores_bind (m := bar.ringSubmissionDoorbell q.id stride
    q.takeCid.advanceTail.submissionTail) (sat_access trivial) fun _ _ => trivial

end Stored

/-- **The encoding loses nothing and adds nothing.** What `submit_and_wait` stores of a builder's
command is that command under the queue's next identifier, and its 64 bytes hold each argument in
the argument's own bits, with every other bit zero. -/
theorem lays_exact (bar : NvmeBar) (dma : DmaRegion) (stride : Nat) (q : QueuePair)
    (command : SubmissionQueueEntry) (fields : List BitField) (h : Lays q.nextCid command fields) :
    (QueuePair.submitAndWait bar dma stride command q).Sat Prog.Any (fun o =>
      ∀ offset entry, o = .writeSqe offset entry →
        entry.encode.length = SubmissionQueueEntry.SIZE ∧ Laid (ofLe entry.encode) fields)
      fun _ => True := by
  refine submitAndWait_stores.mono (fun o ho offset entry hwrite => ?_) fun _ _ => trivial
  subst hwrite
  obtain rfl := ho
  exact ⟨SubmissionQueueEntry.length_encode _, h.laid⟩

/-- The 300th command of a queue, a write of blocks on both sides of `2 ^ 32`. -/
theorem lays_exact_write : (QueuePair.submitAndWait ⟨8192⟩ ⟨HUGE_PAGE_SIZE, 0, by decide⟩ 4
    (nvmeWrite 1 0xFFFFFFFF 7 0x5000 0x6000)
    { QueuePair.new IO_QUEUE_ID IO_SUBMISSION_QUEUE_OFFSET IO_COMPLETION_QUEUE_OFFSET with
      nextCid := 300 }).Sat Prog.Any (fun o => ∀ offset entry, o = .writeSqe offset entry →
        entry.encode.length = SubmissionQueueEntry.SIZE ∧ Laid (ofLe entry.encode)
          [⟨0, 8, 0x01⟩, ⟨16, 16, 300⟩, ⟨32, 32, 1⟩, ⟨192, 64, 0x5000⟩, ⟨256, 64, 0x6000⟩,
            ⟨320, 64, 0xFFFFFFFF⟩, ⟨384, 16, 7⟩]) fun _ => True := by
  exact lays_exact ⟨8192⟩ ⟨HUGE_PAGE_SIZE, 0, by decide⟩ 4 _ _ _
    (.write 1 0xFFFFFFFF 7 0x5000 0x6000)

end Nvmetoy
