import Nvmetoy.BlockSize

/-!
# How much a call transfers

A read or a write is refused before anything is done (`read_refused`, `write_refused`), or it
sends one command, whose block count comes out of a chain of machine arithmetic: a shift by an
exponent that the device has given, a product or a quotient, a cast to 16 bits and a decrement.

* `ReadArithmetic`, `WriteArithmetic` — each step of the chain gives its exact value.
* `SendsExactly` — the command names as many bytes as the caller supplies or is given back.
* `transfers_exact_iff` — for which exponents and requests the chain is exact. Wherever it is,
  the call sends exactly.
-/

namespace Nvmetoy

open Framework NvmeUserspaceDriver

namespace NvmeUserspaceDriver

variable {p : Profile} {B : Nat} {d : NvmeUserspaceDriver}

/-! ### Requests that are refused -/

/-- A read that is refused by its own checks: of no blocks, or of more bytes than the limit, as
the driver computes them. -/
def ReadRefused (p : Profile) (B : Nat) (blockCount : UInt16) : Prop :=
  blockCount = 0 ∨ ∃ total, p.mulUsize B blockCount.toNat = (.ok total : Outcome IoError Nat) ∧
    MAX_TRANSFER_BYTES < total

/-- A refused read does nothing. -/
theorem read_refused {blockCount : UInt16} (hd : d.Ready B) (slba : UInt64)
    (h : ReadRefused p B blockCount) : ∃ e, read p slba blockCount d = .pure (.err e, d) := by
  unfold read
  by_cases hzero : blockCount = 0
  · rw [if_pos hzero]
    exact ⟨_, rfl⟩
  · obtain ⟨total, htotal, hmax⟩ := h.resolve_left hzero
    rw [if_neg hzero]
    simp only [Method.get_bind, namespaceBlockSize_bind hd.cached, htotal, Method.lift_ok_bind,
      if_pos hmax]
    exact ⟨_, rfl⟩

/-- A refused write does nothing. -/
theorem write_refused {data : List UInt8} (hd : d.Ready B) (slba : UInt64)
    (h : ¬ Accepts B data) : ∃ e, write p slba data d = .pure (.err e, d) := by
  simp only [write, Method.get_bind, namespaceBlockSize_bind hd.cached]
  obtain ⟨refused, hrefused⟩ := notMultiple_ok data hd.pos
  rw [hrefused, Method.lift_ok_bind]
  cases refused with
  | true => exact ⟨_, rfl⟩
  | false =>
    -- whole blocks, but too many of them
    obtain ⟨hne, hdvd⟩ := (notMultiple_eq_false hd.pos).mp hrefused
    have hmax : MAX_TRANSFER_BYTES < data.length := by
      by_contra hle
      exact h ⟨hne, hdvd, Nat.not_lt.mp hle⟩
    rw [if_neg (by simp), if_pos hmax]
    exact ⟨_, rfl⟩

/-! ### What is sent -/

/-- The operation puts no command on the I/O queue. -/
def NoCommand : Op → Prop
  | .writeSqe offset _ => offset < IO_SUBMISSION_QUEUE_OFFSET
  | _ => True

/-- A command on the I/O queue satisfies `ψ`. -/
def Commands (ψ : SubmissionQueueEntry → Prop) : Op → Prop
  | .writeSqe offset entry => IO_SUBMISSION_QUEUE_OFFSET ≤ offset → ψ entry
  | _ => True

/-- The call fails and sends nothing, or a command that it sends names `n` bytes, in blocks of
`unit`, and at most the limit. It then ends well only after a command, with what `gives` says,
and does not panic but for a doorbell outside the BAR. -/
def SendsExactly {α : Type} (n unit : Nat) (gives : α → Prop) (m : DriverMethod α)
    (d : NvmeUserspaceDriver) : Prop :=
  (m d).Sat Prog.Any NoCommand (fun x => ∃ e, x.1 = .err e) ∨
    (m d).Sat Prog.Any (Commands fun e => e.blockCount * unit = n ∧ n ≤ MAX_TRANSFER_BYTES)
        (fun x => (∀ a, x.1 = .ok a → gives a) ∧ (x.1.Panics → ¬ d.DoorbellsMapped)) ∧
      (m d).Sat (fun o _ => NoCommand o) (fun _ => True) fun x => ∀ a, x.1 ≠ .ok a

/-- Nothing goes on without the command. -/
theorem sat_submitIo_noCommand {command : SubmissionQueueEntry} (hd : d.Shaped)
    {φ : Op → Prop} (hφ : ∀ o, φ o) {ψ : Outcome IoError CompletionQueueEntry × _ → Prop} :
    (submitIo command d).Sat (fun o _ => NoCommand o) φ ψ := by
  simp only [submitIo, Method.get_bind]
  refine Method.sat_onField ?_
  simp only [QueuePair.submitAndWait, QueuePair.submit, DmaRegion.writeSqe,
    hd.io.sqe_ok hd.ioRings, Method.bind_assoc, Method.get_bind, Method.set_bind,
    Method.lift_ok_bind, Method.call_bind, Prog.sat_op]
  refine ⟨hφ _, fun _ hno => ?_⟩
  have hle : IO_SUBMISSION_QUEUE_OFFSET ≤ d.ioQueue.sqeOffset := hd.io.sqeOffset_bounds.1
  exact absurd hno (Nat.not_lt.mpr hle)

/-- What asks for data is a command. -/
theorem commands_of_asks {ψ : SubmissionQueueEntry → Prop} {o : Op} (h : Asks ψ o) :
    Commands ψ o := by
  cases o with
  | writeSqe offset entry => exact h
  | _ => trivial

/-- A read sends one command, for the bytes it returns. -/
theorem read_sendsExactly {blockCount : UInt16} (hd : d.Ready B) (slba : UInt64)
    (hfits : B * blockCount.toNat < U64_SIZE) :
    SendsExactly (blockCount.toNat * B) B (fun data => data.length = blockCount.toNat * B)
      (read p slba blockCount) d := by
  have htotal : p.mulUsize B blockCount.toNat =
      (.ok (B * blockCount.toNat) : Outcome IoError Nat) := Profile.fit_of_lt hfits
  by_cases hrefused : ReadRefused p B blockCount
  · obtain ⟨e, he⟩ := read_refused hd slba hrefused
    rw [SendsExactly, he]
    exact .inl ⟨e, rfl⟩
  · have hzero : blockCount ≠ 0 := fun h => hrefused (.inl h)
    -- not refused, so within the transfer limit
    have hmax : B * blockCount.toNat ≤ MAX_TRANSFER_BYTES := by
      by_contra hlt
      exact hrefused (.inr ⟨_, htotal, Nat.not_le.mp hlt⟩)
    refine .inr ⟨(sat_read hd).mono (fun o ho => commands_of_asks (ho.mono fun e he => ?_)) ?_, ?_⟩
    · rw [he.2.2]
      exact ⟨rfl, Nat.mul_comm B _ ▸ hmax⟩
    · rintro ⟨x, t⟩ ⟨-, hok, hpanic⟩
      refine ⟨fun data hx => ?_, fun hx hm => ?_⟩
      · have hlen := (hok data hx).2.2
        rw [htotal] at hlen
        rw [Nat.mul_comm, Outcome.ok.inj hlen]
      · exact Nat.not_le.mpr hfits (hpanic hx hm).2
    · -- the copy out of the data area comes after the command
      simp only [read, if_neg hzero, Method.get_bind, namespaceBlockSize_bind hd.cached, htotal,
        Method.lift_ok_bind, if_neg (Nat.not_lt.mpr hmax)]
      refine Method.sat_bind (sat_dataPointers hd.length_eq (fun _ _ => trivial) hmax) ?_
        (by simp) (by simp)
      rintro pointers t ⟨_, ⟨⟩⟩
      exact Method.sat_bind (χ := fun _ => False)
        (sat_submitIo_noCommand hd.toShaped fun _ => trivial) (fun _ _ h => h.elim)
        (fun _ _ h => h.elim) fun _ _ h => h.elim

/-- A write sends one command, for its payload, if the count survives the cast. -/
theorem write_sendsExactly {data : List UInt8} (hd : d.Ready B) (slba : UInt64)
    (hcast : Accepts B data → data.length / B < 2 ^ 16) :
    SendsExactly data.length B (fun _ => True) (write p slba data) d := by
  by_cases hacc : Accepts B data
  · have hpos : 0 < data.length / B := Nat.div_pos
      (Nat.le_of_dvd (List.length_pos_iff.mpr hacc.1) hacc.2.1) hd.pos
    have hlt := hcast hacc
    -- below 65536 blocks the cast to `u16` changes nothing
    have hsent : sentBlocks B data.length = data.length / B := by
      rw [sentBlocks, Nat.mod_eq_of_lt (by omega)]
      omega
    have hcut : data.length / B % 2 ^ 16 ≠ 0 := by
      rw [Nat.mod_eq_of_lt hlt]
      omega
    refine .inr ⟨(sat_write hd).mono (fun o ho => commands_of_asks (ho.mono fun e he => ?_)) ?_, ?_⟩
    · rw [he.2.2.2.2, hsent]
      exact ⟨Nat.div_mul_cancel hacc.2.1, hacc.2.2⟩
    · rintro ⟨x, t⟩ ⟨-, hpanic⟩
      exact ⟨fun _ _ => trivial, fun hx hm => hcut (hpanic hx hm).2.2⟩
    · rw [write_accepts slba hd hacc]
      refine ⟨trivial, fun _ _ => ?_⟩
      refine Method.sat_bind (sat_dataPointers hd.length_eq (fun _ _ => trivial) hacc.2.2) ?_
        (by simp) (by simp)
      rintro pointers t ⟨_, ⟨⟩⟩
      refine Method.sat_lift (fun nlb _ => ?_) (by simp) (by simp)
      exact Method.sat_bind (χ := fun _ => False)
        (sat_submitIo_noCommand hd.toShaped fun _ => trivial) (fun _ _ h => h.elim)
        (fun _ _ h => h.elim) fun _ _ h => h.elim
  · -- what is not accepted is refused
    obtain ⟨e, he⟩ := write_refused hd slba hacc (p := p)
    rw [SendsExactly, he]
    exact .inl ⟨e, rfl⟩

end NvmeUserspaceDriver

/-! ### The arithmetic -/

/-- The steps of a read: the shift of `namespace_block_size`, and, unless it is of no blocks, the
product and the decrement of `read`. -/
structure ReadArithmetic (p : Profile) (lbads : Nat) (blockCount : UInt16) : Prop where
  shift : p.oneShlUsize lbads = (.ok (2 ^ lbads) : Outcome IoError Nat)
  product : blockCount ≠ 0 →
    p.mulUsize (2 ^ lbads) blockCount.toNat =
      (.ok (2 ^ lbads * blockCount.toNat) : Outcome IoError Nat)
  decrement : blockCount ≠ 0 → (blockCount - 1).toNat + 1 = blockCount.toNat

/-- The steps of a write: the shift, and, if the payload is accepted, the cast to 16 bits and the
decrement. -/
structure WriteArithmetic (p : Profile) (lbads : Nat) (data : List UInt8) : Prop where
  shift : p.oneShlUsize lbads = (.ok (2 ^ lbads) : Outcome IoError Nat)
  cast : Accepts (2 ^ lbads) data →
    (UInt16.ofNat (data.length / 2 ^ lbads)).toNat = data.length / 2 ^ lbads
  decrement : Accepts (2 ^ lbads) data → ∃ nlb : UInt16,
    p.decU16 (UInt16.ofNat (data.length / 2 ^ lbads)) = (.ok nlb : Outcome IoError UInt16) ∧
      nlb.toNat + 1 = (UInt16.ofNat (data.length / 2 ^ lbads)).toNat

section Arithmetic

variable {p : Profile} {lbads : Nat}

/-- The shift is the power of two below 64. -/
theorem shift_exact_iff :
    p.oneShlUsize lbads = (.ok (2 ^ lbads) : Outcome IoError Nat) ↔ lbads < 64 := by
  rw [oneShlUsize_eq_iff]
  constructor
  · intro h
    omega
  · intro h
    exact ⟨(Nat.mod_eq_of_lt h).symm, fun _ => h⟩

/-- A product is exact when it fits. -/
theorem product_exact_iff {a b : Nat} :
    p.mulUsize a b = (.ok (a * b) : Outcome IoError Nat) ↔ a * b < U64_SIZE := by
  refine ⟨fun h => ?_, fun h => Profile.fit_of_lt h⟩
  by_contra hlt
  rw [Nat.not_lt] at hlt
  rw [Profile.mulUsize] at h
  -- a product that does not fit panics, or is cut to one that does
  cases p with
  | debug =>
    rw [Profile.fit_debug_of_ge hlt] at h
    cases h
  | release =>
    rw [Profile.fit_release_of_ge hlt] at h
    have hmod := Nat.mod_lt (a * b) (show 0 < U64_SIZE by decide)
    rw [Outcome.ok.inj h] at hmod
    omega

theorem readArithmetic_iff {blockCount : UInt16} :
    ReadArithmetic p lbads blockCount ↔
      lbads < 64 ∧ 2 ^ lbads * blockCount.toNat < U64_SIZE := by
  constructor
  · intro h
    refine ⟨shift_exact_iff.mp h.shift, ?_⟩
    by_cases hzero : blockCount = 0
    · simp [hzero, U64_SIZE]
    · exact product_exact_iff.mp (h.product hzero)
  · rintro ⟨hshift, hproduct⟩
    exact ⟨shift_exact_iff.mpr hshift, fun _ => product_exact_iff.mpr hproduct, toNat_sub_one⟩

theorem writeArithmetic_iff {data : List UInt8} :
    WriteArithmetic p lbads data ↔
      lbads < 64 ∧ (Accepts (2 ^ lbads) data → data.length / 2 ^ lbads < 2 ^ 16) := by
  constructor
  · intro h
    refine ⟨shift_exact_iff.mp h.shift, fun hacc => ?_⟩
    have hcast := h.cast hacc
    rw [← hcast]
    exact UInt16.toNat_lt _
  · rintro ⟨hshift, hcount⟩
    have hcast (hacc : Accepts (2 ^ lbads) data) :
        (UInt16.ofNat (data.length / 2 ^ lbads)).toNat = data.length / 2 ^ lbads := by
      rw [UInt16.toNat_ofNat', Nat.mod_eq_of_lt (hcount hacc)]
    refine ⟨shift_exact_iff.mpr hshift, hcast, fun hacc => ?_⟩
    -- the count is not zero, so the decrement is exact too
    have hne : UInt16.ofNat (data.length / 2 ^ lbads) ≠ 0 := by
      intro hzero
      have hpos : 0 < data.length / 2 ^ lbads := Nat.div_pos
        (Nat.le_of_dvd (List.length_pos_iff.mpr hacc.1) hacc.2.1) (Nat.two_pow_pos _)
      have hcast := hcast hacc
      rw [hzero] at hcast
      exact hpos.ne hcast
    exact ⟨_, if_neg hne, toNat_sub_one hne⟩

end Arithmetic

/-! ### Every answer, every request -/

/-- A driver that has learnt its block size from `data`, after any calls. -/
def LearntFrom (p : Profile) (data : List UInt8) (d : NvmeUserspaceDriver) : Prop :=
  ∃ d₀ d₁ size, d₀.Shaped ∧ d₀.blockSizes d₀.nsid = none ∧
    (namespaceBlockSize p d₀.nsid d₀).Returns (Identifies data) (.ok size, d₁) ∧ Later p d₁ d

/-- It works with the size that the data gives. -/
theorem LearntFrom.ready {p : Profile} {data : List UInt8} {ns : IdentifyNamespace}
    {d : NvmeUserspaceDriver} (h : LearntFrom p data d)
    (hdata : IdentifyNamespace.readFromPrefix data = some ns) (hlbads : ns.takenLbads < 64) :
    d.Ready (2 ^ ns.takenLbads) := by
  obtain ⟨d₀, d₁, size, hd, hnone, hret, hlater⟩ := h
  have hready := ((sat_namespaceBlockSize hd hnone).returns hret size rfl).2
  have hsize := ((sat_namespaceBlockSize_learns hd hnone).returns hret).2 size rfl
  have hgiven : blockSizeOf p data = .ok (2 ^ ns.takenLbads) := by
    unfold blockSizeOf
    rw [hdata]
    exact shift_exact_iff.mpr hlbads
  -- the size that was learnt is the one the data give
  obtain rfl : size = 2 ^ ns.takenLbads := Outcome.ok.inj (hsize.1.symm.trans hgiven)
  exact hlater.ready hready

/-- A read is exact: so is its arithmetic, and it sends the bytes it gives back. -/
def ReadExact (p : Profile) (data : List UInt8) (ns : IdentifyNamespace) (slba : UInt64)
    (blockCount : UInt16) : Prop :=
  ReadArithmetic p ns.takenLbads blockCount ∧ ∀ d, LearntFrom p data d →
    SendsExactly (blockCount.toNat * 2 ^ ns.takenLbads) (2 ^ ns.takenLbads)
      (fun given => given.length = blockCount.toNat * 2 ^ ns.takenLbads) (read p slba blockCount) d

/-- A write is exact: so is its arithmetic, and it sends the bytes it is given. -/
def WriteExact (p : Profile) (data : List UInt8) (ns : IdentifyNamespace) (slba : UInt64)
    (payload : List UInt8) : Prop :=
  WriteArithmetic p ns.takenLbads payload ∧ ∀ d, LearntFrom p data d →
    SendsExactly payload.length (2 ^ ns.takenLbads) (fun _ => True) (write p slba payload) d

/-- **When transfers are exact.** For every answer of the controller, exactly the reads whose byte
count fits in 64 bits are, and exactly the writes that are refused or whose block count fits in
16, each with an exponent that is below 64. -/
theorem transfers_exact_iff (p : Profile) (data : List UInt8) (ns : IdentifyNamespace)
    (hdata : IdentifyNamespace.readFromPrefix data = some ns) (slba : UInt64) :
    (∀ blockCount : UInt16, ReadExact p data ns slba blockCount ↔
      ns.takenLbads < 64 ∧ 2 ^ ns.takenLbads * blockCount.toNat < U64_SIZE) ∧
    ∀ payload : List UInt8, WriteExact p data ns slba payload ↔
      ns.takenLbads < 64 ∧ (Accepts (2 ^ ns.takenLbads) payload →
        payload.length / 2 ^ ns.takenLbads < 2 ^ 16) := by
  refine ⟨fun blockCount => ⟨fun h => readArithmetic_iff.mp h.1, fun h => ?_⟩,
    fun payload => ⟨fun h => writeArithmetic_iff.mp h.1, fun h => ?_⟩⟩
  · exact ⟨readArithmetic_iff.mpr h, fun d hd => read_sendsExactly (hd.ready hdata h.1) slba h.2⟩
  · exact ⟨writeArithmetic_iff.mpr h, fun d hd => write_sendsExactly (hd.ready hdata h.1) slba h.2⟩

/-- Eight blocks of a namespace with 512-byte blocks. -/
theorem transfers_exact_iff_512 : ∃ ns,
    IdentifyNamespace.readFromPrefix (namespaceData 9) = some ns ∧
      (ReadExact .debug (namespaceData 9) ns 0 8 ↔
        ns.takenLbads < 64 ∧ 2 ^ ns.takenLbads * (8 : UInt16).toNat < U64_SIZE) := by
  obtain ⟨ns, hdata, -⟩ := read_namespaceData (show 9 < 64 by decide)
  exact ⟨ns, hdata, (transfers_exact_iff .debug (namespaceData 9) ns hdata 0).1 8⟩

/-- A driver learns whatever is answered. -/
theorem exists_learntFrom {p : Profile} {lbads : Nat} (h : lbads < 64) :
    ∃ d, LearntFrom p (namespaceData lbads) d := by
  obtain ⟨ns, hdata, hlbads⟩ := read_namespaceData h
  have hsize : blockSizeOf p (namespaceData lbads) = .ok (2 ^ lbads) := by
    have htaken : ns.takenLbads = lbads := hlbads
    unfold blockSizeOf
    simp only [hdata, htaken]
    exact shift_exact_iff.mpr h
  obtain ⟨d, hret⟩ := namespaceBlockSize_learns (p := p) freshDriver_shaped freshDriver_mapped rfl
    (length_namespaceData lbads)
  rw [hsize] at hret
  exact ⟨d, freshDriver, d, _, freshDriver_shaped, rfl, hret, .refl⟩

/-- Not every write is: with blocks of one byte, a write of 65537 bytes asks for one block. -/
theorem write_sends_less : ¬ ∀ (p : Profile) (data : List UInt8) (ns : IdentifyNamespace),
    IdentifyNamespace.readFromPrefix data = some ns → ∀ (slba : UInt64) (payload : List UInt8),
      ∀ d, LearntFrom p data d → SendsExactly payload.length (2 ^ ns.takenLbads) (fun _ => True)
        (write p slba payload) d := by
  intro h
  obtain ⟨ns, hdata, hlbads⟩ := read_namespaceData (show 0 < 64 by decide)
  obtain ⟨d, hlearnt⟩ := exists_learntFrom (p := .release) (show 0 < 64 by decide)
  have htaken : ns.takenLbads = 0 := hlbads
  have hready : d.Ready 1 := by
    have hd := hlearnt.ready hdata (by omega)
    rwa [htaken, pow_zero] at hd
  -- blocks of one byte: 65537 of them fit in the transfer limit, and are cut to one
  have hlen : (List.replicate 65537 (0 : UInt8)).length = 65537 := List.length_replicate
  have hacc : Accepts 1 (List.replicate 65537 0) := by
    refine ⟨List.ne_nil_of_length_pos ?_, one_dvd _, ?_⟩
    all_goals
      rw [hlen]
      decide
  obtain ⟨offset, entry, hemits, hio, -, hcount⟩ :=
    write_emits (p := .release) 0 hready hacc fun hcut => by cases hcut.1
  -- the command moves one byte of them
  have hone : entry.blockCount = 1 := by
    rw [hcount, hlen]
    rfl
  rcases h .release (namespaceData 0) ns hdata 0 (List.replicate 65537 0) d hlearnt with hno | hsend
  · exact Nat.not_lt.mpr hio (hno.emits hemits)
  · have hbytes := (hsend.1.emits hemits hio).1
    rw [hone, hlen, htaken] at hbytes
    exact absurd hbytes (by decide)

end Nvmetoy
