import Nvmetoy.Repl.Confinement
import Nvmetoy.Transfers

/-!
# Refused requests

A request can be refused by the driver, which checks its size, or before that by the REPL, which
checks its blocks against the map. In both cases nothing has been done yet: the driver knows its
block size from `open`, so it need not ask for it, and `poke` checks its block before it reads
it. What a refused line still does is to allocate the payload it will not send.

* `LineRange` — the blocks that a line names.
* `Refuses` — the command ends with an error and has at most allocated.
* `refused_unchanged` — refused requests leave the driver and the device alone.
-/

namespace Nvmetoy

open Framework

namespace Repl

open NvmeUserspaceDriver

/-- The blocks a line names, with the first and their number. The text of a `write` is in memory
next to its line, so it cannot be longer than half of the address space. -/
inductive LineRange (blocks : FileBlocks) (line : Str) : UInt64 → Nat → Prop where
  | read {lba n : Str} {deviceLba count : UInt64}
      (htokens : splitWhitespace line = ["read".toList, lba, n])
      (hlba : parseU64 lba = .ok deviceLba) (hn : parseU64 n = .ok count) :
      LineRange blocks line deviceLba count.toNat
  | write {lba first : Str} {rest : List Str} {deviceLba : UInt64}
      (htokens : splitWhitespace line = "write".toList :: lba :: first :: rest)
      (hlba : parseU64 lba = .ok deviceLba)
      (htext : (joinSpace (first :: rest)).bytes.length ≤ 2 ^ 62) :
      LineRange blocks line deviceLba
        (((joinSpace (first :: rest)).bytes.length + (blockSize blocks - 1)) / blockSize blocks)
  | fillOne {lba ch : Str} {deviceLba : UInt64} {byte : UInt8}
      (htokens : splitWhitespace line = ["fill".toList, lba, ch])
      (hlba : parseU64 lba = .ok deviceLba) (hch : parseAsciiChar ch = .ok byte) :
      LineRange blocks line deviceLba 1
  | fill {lba ch n : Str} {deviceLba count : UInt64} {byte : UInt8}
      (htokens : splitWhitespace line = ["fill".toList, lba, ch, n])
      (hlba : parseU64 lba = .ok deviceLba) (hch : parseAsciiChar ch = .ok byte)
      (hn : parseU64 n = .ok count) : LineRange blocks line deviceLba count.toNat
  | peek {lba offset len : Str} {deviceLba : UInt64} {at_ n : Nat}
      (htokens : splitWhitespace line = ["peek".toList, lba, offset, len])
      (hlba : parseU64 lba = .ok deviceLba) (hoffset : parseUsize offset = .ok at_)
      (hlen : parseUsize len = .ok n) : LineRange blocks line deviceLba 1
  | poke {lba offset first : Str} {rest : List Str} {deviceLba : UInt64} {at_ : Nat}
      (htokens : splitWhitespace line = "poke".toList :: lba :: offset :: first :: rest)
      (hlba : parseU64 lba = .ok deviceLba) (hoffset : parseUsize offset = .ok at_) :
      LineRange blocks line deviceLba 1

/-- The command ends with an error, and has at most allocated before. -/
def Refuses {α : Type} (m : Command α) : Prop :=
  (m ()).Sat Prog.Any (fun o => ∃ bytes, o = .alloc bytes) fun x => ∃ e, x.1 = .err e

variable {p : Profile} {blocks : FileBlocks} {B : Nat} {α β : Type}

/-- A method that fails refuses. -/
theorem refuses_fail (e : IoError) : Refuses (Method.fail e : Command α) := ⟨e, rfl⟩

/-- What follows a refused command is not run. -/
theorem Refuses.bind {m : Command α} (h : Refuses m) (f : α → Command β) : Refuses (m >>= f) := by
  refine Method.sat_bind h ?_ ?_ ?_
  · intro a t ht
    obtain ⟨e, he⟩ := ht
    cases he
  · intro e t _
    exact ⟨e, rfl⟩
  · intro why t ht
    obtain ⟨e, he⟩ := ht
    cases he

/-- An allocation within the limits of the process comes first. -/
theorem refuses_allocVec {bytes : Nat} {f : Unit → Command β} (h : bytes < 2 ^ 63)
    (hf : Refuses (f ())) : Refuses (allocVec bytes >>= f) := by
  unfold Refuses allocVec
  rw [if_pos h]
  exact ⟨⟨bytes, rfl⟩, fun _ _ => hf⟩

/-! ### The commands -/

section Commands

variable {deviceLba : UInt64}

/-- The map refuses a range that it does not cover. -/
theorem check_err (p : Profile) (hfits : ∀ e ∈ blocks.extents, e.Fits) (deviceLba count : UInt64)
    (hnot : ¬ InFile blocks deviceLba.toNat count.toNat) :
    ∃ e, blocks.check p deviceLba count = .err e := by
  refine FileBlocks.check_refuses hfits fun hall => hnot fun k hk => ?_
  exact hall _ (Nat.le_add_right _ k) (Nat.add_lt_add_left hk _)

/-- A read outside the file is refused by the check. -/
theorem refuses_confinedRead (hfits : ∀ e ∈ blocks.extents, e.Fits) (count : UInt64)
    (hnot : ¬ InFile blocks deviceLba.toNat count.toNat) :
    Refuses (confinedRead p blocks deviceLba count) := by
  obtain ⟨e, he⟩ := check_err p hfits deviceLba count hnot
  rw [confinedRead, he]
  exact refuses_fail e

/-- A payload of whole blocks is refused for the blocks it would fill. -/
theorem refuses_confinedWrite (hfits : ∀ e ∈ blocks.extents, e.Fits) {data : List UInt8}
    {count : Nat} (hB : 0 < blockSize blocks) (hpos : 0 < count) (hcount : count < U64_SIZE)
    (hlen : data.length = count * blockSize blocks)
    (hnot : ¬ InFile blocks deviceLba.toNat count) :
    Refuses (confinedWrite p blocks deviceLba data) := by
  have hdata : data.isEmpty = false := by
    rw [List.isEmpty_eq_false_iff, ← List.length_pos_iff, hlen]
    exact Nat.mul_pos hpos hB
  have hrefused : payloadRefused blocks data = .ok false := by
    simp [payloadRefused, hdata, remUsize, hB.ne', Outcome.bind, hlen]
  have hdiv : (divUsize data.length (blockSize blocks) : Outcome IoError Nat) = .ok count := by
    rw [divUsize, if_neg hB.ne', hlen, Nat.mul_div_cancel _ hB]
  have hcast : (UInt64.ofNat count).toNat = count := UInt64.toNat_ofNat_of_lt' hcount
  -- the payload is whole blocks, so that it comes to the check, which fails
  obtain ⟨e, he⟩ := check_err p hfits deviceLba (UInt64.ofNat count) (by rwa [hcast])
  rw [confinedWrite, hrefused]
  simp only [Method.lift_ok_bind, Bool.false_eq_true, if_false, hdiv, he]
  exact refuses_fail e

theorem refuses_fill (hfits : ∀ e ∈ blocks.extents, e.Fits) {byte : UInt8} {count : UInt64}
    (hB : 0 < blockSize blocks) (hpos : 0 < count.toNat)
    (hnot : ¬ InFile blocks deviceLba.toNat count.toNat) :
    Refuses (fill p blocks deviceLba byte count) := by
  unfold fill
  split
  · exact refuses_fail _
  cases hbytes : fillBytes blocks count with
  | none => exact refuses_fail _
  | some bytes =>
    obtain ⟨rfl, hmax⟩ := fillBytes_eq_some.mp hbytes
    -- a fill within the limit is allocated, and then refused by the check
    refine refuses_allocVec (Nat.lt_of_le_of_lt hmax (by decide)) ?_
    refine Refuses.bind ?_ _
    exact refuses_confinedWrite hfits hB hpos count.toNat_lt List.length_replicate hnot

theorem refuses_peek (hfits : ∀ e ∈ blocks.extents, e.Fits) {offset len : Nat}
    (hnot : ¬ InFile blocks deviceLba.toNat 1) : Refuses (peek p blocks deviceLba offset len) := by
  unfold peek
  split
  · exact refuses_fail _
  · exact (refuses_confinedRead hfits 1 hnot).bind _

/-- `poke` would read its block first, and that is refused. -/
theorem refuses_poke (hfits : ∀ e ∈ blocks.extents, e.Fits) {offset : Nat} {text : Str}
    (hnot : ¬ InFile blocks deviceLba.toNat 1) : Refuses (poke p blocks deviceLba offset text) := by
  unfold poke
  split
  · exact refuses_fail _
  split
  · exact refuses_fail _
  · exact (refuses_confinedRead hfits 1 hnot).bind _

/-- The text is padded and copied before the blocks it fills are checked. -/
theorem refuses_writeBlocks (hfits : ∀ e ∈ blocks.extents, e.Fits) {bytes : List UInt8}
    (hB : 0 < blockSize blocks) (hmax : blockSize blocks ≤ MAX_TRANSFER_BYTES)
    (hbytes : bytes.length ≤ 2 ^ 62)
    (hnot : ¬ InFile blocks deviceLba.toNat
      ((bytes.length + (blockSize blocks - 1)) / blockSize blocks)) :
    Refuses (writeBlocks p blocks deviceLba bytes) := by
  unfold writeBlocks
  by_cases hempty : bytes.isEmpty
  · rw [if_pos hempty]
    exact refuses_fail _
  rw [if_neg hempty]
  have hne : 0 < bytes.length := by
    rw [List.length_pos_iff]
    simpa using hempty
  have hle : padded (blockSize blocks) bytes.length ≤ bytes.length + (blockSize blocks - 1) :=
    Nat.div_mul_le_self _ _
  have hsmall : MAX_TRANSFER_BYTES ≤ 2 ^ 21 := by decide
  have hlt : padded (blockSize blocks) bytes.length < 2 ^ 63 := by omega
  -- the text is short enough for the padding to be computed
  have hpad : paddedLength p blocks bytes = .ok (padded (blockSize blocks) bytes.length) := by
    rw [paddedLength, divCeil, if_neg hB.ne']
    exact Profile.fit_of_lt (Nat.lt_trans hlt (by decide))
  rw [hpad, Method.lift_ok_bind]
  refine refuses_allocVec hlt ?_
  have hfitsIn : bytes.length ≤ padded (blockSize blocks) bytes.length := le_padded _ hB
  have hcopy : copyInto (List.replicate (padded (blockSize blocks) bytes.length) 0) 0 bytes =
      .ok ((List.replicate (padded (blockSize blocks) bytes.length) 0).take 0 ++ bytes ++
        (List.replicate (padded (blockSize blocks) bytes.length) 0).drop (0 + bytes.length)) :=
    if_pos (by rw [List.length_replicate]; omega)
  rw [hcopy, Method.lift_ok_bind]
  -- so the check is reached, with just as many blocks
  refine refuses_confinedWrite hfits hB ?_ ?_ ?_ hnot
  · exact Nat.div_pos (by omega) hB
  · exact Nat.lt_of_le_of_lt (Nat.div_le_self _ _) (by simp only [U64_SIZE]; omega)
  · rw [length_copyInto hcopy, List.length_replicate, padded]

end Commands

/-- **A line is refused** for the blocks it names, before it has touched any. -/
theorem refuses_line (hfits : ∀ e ∈ blocks.extents, e.Fits) (hB : 0 < blockSize blocks)
    (hmax : blockSize blocks ≤ MAX_TRANSFER_BYTES) {line : Str} {deviceLba : UInt64} {count : Nat}
    (h : LineRange blocks line deviceLba count) (hpos : 0 < count)
    (hnot : ¬ InFile blocks deviceLba.toNat count) : Refuses (runReplLine p blocks line) := by
  -- an error of the command is the error of the line
  have hrun {tokens : List Str} {command : Command Unit} (htokens : splitWhitespace line = tokens)
      (hcommand : dispatch p blocks tokens = some command) (hrefuses : Refuses command) :
      Refuses (runReplLine p blocks line) := by
    rw [runReplLine, htokens, hcommand]
    exact hrefuses.bind _
  cases h with
  | read htokens hlba hn =>
    refine hrun htokens rfl ?_
    rw [runRead, hlba, Method.lift_ok_bind, hn, Method.lift_ok_bind]
    exact (refuses_confinedRead hfits _ hnot).bind _
  | write htokens hlba htext =>
    refine hrun htokens rfl ?_
    rw [runWrite, hlba, Method.lift_ok_bind]
    exact (refuses_writeBlocks hfits hB hmax htext hnot).bind _
  | fillOne htokens hlba hch =>
    refine hrun htokens rfl ?_
    rw [runFill, hlba, Method.lift_ok_bind, hch, Method.lift_ok_bind, Method.lift_ok_bind]
    exact refuses_fill hfits hB (by decide) hnot
  | fill htokens hlba hch hn =>
    refine hrun htokens rfl ?_
    rw [runFill, hlba, Method.lift_ok_bind, hch, Method.lift_ok_bind, hn, Method.lift_ok_bind]
    exact refuses_fill hfits hB hpos hnot
  | peek htokens hlba hoffset hlen =>
    refine hrun htokens rfl ?_
    rw [runPeek, hlba, Method.lift_ok_bind, hoffset, Method.lift_ok_bind, hlen,
      Method.lift_ok_bind]
    exact refuses_peek hfits hnot
  | poke htokens hlba hoffset =>
    refine hrun htokens rfl ?_
    rw [runPoke, hlba, Method.lift_ok_bind, hoffset, Method.lift_ok_bind]
    exact refuses_poke hfits hnot

/-- On the driver, a refused command issues its allocations, and leaves the driver as it was. -/
theorem sat_onDriver_refuses {command : Command α} (d : NvmeUserspaceDriver)
    (h : Refuses command) :
    (onDriver p command d).Sat Prog.Any (fun o => ∃ bytes, o = .alloc bytes) fun x =>
      (∃ e, x.1 = .err e) ∧ x.2 = d := by
  -- the handler of an allocation keeps the driver
  have hserve : ∀ o t, (∃ bytes, o = .alloc bytes) → d = t →
      (serve p o t).Sat Prog.Any (fun o => ∃ bytes, o = Op.alloc bytes) fun x =>
        d = x.2 ∧ ∃ r, x.1 = .ok r := by
    intro o t ho ht
    obtain ⟨bytes, rfl⟩ := ho
    exact ⟨⟨bytes, rfl⟩, fun _ _ => ⟨ht, (), rfl⟩⟩
  have hrun : ((command ()).interp (serve p) d).Sat Prog.Any (fun o => ∃ bytes, o = Op.alloc bytes)
      fun x => x.2 = d ∧ ∃ y, x.1 = .ok y ∧ ∃ e, y.1 = .err e := by
    -- no handler ends in an error or a panic, so the command's own error is what is left
    refine Prog.sat_interp h rfl hserve ?_ ?_ ?_ ?_
    · intro o r t _ hr
      exact ⟨hr.1, trivial⟩
    · intro o e t _ hr
      obtain ⟨r, hr⟩ := hr.2
      cases hr
    · intro o why t _ hr
      obtain ⟨r, hr⟩ := hr.2
      cases hr
    · intro y t hy ht
      exact ⟨ht.symm, y, rfl, hy⟩
  refine Method.sat_bind hrun ?_ ?_ ?_
  · intro y t hy
    obtain ⟨ht, y', hy', he⟩ := hy
    obtain rfl := Outcome.ok.inj hy'
    exact ⟨he, ht⟩
  · intro e t ht
    obtain ⟨-, y, hy, -⟩ := ht
    cases hy
  · intro why t ht
    obtain ⟨-, y, hy, -⟩ := ht
    cases hy

/-- A call that the driver refuses by its own checks, when its namespace has blocks of `B` bytes:
no blocks, an empty payload, one that is not whole blocks, or too many bytes. -/
def CallRefused (p : Profile) (B : Nat) : Call → Prop
  | .identifyController => False
  | .read _ blockCount => ReadRefused p B blockCount
  | .write _ data => ¬ Accepts B data

/-- **A refused request leaves everything as it was.** On every driver that `open` and any calls
have left behind, the block size is known without asking, a refused call does nothing at all, and
a refused line of the REPL does nothing but allocate. -/
theorem refused_unchanged (p : Profile) (bdf : Str) (nsid : UInt32) (d : NvmeUserspaceDriver)
    (h : Reachable p bdf nsid d) :
    ∃ B, namespaceBlockSize p d.nsid d = .pure (.ok B, d) ∧
      (∀ call, CallRefused p B call → ∃ e, perform p call d = .pure (.err e, d)) ∧
      ∀ (blocks : FileBlocks) (line : Str) (deviceLba : UInt64) (count : Nat),
        blockSize blocks = B → blockSize blocks ≤ MAX_TRANSFER_BYTES →
        (∀ e ∈ blocks.extents, e.Fits) → LineRange blocks line deviceLba count → 0 < count →
        ¬ InFile blocks deviceLba.toNat count →
        (onDriver p (runReplLine p blocks line) d).Sat Prog.Any
          (fun o => ∃ bytes, o = .alloc bytes) fun x => (∃ e, x.1 = .err e) ∧ x.2 = d := by
  obtain ⟨-, B, hd⟩ := h.ready
  refine ⟨B, namespaceBlockSize_cached hd.cached, ?_, ?_⟩
  · -- the calls of the driver refuse before they send anything
    intro call hrefused
    cases call with
    | identifyController => exact hrefused.elim
    | read slba blockCount => exact read_refused hd slba hrefused
    | write slba data =>
      obtain ⟨e, he⟩ := write_refused hd slba hrefused (p := p)
      refine ⟨e, ?_⟩
      rw [perform, Method.bind_apply, he]
      rfl
  · -- and the commands of the REPL before they call the driver
    intro blocks line deviceLba count hsize hmax hfits hrange hpos hnot
    exact sat_onDriver_refuses d (refuses_line hfits (hsize ▸ hd.pos) hmax hrange hpos hnot)

/-- A driver of 512-byte blocks refuses a write of three bytes. -/
theorem refused_unchanged_write : ∃ d, Reachable .release [] 1 d ∧
    ∃ e, perform .release (.write 0 [1, 2, 3]) d = .pure (.err e, d) := by
  obtain ⟨d, hret, -, hready, -⟩ := opens () .release [] 1 (show 9 < 64 by decide)
  obtain ⟨B, hsize, hcalls, -⟩ := refused_unchanged .release [] 1 d (.opened hret)
  rw [namespaceBlockSize_cached hready.cached] at hsize
  obtain rfl : 2 ^ 9 = B := by simpa using hsize
  exact ⟨d, .opened hret, hcalls (.write 0 [1, 2, 3]) (show ¬ Accepts (2 ^ 9) [1, 2, 3] by decide)⟩

end Repl

end Nvmetoy
