import Nvmetoy.Repl.Commands
import Mathlib.Algebra.Order.Floor.Div

/-!
# The report of a read

`read` prints what it has read block by block, and of more than twenty blocks only the first and
the last ten. `report` says which lines that makes; `printRead_reports` is that `print_read` prints
these lines and no others, and that every block is shown or counted.
-/

namespace Nvmetoy

open Framework

namespace Repl

/-! ### What is to be printed -/

/-- The blocks of the data; the last may be short. -/
def blockTotal (data : List UInt8) (size : Nat) : Nat := data.length ⌈/⌉ size

/-- The bytes of the chunk of that index. -/
def blockAt (data : List UInt8) (size index : Nat) : List UInt8 :=
  (data.drop (index * size)).take size

/-- The line of a block: its LBA, its first bytes, and how many more there are. -/
def blockLine (lba : Nat) (block : List UInt8) : Str :=
  padLeft 10 (showNat lba) ++ ": ".toList ++ asciiLine (block.take 72) ++
    if 72 < block.length then "  [+".toList ++ showNat (block.length - 72) ++ " bytes]".toList
    else []

/-- The blocks that are shown first: all, or ten. -/
def headBlocks (total : Nat) : List Nat := if total ≤ 20 then List.range total else List.range 10

/-- The blocks that are shown after those left out. -/
def tailBlocks (total : Nat) : List Nat :=
  if total ≤ 20 then [] else List.range' (total - 10) 10

/-- How many are left out. -/
def omitted (total : Nat) : Nat := total - 20

/-- The line that says so. -/
def omission (total : Nat) : Str :=
  "         ... ".toList ++ showNat (omitted total) ++ " blocks omitted ...".toList

/-- The lines for all blocks, of which the first has LBA `lba`. -/
def report (lba : Nat) (data : List UInt8) (size : Nat) : List Str :=
  let line := fun index => blockLine (lba + index) (blockAt data size index)
  (headBlocks (blockTotal data size)).map line ++
    (if blockTotal data size ≤ 20 then [] else [omission (blockTotal data size)]) ++
    (tailBlocks (blockTotal data size)).map line

/-- The line above the blocks. -/
def headline (lba : Nat) (data : List UInt8) : Str :=
  "read ".toList ++ showNat data.length ++ " bytes from device-lba ".toList ++ showNat lba ++
    ":".toList

/-- The blocks that are shown and those left out are all blocks. -/
theorem blocks_accounted (total : Nat) :
    headBlocks total ++ List.range' 10 (omitted total) ++ tailBlocks total = List.range total := by
  unfold headBlocks tailBlocks omitted
  split
  · next h => simp [Nat.sub_eq_zero_of_le h]
  · next h =>
    obtain ⟨k, rfl⟩ : ∃ k, total = 10 + k + 10 := ⟨total - 20, by omega⟩
    have hmiddle : 10 + k + 10 - 20 = k := by omega
    have hend : 10 + k + 10 - 10 = 0 + 1 * (10 + k) := by omega
    rw [hmiddle, hend, List.range_eq_range', List.range_eq_range',
      show List.range' 10 k = List.range' (0 + 1 * 10) k from rfl, List.range'_append,
      List.range'_append]

/-! ### What is printed -/

variable {p : Profile} {data : List UInt8} {size total index n : Nat} {deviceLba : UInt64}

/-- A block further on is a block of the rest. -/
theorem blockAt_succ (data : List UInt8) (size index : Nat) :
    blockAt data size (index + 1) = blockAt (data.drop size) size index := by
  rw [blockAt, blockAt, List.drop_drop, Nat.succ_mul, Nat.add_comm]

/-- The data, chunk by chunk. -/
theorem chunks_eq (hsize : 0 < size) (data : List UInt8) :
    chunks size data = (List.range (blockTotal data size)).map (blockAt data size) := by
  induction data using chunks.induct size with
  | case1 data h =>
    obtain rfl := h.resolve_right hsize.ne'
    rw [chunks, if_pos h, blockTotal, List.length_nil, zero_ceilDiv]
    rfl
  | case2 data h ih =>
    have hlen := length_chunks hsize.ne' data
    have hrest := length_chunks hsize.ne' (data.drop size)
    -- one chunk off the front, and one block less to come
    have htotal : blockTotal data size = blockTotal (data.drop size) size + 1 := by
      rw [blockTotal, blockTotal, Nat.ceilDiv_eq_add_pred_div, Nat.ceilDiv_eq_add_pred_div,
        Nat.add_sub_assoc hsize, Nat.add_sub_assoc hsize, ← hlen, ← hrest, chunks, if_neg h,
        List.length_cons]
    rw [chunks, if_neg h, ih, htotal, List.range_succ_eq_map, List.map_cons, List.map_map]
    refine congrArg₂ List.cons ?_ (List.map_congr_left fun index _ => ?_)
    · rw [blockAt, Nat.zero_mul, List.drop_zero]
    · exact (blockAt_succ data size index).symm

/-- The LBA of a block, and its line. -/
theorem readLine_eq (hlba : deviceLba.toNat + index < U64_SIZE) (block : List UInt8) :
    ∃ lba, (p.addU64 deviceLba (UInt64.ofNat index) : Outcome IoError UInt64) = .ok lba ∧
      readLine lba block = blockLine (deviceLba.toNat + index) block := by
  have hindex : (UInt64.ofNat index).toNat = index := by
    refine UInt64.toNat_ofNat_of_lt' ?_
    exact (Nat.le_add_left index deviceLba.toNat).trans_lt hlba
  have hsum : (UInt64.ofNat (deviceLba.toNat + index)).toNat = deviceLba.toNat + index :=
    UInt64.toNat_ofNat_of_lt' hlba
  -- the label does not overflow, and the line is cut where it is too long
  refine ⟨UInt64.ofNat (deviceLba.toNat + index), ?_, ?_⟩
  · rw [Profile.addU64, hindex, Profile.fit_of_lt hlba]
    rfl
  · unfold readLine blockLine
    rw [hsum]
    split
    · next h =>
      have h : 72 < block.length := h
      rw [if_pos h, ← List.append_assoc, ← List.append_assoc]
      rfl
    · next h =>
      have h : ¬ 72 < block.length := h
      rw [if_neg h, List.append_nil, List.take_of_length_le (Nat.le_of_not_lt h)]

/-- The lines that the loop prints for a block. -/
def linesAt (lba : Nat) (data : List UInt8) (size total index : Nat) : List Str :=
  if 20 < total ∧ 10 ≤ index ∧ index < total - 10 then
    if index = 10 then [omission total] else []
  else [blockLine (lba + index) (blockAt data size index)]

/-- **The loop**, by induction on the blocks that are left. -/
theorem printChunks_eq (hlba : deviceLba.toNat + (index + n) ≤ U64_SIZE) :
    printChunks p deviceLba total index ((List.range' index n).map (blockAt data size)) =
      printLines ((List.range' index n).flatMap (linesAt deviceLba.toNat data size total)) := by
  induction n generalizing index with
  | zero => rfl
  | succ n ih =>
    have hrest := @ih (index + 1) (by omega)
    rw [List.range'_succ, List.map_cons, List.flatMap_cons, printChunks, hrest]
    split
    · -- an omitted chunk prints nothing, but for the first of them
      next hskip =>
      have hskip : 20 < total ∧ 10 ≤ index ∧ index < total - 10 := hskip
      rw [linesAt, if_pos hskip]
      split
      · next hfirst =>
        have hfirst : index = 10 := hfirst
        have homitted : omittedLine (total - HEAD - TAIL) = omission total := by
          rw [Nat.sub_sub]
          rfl
        rw [if_pos hfirst, homitted]
        rfl
      · next hlater =>
        have hlater : index ≠ 10 := hlater
        rw [if_neg hlater]
        rfl
    · next hshow =>
      have hshow : ¬ (20 < total ∧ 10 ≤ index ∧ index < total - 10) := hshow
      have hindex : deviceLba.toNat + index < U64_SIZE := by omega
      obtain ⟨lba, hsum, hline⟩ := readLine_eq (p := p) hindex (blockAt data size index)
      rw [linesAt, if_neg hshow, hsum, Method.lift_ok_bind, hline]
      rfl

/-- Blocks that are shown have their lines. -/
theorem flatMap_linesAt_shown {lba : Nat} {indices : List Nat}
    (h : ∀ index ∈ indices, ¬ (20 < total ∧ 10 ≤ index ∧ index < total - 10)) :
    indices.flatMap (linesAt lba data size total) =
      indices.map fun index => blockLine (lba + index) (blockAt data size index) := by
  induction indices with
  | nil => rfl
  | cons index rest ih =>
    rw [List.flatMap_cons, List.map_cons, linesAt, if_neg (h index List.mem_cons_self),
      ih fun other hother => h other (List.mem_cons_of_mem _ hother)]
    rfl

/-- Those left out have one line together. -/
theorem flatMap_linesAt_omitted {lba : Nat} (h : 20 < total) :
    (List.range' 10 (omitted total)).flatMap (linesAt lba data size total) = [omission total] := by
  obtain ⟨k, hk⟩ : ∃ k, omitted total = k + 1 := ⟨total - 21, by rw [omitted]; omega⟩
  have htotal : total = k + 21 := by
    rw [omitted] at hk
    omega
  -- the first of them prints it, the others nothing
  have hrest : (List.range' 11 k).flatMap (linesAt lba data size total) = [] := by
    refine List.flatMap_eq_nil_iff.mpr fun index hmem => ?_
    rw [List.mem_range'_1] at hmem
    rw [linesAt, if_pos (by omega), if_neg (by omega)]
  rw [hk, List.range'_succ, List.flatMap_cons, hrest, linesAt, if_pos (by omega), if_pos rfl,
    List.append_nil]

/-- The lines of all blocks make the report. -/
theorem flatMap_linesAt (lba : Nat) (data : List UInt8) (size : Nat) :
    (List.range (blockTotal data size)).flatMap (linesAt lba data size (blockTotal data size)) =
      report lba data size := by
  unfold report
  generalize blockTotal data size = total
  -- the blocks at the front, the omitted ones, and those at the back
  have hhead : (headBlocks total).flatMap (linesAt lba data size total) =
      (headBlocks total).map fun index => blockLine (lba + index) (blockAt data size index) := by
    refine flatMap_linesAt_shown fun index hmem => ?_
    unfold headBlocks at hmem
    split at hmem
    · omega
    · rw [List.mem_range] at hmem
      omega
  have htail : (tailBlocks total).flatMap (linesAt lba data size total) =
      (tailBlocks total).map fun index => blockLine (lba + index) (blockAt data size index) := by
    refine flatMap_linesAt_shown fun index hmem => ?_
    unfold tailBlocks at hmem
    split at hmem
    · cases hmem
    · rw [List.mem_range'_1] at hmem
      omega
  rw [← blocks_accounted total, List.flatMap_append, List.flatMap_append, hhead, htail]
  by_cases h : total ≤ 20
  · rw [if_pos h, omitted, Nat.sub_eq_zero_of_le h]
    rfl
  · rw [if_neg h, flatMap_linesAt_omitted (Nat.lt_of_not_le h)]

/-- **Every block is accounted for.** Where no LBA overflows, `print_read` prints its headline and
the report, and the blocks that the report shows and those it says are left out are all blocks. -/
theorem printRead_reports (p : Profile) (deviceLba : UInt64) (data : List UInt8) (size : Nat)
    (hsize : 0 < size) (hlba : deviceLba.toNat + blockTotal data size ≤ U64_SIZE) :
    printRead p deviceLba data size =
        printLines (headline deviceLba.toNat data :: report deviceLba.toNat data size) ∧
      headBlocks (blockTotal data size) ++ List.range' 10 (omitted (blockTotal data size)) ++
        tailBlocks (blockTotal data size) = List.range (blockTotal data size) := by
  refine ⟨?_, blocks_accounted _⟩
  have hcount : (divCeil data.length size : Outcome IoError Nat) = .ok (blockTotal data size) := by
    rw [divCeil, if_neg hsize.ne', blockTotal, Nat.ceilDiv_eq_add_pred_div,
      Nat.add_sub_assoc hsize]
  -- there are as many chunks as blocks, the last of them perhaps short
  rw [printRead, hcount, Method.lift_ok_bind, chunks_eq hsize, List.range_eq_range',
    printChunks_eq (by omega), ← List.range_eq_range', flatMap_linesAt]
  rfl

/-- Twenty-one blocks, the last of one byte: one is left out. -/
theorem printRead_reports_short :
    printRead .debug 100 (List.replicate 81 0x41) 4 =
        printLines (headline 100 (List.replicate 81 0x41) ::
          report 100 (List.replicate 81 0x41) 4) ∧
      headBlocks 21 ++ List.range' 10 1 ++ tailBlocks 21 = List.range 21 := by
  have htotal : blockTotal (List.replicate 81 0x41) 4 = 21 := by
    rw [blockTotal, List.length_replicate, Nat.ceilDiv_eq_add_pred_div]
  have h := printRead_reports .debug 100 (List.replicate 81 0x41) 4 (by decide)
    (by rw [htotal]; decide)
  rw [htotal] at h
  exact h

end Repl

end Nvmetoy
