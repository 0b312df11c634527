import Mathlib.Data.List.Basic
import Mathlib.Tactic.Ring

/-!
# Byte memory and little-endian numbers

A memory gives one byte per address. `Mem.read` and `Mem.write` move byte lists,
and the lemmas say when a write is seen by a read: entirely (`read_write_self`), or
not at all (`read_write_of_disjoint`). A longer access splits into shorter ones
(`read_add`, `write_append`), which is what makes a transfer through scattered
pages equal to one contiguous copy.

`toLe` and `ofLe` are the little-endian bytes of a number; `toLe n v` keeps the low
`8 * n` bits of `v` (`ofLe_toLe`). `leField` reads a number at an offset of a byte
list, and the lemmas on it peel a structure laid out as an append of its fields.
-/

namespace Framework

/-- One byte per address. -/
abbrev Mem : Type := Nat → UInt8

namespace Mem

variable {m m' : Mem} {a b n k : Nat} {bs cs : List UInt8}

/-- The `n` bytes from address `a`. -/
def read (m : Mem) (a n : Nat) : List UInt8 := (List.range n).map fun i => m (a + i)

/-- Store the bytes `bs` from address `a`. -/
def write (m : Mem) (a : Nat) (bs : List UInt8) : Mem := fun x =>
  if a ≤ x then (bs[x - a]?).getD (m x) else m x

@[simp] theorem length_read : (m.read a n).length = n := by simp [read]

@[simp] theorem write_nil : m.write a [] = m := by
  funext x; simp [write]

theorem getElem_read {i : Nat} (h : i < (m.read a n).length) : (m.read a n)[i] = m (a + i) := by
  simp [read]

/-- Reads see only the addresses they cover. -/
theorem read_congr (h : ∀ x, a ≤ x → x < a + n → m x = m' x) : m.read a n = m'.read a n := by
  unfold read
  refine List.map_congr_left fun i hi => h _ (Nat.le_add_right a i) ?_
  exact Nat.add_lt_add_left (List.mem_range.mp hi) a

theorem write_of_lt {x : Nat} (h : x < a) : m.write a bs x = m x := by
  simp [write, Nat.not_le.mpr h]

theorem write_of_ge {x : Nat} (h : a + bs.length ≤ x) : m.write a bs x = m x := by
  have h_none : bs[x - a]? = none := List.getElem?_eq_none (by omega)
  simp [write, h_none]

/-- A write leaves every address outside it alone. -/
theorem write_of_outside {x : Nat} (h : x < a ∨ a + bs.length ≤ x) : m.write a bs x = m x :=
  h.elim write_of_lt write_of_ge

theorem write_inside {i : Nat} (h : i < bs.length) : m.write a bs (a + i) = bs[i] := by
  simp [write, h]

/-- What was just written is read back. -/
@[simp] theorem read_write_self : (m.write a bs).read a bs.length = bs := by
  refine List.ext_getElem (by simp) fun i h₁ h₂ => ?_
  rw [getElem_read, write_inside h₂]

/-- A write elsewhere is not seen. -/
theorem read_write_of_disjoint (h : b + n ≤ a ∨ a + bs.length ≤ b) :
    (m.write a bs).read b n = m.read b n :=
  read_congr fun x _ _ => write_of_outside (by omega)

/-- A read splits. -/
theorem read_add : m.read a (n + k) = m.read a n ++ m.read (a + n) k := by
  simp [read, List.range_add, Nat.add_assoc]

/-- A write splits. -/
theorem write_append : m.write a (bs ++ cs) = (m.write a bs).write (a + bs.length) cs := by
  funext x
  -- the address lies before both parts, in the first, in the second or behind them
  by_cases hx : x < a
  · rw [write_of_lt hx, write_of_lt (by omega), write_of_lt hx]
  by_cases hb : x < a + bs.length
  · obtain ⟨i, rfl⟩ := Nat.exists_eq_add_of_le (Nat.not_lt.mp hx)
    have hi : i < bs.length := by omega
    rw [write_of_lt hb, write_inside hi, write_inside (by simp; omega),
      List.getElem_append_left hi]
  · by_cases hc : x < a + bs.length + cs.length
    · obtain ⟨i, rfl⟩ := Nat.exists_eq_add_of_le (Nat.not_lt.mp hb)
      have hi : i < cs.length := by omega
      rw [write_inside hi, Nat.add_assoc, write_inside (by simp; omega),
        List.getElem_append_right (by omega)]
      simp
    · rw [write_of_ge (by simp; omega), write_of_ge (by omega), write_of_ge (by omega)]

/-- Writing back what was read, with a slice replaced, is writing the slice. -/
theorem write_patched {i : Nat} (h : i + bs.length ≤ n) :
    m.write a ((m.read a n).take i ++ bs ++ (m.read a n).drop (i + bs.length)) =
      m.write (a + i) bs := by
  funext x
  have hlen : ((m.read a n).take i ++ bs ++ (m.read a n).drop (i + bs.length)).length = n := by
    simp only [List.length_append, List.length_take, List.length_drop, length_read]
    omega
  by_cases hx : x < a ∨ a + n ≤ x
  · rw [write_of_outside (by rwa [hlen]), write_of_outside (by omega)]
  obtain ⟨k, rfl⟩ := Nat.exists_eq_add_of_le (show a ≤ x by omega)
  have hk : k < n := by omega
  rw [write_inside (by rw [hlen]; exact hk)]
  rcases Nat.lt_or_ge k i with hlow | hlow
  · -- before the slice
    rw [write_of_lt (by omega), List.getElem_append_left (by simp; omega),
      List.getElem_append_left (by simp; omega), List.getElem_take, getElem_read]
  -- in it
  rcases Nat.lt_or_ge k (i + bs.length) with hin | hin
  · obtain ⟨j, rfl⟩ := Nat.exists_eq_add_of_le hlow
    have hj : j < bs.length := by omega
    rw [← Nat.add_assoc, write_inside hj, List.getElem_append_left (by simp; omega),
      List.getElem_append_right (by simp)]
    congr 1
    simp
    omega
  · -- after it
    rw [write_of_ge (by omega), List.getElem_append_right (by simp; omega), List.getElem_drop,
      getElem_read]
    congr 2
    simp
    omega

/-- Part of a read. -/
theorem read_drop_take {i : Nat} (h : i + k ≤ n) :
    ((m.read a n).drop i).take k = m.read (a + i) k := by
  refine List.ext_getElem (by simp; omega) fun j h₁ h₂ => ?_
  simp [getElem_read, Nat.add_assoc]

end Mem

/-! ### Little-endian numbers -/

/-- The low `n` bytes of `v`, least significant first. -/
def toLe : Nat → Nat → List UInt8
  | 0, _ => []
  | n + 1, v => UInt8.ofNat v :: toLe n (v / 256)

/-- The number with these bytes, least significant first. -/
def ofLe : List UInt8 → Nat
  | [] => 0
  | b :: bs => b.toNat + 256 * ofLe bs

@[simp] theorem length_toLe (n v : Nat) : (toLe n v).length = n := by
  induction n generalizing v with
  | zero => rfl
  | succ n ih => simp [toLe, ih]

/-- Encoding keeps exactly the low bits. -/
@[simp] theorem ofLe_toLe (n v : Nat) : ofLe (toLe n v) = v % 256 ^ n := by
  induction n generalizing v with
  | zero => simp [toLe, ofLe, Nat.mod_one]
  | succ n ih =>
    have hpow : 256 ^ (n + 1) = 256 * 256 ^ n := by ring
    simp only [toLe, ofLe, ih, hpow, Nat.mod_mul]
    simp

/-- The `n`-byte number at offset `off` of a byte list. -/
def leField (bs : List UInt8) (off n : Nat) : Nat := ofLe ((bs.drop off).take n)

/-- The first field of a layout. -/
theorem leField_zero (n v : Nat) (rest : List UInt8) :
    leField (toLe n v ++ rest) 0 n = v % 256 ^ n := by
  simp [leField]

/-- A later field of a layout: skip the first. -/
theorem leField_add (n v off k : Nat) (rest : List UInt8) (h : n ≤ off) :
    leField (toLe n v ++ rest) off k = leField rest (off - n) k := by
  have hdrop : (toLe n v).drop off = [] := List.drop_eq_nil_of_le (by simpa using h)
  simp [leField, List.drop_append, hdrop]

/-- A field of one byte. -/
theorem leField_one (bs : List UInt8) (off : Nat) : leField bs off 1 = (bs[off]?.getD 0).toNat := by
  cases h : bs.drop off with
  | nil =>
    have hnone : bs[off]? = none := List.getElem?_eq_none (List.drop_eq_nil_iff.mp h)
    simp [leField, h, ofLe, hnone]
  | cons b rest =>
    have hsome : bs[off]? = some b := by
      rw [← List.head?_drop, h]
      rfl
    simp [leField, h, ofLe, hsome]

end Framework
