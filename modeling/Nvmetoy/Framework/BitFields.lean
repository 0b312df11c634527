import Nvmetoy.Framework.Bytes
import Mathlib.Data.Nat.Bitwise

/-!
# Numbers laid out in bit fields

A layout is a list of fields, each with the bits it takes and the number these hold. A number is
laid out so (`Laid`) when the fields do not overlap, each is found in its bits, and every bit
outside them is zero, so that the fields are all there is in it.

Layouts are put together from the low end (`Laid.join`), as the little-endian bytes of a
structure are (`Laid.toLe_append`).
-/

namespace Framework

/-- The `width` bits of `v` from bit `pos` on. -/
def bits (v pos width : Nat) : Nat := v / 2 ^ pos % 2 ^ width

/-- A field: its lowest bit, the number of its bits, and what they hold. -/
structure BitField where
  pos : Nat
  width : Nat
  value : Nat
deriving DecidableEq, Repr

namespace BitField

/-- The bit is none of the field's. -/
def Misses (f : BitField) (k : Nat) : Prop := k < f.pos ∨ f.pos + f.width ≤ k

/-- The field, `n` bits further up. -/
def shift (n : Nat) (f : BitField) : BitField := { f with pos := n + f.pos }

@[simp] theorem shift_mk (n pos width value : Nat) :
    shift n ⟨pos, width, value⟩ = ⟨n + pos, width, value⟩ := rfl

@[simp] theorem shift_comp_shift (m n : Nat) : shift m ∘ shift n = shift (m + n) := by
  funext f
  rw [Function.comp_apply, shift, shift, shift, Nat.add_assoc]

end BitField

/-- The number consists of these fields, from the lowest to the highest. -/
structure Laid (v : Nat) (fields : List BitField) : Prop where
  apart : fields.Pairwise fun f g => f.pos + f.width ≤ g.pos
  holds : ∀ f ∈ fields, bits v f.pos f.width = f.value
  blank : ∀ k, (∀ f ∈ fields, f.Misses k) → v.testBit k = false

/-- All fields lie in the low `n` bits. -/
def Within (n : Nat) (fields : List BitField) : Prop := ∀ f ∈ fields, f.pos + f.width ≤ n

variable {v low high n pos width : Nat} {fields fields' : List BitField}

theorem Laid.nil : Laid 0 [] where
  apart := .nil
  holds := fun _ hf => by cases hf
  blank := fun _ _ => Nat.zero_testBit _

/-- A number that fits is a field of its own. -/
theorem Laid.single (h : v < 2 ^ n) : Laid v [⟨0, n, v⟩] where
  apart := List.pairwise_singleton _ _
  holds := fun f hf => by
    obtain rfl := List.mem_singleton.mp hf
    rw [bits, pow_zero, Nat.div_one, Nat.mod_eq_of_lt h]
  blank := fun k hk => by
    -- the bit lies above the field
    have hle : 0 + n ≤ k := (hk _ List.mem_cons_self).resolve_left (Nat.not_lt_zero k)
    refine Nat.testBit_lt_two_pow (Nat.lt_of_lt_of_le h (Nat.pow_le_pow_right (by decide) ?_))
    omega

/-- The bits of the low part are found below. -/
theorem bits_low (h : pos + width ≤ n) :
    bits (low + 2 ^ n * high) pos width = bits low pos width := by
  obtain ⟨m, rfl⟩ := Nat.exists_eq_add_of_le h
  have hsplit : low + 2 ^ (pos + width + m) * high =
      low + 2 ^ pos * (2 ^ width * (2 ^ m * high)) := by ring
  rw [bits, bits, hsplit, Nat.add_mul_div_left _ _ (Nat.two_pow_pos pos), Nat.add_mul_mod_self_left]

/-- The bits of the high part are found above. -/
theorem bits_high (h : low < 2 ^ n) :
    bits (low + 2 ^ n * high) (n + pos) width = bits high pos width := by
  rw [bits, bits, pow_add, ← Nat.div_div_eq_div_mul, Nat.add_mul_div_left _ _ (Nat.two_pow_pos n),
    Nat.div_eq_of_lt h, Nat.zero_add]

/-- **One layout above another.** -/
theorem Laid.join (hlow : Laid low fields) (hlt : low < 2 ^ n) (hwithin : Within n fields)
    (hhigh : Laid high fields') :
    Laid (low + 2 ^ n * high) (fields ++ fields'.map (BitField.shift n)) where
  apart := by
    -- within either half the fields lie apart, and the low half ends before `n`
    refine List.pairwise_append.mpr ⟨hlow.apart, ?_, fun f hf g hg => ?_⟩
    · refine List.pairwise_map.mpr (hhigh.apart.imp fun {f g} h => ?_)
      change n + f.pos + f.width ≤ n + g.pos
      omega
    · obtain ⟨g, -, rfl⟩ := List.mem_map.mp hg
      exact (hwithin f hf).trans (Nat.le_add_right n g.pos)
  -- a field of the low half is read from it, and one of the high half from there
  holds := fun f hf => by
    rcases List.mem_append.mp hf with hf | hf
    · rw [bits_low (hwithin f hf), hlow.holds f hf]
    · obtain ⟨g, hg, rfl⟩ := List.mem_map.mp hf
      exact (bits_high hlt).trans (hhigh.holds g hg)
  blank := fun k hk => by
    rw [Nat.add_comm, Nat.testBit_two_pow_mul_add _ hlt]
    split
    · exact hlow.blank k fun f hf => hk f (List.mem_append_left _ hf)
    · next hge =>
      refine hhigh.blank (k - n) fun f hf => ?_
      have hmiss := hk _ (List.mem_append_right _ (List.mem_map_of_mem hf))
      simp only [BitField.Misses, BitField.shift] at hmiss ⊢
      omega

/-- The bytes of a list are those of its halves. -/
theorem ofLe_append (bs cs : List UInt8) :
    ofLe (bs ++ cs) = ofLe bs + 2 ^ (8 * bs.length) * ofLe cs := by
  induction bs with
  | nil => simp [ofLe]
  | cons b bs ih =>
    calc ofLe (b :: bs ++ cs) = b.toNat + 256 * ofLe (bs ++ cs) := rfl
      _ = b.toNat + 256 * (ofLe bs + 2 ^ (8 * bs.length) * ofLe cs) := by rw [ih]
      _ = ofLe (b :: bs) + 2 ^ (8 * (b :: bs).length) * ofLe cs := by
        rw [ofLe, List.length_cons]
        ring

/-- Two numbers next to each other are one. -/
theorem toLe_append_toLe (n k : Nat) (h : low < 2 ^ (8 * n)) :
    toLe n low ++ toLe k high = toLe (n + k) (low + 2 ^ (8 * n) * high) := by
  induction n generalizing low with
  | zero =>
    obtain rfl : low = 0 := by simpa using h
    simp [Framework.toLe]
  | succ n ih =>
    have hpow : 2 ^ (8 * (n + 1)) = 256 * 2 ^ (8 * n) := by
      rw [Nat.mul_succ, pow_add]
      ring
    have hlow : low / 256 < 2 ^ (8 * n) := Nat.div_lt_of_lt_mul (hpow ▸ h)
    -- the high part does not show in the lowest byte
    have hbyte : UInt8.ofNat (low + 256 * (2 ^ (8 * n) * high)) = UInt8.ofNat low := by
      refine UInt8.toNat_inj.mp ?_
      rw [UInt8.toNat_ofNat', UInt8.toNat_ofNat', Nat.add_mul_mod_self_left]
    rw [Nat.succ_add, Framework.toLe, Framework.toLe, List.cons_append, ih hlow, hpow,
      Nat.mul_assoc, hbyte, Nat.add_mul_div_left _ _ (by decide)]

/-- **A number in front of a structure**, as its `n` bytes. -/
theorem Laid.toLe_append {rest : List UInt8} (h : Laid v fields) (hlt : v < 2 ^ (8 * n))
    (hwithin : Within (8 * n) fields) (hrest : Laid (ofLe rest) fields') :
    Laid (ofLe (toLe n v ++ rest)) (fields ++ fields'.map (BitField.shift (8 * n))) := by
  have hpow : 256 ^ n = 2 ^ (8 * n) := by
    rw [pow_mul]
    norm_num
  rw [ofLe_append, ofLe_toLe, length_toLe, hpow, Nat.mod_eq_of_lt hlt]
  exact h.join hlt hwithin hrest

end Framework
