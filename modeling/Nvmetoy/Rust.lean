import Nvmetoy.Framework.Prog
import Mathlib.Algebra.Group.Nat.Defs

/-!
# The arithmetic of the source language

Fixed-width unsigned arithmetic as the compiled program does it. `usize` is 64 bits
wide and is a natural number here; an operation whose exact result does not fit goes
through `Profile.fit`, which is where the two build profiles differ: a debug build
panics on overflow, a release build keeps the low bits. Division and remainder by zero
panic in both.

A `str` is the list of its characters; `Str.bytes` gives its UTF-8 encoding.
-/

namespace Nvmetoy

open Framework

/-- The characters of a `str`. -/
abbrev Str : Type := List Char

/-- `str::as_bytes`. -/
def Str.bytes (s : Str) : List UInt8 := s.flatMap String.utf8EncodeChar

/-! ### `{:?}` of a `str` -/

/-- The tables of Unicode that the standard library was built with, as far as `{:?}` looks at them:
the characters that it shows by their number, because they extend the one before them or cannot be
printed. Among the ASCII characters these are the control characters. -/
class Unicode where
  escapes : Char → Bool
  ascii : ∀ c : Char, c.toNat < 128 → escapes c = (c.toNat < 32 || c.toNat = 127)

/-- Tables in which everything beyond ASCII is printed. -/
@[reducible] def Unicode.plain : Unicode where
  escapes c := c.toNat < 32 || c.toNat = 127
  ascii _ _ := rfl

/-- `char::escape_debug`, of a character between double quotes. -/
def debugChar [Unicode] (c : Char) : Str :=
  match c.toNat with
  -- the characters with a letter of their own, and the two that the quotes need
  | 0x00 => "\\0".toList
  | 0x09 => "\\t".toList
  | 0x0A => "\\n".toList
  | 0x0D => "\\r".toList
  | 0x22 => "\\\"".toList
  | 0x5C => "\\\\".toList
  | n =>
    if Unicode.escapes c then "\\u\x7b".toList ++ Nat.toDigits 16 n ++ "\x7d".toList else [c]

/-- `{:?}`. -/
def debugStr [Unicode] (s : Str) : Str := "\"".toList ++ s.flatMap debugChar ++ "\"".toList

/-! ### Integers -/

/-- How the crate was built: with overflow checks (`debug`), or without (`release`). -/
inductive Profile where
  | debug
  | release
deriving DecidableEq, Repr

/-- The number of values of a `u64` and of a `usize`. -/
def U64_SIZE : Nat := 2 ^ 64

namespace Profile

variable {E : Type} (p : Profile)

/-- The value of a 64-bit operation whose exact result is `n`. -/
def fit (n : Nat) : Outcome E Nat :=
  if n < U64_SIZE then .ok n
  else match p with
    | debug => .panic "arithmetic overflow"
    | release => .ok (n % U64_SIZE)

/-- `a * b` on `usize`. -/
def mulUsize (a b : Nat) : Outcome E Nat := p.fit (a * b)

/-- `a + b` on `u64`. -/
def addU64 (a b : UInt64) : Outcome E UInt64 :=
  (p.fit (a.toNat + b.toNat)).bind fun n => .ok (UInt64.ofNat n)

/-- `a * b` on `u64`. -/
def mulU64 (a b : UInt64) : Outcome E UInt64 :=
  (p.fit (a.toNat * b.toNat)).bind fun n => .ok (UInt64.ofNat n)

/-- `1usize << shift`: the shift amount must be below 64; a release build masks it. -/
def oneShlUsize (shift : Nat) : Outcome E Nat :=
  if shift < 64 then .ok (2 ^ shift)
  else match p with
    | debug => .panic "attempt to shift left with overflow"
    | release => .ok (2 ^ (shift % 64))

/-- `a - 1` on `u16`. -/
def decU16 (a : UInt16) : Outcome E UInt16 :=
  if a = 0 then
    -- without the check, the predecessor of 0 is 65535
    match p with
    | debug => .panic "attempt to subtract with overflow"
    | release => .ok (a - 1)
  else .ok (a - 1)

end Profile

section Division

variable {E : Type}

/-- `a / b` on `usize`. -/
def divUsize (a b : Nat) : Outcome E Nat :=
  if b = 0 then .panic "attempt to divide by zero" else .ok (a / b)

/-- `a % b` on `usize`. -/
def remUsize (a b : Nat) : Outcome E Nat :=
  if b = 0 then .panic "attempt to calculate the remainder with a divisor of zero"
  else .ok (a % b)

/-- `a.div_ceil(b)` on `usize`. -/
def divCeil (a b : Nat) : Outcome E Nat :=
  if b = 0 then .panic "attempt to divide by zero" else .ok ((a + (b - 1)) / b)

end Division

/-! ### The results, when nothing overflows and when it does -/

section Results

variable {E : Type} {p : Profile} {a b n : Nat}

/-- Whatever the profile, a value that fits is kept. -/
theorem Profile.fit_of_lt (h : n < U64_SIZE) : (p.fit n : Outcome E Nat) = .ok n := by
  simp [Profile.fit, h]

/-- With overflow checks, a value that does not fit is a panic. -/
theorem Profile.fit_debug_of_ge (h : U64_SIZE ≤ n) :
    (Profile.debug.fit n : Outcome E Nat) = .panic "arithmetic overflow" :=
  if_neg (Nat.not_lt.mpr h)

theorem Profile.fit_release_of_ge (h : U64_SIZE ≤ n) :
    (Profile.release.fit n : Outcome E Nat) = .ok (n % U64_SIZE) :=
  if_neg (Nat.not_lt.mpr h)

/-- With overflow checks, it panics exactly on what does not fit. -/
@[simp] theorem Profile.fit_debug_panics :
    (Profile.debug.fit n : Outcome E Nat).Panics ↔ U64_SIZE ≤ n := by
  unfold Profile.fit
  split
  · next h => simpa using h
  · next h => simpa using h

@[simp] theorem Profile.fit_ne_err {e : E} : p.fit n ≠ .err e := by
  unfold Profile.fit
  split
  · simp
  · cases p <;> simp

@[simp] theorem Profile.oneShlUsize_ne_err {shift : Nat} {e : E} :
    p.oneShlUsize shift ≠ .err e := by
  unfold Profile.oneShlUsize
  split
  · simp
  · cases p <;> simp

/-- With overflow checks, a result is the exact one. -/
theorem Profile.fit_debug_eq_ok {k : Nat} :
    (Profile.debug.fit n : Outcome E Nat) = .ok k ↔ n < U64_SIZE ∧ k = n := by
  unfold Profile.fit
  split
  · next h => simp [h, eq_comm]
  · next h => simp [h]

/-- The zero-based form of a positive count, cut to 16 bits. -/
theorem Profile.decU16_ofNat {m : Nat} (hm : 0 < m) {k : UInt16}
    (h : (p.decU16 (UInt16.ofNat m) : Outcome E UInt16) = .ok k) :
    k.toNat = (m - 1) % 2 ^ 16 := by
  -- with overflow checks zero has no predecessor, without them it wraps
  have hk : k = UInt16.ofNat m - 1 := by
    unfold Profile.decU16 at h
    split at h
    · cases p with
      | debug => cases h
      | release => exact (Outcome.ok.inj h).symm
    · exact (Outcome.ok.inj h).symm
  subst hk
  rw [UInt16.toNat_sub, UInt16.toNat_ofNat', UInt16.toNat_one]
  omega

@[simp] theorem Profile.decU16_ne_err {x : UInt16} {e : E} : p.decU16 x ≠ .err e := by
  unfold Profile.decU16
  split
  · cases p <;> simp
  · simp

/-- `x - 1` overflows at zero alone. -/
theorem Profile.decU16_panics {x : UInt16} :
    (p.decU16 x : Outcome E UInt16).Panics ↔ p = .debug ∧ x = 0 := by
  unfold Profile.decU16
  split
  · cases p <;> simp_all
  · simp_all

/-- The cut of the count is what makes it panic. -/
theorem Profile.decU16_ofNat_panic {m : Nat} {why : String}
    (h : (p.decU16 (UInt16.ofNat m) : Outcome E UInt16) = .panic why) :
    p = .debug ∧ m % 2 ^ 16 = 0 := by
  have hpanics : (p.decU16 (UInt16.ofNat m) : Outcome E UInt16).Panics := by
    rw [h]
    trivial
  obtain ⟨hp, hzero⟩ := Profile.decU16_panics.mp hpanics
  exact ⟨hp, by simpa using congrArg UInt16.toNat hzero⟩

/-- Without overflow checks, nothing panics. -/
theorem Profile.fit_panics : (p.fit n : Outcome E Nat).Panics ↔ p = .debug ∧ U64_SIZE ≤ n := by
  cases p with
  | debug => simp
  | release =>
    unfold Profile.fit
    split <;> simp

/-- A checked `u64` sum or product fits, or panics. -/
theorem Profile.fit_debug_u64_panics :
    ((Profile.debug.fit n : Outcome E Nat).bind fun k => .ok (UInt64.ofNat k)).Panics ↔
      U64_SIZE ≤ n := by
  by_cases h : n < U64_SIZE
  · rw [Profile.fit_of_lt h]
    exact iff_of_false (fun hp => hp) (Nat.not_le.mpr h)
  · rw [Profile.fit_debug_of_ge (Nat.not_lt.mp h)]
    exact iff_of_true trivial (Nat.not_lt.mp h)

/-- A `u64` sum that fits is exact. -/
theorem UInt64.toNat_add_of_lt {x y : UInt64} (h : x.toNat + y.toNat < U64_SIZE) :
    (x + y).toNat = x.toNat + y.toNat := by
  rw [UInt64.toNat_add]
  exact Nat.mod_eq_of_lt h

/-- A division has a result unless the divisor is zero. -/
@[simp] theorem divUsize_eq_ok {k : Nat} :
    (divUsize a b : Outcome E Nat) = .ok k ↔ b ≠ 0 ∧ k = a / b := by
  unfold divUsize; split <;> simp_all [eq_comm]

@[simp] theorem remUsize_eq_ok {k : Nat} :
    (remUsize a b : Outcome E Nat) = .ok k ↔ b ≠ 0 ∧ k = a % b := by
  unfold remUsize; split <;> simp_all [eq_comm]

@[simp] theorem divCeil_eq_ok {k : Nat} :
    (divCeil a b : Outcome E Nat) = .ok k ↔ b ≠ 0 ∧ k = (a + (b - 1)) / b := by
  unfold divCeil; split <;> simp_all [eq_comm]

/-- The panic of `/` is at a zero divisor. -/
@[simp] theorem divUsize_panics : (divUsize a b : Outcome E Nat).Panics ↔ b = 0 := by
  unfold divUsize; split <;> simp_all

@[simp] theorem remUsize_panics : (remUsize a b : Outcome E Nat).Panics ↔ b = 0 := by
  unfold remUsize; split <;> simp_all

@[simp] theorem divCeil_panics : (divCeil a b : Outcome E Nat).Panics ↔ b = 0 := by
  unfold divCeil; split <;> simp_all

@[simp] theorem divUsize_ne_err {e : E} : divUsize a b ≠ .err e := by
  unfold divUsize; split <;> simp

@[simp] theorem remUsize_ne_err {e : E} : remUsize a b ≠ .err e := by
  unfold remUsize; split <;> simp

@[simp] theorem divCeil_ne_err {e : E} : divCeil a b ≠ .err e := by
  unfold divCeil; split <;> simp

end Results

/-- A count that is sent as its predecessor. -/
theorem toNat_sub_one {a : UInt16} (h : ¬ a = 0) : (a - 1).toNat + 1 = a.toNat := by
  have hpos : a.toNat ≠ 0 := fun hzero => h (UInt16.toNat_inj.mp hzero)
  have hle : (1 : UInt16) ≤ a := by
    rw [UInt16.le_iff_toNat_le, UInt16.toNat_one]
    omega
  rw [UInt16.toNat_sub_of_le _ _ hle, UInt16.toNat_one]
  omega

end Nvmetoy
