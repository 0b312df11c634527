import Nvmetoy.Interface

/-!
# Text of the REPL

The string operations the REPL is built from: splitting on Unicode white space,
trimming, the `FromStr` of the unsigned integers, UTF-8 decoding of a line, and the
formatting of numbers and of device bytes.
-/

namespace Nvmetoy

open Framework

/-- `char::is_whitespace`: the Unicode property White_Space. -/
def isWhitespace (c : Char) : Bool :=
  let n := c.toNat
  (0x9 ≤ n ∧ n ≤ 0xD) ∨ n = 0x20 ∨ n = 0x85 ∨ n = 0xA0 ∨ n = 0x1680 ∨
    (0x2000 ≤ n ∧ n ≤ 0x200A) ∨ n = 0x2028 ∨ n = 0x2029 ∨ n = 0x202F ∨ n = 0x205F ∨
    n = 0x3000

/-- `str::split_whitespace`: the maximal runs of other characters. -/
def splitWhitespace (s : Str) : List Str :=
  (s.splitOnP isWhitespace).filter fun token => !token.isEmpty

/-- `str::trim`. -/
def trim (s : Str) : Str :=
  ((s.dropWhile isWhitespace).reverse.dropWhile isWhitespace).reverse

/-- `[&str]::join(" ")`. -/
def joinSpace (tokens : List Str) : Str := List.intercalate [' '] tokens

/-- The value of a string of decimal digits, continuing from `acc`. -/
def digitsValue (acc : Nat) : Str → Option Nat
  | [] => some acc
  | c :: rest => if c.isDigit then digitsValue (acc * 10 + (c.toNat - '0'.toNat)) rest else none

/-- `FromStr` of an unsigned integer with `size` values: decimal digits, with one
optional leading `+`. -/
def parseUnsigned (size : Nat) (text : Str) : Outcome IoError Nat :=
  -- no sign but `+`, and no digit separators
  let digits := match text with
    | '+' :: rest => rest
    | _ => text
  match digits with
  | [] => .err (.cannotParse text)
  | _ => match digitsValue 0 digits with
    | some n => if n < size then .ok n else .err (.cannotParse text)
    | none => .err (.cannotParse text)

/-- `parse::<u64>`. -/
def parseU64 (text : Str) : Outcome IoError UInt64 :=
  (parseUnsigned U64_SIZE text).bind fun n => .ok (UInt64.ofNat n)

/-- `parse::<usize>`. -/
def parseUsize (text : Str) : Outcome IoError Nat := parseUnsigned U64_SIZE text

/-- `parse::<u8>`. -/
def parseU8 (text : Str) : Outcome IoError UInt8 :=
  (parseUnsigned 256 text).bind fun n => .ok (UInt8.ofNat n)

/-- `parse::<u32>`. -/
def parseU32 (text : Str) : Outcome IoError UInt32 :=
  (parseUnsigned (2 ^ 32) text).bind fun n => .ok (UInt32.ofNat n)

/-- `parse_ascii_char`: a string of one byte. -/
def parseAsciiChar (text : Str) : Outcome IoError UInt8 :=
  match text.bytes with
  | [byte] => .ok byte
  | _ => .err (.notSingleChar text)

/-! ### Lines of a byte stream -/

/-- The continuation bytes of one encoded character: `count` more of them. -/
def utf8Rest (acc : Nat) : Nat → List UInt8 → Option (Nat × List UInt8)
  | 0, bs => some (acc, bs)
  | _ + 1, [] => none
  | count + 1, b :: bs =>
    if b &&& 0xC0 = 0x80 then utf8Rest (acc * 64 + (b &&& 0x3F).toNat) count bs else none

/-- One encoded character and what follows it. Overlong forms and surrogates are
refused. -/
def utf8Char : List UInt8 → Option (Char × List UInt8)
  | [] => none
  | b :: bs =>
    if b < 0x80 then some (Char.ofNat b.toNat, bs)
    else
      -- the payload of the lead byte, the bytes to come, and the least value that needs them
      let lead : Option (Nat × Nat × Nat) :=
        if b &&& 0xE0 = 0xC0 then some ((b &&& 0x1F).toNat, 1, 0x80)
        else if b &&& 0xF0 = 0xE0 then some ((b &&& 0x0F).toNat, 2, 0x800)
        else if b &&& 0xF8 = 0xF0 then some ((b &&& 0x07).toNat, 3, 0x10000)
        else none
      match lead with
      | none => none
      | some (acc, count, least) =>
        match utf8Rest acc count bs with
        | some (n, rest) =>
          if least ≤ n ∧ n.isValidChar then some (Char.ofNat n, rest) else none
        | none => none

/-- `String::from_utf8`, at most `fuel` characters of it. -/
def utf8DecodeAux : Nat → List UInt8 → Option Str
  | _, [] => some []
  | 0, _ :: _ => none
  | fuel + 1, bs =>
    match utf8Char bs with
    | some (c, rest) => (utf8DecodeAux fuel rest).map (c :: ·)
    | none => none

/-- `String::from_utf8`: every character takes a byte at least, so the length is fuel
enough. -/
def utf8Decode (bs : List UInt8) : Option Str := utf8DecodeAux bs.length bs

/-- A line without its carriage return. -/
def stripCarriageReturn (line : List UInt8) : List UInt8 :=
  if line.getLast? = some 0x0D then line.dropLast else line

/-- `BufRead::lines`, before decoding: the pieces between line feeds, without a last
empty one; a line that ended in a line feed loses a carriage return too. -/
def splitLines (stream : List UInt8) : List (List UInt8) :=
  let pieces := stream.splitOn 0x0A
  -- every piece but the last ended in a line feed
  pieces.dropLast.map stripCarriageReturn ++ (pieces.getLast?.toList.filter (! ·.isEmpty))

/-! ### Output -/

/-- `{}` of a number. -/
def showNat (n : Nat) : Str := Nat.toDigits 10 n

/-- `{:>width}`. -/
def padLeft (width : Nat) (s : Str) : Str := List.replicate (width - s.length) ' ' ++ s

/-- `NON_PRINTABLE`. -/
def NON_PRINTABLE : Char := '·'

/-- `ascii_char`. -/
def asciiChar (byte : UInt8) : Char :=
  if 0x20 ≤ byte ∧ byte ≤ 0x7E then Char.ofNat byte.toNat
  -- the control pictures stand in the order of the control characters
  else if byte ≤ 0x1F then Char.ofNat (0x2400 + byte.toNat)
  else if byte = 0x7F then '␡'
  else NON_PRINTABLE

/-- `ascii_line`. -/
def asciiLine (bytes : List UInt8) : Str := bytes.map asciiChar

/-- `slice::chunks`. -/
def chunks {α : Type} (size : Nat) (data : List α) : List (List α) :=
  if data = [] ∨ size = 0 then []
  else data.take size :: chunks size (data.drop size)
termination_by data.length
decreasing_by
  rename_i h
  push Not at h
  have := List.length_pos_of_ne_nil h.1
  simp only [List.length_drop]
  omega

/-- As many chunks as blocks are needed, rounded up. -/
theorem length_chunks {α : Type} {size : Nat} (hsize : size ≠ 0) (data : List α) :
    (chunks size data).length = (data.length + (size - 1)) / size := by
  induction data using chunks.induct size with
  | case1 data h =>
    obtain rfl := h.resolve_right hsize
    rw [chunks, if_pos h]
    exact (Nat.div_eq_of_lt (by simp; omega)).symm
  | case2 data h ih =>
    push Not at h
    have hpos := List.length_pos_iff.mpr h.1
    have hsizePos := Nat.pos_of_ne_zero hsize
    rw [chunks, if_neg (by simpa using h), List.length_cons, ih, List.length_drop,
      ← Nat.add_div_right _ hsizePos]
    rcases Nat.lt_or_ge data.length size with hshort | hlong
    · -- one chunk, shorter than the size or equal to it
      rw [Nat.sub_eq_zero_of_le hshort.le,
        Nat.div_eq_of_lt_le (k := 1) (by omega) (by omega),
        Nat.div_eq_of_lt_le (k := 1) (by omega) (by omega)]
    · congr 1
      omega

end Nvmetoy
