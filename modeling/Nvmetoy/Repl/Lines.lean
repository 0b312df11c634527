import Mathlib.Data.List.TakeWhile
import Nvmetoy.Repl.Text

/-!
# Reading text back

What the string operations of `Text` do to text that was written on purpose.

* `utf8Decode_bytes` — decoding undoes encoding, for every string.
* `splitLines_bytes` — the lines of a text are its lines, whatever characters they are made
  of: no byte of a longer encoding is a line feed.
* `Spaced` — a line shows some tokens when they stand in it in order, apart, with white space
  around them. `splitWhitespace_of_spaced` finds them again.
* `Denotes` — what a numeral means. `parseUnsigned_eq_ok` says that parsing reads it, and
  `denotes_showNat` that printing writes one.
-/

namespace Nvmetoy

open Framework

/-! ### Characters -/

/-- A continuation byte and the six bits it carries. -/
private theorem continuation (n : Nat) :
    UInt8.ofNat (n % 0x40 + 0x80) &&& 0xC0 = 0x80 ∧
      (UInt8.ofNat (n % 0x40 + 0x80) &&& 0x3F).toNat = n % 0x40 := by
  have hall : ∀ k : Fin 0x40, UInt8.ofNat (k.val + 0x80) &&& 0xC0 = 0x80 ∧
      (UInt8.ofNat (k.val + 0x80) &&& 0x3F).toNat = k.val := by decide
  exact hall ⟨n % 0x40, Nat.mod_lt _ (by decide)⟩

/-- Nothing more is expected of the bytes that follow. -/
private theorem utf8Rest_zero (acc : Nat) (bs : List UInt8) :
    utf8Rest acc 0 bs = some (acc, bs) := rfl

private theorem utf8Rest_cons (acc count n : Nat) (bs : List UInt8) :
    utf8Rest acc (count + 1) (UInt8.ofNat (n % 0x40 + 0x80) :: bs) =
      utf8Rest (acc * 64 + n % 0x40) count bs := by
  obtain ⟨hlead, hbits⟩ := continuation n
  rw [utf8Rest, if_pos hlead, hbits]

/-- The lead byte of an encoding in two bytes. -/
private theorem lead_two (n : Nat) :
    let b := UInt8.ofNat (n % 0x20 + 0xC0)
    ¬ b < 0x80 ∧ b &&& 0xE0 = 0xC0 ∧ (b &&& 0x1F).toNat = n % 0x20 := by
  have hall : ∀ k : Fin 0x20, ¬ UInt8.ofNat (k.val + 0xC0) < 0x80 ∧
      UInt8.ofNat (k.val + 0xC0) &&& 0xE0 = 0xC0 ∧
      (UInt8.ofNat (k.val + 0xC0) &&& 0x1F).toNat = k.val := by decide
  exact hall ⟨n % 0x20, Nat.mod_lt _ (by decide)⟩

/-- The leading byte of a character of three bytes. -/
private theorem lead_three (n : Nat) :
    let b := UInt8.ofNat (n % 0x10 + 0xE0)
    ¬ b < 0x80 ∧ b &&& 0xE0 ≠ 0xC0 ∧ b &&& 0xF0 = 0xE0 ∧ (b &&& 0x0F).toNat = n % 0x10 := by
  have hall : ∀ k : Fin 0x10, ¬ UInt8.ofNat (k.val + 0xE0) < 0x80 ∧
      UInt8.ofNat (k.val + 0xE0) &&& 0xE0 ≠ 0xC0 ∧ UInt8.ofNat (k.val + 0xE0) &&& 0xF0 = 0xE0 ∧
      (UInt8.ofNat (k.val + 0xE0) &&& 0x0F).toNat = k.val := by decide
  exact hall ⟨n % 0x10, Nat.mod_lt _ (by decide)⟩

private theorem lead_four (n : Nat) :
    let b := UInt8.ofNat (n % 0x08 + 0xF0)
    ¬ b < 0x80 ∧ b &&& 0xE0 ≠ 0xC0 ∧ b &&& 0xF0 ≠ 0xE0 ∧ b &&& 0xF8 = 0xF0 ∧
      (b &&& 0x07).toNat = n % 0x08 := by
  have hall : ∀ k : Fin 0x08, ¬ UInt8.ofNat (k.val + 0xF0) < 0x80 ∧
      UInt8.ofNat (k.val + 0xF0) &&& 0xE0 ≠ 0xC0 ∧ UInt8.ofNat (k.val + 0xF0) &&& 0xF0 ≠ 0xE0 ∧
      UInt8.ofNat (k.val + 0xF0) &&& 0xF8 = 0xF0 ∧
      (UInt8.ofNat (k.val + 0xF0) &&& 0x07).toNat = k.val := by decide
  exact hall ⟨n % 0x08, Nat.mod_lt _ (by decide)⟩

/-- An encoded character is read back. -/
theorem utf8Char_encode (c : Char) (rest : List UInt8) :
    utf8Char (String.utf8EncodeChar c ++ rest) = some (c, rest) := by
  have hvalid : c.val.toNat.isValidChar := c.valid
  have hlt : c.val.toNat < 0x110000 := by
    rcases hvalid with h | h
    · omega
    · exact h.2
  have hchar : Char.ofNat c.val.toNat = c := Char.ofNat_toNat c
  -- one case for each length of the encoding
  unfold String.utf8EncodeChar
  simp only
  split
  · next h =>
    have hbyte : (UInt8.ofNat c.val.toNat).toNat = c.val.toNat :=
      UInt8.toNat_ofNat_of_lt' (Nat.lt_of_le_of_lt h (by decide))
    have hsmall : UInt8.ofNat c.val.toNat < 0x80 := by
      rw [UInt8.lt_iff_toNat_lt, hbyte]
      exact Nat.lt_succ_of_le h
    rw [List.singleton_append, utf8Char, if_pos hsmall, hbyte, hchar]
  split
  · next h1 h2 =>
    obtain ⟨hbig, hmask, hbits⟩ := lead_two (c.val.toNat / 64)
    simp only [List.cons_append, List.nil_append, utf8Char, hbig, hmask, hbits, if_true,
      if_false, utf8Rest_cons, utf8Rest_zero]
    -- the bits put together are the character again
    rw [show c.val.toNat / 64 % 0x20 * 64 + c.val.toNat % 0x40 = c.val.toNat by omega,
      if_pos ⟨by omega, hvalid⟩, hchar]
  split
  · next h1 h2 h3 =>
    obtain ⟨hbig, hmask₁, hmask₂, hbits⟩ := lead_three (c.val.toNat / 4096)
    simp only [List.cons_append, List.nil_append, utf8Char, hbig, hmask₁, hmask₂, hbits, if_true,
      if_false, utf8Rest_cons, utf8Rest_zero]
    rw [show (c.val.toNat / 4096 % 0x10 * 64 + c.val.toNat / 64 % 0x40) * 64 +
      c.val.toNat % 0x40 = c.val.toNat by omega, if_pos ⟨by omega, hvalid⟩, hchar]
  · next h1 h2 h3 =>
    obtain ⟨hbig, hmask₁, hmask₂, hmask₃, hbits⟩ := lead_four (c.val.toNat / 262144)
    simp only [List.cons_append, List.nil_append, utf8Char, hbig, hmask₁, hmask₂, hmask₃, hbits,
      if_true, if_false, utf8Rest_cons, utf8Rest_zero]
    rw [show ((c.val.toNat / 262144 % 0x08 * 64 + c.val.toNat / 4096 % 0x40) * 64 +
      c.val.toNat / 64 % 0x40) * 64 + c.val.toNat % 0x40 = c.val.toNat by omega,
      if_pos ⟨by omega, hvalid⟩, hchar]

@[simp] theorem Str.bytes_nil : Str.bytes [] = [] := rfl

@[simp] theorem Str.bytes_cons (c : Char) (s : Str) :
    Str.bytes (c :: s) = String.utf8EncodeChar c ++ Str.bytes s := rfl

@[simp] theorem Str.bytes_append (s t : Str) : Str.bytes (s ++ t) = s.bytes ++ t.bytes :=
  List.flatMap_append

/-- Every character takes a byte at least. -/
theorem utf8EncodeChar_ne_nil (c : Char) : String.utf8EncodeChar c ≠ [] := by
  unfold String.utf8EncodeChar
  simp only
  split_ifs <;> simp

/-- By induction on the text, the fuel being more than there are bytes. -/
theorem utf8DecodeAux_bytes (s : Str) {fuel : Nat} (h : s.bytes.length ≤ fuel) :
    utf8DecodeAux fuel s.bytes = some s := by
  induction s generalizing fuel with
  | nil => cases fuel <;> rfl
  | cons c s ih =>
    have hpos : 0 < (String.utf8EncodeChar c).length :=
      List.length_pos_of_ne_nil (utf8EncodeChar_ne_nil c)
    rw [Str.bytes_cons, List.length_append] at h
    -- the fuel is as long as the bytes, of which the first character takes one at least
    obtain ⟨fuel, rfl⟩ : ∃ k, fuel = k + 1 := ⟨fuel - 1, by omega⟩
    have hne : String.utf8EncodeChar c ++ Str.bytes s ≠ [] := by simp
    rw [Str.bytes_cons, utf8DecodeAux]
    · rw [utf8Char_encode]
      simp only
      rw [ih (by omega), Option.map_some]
    · exact fun hnil => hne hnil

/-- **Decoding undoes encoding.** -/
theorem utf8Decode_bytes (s : Str) : utf8Decode s.bytes = some s :=
  utf8DecodeAux_bytes s le_rfl

/-- The bytes of an encoding that are ASCII are the character itself. -/
theorem mem_utf8EncodeChar {c : Char} {b : UInt8} (hb : b ∈ String.utf8EncodeChar c)
    (h : b < 0x80) : c.toNat = b.toNat := by
  -- a byte with its high bit set is no ASCII
  have hhigh (n low size : Nat) (hsize : 0 < size) (hfits : low + size ≤ 0x100)
      (hlow : 0x80 ≤ low) : ¬ UInt8.ofNat (n % size + low) < 0x80 := by
    have hmod : n % size < size := Nat.mod_lt _ hsize
    have hlt : n % size + low < UInt8.size := by
      show n % size + low < 256
      omega
    rw [UInt8.lt_iff_toNat_lt, UInt8.toNat_ofNat_of_lt' hlt]
    exact Nat.not_lt.mpr (Nat.le_trans hlow (Nat.le_add_left _ _))
  unfold String.utf8EncodeChar at hb
  simp only at hb
  split at hb
  · next hle =>
    obtain rfl := List.mem_singleton.mp hb
    exact (UInt8.toNat_ofNat_of_lt' (Nat.lt_of_le_of_lt hle (by decide))).symm
  -- every byte of a longer encoding is 0x80 or more
  split at hb
  · simp only [List.mem_cons, List.not_mem_nil, or_false] at hb
    rcases hb with rfl | rfl
    · exact absurd h (hhigh _ 0xC0 0x20 (by decide) (by decide) (by decide))
    · exact absurd h (hhigh _ 0x80 0x40 (by decide) (by decide) (by decide))
  split at hb
  · simp only [List.mem_cons, List.not_mem_nil, or_false] at hb
    rcases hb with rfl | rfl | rfl
    · exact absurd h (hhigh _ 0xE0 0x10 (by decide) (by decide) (by decide))
    · exact absurd h (hhigh _ 0x80 0x40 (by decide) (by decide) (by decide))
    · exact absurd h (hhigh _ 0x80 0x40 (by decide) (by decide) (by decide))
  · simp only [List.mem_cons, List.not_mem_nil, or_false] at hb
    rcases hb with rfl | rfl | rfl | rfl
    · exact absurd h (hhigh _ 0xF0 0x08 (by decide) (by decide) (by decide))
    · exact absurd h (hhigh _ 0x80 0x40 (by decide) (by decide) (by decide))
    · exact absurd h (hhigh _ 0x80 0x40 (by decide) (by decide) (by decide))
    · exact absurd h (hhigh _ 0x80 0x40 (by decide) (by decide) (by decide))

/-! ### Lines -/

/-- A text of complete lines. -/
def textOf (lines : List Str) : Str := lines.flatMap (· ++ ['\n'])

/-- A line without its carriage return. -/
def dropCarriageReturn (line : Str) : Str :=
  if line.getLast? = some '\r' then line.dropLast else line

/-- Pieces that are terminated by newlines are found again, with nothing after the last one. -/
theorem splitOn_terminated {pieces : List (List UInt8)} (h : ∀ piece ∈ pieces, 0x0A ∉ piece) :
    (pieces.flatMap (· ++ [0x0A])).splitOn 0x0A = pieces ++ [[]] := by
  induction pieces with
  | nil => rfl
  | cons piece rest ih =>
    rw [List.flatMap_cons, List.append_assoc, List.singleton_append,
      List.splitOn_append_cons_self_of_not_mem (h piece List.mem_cons_self),
      ih fun other hother => h other (List.mem_cons_of_mem _ hother), List.cons_append]

/-- Only a line feed is encoded with a line feed. -/
theorem not_mem_bytes {line : Str} (h : '\n' ∉ line) : 0x0A ∉ line.bytes := by
  intro hmem
  obtain ⟨c, hc, hb⟩ := List.mem_flatMap.mp hmem
  have hnat : c.toNat = 0x0A := mem_utf8EncodeChar hb (by decide)
  have hchar : c = '\n' := by
    rw [← Char.ofNat_toNat c, hnat]
  exact h (hchar ▸ hc)

/-- The last byte is a carriage return just when the last character is. -/
theorem stripCarriageReturn_bytes (line : Str) :
    stripCarriageReturn line.bytes = (dropCarriageReturn line).bytes := by
  rcases List.eq_nil_or_concat line with rfl | ⟨init, c, rfl⟩
  · rfl
  have hbytes : Str.bytes (init ++ [c]) = Str.bytes init ++ String.utf8EncodeChar c := by simp
  unfold stripCarriageReturn dropCarriageReturn
  rw [List.concat_eq_append, List.getLast?_concat, List.dropLast_concat]
  by_cases hc : c = '\r'
  · subst hc
    -- a carriage return is one byte
    have hcr : String.utf8EncodeChar '\r' = [0x0D] := rfl
    rw [hbytes, hcr, List.getLast?_concat, if_pos rfl, if_pos rfl, List.dropLast_concat]
  · rw [if_neg fun h => hc (Option.some.inj h), if_neg]
    intro hlast
    -- the last byte of the line is the last byte of `c`
    obtain ⟨front, last, henc⟩ : ∃ front last, String.utf8EncodeChar c = front ++ [last] :=
      ⟨_, _, (List.dropLast_append_getLast (utf8EncodeChar_ne_nil c)).symm⟩
    rw [hbytes, henc, ← List.append_assoc, List.getLast?_concat] at hlast
    obtain rfl := Option.some.inj hlast
    have hmem : (0x0D : UInt8) ∈ String.utf8EncodeChar c := by simp [henc]
    have hnat : c.toNat = 0x0D := mem_utf8EncodeChar hmem (by decide)
    exact hc (by rw [← Char.ofNat_toNat c, hnat])

/-- The bytes of a text of lines. -/
theorem bytes_textOf (lines : List Str) :
    (textOf lines).bytes = (lines.map Str.bytes).flatMap (· ++ [0x0A]) := by
  induction lines with
  | nil => rfl
  | cons line rest ih =>
    have hfeed : Str.bytes ['\n'] = [0x0A] := rfl
    rw [textOf, List.flatMap_cons, List.map_cons, List.flatMap_cons, Str.bytes_append,
      Str.bytes_append, hfeed, ← ih, textOf]

/-- **The lines of a text.** -/
theorem splitLines_bytes {lines : List Str} (h : ∀ line ∈ lines, '\n' ∉ line) :
    splitLines (textOf lines).bytes = lines.map fun line => (dropCarriageReturn line).bytes := by
  have hpieces : ∀ piece ∈ lines.map Str.bytes, 0x0A ∉ piece := by
    intro piece hpiece
    obtain ⟨line, hline, rfl⟩ := List.mem_map.mp hpiece
    exact not_mem_bytes (h line hline)
  simp only [splitLines]
  -- every line ends with a newline, so nothing follows the last of them
  rw [bytes_textOf, splitOn_terminated hpieces, List.dropLast_concat, List.getLast?_concat,
    List.map_map]
  simp only [Option.toList_some, List.filter_cons, List.isEmpty_nil, Bool.not_true,
    Bool.false_eq_true, if_false, List.filter_nil, List.append_nil]
  refine List.map_congr_left fun line _ => ?_
  exact stripCarriageReturn_bytes line

/-! ### Tokens -/

/-- A run of characters that are not white space. -/
structure IsToken (token : Str) : Prop where
  ne_nil : token ≠ []
  free : ∀ c ∈ token, isWhitespace c = false

/-- White space. -/
def IsGap (gap : Str) : Prop := ∀ c ∈ gap, isWhitespace c = true

/-- The line shows the tokens, in order, with white space around them: a token is followed
by white space or by nothing. -/
inductive Spaced : List Str → Str → Prop where
  | blank {gap : Str} (hgap : IsGap gap) : Spaced [] gap
  | token {gap token line : Str} {tokens : List Str} (hgap : IsGap gap) (htoken : IsToken token)
      (hapart : ∀ c ∈ line.head?, isWhitespace c = true) (h : Spaced tokens line) :
      Spaced (token :: tokens) (gap ++ token ++ line)

/-- White space before a line changes nothing. -/
theorem splitWhitespace_gap {gap line : Str} (h : IsGap gap) :
    splitWhitespace (gap ++ line) = splitWhitespace line := by
  induction gap with
  | nil => rfl
  | cons c rest ih =>
    have hc : isWhitespace c = true := h c List.mem_cons_self
    have hrest := ih fun d hd => h d (List.mem_cons_of_mem _ hd)
    rw [splitWhitespace, List.cons_append, List.splitOnP_cons_eq_if_modifyHead, if_pos hc]
    exact hrest

/-- White space after a line changes nothing. -/
theorem splitWhitespace_append_space {line : Str} {c : Char} (hc : isWhitespace c = true) :
    splitWhitespace (line ++ [c]) = splitWhitespace line := by
  rw [splitWhitespace, List.splitOnP_append_cons _ _ hc, List.splitOnP_nil, List.filter_append]
  exact List.append_nil _

/-- A word comes off the front where white space, or nothing, follows it. -/
theorem splitWhitespace_token {token line : Str} (h : IsToken token)
    (hapart : ∀ c ∈ line.head?, isWhitespace c = true) :
    splitWhitespace (token ++ line) = token :: splitWhitespace line := by
  have hkeep : (!token.isEmpty) = true := by simpa using h.ne_nil
  cases line with
  | nil =>
    rw [List.append_nil, splitWhitespace, List.splitOnP_eq_singleton h.free, List.filter_cons,
      if_pos hkeep]
    rfl
  | cons c rest =>
    have hc : isWhitespace c = true := hapart c rfl
    -- the space that ends the token starts no other one
    have hrest : splitWhitespace (c :: rest) = splitWhitespace rest :=
      @splitWhitespace_gap [c] rest fun d hd => List.mem_singleton.mp hd ▸ hc
    rw [hrest, splitWhitespace, List.splitOnP_append_cons_of_forall_mem h.free c hc,
      List.filter_cons, if_pos hkeep]
    rfl

/-- **The tokens of a line are found again.** -/
theorem splitWhitespace_of_spaced {tokens : List Str} {line : Str} (h : Spaced tokens line) :
    splitWhitespace line = tokens := by
  induction h with
  | @blank gap hgap =>
    have hnil := @splitWhitespace_gap gap [] hgap
    rwa [List.append_nil] at hnil
  | token hgap htoken hapart _ ih =>
    rw [List.append_assoc, splitWhitespace_gap hgap, splitWhitespace_token htoken hapart, ih]

/-- **Every line shows its own tokens.** -/
theorem spaced_splitWhitespace (line : Str) : Spaced (splitWhitespace line) line := by
  -- by induction on the length: what follows the first token is shorter
  induction hn : line.length using Nat.strongRecOn generalizing line with
  | _ n ih =>
    have hsplit : line.takeWhile isWhitespace ++ line.dropWhile isWhitespace = line :=
      List.takeWhile_append_dropWhile
    -- the white space in front, the first word, and the rest
    have hgap : IsGap (line.takeWhile isWhitespace) := fun c hc => List.mem_takeWhile_imp hc
    cases hrest : line.dropWhile isWhitespace with
    | nil =>
      rw [hrest, List.append_nil] at hsplit
      have hblank : Spaced [] line := hsplit ▸ .blank hgap
      rw [splitWhitespace_of_spaced hblank]
      exact hblank
    | cons c rest =>
      have hc : isWhitespace c = false := by
        have hhead := List.head?_dropWhile_not isWhitespace line
        rw [hrest] at hhead
        simpa using hhead
      have htoken : IsToken ((c :: rest).takeWhile fun d => !isWhitespace d) := by
        refine ⟨by simp [hc], fun d hd => ?_⟩
        simpa using List.mem_takeWhile_imp hd
      have hapart : ∀ d ∈ ((c :: rest).dropWhile fun d => !isWhitespace d).head?,
          isWhitespace d = true := by
        intro d hd
        have hhead := List.head?_dropWhile_not (fun d => !isWhitespace d) (c :: rest)
        rw [Option.mem_def.mp hd] at hhead
        simpa using hhead
      have hlen : ((c :: rest).dropWhile fun d => !isWhitespace d).length < n := by
        have hshort := (List.dropWhile_suffix (l := rest) fun d => !isWhitespace d).length_le
        have hline : line.length = (line.takeWhile isWhitespace).length + (rest.length + 1) := by
          conv_lhs => rw [← hsplit, hrest]
          rw [List.length_append, List.length_cons]
        rw [List.dropWhile_cons_of_pos (by simpa using hc)]
        omega
      have hall := Spaced.token hgap htoken hapart (ih _ hlen _ rfl)
      rw [List.append_assoc, List.takeWhile_append_dropWhile, ← hrest, hsplit, hrest] at hall
      rw [splitWhitespace_of_spaced hall]
      exact hall

/-- A carriage return at the end of a line is white space. -/
theorem splitWhitespace_dropCarriageReturn (line : Str) :
    splitWhitespace (dropCarriageReturn line) = splitWhitespace line := by
  unfold dropCarriageReturn
  split
  · next hlast =>
    have hline : line = line.dropLast ++ ['\r'] :=
      (List.dropLast_append_getLast? _ hlast).symm
    conv_rhs => rw [hline]
    exact (splitWhitespace_append_space (by decide)).symm
  · rfl

/-! ### Numbers -/

/-- The numeral denotes `n`, one of the `size` values of its type: digits, with a plus sign
allowed before them. -/
structure Denotes (size : Nat) (text : Str) (n : Nat) : Prop where
  digits : ∃ sign digits, text = sign ++ digits ∧ (sign = [] ∨ sign = ['+']) ∧ digits ≠ [] ∧
    (∀ c ∈ digits, c.isDigit = true) ∧ Nat.ofDigitChars 10 digits 0 = n
  lt : n < size

/-- Digits have a value. -/
theorem digitsValue_of_digits {digits : Str} (h : ∀ c ∈ digits, c.isDigit = true) (acc : Nat) :
    digitsValue acc digits = some (Nat.ofDigitChars 10 digits acc) := by
  induction digits generalizing acc with
  | nil => rw [digitsValue, Nat.ofDigitChars_nil]
  | cons c rest ih =>
    rw [digitsValue, if_pos (h c List.mem_cons_self),
      ih fun d hd => h d (List.mem_cons_of_mem _ hd), Nat.ofDigitChars_cons, Nat.mul_comm acc 10]

theorem digits_of_digitsValue {digits : Str} {acc n : Nat}
    (h : digitsValue acc digits = some n) : ∀ c ∈ digits, c.isDigit = true := by
  induction digits generalizing acc with
  | nil => intro c hc; exact absurd hc List.not_mem_nil
  | cons d rest ih =>
    intro c hc
    rw [digitsValue] at h
    -- what is no digit has no value
    split at h
    · next hd =>
      rcases List.mem_cons.mp hc with rfl | hmem
      · exact hd
      · exact ih h c hmem
    · cases h

/-- The digits of a numeral: what follows its sign. -/
def unsigned (text : Str) : Str :=
  match text with
  | '+' :: rest => rest
  | _ => text

/-- The parser of numbers, once the sign has been dealt with. -/
theorem parseUnsigned_eq (size : Nat) (text : Str) : parseUnsigned size text =
    match unsigned text with
    | [] => .err (.cannotParse text)
    | _ => match digitsValue 0 (unsigned text) with
      | some n => if n < size then .ok n else .err (.cannotParse text)
      | none => .err (.cannotParse text) := rfl

/-- The digits of a numeral stand alone, or behind a plus sign. -/
theorem unsigned_cases (text : Str) : text = unsigned text ∨ text = '+' :: unsigned text := by
  unfold unsigned
  split
  · exact .inr rfl
  · exact .inl rfl

/-- **A numeral is read as what it denotes.** -/
theorem parseUnsigned_eq_ok {size n : Nat} {text : Str} :
    parseUnsigned size text = .ok n ↔ Denotes size text n := by
  rw [parseUnsigned_eq]
  constructor
  · intro h
    split at h
    · cases h
    · next hne =>
      split at h
      · next m hm =>
        split at h
        · next hlt =>
          obtain rfl := Outcome.ok.inj h
          -- only digits have a value, and the sign in front of them was a plus or nothing
          have hall := digits_of_digitsValue hm
          have hvalue : Nat.ofDigitChars 10 (unsigned text) 0 = m := by
            rw [digitsValue_of_digits hall] at hm
            exact Option.some.inj hm
          refine ⟨?_, hlt⟩
          rcases unsigned_cases text with hplain | hsign
          · exact ⟨[], unsigned text, hplain, .inl rfl, fun h => hne h, hall, hvalue⟩
          · exact ⟨['+'], unsigned text, hsign, .inr rfl, fun h => hne h, hall, hvalue⟩
        · cases h
      · cases h
  · rintro ⟨⟨sign, digits, rfl, hsign, hne, hall, hvalue⟩, hlt⟩
    have hdigits : unsigned (sign ++ digits) = digits := by
      rcases hsign with rfl | rfl
      · -- a digit is no plus sign
        cases digits with
        | nil => rfl
        | cons c rest =>
          have hplus : c ≠ '+' := by
            rintro rfl
            exact absurd (hall '+' List.mem_cons_self) (by decide)
          unfold unsigned
          split
          · next heq => exact absurd (List.cons.inj heq).1 hplus
          · rfl
      · rfl
    rw [hdigits, digitsValue_of_digits hall, hvalue]
    cases digits with
    | nil => exact absurd rfl hne
    | cons c rest => exact if_pos hlt

/-- Parsing a numeral gives a number or an error. -/
theorem parseUnsigned_cases (size : Nat) (text : Str) :
    (∃ n, parseUnsigned size text = .ok n) ∨
      parseUnsigned size text = .err (.cannotParse text) := by
  rw [parseUnsigned_eq]
  split
  · exact .inr rfl
  split
  · split
    · exact .inl ⟨_, rfl⟩
    · exact .inr rfl
  · exact .inr rfl

/-- **Printing writes a numeral.** -/
theorem denotes_showNat {size n : Nat} (h : n < size) : Denotes size (showNat n) n :=
  ⟨⟨[], showNat n, rfl, .inl rfl, Nat.toDigits_ne_nil,
    fun _ hc => Nat.isDigit_of_mem_toDigits (by decide) (by decide) hc,
    Nat.ofDigitChars_ten_toDigits⟩, h⟩

/-- A digit is not white space. -/
theorem isWhitespace_of_isDigit {c : Char} (h : c.isDigit = true) : isWhitespace c = false := by
  have hrange : '0'.toNat ≤ c.toNat ∧ c.toNat ≤ '9'.toNat := by
    simpa [Char.isDigit, UInt32.le_iff_toNat_le] using h
  have hle : 48 ≤ c.toNat ∧ c.toNat ≤ 57 := hrange
  simp only [isWhitespace, decide_eq_false_iff_not]
  omega

end Nvmetoy
