import Nvmetoy.Repl.Lines

/-!
# Completion of the line

`ReplHelper.complete` is asked by the line editor at a cursor position, a byte offset into
the line. Offsets and characters meet in three places: the line is cut at the cursor, the
last white space is found by its byte offset, and the text before the cursor is cut one
*byte* after that offset.

* `Str.splitAt?` — cutting at an offset, which fails inside a character.
* `complete_exact_iff` — completion does what it is for exactly when the last white space
  before the cursor is a character of one byte; otherwise the second cut panics.
-/

namespace Nvmetoy

open Framework

/-! ### Offsets -/

namespace Str

/-- `str::len`: the length in bytes. -/
def len (s : Str) : Nat := s.bytes.length

/-- The two parts of a string on either side of a byte offset, if it is the offset of a
character. -/
def splitAt? : Nat → Str → Option (Str × Str)
  | 0, s => some ([], s)
  | _ + 1, [] => none
  | n + 1, c :: rest =>
    if c.utf8Size ≤ n + 1 then
      (splitAt? (n + 1 - c.utf8Size) rest).map fun x => (c :: x.1, x.2)
    else none

/-- `&s[..n]`. -/
def sliceTo (s : Str) (n : Nat) : Outcome IoError Str :=
  match s.splitAt? n with
  | some x => .ok x.1
  | none => .panic "byte index is not a char boundary"

/-- `&s[n..]`. -/
def sliceFrom (s : Str) (n : Nat) : Outcome IoError Str :=
  match s.splitAt? n with
  | some x => .ok x.2
  | none => .panic "byte index is not a char boundary"

/-- `s.rfind(char::is_whitespace)`: the offset of the last white space character. -/
def rfindWhitespace : Str → Option Nat
  | [] => none
  | c :: rest =>
    match rfindWhitespace rest with
    | some i => some (c.utf8Size + i)
    | none => if isWhitespace c then some 0 else none

@[simp] theorem len_nil : Str.len [] = 0 := rfl

@[simp] theorem len_cons (c : Char) (s : Str) : Str.len (c :: s) = c.utf8Size + Str.len s := by
  rw [len, Str.bytes_cons, List.length_append, String.length_utf8EncodeChar]
  rfl

@[simp] theorem len_append (s t : Str) : Str.len (s ++ t) = s.len + t.len := by
  rw [len, Str.bytes_append, List.length_append]
  rfl

/-- Cutting at the offset where a part ends. -/
theorem splitAt?_append (s t : Str) : splitAt? s.len (s ++ t) = some (s, t) := by
  induction s with
  | nil => cases t <;> rfl
  | cons c s ih =>
    have hpos : 0 < c.utf8Size := c.utf8Size_pos
    obtain ⟨n, hn⟩ : ∃ n, c.utf8Size + Str.len s = n + 1 := ⟨_, (Nat.succ_pred (by omega)).symm⟩
    rw [len_cons, hn, List.cons_append, splitAt?, if_pos (by omega),
      show n + 1 - c.utf8Size = Str.len s by omega, ih, Option.map_some]

/-- An offset inside a character does not cut. -/
theorem splitAt?_inside {front rest : Str} {c : Char} {n : Nat} (hpos : 0 < n)
    (hlt : n < c.utf8Size) : splitAt? (front.len + n) (front ++ c :: rest) = none := by
  induction front with
  | nil =>
    obtain ⟨n, rfl⟩ : ∃ m, n = m + 1 := ⟨n - 1, by omega⟩
    rw [len_nil, Nat.zero_add, List.nil_append, splitAt?, if_neg (by omega)]
  | cons d front ih =>
    have hd : 0 < d.utf8Size := d.utf8Size_pos
    obtain ⟨m, hm⟩ : ∃ m, Str.len (d :: front) + n = m + 1 :=
      ⟨Str.len (d :: front) + n - 1, by omega⟩
    have hrest : m + 1 - d.utf8Size = Str.len front + n := by
      rw [← hm, len_cons]
      omega
    -- one character less, and as far inside the next one
    rw [hm, List.cons_append, splitAt?, hrest, ih]
    split <;> rfl

/-- No white space. -/
theorem rfindWhitespace_free {s : Str} (h : ∀ c ∈ s, isWhitespace c = false) :
    rfindWhitespace s = none := by
  induction s with
  | nil => rfl
  | cons c s ih =>
    rw [rfindWhitespace, ih fun d hd => h d (List.mem_cons_of_mem _ hd),
      h c List.mem_cons_self]
    rfl

/-- The last white space. -/
theorem rfindWhitespace_append {front word : Str} {c : Char} (hc : isWhitespace c = true)
    (h : ∀ d ∈ word, isWhitespace d = false) :
    rfindWhitespace (front ++ c :: word) = some front.len := by
  induction front with
  | nil => rw [List.nil_append, rfindWhitespace, rfindWhitespace_free h, if_pos hc]; rfl
  | cons d front ih => rw [List.cons_append, rfindWhitespace, ih, len_cons]

end Str

/-! ### The completer -/

/-- `COMMANDS`. -/
def COMMANDS : List Str :=
  ["list", "identify", "read", "write", "fill", "peek", "poke", "help", "quit", "exit"].map
    String.toList

/-- `LBA_COMMANDS`: those whose first argument is a block of the file. -/
def LBA_COMMANDS : List Str := ["read", "write", "fill", "peek", "poke"].map String.toList

/-- What a completion shows, and what it puts in the line. -/
structure Pair where
  display : Str
  replacement : Str
deriving DecidableEq, Repr

/-- A completion of a whole word. -/
def Pair.ofWord (word : Str) : Pair := ⟨word, word ++ [' ']⟩

/-- `ReplHelper`. -/
structure ReplHelper where
  lbas : List UInt64

namespace ReplHelper

/-- The candidates for `word`, after the words in `prior`. -/
def candidates (helper : ReplHelper) (prior : List Str) (word : Str) : List Pair :=
  match prior with
  | [] => (COMMANDS.filter fun command => word.isPrefixOf command).map Pair.ofWord
  | [command] =>
    if command ∈ LBA_COMMANDS then
      (helper.lbas.filter fun lba => word.isPrefixOf (showNat lba.toNat)).map fun lba =>
        Pair.ofWord (showNat lba.toNat)
    else []
  | _ => []

/-- `complete`: the offset of the word at the cursor, and the candidates for it. -/
def complete (helper : ReplHelper) (line : Str) (pos : Nat) :
    Outcome IoError (Nat × List Pair) := do
  let before ← line.sliceTo pos
  let start := match before.rfindWhitespace with
    | some i => i + 1
    | none => 0
  let word ← before.sliceFrom start
  let prior ← before.sliceTo start
  pure (start, helper.candidates (splitWhitespace prior) word)

/-- What is offered for `word` behind the words before it: commands in the first place, the
known blocks behind a command that takes one, and nothing elsewhere. -/
structure Offers (helper : ReplHelper) (words : List Str) (word : Str) (offered : List Pair) :
    Prop where
  commands : words = [] →
    offered = (COMMANDS.filter fun command => decide (word <+: command)).map Pair.ofWord
  lbas : ∀ command ∈ LBA_COMMANDS, words = [command] →
    offered = ((helper.lbas.map fun lba => showNat lba.toNat).filter fun text =>
      decide (word <+: text)).map Pair.ofWord
  nothing : words ≠ [] → (∀ command ∈ LBA_COMMANDS, words ≠ [command]) → offered = []

/-- What completion is for: the word is what follows the last white space before the cursor,
and what is offered is what belongs there. -/
def Exact (helper : ReplHelper) (before : Str) (x : Outcome IoError (Nat × List Pair)) : Prop :=
  ∃ (front word : Str) (words : List Str) (offered : List Pair), before = front ++ word ∧
    (∀ c ∈ word, isWhitespace c = false) ∧ (∀ c ∈ front.getLast?, isWhitespace c = true) ∧
    Spaced words front ∧ helper.Offers words word offered ∧ x = .ok (front.len, offered)

/-- The last white space of the text is a character of one byte. -/
def LastSpaceNarrow (before : Str) : Prop :=
  ∀ (front : Str) (c : Char) (word : Str), before = front ++ c :: word → isWhitespace c = true →
    (∀ d ∈ word, isWhitespace d = false) → c.utf8Size = 1

variable {helper : ReplHelper} {before after : Str}

/-- The candidates are what is to be offered. -/
theorem offers_candidates (helper : ReplHelper) (words : List Str) (word : Str) :
    helper.Offers words word (helper.candidates words word) := by
  have hprefix (text : Str) : word.isPrefixOf text = decide (word <+: text) := by
    rw [Bool.eq_iff_iff, List.isPrefixOf_iff_prefix, decide_eq_true_iff]
  -- no word before, a command that takes block numbers before, and any other
  refine ⟨?_, ?_, ?_⟩
  · rintro rfl
    simp only [candidates, hprefix]
  · rintro command hmem rfl
    simp only [candidates, if_pos hmem, hprefix, List.filter_map, List.map_map]
    rfl
  · intro hne hnone
    unfold candidates
    split
    · exact absurd rfl hne
    · next command => exact if_neg fun hmem => hnone command hmem rfl
    · rfl

/-- A text has no white space, or some white space is its last. -/
theorem lastSpace_cases (before : Str) : (∀ c ∈ before, isWhitespace c = false) ∨
    ∃ (front : Str) (c : Char) (word : Str), before = front ++ c :: word ∧
      isWhitespace c = true ∧ ∀ d ∈ word, isWhitespace d = false := by
  induction before with
  | nil => exact .inl fun c hc => absurd hc List.not_mem_nil
  | cons c rest ih =>
    -- a space behind the first character, if there is one, is the last as well
    rcases ih with hfree | ⟨front, d, word, rfl, hd, hword⟩
    · cases hc : isWhitespace c with
      | true => exact .inr ⟨[], c, rest, rfl, hc, hfree⟩
      | false =>
        refine .inl fun d hd => ?_
        rcases List.mem_cons.mp hd with rfl | hmem
        · exact hc
        · exact hfree d hmem
    · exact .inr ⟨c :: front, d, word, rfl, hd, hword⟩

/-- Completion, once the line is cut at the cursor. -/
theorem complete_append (helper : ReplHelper) (before after : Str) :
    helper.complete (before ++ after) before.len =
      ((before.sliceFrom (match before.rfindWhitespace with
        | some i => i + 1
        | none => 0)).bind fun word =>
      (before.sliceTo (match before.rfindWhitespace with
        | some i => i + 1
        | none => 0)).bind fun prior =>
      .ok (match before.rfindWhitespace with
        | some i => i + 1
        | none => 0, helper.candidates (splitWhitespace prior) word)) := by
  have hcut : (before ++ after).sliceTo before.len = .ok before := by
    rw [Str.sliceTo, Str.splitAt?_append]
  rw [complete, hcut]
  rfl

/-- **Completion is safe and exact** at a cursor between two characters, exactly when the last
white space before it is one byte wide. Behind a wider one it cuts inside the character, and
panics. -/
theorem complete_exact_iff (helper : ReplHelper) (before after : Str) :
    helper.Exact before (helper.complete (before ++ after) before.len) ↔
      LastSpaceNarrow before := by
  rw [complete_append]
  rcases lastSpace_cases before with hfree | ⟨front, c, word, rfl, hc, hword⟩
  · -- one word, and nothing before it
    have hnarrow : LastSpaceNarrow before := by
      rintro front c word rfl hc -
      have hcfree := hfree c (by simp)
      rw [hc] at hcfree
      cases hcfree
    refine iff_of_true ⟨[], before, [], _, rfl, hfree, fun c hc => ?_,
      .blank fun c hc => absurd hc List.not_mem_nil, offers_candidates helper [] before, ?_⟩ hnarrow
    · cases hc
    · rw [Str.rfindWhitespace_free hfree]
      have hzero : before.splitAt? 0 = some ([], before) := by cases before <;> rfl
      simp only [Str.sliceFrom, Str.sliceTo, hzero, Outcome.bind]
      rfl
  · rw [Str.rfindWhitespace_append hc hword]
    by_cases hwidth : c.utf8Size = 1
    · have hnarrow : LastSpaceNarrow (front ++ c :: word) := by
        intro front' c' word' heq hc' hword'
        -- the last white space is unique: its offset is
        have hoffset := @Str.rfindWhitespace_append front' word' c' hc' hword'
        rw [← heq, Str.rfindWhitespace_append hc hword] at hoffset
        have hsplit := Str.splitAt?_append front (c :: word)
        rw [Option.some.inj hoffset, heq, Str.splitAt?_append] at hsplit
        obtain ⟨-, hcons⟩ := Prod.mk.inj (Option.some.inj hsplit)
        rw [(List.cons.inj hcons).1]
        exact hwidth
      refine iff_of_true ⟨front ++ [c], word, _, _, by simp, hword, fun d hd => ?_,
        spaced_splitWhitespace _, offers_candidates helper _ word, ?_⟩ hnarrow
      · -- the word follows the white space
        rw [List.getLast?_concat] at hd
        exact Option.some.inj hd ▸ hc
      · have hlen : front.len + 1 = Str.len (front ++ [c]) := by simp [hwidth]
        have hcut : Str.splitAt? (front.len + 1) (front ++ c :: word) =
            some (front ++ [c], word) := by
          rw [hlen, show front ++ c :: word = front ++ [c] ++ word by simp]
          exact Str.splitAt?_append _ _
        simp only [Str.sliceFrom, Str.sliceTo, hcut, Outcome.bind]
        rw [hlen]
    · -- wider white space: the offset behind its first byte is no boundary
      have hwide : 1 < c.utf8Size := Nat.lt_of_le_of_ne c.utf8Size_pos (Ne.symm hwidth)
      have hcut : Str.splitAt? (front.len + 1) (front ++ c :: word) = none :=
        Str.splitAt?_inside Nat.one_pos hwide
      refine iff_of_false ?_ fun h => hwidth (h front c word rfl hc hword)
      rintro ⟨front', word', words, offered, -, -, -, -, -, hx⟩
      simp only [Str.sliceFrom, hcut, Outcome.bind] at hx
      cases hx

/-- A line with a no-break space, and the cursor at its end. -/
theorem complete_panics : ¬ (ReplHelper.mk []).Exact ['a', '\u00A0']
    ((ReplHelper.mk []).complete ['a', '\u00A0'] (Str.len ['a', '\u00A0'])) := by
  rintro ⟨front, word, words, offered, -, -, -, -, -, hx⟩
  have hpanic : (ReplHelper.mk []).complete ['a', '\u00A0'] (Str.len ['a', '\u00A0']) =
      .panic "byte index is not a char boundary" := by decide
  rw [hpanic] at hx
  cases hx

end ReplHelper

end Nvmetoy
