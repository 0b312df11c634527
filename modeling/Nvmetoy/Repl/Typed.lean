import Mathlib.Data.List.Chain
import Nvmetoy.Repl.Commands
import Nvmetoy.Repl.Lines

/-!
# The text a line carries

`write` and `poke` take the rest of their line as text. The line is split on white space
and the words of the text are joined again, each to the next by one space, so what the
device gets is the text as typed exactly when the text was singly spaced.

* `Writers` — what the two commands hand their text to, left open: `Passes line bytes` says
  that whatever these are, the line calls one of them with `bytes`.
* `Types text line` — the line is a `write` or a `poke` whose text, as typed, is `text`.
* `SinglySpaced text` — the white space inside is single spaces.
-/

namespace Nvmetoy

open Framework

/-! ### Words and spaces -/

/-- Every white-space character of the text is a space, and no two of them are adjacent. -/
structure SinglySpaced (text : Str) : Prop where
  spaces : ∀ c ∈ text, isWhitespace c = true → c = ' '
  apart : text.IsChain fun c d => ¬ (c = ' ' ∧ d = ' ')

/-- `join(" ")` of no words is empty. -/
@[simp] theorem joinSpace_nil : joinSpace [] = [] := rfl

@[simp] theorem joinSpace_singleton (token : Str) : joinSpace [token] = token := by
  simp [joinSpace, List.intercalate]

theorem joinSpace_cons_cons (token next : Str) (rest : List Str) :
    joinSpace (token :: next :: rest) = token ++ ' ' :: joinSpace (next :: rest) := by
  simp [joinSpace, List.intercalate]

/-- A single word has no spaces at all. -/
theorem IsToken.singlySpaced {token : Str} (h : IsToken token) : SinglySpaced token where
  spaces := fun c hc hspace => absurd hspace (by simp [h.free c hc])
  apart := by
    refine List.Pairwise.isChain (List.pairwise_of_forall_mem_list fun c hc d _ hboth => ?_)
    have hfree := h.free c hc
    rw [hboth.1] at hfree
    exact absurd hfree (by decide)

/-- Words joined by spaces begin with a word. -/
theorem head_joinSpace {token : Str} (rest : List Str) (h : IsToken token) :
    ∃ c, (joinSpace (token :: rest)).head? = some c ∧ isWhitespace c = false := by
  obtain ⟨first, word, rfl⟩ := List.exists_cons_of_ne_nil h.ne_nil
  refine ⟨first, ?_, h.free first List.mem_cons_self⟩
  cases rest with
  | nil => rw [joinSpace_singleton, List.head?_cons]
  | cons next rest => rw [joinSpace_cons_cons, List.cons_append, List.head?_cons]

/-- A word, one space and a singly spaced text that does not begin with a space. -/
theorem SinglySpaced.cons_word {token text : Str} (htoken : IsToken token)
    (hhead : ∀ c ∈ text.head?, c ≠ ' ') (h : SinglySpaced text) :
    SinglySpaced (token ++ ' ' :: text) where
  spaces := by
    intro c hc hspace
    rcases List.mem_append.mp hc with hc | hc
    · exact htoken.singlySpaced.spaces c hc hspace
    rcases List.mem_cons.mp hc with rfl | hc
    · rfl
    · exact h.spaces c hc hspace
  apart := by
    refine List.IsChain.append htoken.singlySpaced.apart ?_ ?_
    · exact List.isChain_cons.mpr ⟨fun c hc hboth => hhead c hc hboth.2, h.apart⟩
    · -- the last character of a word is no space
      intro c hc d _ hboth
      have hfree := htoken.free c (List.mem_of_mem_getLast? hc)
      rw [hboth.1] at hfree
      exact absurd hfree (by decide)

/-- **Words joined by one space are singly spaced.** -/
theorem singlySpaced_joinSpace {tokens : List Str} (h : ∀ token ∈ tokens, IsToken token) :
    SinglySpaced (joinSpace tokens) := by
  induction tokens with
  | nil => exact ⟨fun c hc => absurd hc List.not_mem_nil, .nil⟩
  | cons token rest ih =>
    have htoken := h token List.mem_cons_self
    cases rest with
    | nil => rw [joinSpace_singleton]; exact htoken.singlySpaced
    | cons next rest =>
      rw [joinSpace_cons_cons]
      have hrest := fun t ht => h t (List.mem_cons_of_mem _ ht)
      -- what follows the one space is a word, which starts with no space
      obtain ⟨first, hfirst, hfree⟩ := head_joinSpace rest (hrest next List.mem_cons_self)
      refine .cons_word htoken ?_ (ih hrest)
      rintro c hc rfl
      obtain rfl := Option.some.inj (hfirst.symm.trans hc)
      exact absurd hfree (by decide)

/-- The words of a spaced line are words. -/
theorem Spaced.isToken {tokens : List Str} {line : Str} (h : Spaced tokens line) :
    ∀ token ∈ tokens, IsToken token := by
  induction h with
  | blank => intro token hmem; exact absurd hmem List.not_mem_nil
  | token _ htoken _ _ ih =>
    intro word hmem
    rcases List.mem_cons.mp hmem with rfl | hmem
    · exact htoken
    · exact ih word hmem

/-- The white space at the start of a singly spaced text is at most one space. -/
theorem SinglySpaced.gap {gap text : Str} (hgap : IsGap gap)
    (h : SinglySpaced (gap ++ text)) : gap = [] ∨ gap = [' '] := by
  have hspace : ∀ c ∈ gap, c = ' ' := fun c hc =>
    h.spaces c (List.mem_append_left _ hc) (hgap c hc)
  rcases gap with - | ⟨c, - | ⟨d, rest⟩⟩
  · exact .inl rfl
  · exact .inr (congrArg (· :: []) (hspace c List.mem_cons_self))
  · -- two of them would be adjacent
    have hapart := (List.isChain_cons_cons.mp h.apart).1
    refine absurd ⟨hspace c List.mem_cons_self, hspace d ?_⟩ hapart
    exact List.mem_cons_of_mem _ List.mem_cons_self

/-- A singly spaced text is its words joined again, behind the space it may begin with. -/
theorem Spaced.joined {tokens : List Str} {line : Str} (hline : Spaced tokens line)
    (h : SinglySpaced line) (hlast : ∀ c ∈ line.getLast?, c ≠ ' ') :
    (tokens = [] ∧ line = []) ∨
      ∃ gap, (gap = [] ∨ gap = [' ']) ∧ line = gap ++ joinSpace tokens := by
  induction hline with
  | @blank gap hgap =>
    have hgap' := @SinglySpaced.gap gap [] hgap (by simpa using h)
    rcases hgap' with rfl | rfl
    · exact .inl ⟨rfl, rfl⟩
    · exact absurd rfl (hlast ' ' rfl)
  | @token gap token line tokens hgap htoken hapart hrest ih =>
    right
    have hgap' : gap = [] ∨ gap = [' '] := by
      rw [List.append_assoc] at h
      exact SinglySpaced.gap hgap h
    have hsuffix : SinglySpaced line :=
      ⟨fun c hc => h.spaces c (List.mem_append_right _ hc), h.apart.right_of_append⟩
    have hend : ∀ c ∈ line.getLast?, c ≠ ' ' := by
      intro c hc
      refine hlast c ?_
      rw [List.getLast?_append, Option.mem_def.mp hc]
      rfl
    refine ⟨gap, hgap', ?_⟩
    -- what follows the first word is nothing, or one space and the other words
    rcases ih hsuffix hend with ⟨rfl, rfl⟩ | ⟨between, hbetween, rfl⟩
    · rw [joinSpace_singleton, List.append_nil]
    · cases tokens with
      | nil =>
        -- nothing but a space can follow, and the text does not end in one
        rcases hbetween with rfl | rfl
        · rw [joinSpace_nil, joinSpace_singleton, List.append_nil, List.append_nil]
        · exact absurd rfl (hend ' ' rfl)
      | cons next rest =>
        rw [joinSpace_cons_cons]
        rcases hbetween with rfl | rfl
        · -- the next word cannot touch this one
          obtain ⟨first, hfirst, hfree⟩ :=
            head_joinSpace rest (hrest.isToken next List.mem_cons_self)
          rw [hapart first hfirst] at hfree
          cases hfree
        · rw [List.append_assoc]
          rfl

/-- Where a text ends in no space and begins with none. -/
structure Trimmed (text : Str) : Prop where
  ne_nil : text ≠ []
  head : ∀ c ∈ text.head?, c ≠ ' ' ∧ c ≠ '\t'
  last : ∀ c ∈ text.getLast?, c ≠ ' ' ∧ c ≠ '\t'

/-- **Splitting a text and joining its words gives it back when it was singly spaced, and
only then.** -/
theorem joinSpace_splitWhitespace {text : Str} (h : Trimmed text) :
    joinSpace (splitWhitespace text) = text ↔ SinglySpaced text := by
  have hspaced := spaced_splitWhitespace text
  constructor
  · intro hjoin
    have hsingly := singlySpaced_joinSpace hspaced.isToken
    rwa [hjoin] at hsingly
  · intro hsingly
    rcases hspaced.joined hsingly (fun c hc => (h.last c hc).1) with ⟨-, hnil⟩ | ⟨gap, hgap, htext⟩
    · exact absurd hnil h.ne_nil
    · -- the text has no space at its front, so that its first word is there
      rcases hgap with rfl | rfl
      · exact htext.symm
      · have hhead : ' ' ∈ text.head? := by rw [htext]; rfl
        exact absurd rfl (h.head ' ' hhead).1

/-- Different texts have different bytes. -/
theorem Str.bytes_injective : Function.Injective Str.bytes := by
  intro s t h
  have hdecode := utf8Decode_bytes s
  rw [h, utf8Decode_bytes t] at hdecode
  exact (Option.some.inj hdecode).symm

namespace Repl

/-! ### The two commands, with what they call left open -/

/-- What `run_repl_line` hands a text to: `write_blocks` and `poke`. -/
structure Writers where
  writeBlocks : UInt64 → List UInt8 → Command UInt64
  poke : UInt64 → Nat → Str → Command Unit

namespace Writers

variable (W : Writers) (p : Profile) (blocks : FileBlocks)

/-- The `write` arm of `run_repl_line`. -/
def runWrite (lba : Str) (rest : List Str) : Command Unit := do
  let deviceLba ← Method.lift (parseU64 lba)
  let text := joinSpace rest
  let count ← W.writeBlocks deviceLba text.bytes
  println ("wrote ".toList ++ showNat text.bytes.length ++ " bytes into ".toList ++
    showNat count.toNat ++ " ".toList ++ plural count ++ " at device-lba ".toList ++
    showNat deviceLba.toNat ++ " (block tail zeroed)".toList)

/-- The `poke` arm of `run_repl_line`. -/
def runPoke (lba offset : Str) (rest : List Str) : Command Unit := do
  let deviceLba ← Method.lift (parseU64 lba)
  let offset ← Method.lift (parseUsize offset)
  W.poke deviceLba offset (joinSpace rest)

/-- The arms of `run_repl_line` that call one of the two, by the tokens they take. -/
def arm (tokens : List Str) : Option (Command Unit) :=
  match tokens with
  | command :: lba :: first :: rest =>
    if command = "write".toList then some (W.runWrite lba (first :: rest))
    else if command = "poke".toList then
      match rest with
      | [] => none
      | next :: rest => some (W.runPoke lba first (next :: rest))
    else none
  | _ => none

/-- `run_repl_line`. -/
def runReplLine (line : Str) : Command Bool :=
  match W.arm (splitWhitespace line) with
  | some command => do
    command
    pure true
  | none => Repl.runReplLine p blocks line

/-- The two functions of the source. -/
def ofSource : Writers where
  writeBlocks := Repl.writeBlocks p blocks
  poke := Repl.poke p blocks

/-- **With the functions of the source this is `run_repl_line`.** -/
theorem runReplLine_ofSource (line : Str) :
    (ofSource p blocks).runReplLine p blocks line = Repl.runReplLine p blocks line := by
  unfold runReplLine
  split
  · next command harm =>
    have hdispatch : dispatch p blocks (splitWhitespace line) = some command := by
      unfold arm at harm
      split at harm
      · -- the two forms are arms of the `match`, with the writers of the source
        next name lba first rest htokens =>
        rw [htokens]
        split at harm
        · next hname => subst hname; exact harm
        split at harm
        · next hname =>
          subst hname
          cases rest with
          | nil => cases harm
          | cons next rest => exact harm
        · cases harm
      · cases harm
    rw [Repl.runReplLine, hdispatch]
  · rfl

end Writers

/-- `run_repl_line` passes these bytes on: whatever `write_blocks` and `poke` do, the line
runs one of them on the bytes, and then goes on with what it returns. -/
inductive Passes (p : Profile) (blocks : FileBlocks) (line : Str) : List UInt8 → Prop where
  | write (lba : UInt64) (bytes : List UInt8) (next : UInt64 → Command Bool)
      (h : ∀ W : Writers, W.runReplLine p blocks line = (W.writeBlocks lba bytes >>= next)) :
      Passes p blocks line bytes
  | poke (lba : UInt64) (offset : Nat) (text : Str) (next : Unit → Command Bool)
      (h : ∀ W : Writers, W.runReplLine p blocks line = (W.poke lba offset text >>= next)) :
      Passes p blocks line text.bytes

/-- The line is a `write` or a `poke` of this text, as it was typed: white space stands
between the words before the text, and the text neither begins nor ends with a blank. -/
inductive Types (text : Str) : Str → Prop where
  | write {lba gap gap' : Str} {n : Nat} (hlba : Denotes U64_SIZE lba n)
      (hgap : IsGap gap ∧ gap ≠ []) (hgap' : IsGap gap' ∧ gap' ≠ []) (htext : Trimmed text) :
      Types text ("write".toList ++ (gap ++ (lba ++ (gap' ++ text))))
  | poke {lba offset gap gap' gap'' : Str} {n m : Nat} (hlba : Denotes U64_SIZE lba n)
      (hoffset : Denotes U64_SIZE offset m) (hgap : IsGap gap ∧ gap ≠ [])
      (hgap' : IsGap gap' ∧ gap' ≠ []) (hgap'' : IsGap gap'' ∧ gap'' ≠ [])
      (htext : Trimmed text) :
      Types text ("poke".toList ++ (gap ++ (lba ++ (gap' ++ (offset ++ (gap'' ++ text))))))

theorem Types.trimmed {text line : Str} (h : Types text line) : Trimmed text := by
  cases h with
  | write _ _ _ htext => exact htext
  | poke _ _ _ _ _ htext => exact htext

/-- A numeral is a word. -/
theorem isToken_of_denotes {size n : Nat} {text : Str} (h : Denotes size text n) :
    IsToken text := by
  obtain ⟨⟨sign, digits, rfl, hsign, hne, hall, -⟩, -⟩ := h
  refine ⟨fun hnil => hne (List.append_eq_nil_iff.mp hnil).2, ?_⟩
  intro c hc
  rcases List.mem_append.mp hc with hc | hc
  · rcases hsign with rfl | rfl
    · exact absurd hc List.not_mem_nil
    · obtain rfl := List.mem_singleton.mp hc
      decide
  · exact isWhitespace_of_isDigit (hall c hc)

/-- A word and the white space after it. -/
theorem splitWhitespace_word {token gap line : Str} (htoken : IsToken token)
    (hgap : IsGap gap ∧ gap ≠ []) :
    splitWhitespace (token ++ (gap ++ line)) = token :: splitWhitespace line := by
  obtain ⟨c, rest, rfl⟩ := List.exists_cons_of_ne_nil hgap.2
  rw [splitWhitespace_token htoken, splitWhitespace_gap hgap.1]
  rintro d hd
  obtain rfl := Option.some.inj hd
  exact hgap.1 _ List.mem_cons_self

/-- What denotes a number parses as that number. -/
theorem parseU64_of_denotes {text : Str} {n : Nat} (h : Denotes U64_SIZE text n) :
    parseU64 text = .ok (UInt64.ofNat n) := by
  rw [parseU64, parseUnsigned_eq_ok.mpr h]
  rfl

section Passing

variable {p : Profile} {blocks : FileBlocks} {line text : Str} {bytes bytes' : List UInt8}

/-- What a typed line runs: one of the two functions on its words joined again, or nothing
where it has no words. -/
theorem Types.runs (h : Types text line) :
    (splitWhitespace text ≠ [] ∧
      Passes p blocks line (joinSpace (splitWhitespace text)).bytes) ∨
    (splitWhitespace text = [] ∧
      ∀ W : Writers, W.runReplLine p blocks line = Method.fail .unknownCommand) := by
  cases h with
  | @write lba gap gap' n hlba hgap hgap' htext =>
    have htokens : splitWhitespace ("write".toList ++ (gap ++ (lba ++ (gap' ++ text)))) =
        "write".toList :: lba :: splitWhitespace text := by
      rw [splitWhitespace_word ⟨by decide, by simp [isWhitespace]⟩ hgap,
        splitWhitespace_word (isToken_of_denotes hlba) hgap']
    -- without a word in it, the text is no argument at all
    cases hwords : splitWhitespace text with
    | nil =>
      rw [hwords] at htokens
      refine .inr ⟨rfl, fun W => ?_⟩
      rw [Writers.runReplLine, Repl.runReplLine, htokens]
      rfl
    | cons first rest =>
      rw [hwords] at htokens
      refine .inl ⟨List.cons_ne_nil _ _, .write (UInt64.ofNat n) _ ?_ fun W => ?_⟩
      rotate_left
      rw [Writers.runReplLine, htokens]
      change (W.runWrite lba (first :: rest) >>= fun _ => pure true) = _
      rw [Writers.runWrite, parseU64_of_denotes hlba, Method.lift_ok_bind, Method.bind_assoc]
  | @poke lba offset gap gap' gap'' n m hlba hoffset hgap hgap' hgap'' htext =>
    have htokens : splitWhitespace
        ("poke".toList ++ (gap ++ (lba ++ (gap' ++ (offset ++ (gap'' ++ text)))))) =
        "poke".toList :: lba :: offset :: splitWhitespace text := by
      rw [splitWhitespace_word ⟨by decide, by simp [isWhitespace]⟩ hgap,
        splitWhitespace_word (isToken_of_denotes hlba) hgap',
        splitWhitespace_word (isToken_of_denotes hoffset) hgap'']
    cases hwords : splitWhitespace text with
    | nil =>
      rw [hwords] at htokens
      refine .inr ⟨rfl, fun W => ?_⟩
      rw [Writers.runReplLine, Repl.runReplLine, htokens]
      rfl
    | cons first rest =>
      rw [hwords] at htokens
      refine .inl ⟨List.cons_ne_nil _ _, .poke (UInt64.ofNat n) m _ ?_ fun W => ?_⟩
      rotate_left
      rw [Writers.runReplLine, htokens]
      change (W.runPoke lba offset (first :: rest) >>= fun _ => pure true) = _
      rw [Writers.runPoke, parseU64_of_denotes hlba, Method.lift_ok_bind, parseUsize,
        parseUnsigned_eq_ok.mpr hoffset, Method.lift_ok_bind]

/-- Functions that fail, and tell with their error whether they got these bytes. -/
def Writers.telling (bytes : List UInt8) : Writers where
  writeBlocks := fun _ got =>
    Method.fail (if got = bytes then .nothingToWrite else .unknownCommand)
  poke := fun _ _ text =>
    Method.fail (if text.bytes = bytes then .nothingToWrite else .unknownCommand)

/-- What a line passes to the writers can be told apart by the error they fail with. -/
theorem Passes.telling (h : Passes p blocks line bytes) (bytes' : List UInt8) :
    (Writers.telling bytes').runReplLine p blocks line =
      Method.fail (if bytes = bytes' then .nothingToWrite else .unknownCommand) := by
  cases h with
  | write lba _ next h => rw [h]; rfl
  | poke lba offset text next h => rw [h]; rfl

/-- Different errors are different failures. -/
theorem fail_inj {e e' : IoError} (h : (Method.fail e : Command Bool) = Method.fail e') :
    e = e' := by
  have hrun := congrFun h ()
  simp only [Method.fail, Method.lift, Prog.pure.injEq, Prod.mk.injEq, Outcome.err.injEq,
    and_true] at hrun
  exact hrun

/-- A line passes on one byte string. -/
theorem Passes.unique (h : Passes p blocks line bytes) (h' : Passes p blocks line bytes') :
    bytes = bytes' := by
  have herrors := fail_inj ((h.telling bytes').symm.trans (h'.telling bytes'))
  rw [if_pos (Eq.refl bytes')] at herrors
  by_contra hne
  rw [if_neg hne] at herrors
  cases herrors

/-- A typed line passes on its words, each joined to the next by one space. -/
theorem Types.passes_iff (h : Types text line) :
    Passes p blocks line bytes ↔
      splitWhitespace text ≠ [] ∧ bytes = (joinSpace (splitWhitespace text)).bytes := by
  rcases h.runs with ⟨hsome, hpasses⟩ | ⟨hnone, hrefused⟩
  · constructor
    · intro hbytes
      exact ⟨hsome, hbytes.unique hpasses⟩
    · rintro ⟨-, rfl⟩
      exact hpasses
  · constructor
    · intro hbytes
      -- a line that is refused passes nothing on, to any writer
      have herrors := fail_inj ((hbytes.telling bytes).symm.trans (hrefused _))
      rw [if_pos (Eq.refl bytes)] at herrors
      cases herrors
    · rintro ⟨hsome, -⟩
      exact absurd hnone hsome

end Passing

/-- **The text reaches the device as it was typed exactly when it is singly spaced.** -/
theorem passes_typed_text (p : Profile) (blocks : FileBlocks) {line text : Str}
    (h : Types text line) : Passes p blocks line text.bytes ↔ SinglySpaced text := by
  have hjoin := joinSpace_splitWhitespace h.trimmed
  rw [h.passes_iff]
  constructor
  · -- the bytes determine the text
    rintro ⟨-, hbytes⟩
    exact hjoin.mp (Str.bytes_injective hbytes).symm
  · intro hsingly
    have htext := hjoin.mpr hsingly
    refine ⟨?_, congrArg Str.bytes htext.symm⟩
    intro hnone
    rw [hnone] at htext
    exact h.trimmed.ne_nil htext.symm

/-- A `write` with two spaces before its text. -/
theorem passes_typed_text_hello :
    Passes .debug ⟨512, [⟨7, 1, false⟩]⟩ "write 7  hello world".toList
      (Str.bytes "hello world".toList) :=
  (passes_typed_text .debug ⟨512, [⟨7, 1, false⟩]⟩
    (@Types.write "hello world".toList ['7'] [' '] [' ', ' '] 7
      ⟨⟨[], ['7'], rfl, .inl rfl, by simp, by simp, rfl⟩, by decide⟩
      ⟨by simp [IsGap, isWhitespace], by simp⟩ ⟨by simp [IsGap, isWhitespace], by simp⟩
      ⟨by simp, by simp, by simp⟩)).mpr ⟨by simp [isWhitespace], by simp⟩

/-- The two spaces of `poke 7 0 a  b` reach the block as one. -/
theorem not_passes_double_space :
    ¬ ∀ (p : Profile) (blocks : FileBlocks) (line text : Str), (∀ c ∈ text, c.toNat < 128) →
      Types text line → Passes p blocks line text.bytes := by
  intro hverbatim
  have htypes : Types "a  b".toList "poke 7 0 a  b".toList :=
    @Types.poke "a  b".toList ['7'] ['0'] [' '] [' '] [' '] 7 0
      ⟨⟨[], ['7'], rfl, .inl rfl, by simp, by simp, rfl⟩, by decide⟩
      ⟨⟨[], ['0'], rfl, .inl rfl, by simp, by simp, rfl⟩, by decide⟩
      ⟨by simp [IsGap, isWhitespace], by simp⟩ ⟨by simp [IsGap, isWhitespace], by simp⟩
      ⟨by simp [IsGap, isWhitespace], by simp⟩ ⟨by simp, by simp, by simp⟩
  have hpasses := hverbatim .debug ⟨512, [⟨7, 1, false⟩]⟩ _ _ (by simp) htypes
  -- the two spaces are passed on as one
  have hbytes := (htypes.passes_iff.mp hpasses).2
  exact absurd (Str.bytes_injective hbytes) (by decide)

end Repl

end Nvmetoy
