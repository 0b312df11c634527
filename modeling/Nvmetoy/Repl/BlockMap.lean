import Mathlib.Data.List.Forall2
import Nvmetoy.Repl.FileBlocks
import Nvmetoy.Repl.Lines

/-!
# Block maps

The format of the map that `nvmetoy.sh` hands to the REPL, and what `FileBlocks.parse` makes
of a stream of bytes.

* `MapLine.Reads` — the grammar of one line: blank, the version header, the block size, or an
  extent of three numbers.
* `parse_eq_ok` — a stream is accepted exactly when all its lines are in the grammar, wherever
  each of them stands; every other stream is refused.
* `parse_emitted` — parsing undoes the printing of `emit_block_map`.
* `parse_versioned_iff` — where the parser falls short of the format: the header and the block
  size may be missing.
-/

namespace Nvmetoy

open Framework

/-- What a line of the map says. -/
inductive MapLine where
  | blank
  | header
  | size (blockSize : UInt64)
  | extent (e : Extent)
deriving DecidableEq, Repr

namespace MapLine

/-- The grammar of a line, by its tokens. -/
inductive Reads : List Str → MapLine → Prop where
  | blank : Reads [] .blank
  | header : Reads ["nvmetoy-block-map".toList, "1".toList] .header
  | size {value : Str} {n : Nat} (h : Denotes U64_SIZE value n) :
      Reads ["device_lba_size".toList, value] (.size (.ofNat n))
  | extent {lba count flag : Str} {a n u : Nat} (hlba : Denotes U64_SIZE lba a)
      (hcount : Denotes U64_SIZE count n) (hflag : Denotes 256 flag u) :
      Reads [lba, count, flag] (.extent ⟨.ofNat a, .ofNat n, UInt8.ofNat u != 0⟩)

/-- The block size a line gives. -/
def size? : MapLine → Option UInt64
  | size n => some n
  | _ => none

/-- The extent a line gives. -/
def extent? : MapLine → Option Extent
  | extent e => some e
  | _ => none

end MapLine

open MapLine

/-- The lines of a stream, as they are read. -/
def MapLines (stream : List UInt8) (items : List MapLine) : Prop :=
  ∃ texts : List Str, (splitLines stream).map utf8Decode = texts.map some ∧
    List.Forall₂ Reads (texts.map splitWhitespace) items

namespace FileBlocks

/-- What a line adds to the map. -/
def add (blocks : FileBlocks) : MapLine → FileBlocks
  | .blank => blocks
  | .header => blocks
  | .size n => { blocks with deviceLbaSize := n }
  | .extent e => { blocks with extents := blocks.extents ++ [e] }

variable {blocks blocks' : FileBlocks} {line : Str} {item : MapLine} {items : List MapLine}

/-! ### One line -/

/-- What parses denotes a number that fits. -/
theorem parseU64_eq_ok {text : Str} {x : UInt64} :
    parseU64 text = .ok x ↔ ∃ n, Denotes U64_SIZE text n ∧ x = .ofNat n := by
  constructor
  · intro h
    obtain ⟨n, hn, hx⟩ := Outcome.bind_eq_ok.mp h
    exact ⟨n, parseUnsigned_eq_ok.mp hn, (Outcome.ok.inj hx).symm⟩
  · rintro ⟨n, hn, rfl⟩
    exact Outcome.bind_eq_ok.mpr ⟨n, parseUnsigned_eq_ok.mpr hn, rfl⟩

theorem parseU8_eq_ok {text : Str} {x : UInt8} :
    parseU8 text = .ok x ↔ ∃ n, Denotes 256 text n ∧ x = .ofNat n := by
  constructor
  · intro h
    obtain ⟨n, hn, hx⟩ := Outcome.bind_eq_ok.mp h
    exact ⟨n, parseUnsigned_eq_ok.mp hn, (Outcome.ok.inj hx).symm⟩
  · rintro ⟨n, hn, rfl⟩
    exact Outcome.bind_eq_ok.mpr ⟨n, parseUnsigned_eq_ok.mpr hn, rfl⟩

/-- A number is read, or refused. -/
theorem parseU64_cases (text : Str) :
    (∃ x, parseU64 text = .ok x) ∨ ∃ e, parseU64 text = .err e := by
  rcases parseUnsigned_cases U64_SIZE text with ⟨n, hn⟩ | herr
  · exact .inl ⟨_, by rw [parseU64, hn]; rfl⟩
  · exact .inr ⟨_, by rw [parseU64, herr]; rfl⟩

/-- The parser of a byte does not panic. -/
theorem parseU8_cases (text : Str) :
    (∃ x, parseU8 text = .ok x) ∨ ∃ e, parseU8 text = .err e := by
  rcases parseUnsigned_cases 256 text with ⟨n, hn⟩ | herr
  · exact .inl ⟨_, by rw [parseU8, hn]; rfl⟩
  · exact .inr ⟨_, by rw [parseU8, herr]; rfl⟩

/-- A line of the grammar is added to the map. -/
theorem parseLine_of_reads (h : Reads (splitWhitespace line) item) :
    parseLine blocks line = .ok (blocks.add item) := by
  rw [parseLine]
  generalize splitWhitespace line = tokens at h
  cases h with
  | blank => rfl
  | header => rfl
  | @size value n hvalue =>
    -- the header is tried first, and is not this keyword
    have hkeyword : ¬ ("device_lba_size".toList = "nvmetoy-block-map".toList ∧
        value = "1".toList) := fun h => absurd h.1 (by decide)
    have hsize : parseU64 value = .ok (.ofNat n) := parseU64_eq_ok.mpr ⟨n, hvalue, rfl⟩
    simp only [if_neg hkeyword, if_true, hsize]
    rfl
  | @extent lba count flag a n u hlba hcount hflag =>
    have hlba' : parseU64 lba = .ok (.ofNat a) := parseU64_eq_ok.mpr ⟨a, hlba, rfl⟩
    have hcount' : parseU64 count = .ok (.ofNat n) := parseU64_eq_ok.mpr ⟨n, hcount, rfl⟩
    have hflag' : parseU8 flag = .ok (.ofNat u) := parseU8_eq_ok.mpr ⟨u, hflag, rfl⟩
    simp only [hlba', hcount', hflag']
    rfl

/-- Every other line is refused. -/
theorem parseLine_cases (blocks : FileBlocks) (line : Str) :
    (∃ item, Reads (splitWhitespace line) item) ∨ ∃ e, parseLine blocks line = .err e := by
  rw [parseLine]
  split
  · next htokens => exact .inl ⟨.blank, by rw [htokens]; exact .blank⟩
  · next keyword value htokens =>
    split
    · -- two words: the header, the block size, or neither
      next hheader =>
      obtain ⟨rfl, rfl⟩ := hheader
      exact .inl ⟨.header, by rw [htokens]; exact .header⟩
    split
    · next hsize =>
      subst hsize
      rcases parseU64_cases value with ⟨x, hx⟩ | ⟨e, he⟩
      · obtain ⟨n, hn, -⟩ := parseU64_eq_ok.mp hx
        exact .inl ⟨.size (.ofNat n), by rw [htokens]; exact .size hn⟩
      · exact .inr ⟨e, by rw [he]; rfl⟩
    · exact .inr ⟨_, rfl⟩
  · next lba count flag htokens =>
    -- the three numbers are read one after the other
    rcases parseU64_cases lba with ⟨x, hx⟩ | ⟨e, he⟩
    swap
    · exact .inr ⟨e, by rw [he]; rfl⟩
    rcases parseU64_cases count with ⟨y, hy⟩ | ⟨e, he⟩
    swap
    · exact .inr ⟨e, by rw [hx, he]; rfl⟩
    rcases parseU8_cases flag with ⟨z, hz⟩ | ⟨e, he⟩
    swap
    · exact .inr ⟨e, by rw [hx, hy, he]; rfl⟩
    obtain ⟨a, ha, -⟩ := parseU64_eq_ok.mp hx
    obtain ⟨n, hn, -⟩ := parseU64_eq_ok.mp hy
    obtain ⟨u, hu, -⟩ := parseU8_eq_ok.mp hz
    exact .inl ⟨.extent ⟨.ofNat a, .ofNat n, UInt8.ofNat u != 0⟩, by
      rw [htokens]; exact .extent ha hn hu⟩
  · exact .inr ⟨_, rfl⟩

/-! ### All lines -/

/-- Lines that read as items are parsed into those items. -/
theorem parseLines_of_reads {pieces : List (List UInt8)} {texts : List Str}
    (hdecode : pieces.map utf8Decode = texts.map some)
    (h : List.Forall₂ Reads (texts.map splitWhitespace) items) :
    parseLines blocks pieces = .ok (items.foldl add blocks) := by
  -- by induction on the pieces, which decode to the texts one by one
  induction pieces generalizing texts items blocks with
  | nil =>
    obtain rfl : texts = [] := by simpa using hdecode.symm
    cases h
    rfl
  | cons piece rest ih =>
    obtain ⟨text, texts, rfl⟩ : ∃ text others, texts = text :: others := by
      cases texts with
      | nil => simp at hdecode
      | cons text others => exact ⟨text, others, rfl⟩
    obtain ⟨hpiece, hrest⟩ := List.cons.inj hdecode
    cases h with
    | cons hread hreads =>
      rw [parseLines, hpiece]
      simp only [parseLine_of_reads hread, Outcome.bind]
      exact ih hrest hreads

/-- A stream is read to its end, or refused. -/
theorem parseLines_cases (blocks : FileBlocks) (pieces : List (List UInt8)) :
    (∃ (texts : List Str) (items : List MapLine), pieces.map utf8Decode = texts.map some ∧
        List.Forall₂ Reads (texts.map splitWhitespace) items) ∨
      ∃ e, parseLines blocks pieces = .err e := by
  -- the first line that cannot be read ends the parsing
  induction pieces generalizing blocks with
  | nil => exact .inl ⟨[], [], rfl, .nil⟩
  | cons piece rest ih =>
    rw [parseLines]
    cases hpiece : utf8Decode piece with
    | none => exact .inr ⟨_, rfl⟩
    | some text =>
      rcases parseLine_cases blocks text with ⟨item, hread⟩ | ⟨e, he⟩
      · rcases ih (blocks.add item) with ⟨texts, items, hdecode, hreads⟩ | ⟨e, he⟩
        · refine .inl ⟨text :: texts, item :: items, ?_, .cons hread hreads⟩
          rw [List.map_cons, List.map_cons, hpiece, hdecode]
        · refine .inr ⟨e, ?_⟩
          simp only [parseLine_of_reads hread, Outcome.bind]
          exact he
      · refine .inr ⟨e, ?_⟩
        simp only [he, Outcome.bind]

/-- The map that a list of lines makes. -/
theorem foldl_add (items : List MapLine) (blocks : FileBlocks) :
    items.foldl add blocks =
      ⟨(items.filterMap size?).getLast?.getD blocks.deviceLbaSize,
        blocks.extents ++ items.filterMap extent?⟩ := by
  induction items generalizing blocks with
  | nil => simp
  | cons item rest ih =>
    rw [List.foldl_cons, ih]
    cases item with
    | blank => rfl
    | header => rfl
    | extent e => simp [add, size?, extent?]
    | size n =>
      -- a later size line wins over this one
      simp only [add, size?, extent?, List.filterMap_cons, List.getLast?_cons]
      cases (rest.filterMap size?).getLast? <;> rfl

/-- **What is accepted**, and as what. -/
theorem parse_eq_ok {stream : List UInt8} : parse stream = .ok blocks ↔
    ∃ items, MapLines stream items ∧
      blocks = ⟨(items.filterMap size?).getLast?.getD 0, items.filterMap extent?⟩ := by
  have hread {items : List MapLine} (h : MapLines stream items) : parse stream =
      .ok ⟨(items.filterMap size?).getLast?.getD 0, items.filterMap extent?⟩ := by
    obtain ⟨texts, hdecode, hreads⟩ := h
    rw [parse, parseLines_of_reads hdecode hreads, foldl_add, List.nil_append]
  constructor
  · intro h
    -- a stream that is no list of lines is an error
    rcases parseLines_cases ⟨0, []⟩ (splitLines stream) with ⟨texts, items, hlines⟩ | ⟨e, he⟩
    · have hlines : MapLines stream items := ⟨texts, hlines⟩
      rw [hread hlines] at h
      exact ⟨items, hlines, (Outcome.ok.inj h).symm⟩
    · rw [parse, he] at h
      cases h
  · rintro ⟨items, hlines, rfl⟩
    exact hread hlines

/-- Every other stream is refused. -/
theorem parse_refuses {stream : List UInt8} (h : ¬ ∃ items, MapLines stream items) :
    ∃ e, parse stream = .err e := by
  rcases parseLines_cases ⟨0, []⟩ (splitLines stream) with ⟨texts, items, hlines⟩ | herr
  · exact absurd ⟨items, texts, hlines⟩ h
  · exact herr

/-! ### Maps as they are emitted -/

/-- `emit_block_map`: the tokens of the lines it prints. -/
def emitted (blockSize : UInt64) (extents : List Extent) : List (List Str) :=
  ["nvmetoy-block-map".toList, "1".toList] ::
  ["device_lba_size".toList, showNat blockSize.toNat] ::
  extents.map fun e =>
    [showNat e.deviceLba.toNat, showNat e.lbaCount.toNat, if e.unwritten then ['1'] else ['0']]

/-- The lines show the tokens, one line each, with blank lines anywhere between them. -/
inductive Layout : List (List Str) → List Str → Prop where
  | nil : Layout [] []
  | blank {line : Str} {shown : List (List Str)} {lines : List Str} (hline : Spaced [] line)
      (hfeed : '\n' ∉ line) (h : Layout shown lines) : Layout shown (line :: lines)
  | line {line : Str} {tokens : List Str} {shown : List (List Str)} {lines : List Str}
      (hline : Spaced tokens line) (hfeed : '\n' ∉ line) (h : Layout shown lines) :
      Layout (tokens :: shown) (line :: lines)

/-- A line that shows tokens of no shape that the grammar has. -/
inductive OtherShape : Str → Prop where
  | fieldCount {tokens : List Str} {line : Str} (h : Spaced tokens line)
      (hcount : tokens.length ≠ 0 ∧ tokens.length ≠ 2 ∧ tokens.length ≠ 3) : OtherShape line
  | keyword {keyword value line : Str} (h : Spaced [keyword, value] line)
      (hheader : keyword ≠ "nvmetoy-block-map".toList)
      (hsize : keyword ≠ "device_lba_size".toList) : OtherShape line
  | version {value line : Str} (h : Spaced ["nvmetoy-block-map".toList, value] line)
      (hversion : value ≠ "1".toList) : OtherShape line
  | blockSize {value line : Str} (h : Spaced ["device_lba_size".toList, value] line)
      (hvalue : ¬ ∃ n, Denotes U64_SIZE value n) : OtherShape line
  | extent {lba count flag line : Str} (h : Spaced [lba, count, flag] line)
      (hnumber : ¬ ((∃ n, Denotes U64_SIZE lba n) ∧ (∃ n, Denotes U64_SIZE count n) ∧
        ∃ n, Denotes 256 flag n)) : OtherShape line

/-- Such a line is in no shape of the grammar. -/
theorem OtherShape.not_reads {line : Str} (h : OtherShape line) :
    ¬ ∃ item, Reads (splitWhitespace line) item := by
  rintro ⟨item, hread⟩
  cases h with
  -- every shape that reads has another number of fields, or other words
  | fieldCount h hcount =>
    rw [splitWhitespace_of_spaced h] at hread
    cases hread <;> simp at hcount
  | keyword h hheader hsize =>
    rw [splitWhitespace_of_spaced h] at hread
    cases hread with
    | header => exact hheader rfl
    | size _ => exact hsize rfl
  | version h hversion =>
    rw [splitWhitespace_of_spaced h] at hread
    -- the keyword is hidden from `cases`, which would unfold the string
    generalize hkeyword : "nvmetoy-block-map".toList = keyword at hread
    cases hread with
    | header => exact hversion rfl
    | size _ => exact absurd hkeyword (by decide)
  | blockSize h hvalue =>
    rw [splitWhitespace_of_spaced h] at hread
    generalize hkeyword : "device_lba_size".toList = keyword at hread
    cases hread with
    | header => exact absurd hkeyword (by decide)
    | size hn => exact hvalue ⟨_, hn⟩
  | extent h hnumber =>
    rw [splitWhitespace_of_spaced h] at hread
    cases hread with
    | extent hlba hcount hflag => exact hnumber ⟨⟨_, hlba⟩, ⟨_, hcount⟩, _, hflag⟩

section Layouts

variable {shown : List (List Str)} {lines : List Str} {blockSize : UInt64}
  {extents : List Extent}

/-- No line of the layout contains a newline. -/
theorem Layout.feed (h : Layout shown lines) : ∀ line ∈ lines, '\n' ∉ line := by
  induction h with
  | nil => intro line hline; exact absurd hline List.not_mem_nil
  | blank _ hfeed _ ih =>
    intro line hline
    -- the first of the lines, or one of those behind it
    rcases List.mem_cons.mp hline with rfl | hmem
    · exact hfeed
    · exact ih line hmem
  | line _ hfeed _ ih =>
    intro line hline
    rcases List.mem_cons.mp hline with rfl | hmem
    · exact hfeed
    · exact ih line hmem

/-- What a layout is read as: what it shows, with blank lines between. -/
theorem Layout.reads (h : Layout shown lines) {items : List MapLine}
    (hitems : List.Forall₂ Reads shown items) :
    ∃ items', List.Forall₂ Reads (lines.map splitWhitespace) items' ∧
      items'.filterMap size? = items.filterMap size? ∧
      items'.filterMap extent? = items.filterMap extent? := by
  induction h generalizing items with
  | nil =>
    cases hitems
    exact ⟨[], .nil, rfl, rfl⟩
  | blank hline _ _ ih =>
    -- a blank line reads as the item that neither selection keeps
    obtain ⟨items', hreads, hsize, hextent⟩ := ih hitems
    refine ⟨.blank :: items', .cons ?_ hreads, hsize, hextent⟩
    rw [splitWhitespace_of_spaced hline]
    exact .blank
  | line hline _ _ ih =>
    -- a line that is shown reads as its item, and both selections go on
    cases hitems with
    | @cons _ item _ rest hread hrest =>
      obtain ⟨items', hreads, hsize, hextent⟩ := ih hrest
      refine ⟨item :: items', .cons ?_ hreads, ?_, ?_⟩
      · rw [splitWhitespace_of_spaced hline]
        exact hread
      · rw [List.filterMap_cons, List.filterMap_cons, hsize]
      · rw [List.filterMap_cons, List.filterMap_cons, hextent]

/-- The lines of a text, read from its bytes. -/
theorem decode_textOf (h : ∀ line ∈ lines, '\n' ∉ line) :
    (splitLines (textOf lines).bytes).map utf8Decode =
      (lines.map dropCarriageReturn).map some := by
  rw [splitLines_bytes h, List.map_map, List.map_map]
  refine List.map_congr_left fun line _ => ?_
  exact utf8Decode_bytes _

/-- A carriage return at the end is white space. -/
theorem map_splitWhitespace_dropCarriageReturn (lines : List Str) :
    (lines.map dropCarriageReturn).map splitWhitespace = lines.map splitWhitespace := by
  rw [List.map_map]
  exact List.map_congr_left fun line _ => splitWhitespace_dropCarriageReturn line

/-- A flag is a number. -/
theorem denotes_flag (unwritten : Bool) :
    ∃ u, Denotes 256 (if unwritten then ['1'] else ['0']) u ∧
      (UInt8.ofNat u != 0) = unwritten := by
  cases unwritten with
  | false => exact ⟨0, @denotes_showNat 256 0 (by decide), rfl⟩
  | true => exact ⟨1, @denotes_showNat 256 1 (by decide), rfl⟩

/-- What is emitted is in the grammar. -/
theorem reads_emitted (blockSize : UInt64) (extents : List Extent) :
    List.Forall₂ Reads (emitted blockSize extents)
      (.header :: .size blockSize :: extents.map .extent) := by
  have hsize := Reads.size (denotes_showNat blockSize.toNat_lt)
  rw [UInt64.ofNat_toNat] at hsize
  refine .cons .header (.cons hsize ?_)
  induction extents with
  | nil => exact .nil
  | cons e rest ih =>
    -- an extent is shown as three numbers
    obtain ⟨u, hu, hflag⟩ := denotes_flag e.unwritten
    have hextent := Reads.extent (denotes_showNat e.deviceLba.toNat_lt)
      (denotes_showNat e.lbaCount.toNat_lt) hu
    rw [UInt64.ofNat_toNat, UInt64.ofNat_toNat, hflag] at hextent
    exact .cons hextent ih

/-- With any white space and any blank lines, the map is read as what it was printed for. -/
theorem parse_of_layout {blockSize : UInt64} {extents : List Extent} {lines : List Str}
    (h : Layout (emitted blockSize extents) lines) :
    parse (textOf lines).bytes = .ok ⟨blockSize, extents⟩ := by
  obtain ⟨items, hreads, hsize, hextent⟩ := h.reads (reads_emitted blockSize extents)
  rw [← map_splitWhitespace_dropCarriageReturn] at hreads
  refine parse_eq_ok.mpr ⟨items, ⟨_, decode_textOf h.feed, hreads⟩, ?_⟩
  rw [hsize, hextent]
  -- of the items, one gives the size and the others give the extents
  have hnone : (extents.map MapLine.extent).filterMap size? = [] := by
    simp [List.filterMap_map, Function.comp_def, size?]
  have hall : (extents.map MapLine.extent).filterMap extent? = extents := by
    simp [List.filterMap_map, Function.comp_def, extent?]
  simp only [List.filterMap_cons, size?, extent?, hnone, hall]
  rfl

/-- **Parsing undoes emitting.** A text that shows what `emit_block_map` prints, with any
white space and any blank lines, is read as the block size and the extents it was printed
for; with one more line of another shape, anywhere, it is refused. -/
theorem parse_emitted (blockSize : UInt64) (extents : List Extent) (before after : List Str)
    (h : Layout (emitted blockSize extents) (before ++ after)) :
    parse (textOf (before ++ after)).bytes = .ok ⟨blockSize, extents⟩ ∧
      ∀ line : Str, '\n' ∉ line → OtherShape line →
        ∃ e, parse (textOf (before ++ line :: after)).bytes = .err e := by
  refine ⟨parse_of_layout h, fun line hfeed hshape => parse_refuses ?_⟩
  rintro ⟨items, texts, hdecode, hreads⟩
  -- no line has a newline of its own, so splitting finds them again
  have hlines : ∀ other ∈ before ++ line :: after, '\n' ∉ other := by
    intro other hother
    rcases List.mem_append.mp hother with hmem | hmem
    · exact h.feed other (List.mem_append_left _ hmem)
    rcases List.mem_cons.mp hmem with rfl | hmem
    · exact hfeed
    · exact h.feed other (List.mem_append_right _ hmem)
  rw [decode_textOf hlines] at hdecode
  -- the texts are the lines, so the line of another shape is one of those that were read
  obtain rfl : (before ++ line :: after).map dropCarriageReturn = texts :=
    List.map_injective_iff.mpr (Option.some_injective _) hdecode
  rw [map_splitWhitespace_dropCarriageReturn] at hreads
  obtain ⟨item, hread⟩ : ∃ item, Reads (splitWhitespace line) item := by
    obtain ⟨k, hk, hline⟩ := List.getElem_of_mem
      (show line ∈ before ++ line :: after by simp)
    have hlen := hreads.length_eq
    rw [List.length_map] at hlen
    have hget := hreads.get (by simpa using hk) (hlen ▸ hk)
    rw [List.get_eq_getElem, List.getElem_map, hline] at hget
    exact ⟨_, hget⟩
  exact hshape.not_reads ⟨item, hread⟩

/-- A map of one extent, with a blank line and odd spacing, and the same with a line of one
field in it. -/
theorem parse_emitted_one :
    parse (textOf ["nvmetoy-block-map 1".toList, [], " device_lba_size\t512 ".toList,
        "100 8 1".toList]).bytes = .ok ⟨512, [⟨100, 8, true⟩]⟩ ∧
      ∃ e, parse (textOf ["nvmetoy-block-map 1".toList, [], " device_lba_size\t512 ".toList,
        "oops".toList, "100 8 1".toList]).bytes = .err e := by
  have hshows (line : Str) (tokens : List Str) (h : splitWhitespace line = tokens) :
      Spaced tokens line := h ▸ spaced_splitWhitespace line
  have hlayout : Layout (emitted 512 [⟨100, 8, true⟩])
      (["nvmetoy-block-map 1".toList, [], " device_lba_size\t512 ".toList] ++
        ["100 8 1".toList]) :=
    .line (hshows _ _ (by decide)) (by decide) (.blank (hshows _ _ (by decide)) (by decide)
      (.line (hshows _ _ (by decide)) (by decide)
        (.line (hshows _ _ (by decide)) (by decide) .nil)))
  -- the line of another shape is found by its number of fields
  obtain ⟨hok, herr⟩ := parse_emitted 512 [⟨100, 8, true⟩] _ _ hlayout
  refine ⟨hok, herr "oops".toList (by decide) ?_⟩
  exact .fieldCount (hshows _ ["oops".toList] (by decide)) (by decide)

end Layouts

/-! ### What the parser does not check -/

/-- A numeral denotes one number, and a line says one thing. -/
theorem reads_unique {tokens : List Str} {item item' : MapLine} (h : Reads tokens item)
    (h' : Reads tokens item') : item = item' := by
  -- a numeral has one value, since the parser returns it
  have hsame {size a b : Nat} {text : Str} (ha : Denotes size text a) (hb : Denotes size text b) :
      a = b := by
    have hok := parseUnsigned_eq_ok.mpr ha
    rw [parseUnsigned_eq_ok.mpr hb] at hok
    exact (Outcome.ok.inj hok).symm
  cases h with
  | blank =>
    cases h'
    rfl
  | header =>
    generalize hkeyword : "nvmetoy-block-map".toList = keyword at h'
    cases h' with
    | header => rfl
    | size _ => exact absurd hkeyword (by decide)
  -- the keywords tell the two headers apart
  | size hn =>
    generalize hkeyword : "device_lba_size".toList = keyword at h'
    cases h' with
    | header => exact absurd hkeyword (by decide)
    | size hm => rw [hsame hn hm]
  | extent hlba hcount hflag =>
    cases h' with
    | extent hlba' hcount' hflag' =>
      rw [hsame hlba hlba', hsame hcount hcount', hsame hflag hflag']

/-- A stream has one reading at most. -/
theorem mapLines_unique {stream : List UInt8} {items items' : List MapLine}
    (h : MapLines stream items) (h' : MapLines stream items') : items = items' := by
  obtain ⟨texts, hdecode, hreads⟩ := h
  obtain ⟨texts', hdecode', hreads'⟩ := h'
  obtain rfl : texts = texts' :=
    List.map_injective_iff.mpr (Option.some_injective _) (hdecode.symm.trans hdecode')
  have hunique : Relator.RightUnique Reads := fun _ _ _ h h' => reads_unique h h'
  exact List.right_unique_forall₂' hunique hreads hreads'

/-- The lines begin with the version header, apart from blank ones, and give one block
size. -/
structure Versioned (items : List MapLine) : Prop where
  header : (items.filter (· ≠ .blank)).head? = some .header
  oneSize : ∃ n, items.filterMap size? = [n]

/-- **What the parser leaves open.** Every map that a stream is accepted as begins with the
header and has its one block size, exactly when this is so of the lines of the stream,
should all of them be in the grammar. -/
theorem parse_versioned_iff (stream : List UInt8) :
    (∀ blocks, parse stream = .ok blocks → ∃ items, MapLines stream items ∧
        (items.filter (· ≠ .blank)).head? = some .header ∧
        items.filterMap size? = [blocks.deviceLbaSize]) ↔
      ∀ items, MapLines stream items → Versioned items := by
  constructor
  · intro h items hlines
    -- the lines of a stream are determined, so the items are those that were read
    obtain ⟨items', hlines', hheader, hsize⟩ := h _ (parse_eq_ok.mpr ⟨items, hlines, rfl⟩)
    obtain rfl := mapLines_unique hlines hlines'
    exact ⟨hheader, _, hsize⟩
  · intro h blocks hok
    obtain ⟨items, hlines, rfl⟩ := parse_eq_ok.mp hok
    obtain ⟨hheader, n, hsize⟩ := h items hlines
    refine ⟨items, hlines, hheader, ?_⟩
    rw [hsize]
    rfl

/-- The empty stream is accepted, as a map of blocks of no bytes. -/
theorem parse_accepts_nothing :
    ¬ ∀ stream blocks, parse stream = .ok blocks → ∃ items, MapLines stream items ∧
      (items.filter (· ≠ .blank)).head? = some .header ∧
      items.filterMap size? = [blocks.deviceLbaSize] := by
  intro h
  obtain ⟨items, ⟨texts, hdecode, hreads⟩, hheader, -⟩ := h [] ⟨0, []⟩ rfl
  obtain rfl : texts = [] := List.map_eq_nil_iff.mp hdecode.symm
  cases hreads
  cases hheader

end FileBlocks

end Nvmetoy
