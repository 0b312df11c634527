import Nvmetoy.Repl.Text

/-!
# The block map of the file

`FileBlocks` is the set of device blocks the REPL may touch, parsed from the map that
`nvmetoy.sh` emits. `check` walks a range from extent to extent, each time taking the
first extent of the list that covers the block it has come to.

Every addition of the source is an addition at the build profile `p`: in a release build
an extent whose end does not fit in a `u64` covers nothing, in a debug build looking at
it panics.
-/

namespace Nvmetoy

open Framework

/-- `Extent`: a run of blocks of the file. -/
structure Extent where
  deviceLba : UInt64
  lbaCount : UInt64
  unwritten : Bool
deriving DecidableEq, Repr

/-- `FileBlocks`: the extents of the file, and the size of a block. -/
structure FileBlocks where
  deviceLbaSize : UInt64
  extents : List Extent
deriving DecidableEq, Repr

namespace Extent

/-- The block lies in the extent, as unbounded integers. -/
def Contains (e : Extent) (block : Nat) : Prop :=
  e.deviceLba.toNat ≤ block ∧ block < e.deviceLba.toNat + e.lbaCount.toNat

instance (e : Extent) (block : Nat) : Decidable (e.Contains block) :=
  inferInstanceAs (Decidable (_ ∧ _))

/-- The end of the extent is a `u64`. -/
def Fits (e : Extent) : Prop := e.deviceLba.toNat + e.lbaCount.toNat < U64_SIZE

instance (e : Extent) : Decidable e.Fits := inferInstanceAs (Decidable (_ < _))

end Extent

namespace FileBlocks

variable (p : Profile)

/-- `iter().sum()` from `acc` on. -/
def sumU64 (acc : UInt64) : List UInt64 → Outcome IoError UInt64
  | [] => .ok acc
  | n :: rest => (p.addU64 acc n).bind fun acc => sumU64 acc rest

/-- `total_lbas`. -/
def totalLbas (blocks : FileBlocks) : Outcome IoError UInt64 :=
  sumU64 p 0 (blocks.extents.map Extent.lbaCount)

/-- The `find` of `check`: the first extent that covers block `covered`, with its end. -/
def findCovering (covered : UInt64) : List Extent → Outcome IoError (Option (Extent × UInt64))
  | [] => .ok none
  | e :: rest =>
    if e.deviceLba ≤ covered then
      (p.addU64 e.deviceLba e.lbaCount).bind fun stop =>
        if covered < stop then .ok (some (e, stop)) else findCovering covered rest
    else findCovering covered rest

/-- An extent that was found ends past the block it was found for. -/
theorem lt_of_findCovering {covered : UInt64} {es : List Extent} {e : Extent} {stop : UInt64}
    (h : findCovering p covered es = .ok (some (e, stop))) : covered < stop := by
  -- by induction on the extents: the one that is returned has passed the comparison
  induction es with
  | nil => simp [findCovering] at h
  | cons e' rest ih =>
    unfold findCovering at h
    split at h
    · cases hadd : (p.addU64 e'.deviceLba e'.lbaCount : Outcome IoError UInt64) with
      | ok stop' =>
        rw [hadd] at h
        change (if covered < stop' then _ else _) = _ at h
        split at h
        · next hlt =>
          simp only [Outcome.ok.injEq, Option.some.injEq, Prod.mk.injEq] at h
          rwa [← h.2]
        · exact ih h
      | err x => rw [hadd] at h; cases h
      | panic why => rw [hadd] at h; cases h
    · exact ih h

/-- The `while` loop of `check`, from block `covered` to block `stop`. -/
def walk (extents : List Extent) (stop covered : UInt64) : Outcome IoError Unit :=
  if covered < stop then
    match _hfind : findCovering p covered extents with
    | .ok (some (_, next)) => walk extents stop next
    -- the error names the first block that is not covered
    | .ok none => .err (.notInFile covered)
    | .err e => .err e
    | .panic why => .panic why
  else .ok ()
termination_by stop.toNat - covered.toNat
decreasing_by
  have h1 := UInt64.lt_iff_toNat_lt.mp (lt_of_findCovering p _hfind)
  have h2 := UInt64.lt_iff_toNat_lt.mp ‹covered < stop›
  omega

/-- The blocks `deviceLba .. deviceLba + count` all belong to the file. -/
def check (blocks : FileBlocks) (deviceLba count : UInt64) : Outcome IoError Unit :=
  -- an empty range is in every file, wherever it begins
  if count = 0 then .ok ()
  else if deviceLba.toNat + count.toNat < U64_SIZE then
    walk p blocks.extents (deviceLba + count) deviceLba
  else .err .rangeOverflows

/-- One line of the map, added to what has been parsed before it. -/
def parseLine (blocks : FileBlocks) (line : Str) : Outcome IoError FileBlocks :=
  match splitWhitespace line with
  | [] => .ok blocks
  | [keyword, value] =>
    -- the version line may stand anywhere, and any number of times
    if keyword = "nvmetoy-block-map".toList ∧ value = "1".toList then .ok blocks
    else if keyword = "device_lba_size".toList then
      (parseU64 value).bind fun size => .ok { blocks with deviceLbaSize := size }
    else .err (.malformedLine line)
  | [deviceLba, count, unwritten] =>
    (parseU64 deviceLba).bind fun deviceLba =>
    (parseU64 count).bind fun count =>
    (parseU8 unwritten).bind fun unwritten =>
      .ok { blocks with extents := blocks.extents ++ [⟨deviceLba, count, unwritten != 0⟩] }
  | _ => .err (.malformedLine line)

/-- The lines of the map, in order. -/
def parseLines (blocks : FileBlocks) : List (List UInt8) → Outcome IoError FileBlocks
  | [] => .ok blocks
  | bytes :: rest =>
    match utf8Decode bytes with
    | none => .err .invalidUtf8
    | some line => (parseLine blocks line).bind fun blocks => parseLines blocks rest

/-- `parse`. -/
def parse (stream : List UInt8) : Outcome IoError FileBlocks :=
  parseLines ⟨0, []⟩ (splitLines stream)

/-- The block belongs to the file. -/
def Contains (blocks : FileBlocks) (block : Nat) : Prop :=
  ∃ e ∈ blocks.extents, e.Contains block

instance (blocks : FileBlocks) (block : Nat) : Decidable (blocks.Contains block) :=
  inferInstanceAs (Decidable (∃ e ∈ blocks.extents, e.Contains block))

end FileBlocks

end Nvmetoy
