import Nvmetoy.Repl.FileBlocks
import Nvmetoy.Repl.Identification

/-!
# The commands of the REPL

The REPL reaches the device only through `driver.read`, `driver.write` and
`driver.identify_controller`, so its commands are programs over these calls
(`ReplOp`), with the lines they print and the payloads they allocate. What the calls do
is not said here: the driver, or any other store of blocks, answers them.
-/

namespace Nvmetoy

open Framework

/-- What the REPL asks of the driver and of the process. -/
inductive ReplOp where
  | read (slba : UInt64) (blockCount : UInt16)
  | write (slba : UInt64) (data : List UInt8)
  | identifyController
  | alloc (bytes : Nat)
  | println (line : Str)
deriving DecidableEq, Repr

/-- The response of each operation. -/
abbrev ReplRes : ReplOp → Type
  | .read _ _ => Except IoError (List UInt8)
  | .write _ _ => Except IoError Unit
  | .identifyController => Except IoError (List UInt8)
  | _ => Unit

namespace Repl

/-- A command of the REPL. -/
abbrev Command (α : Type) : Type := Method ReplOp ReplRes Unit IoError α

/-- `?` on the answer of the driver. -/
def question {α : Type} : Except IoError α → Command α
  | .ok a => Method.lift (.ok a)
  | .error e => Method.fail e

/-- `println!`. -/
def println (line : Str) : Command Unit := Method.call (ReplOp.println line)

/-- `vec![byte; bytes]`: an allocation above `isize::MAX` panics. -/
def allocVec (bytes : Nat) : Command Unit :=
  if bytes < 2 ^ 63 then Method.call (ReplOp.alloc bytes) else Method.panic "capacity overflow"

/-- `buffer[start..start + source.len()].copy_from_slice(source)`. -/
def copyInto (buffer : List UInt8) (start : Nat) (source : List UInt8) :
    Outcome IoError (List UInt8) :=
  if start + source.length ≤ buffer.length then
    .ok (buffer.take start ++ source ++ buffer.drop (start + source.length))
  else .panic "range end index out of range for slice"

/-- `&block[start..start + len]`. -/
def slice (block : List UInt8) (start len : Nat) : Outcome IoError (List UInt8) :=
  if start + len ≤ block.length then .ok ((block.drop start).take len)
  else .panic "range end index out of range for slice"

section Commands

variable (p : Profile) (blocks : FileBlocks)

/-- `blocks.device_lba_size as usize`. -/
def blockSize : Nat := blocks.deviceLbaSize.toNat

/-- `confined_read`. -/
def confinedRead (deviceLba count : UInt64) : Command (List UInt8) := do
  Method.lift (blocks.check p deviceLba count)
  if count = 0 then pure []
  -- `u16::try_from`
  else if count.toNat < 2 ^ 16 then do
    question (← Method.call (ReplOp.read deviceLba (UInt16.ofNat count.toNat)))
  else Method.fail .readTooLargeForOneCommand

/-- `data.is_empty() || data.len() % block_size != 0`, with its short circuit. -/
def payloadRefused (data : List UInt8) : Outcome IoError Bool :=
  if data.isEmpty then .ok true
  else (remUsize data.length (blockSize blocks)).bind fun r => .ok (r != 0)

/-- `confined_write`. What it returns is the number of blocks. -/
def confinedWrite (deviceLba : UInt64) (data : List UInt8) : Command UInt64 := do
  let refused ← Method.lift (payloadRefused blocks data)
  if refused then Method.fail (.payloadNotMultiple (blockSize blocks))
  else do
    -- the range is counted in blocks of the map, the driver counts the data in its own
    let count ← Method.lift (divUsize data.length (blockSize blocks))
    Method.lift (blocks.check p deviceLba (UInt64.ofNat count))
    question (← Method.call (ReplOp.write deviceLba data))
    pure (UInt64.ofNat count)

/-- "block" or "blocks". -/
def plural (count : UInt64) : Str := if count = 1 then "block".toList else "blocks".toList

/-- `(count as usize).checked_mul(block_size).filter(|&n| n <= MAX_TRANSFER_BYTES)`. -/
def fillBytes (count : UInt64) : Option Nat :=
  let n := count.toNat * blockSize blocks
  if n < U64_SIZE ∧ n ≤ MAX_TRANSFER_BYTES then some n else none

/-- `fill`. -/
def fill (deviceLba : UInt64) (byte : UInt8) (count : UInt64) : Command Unit :=
  if count = 0 then Method.fail .zeroBlockCount
  else match fillBytes blocks count with
  | none => Method.fail (.fillTooLarge count)
  | some bytes => do
    allocVec bytes
    let data := List.replicate bytes byte
    let written ← confinedWrite p blocks deviceLba data
    println ("wrote ".toList ++ showNat written.toNat ++ " ".toList ++ plural written ++
      " (".toList ++ showNat data.length ++ " bytes) of '".toList ++ [Char.ofNat byte.toNat] ++
      "' at device-lba ".toList ++ showNat deviceLba.toNat)

/-- `offset >= block_size || len > block_size - offset`. -/
def rangeRefused (offset len : Nat) : Bool :=
  -- the subtraction is made for an offset inside the block alone
  blockSize blocks ≤ offset || blockSize blocks - offset < len

/-- The line `peek` prints. -/
def peekLine (deviceLba : UInt64) (offset len : Nat) (shown : Str) : Str :=
  "peek ".toList ++ showNat len ++ " bytes at device-lba ".toList ++ showNat deviceLba.toNat ++
    " offset ".toList ++ showNat offset ++ ": ".toList ++ shown

/-- `peek`. -/
def peek (deviceLba : UInt64) (offset len : Nat) : Command Unit :=
  if rangeRefused blocks offset len then
    Method.fail (.rangeNotInBlock offset len (blockSize blocks))
  else do
    let block ← confinedRead p blocks deviceLba 1
    let shown ← Method.lift (slice block offset len)
    println (peekLine deviceLba offset len (asciiLine shown))

/-- The buffer `write_blocks` allocates: `bytes.len().div_ceil(block_size) * block_size`. -/
def paddedLength (bytes : List UInt8) : Outcome IoError Nat :=
  (divCeil bytes.length (blockSize blocks)).bind fun n => p.mulUsize n (blockSize blocks)

/-- `write_blocks`: the last block is filled up with zeros. -/
def writeBlocks (deviceLba : UInt64) (bytes : List UInt8) : Command UInt64 :=
  if bytes.isEmpty then Method.fail .nothingToWrite
  else do
    let length ← Method.lift (paddedLength p blocks bytes)
    allocVec length
    let buffer ← Method.lift (copyInto (List.replicate length 0) 0 bytes)
    confinedWrite p blocks deviceLba buffer

/-- `poke`: one block is read, changed and written back. -/
def poke (deviceLba : UInt64) (offset : Nat) (text : Str) : Command Unit :=
  if text.bytes.isEmpty then Method.fail .nothingToWrite
  else if rangeRefused blocks offset text.bytes.length then
    Method.fail (.rangeNotInBlock offset text.bytes.length (blockSize blocks))
  else do
    let buffer ← confinedRead p blocks deviceLba 1
    let buffer ← Method.lift (copyInto buffer offset text.bytes)
    let _ ← confinedWrite p blocks deviceLba buffer
    println ("wrote ".toList ++ showNat text.bytes.length ++ " bytes at device-lba ".toList ++
      showNat deviceLba.toNat ++ " offset ".toList ++ showNat offset)

/-! ### Printing -/

/-- The lines of `print_blocks` for the extents. -/
def extentLine (e : Extent) : Str :=
  padLeft 16 (showNat e.deviceLba.toNat) ++ "  ".toList ++
    padLeft 12 (showNat e.lbaCount.toNat) ++ "  ".toList ++
    if e.unwritten then "unwritten".toList else "written".toList

/-- The `println!`s of a loop over lines that are known. -/
def printLines : List Str → Command Unit
  | [] => pure ()
  | line :: rest => do
    println line
    printLines rest

/-- `print_blocks`. -/
def printBlocks : Command Unit := do
  let total ← Method.lift (blocks.totalLbas p)
  let bytes ← Method.lift (p.mulU64 total blocks.deviceLbaSize)
  println ("block size ".toList ++ showNat blocks.deviceLbaSize.toNat ++ " bytes, ".toList ++
    showNat total.toNat ++ " blocks total (".toList ++ showNat bytes.toNat ++ " bytes)".toList)
  println (padLeft 16 "device-lba".toList ++ "  ".toList ++ padLeft 12 "count".toList ++
    "  state".toList)
  printLines (blocks.extents.map extentLine)

/-- `LINE_WIDTH` of `print_read`: the most characters of a line. -/
def READ_LINE_WIDTH : Nat := 72

/-- `print_read_line`. -/
def readLine (lba : UInt64) (block : List UInt8) : Str :=
  if READ_LINE_WIDTH < block.length then
    padLeft 10 (showNat lba.toNat) ++ ": ".toList ++
      asciiLine (block.take READ_LINE_WIDTH) ++ "  [+".toList ++
      showNat (block.length - READ_LINE_WIDTH) ++ " bytes]".toList
  else padLeft 10 (showNat lba.toNat) ++ ": ".toList ++ asciiLine block

/-- `HEAD`: the chunks printed from the front. -/
def HEAD : Nat := 10
/-- `TAIL`: the chunks printed from the back, of a read that is longer than both. -/
def TAIL : Nat := 10

/-- The line that stands for the blocks left out. -/
def omittedLine (count : Nat) : Str :=
  "         ... ".toList ++ showNat count ++ " blocks omitted ...".toList

/-- The loop of `print_read` over the chunks, from chunk `index` on. -/
def printChunks (deviceLba : UInt64) (total : Nat) : Nat → List (List UInt8) → Command Unit
  | _, [] => pure ()
  | index, block :: rest =>
    -- the chunks in the middle are left out, and the first of them prints the one line for all
    if HEAD + TAIL < total ∧ HEAD ≤ index ∧ index < total - TAIL then
      if index = HEAD then do
        println (omittedLine (total - HEAD - TAIL))
        printChunks deviceLba total (index + 1) rest
      else printChunks deviceLba total (index + 1) rest
    else do
      let lba ← Method.lift (p.addU64 deviceLba (UInt64.ofNat index))
      println (readLine lba block)
      printChunks deviceLba total (index + 1) rest

/-- `print_read`. -/
def printRead (deviceLba : UInt64) (data : List UInt8) (size : Nat) : Command Unit := do
  println ("read ".toList ++ showNat data.length ++ " bytes from device-lba ".toList ++
    showNat deviceLba.toNat ++ ":".toList)
  let total ← Method.lift (divCeil data.length size)
  printChunks p deviceLba total 0 (chunks size data)

/-- `print_controller_identification`. -/
def printControllerIdentification (data : List UInt8) : Command Unit :=
  match IdentifyController.readFromPrefix data with
  | none => Method.fail (.identifyTooShort "Controller")
  | some id => printLines id.report

/-- The data is refused, or its report is printed. -/
theorem printControllerIdentification_cases (data : List UInt8) :
    printControllerIdentification data = Method.fail (.identifyTooShort "Controller") ∨
      ∃ id, IdentifyController.readFromPrefix data = some id ∧
        printControllerIdentification data = printLines id.report := by
  cases hread : IdentifyController.readFromPrefix data with
  | none =>
    left
    rw [printControllerIdentification, hread]
  | some id =>
    right
    refine ⟨id, rfl, ?_⟩
    rw [printControllerIdentification, hread]

/-- The help text, one line each. -/
def helpLines : List String :=
  ["commands (lba is an absolute device block, all text is ASCII, counts are decimal):",
   "  list                     print the file's device blocks",
   "  identify                 print the Identify Controller data",
   "  read <lba> <count>       read count blocks, one block per line",
   "  write <lba> <text>       overwrite whole block(s) with text, tail zeroed",
   "  fill <lba> <char> [n]    write n blocks (default 1) of a repeated character",
   "  peek <lba> <off> <n>     read n bytes at a byte offset within a block",
   "  poke <lba> <off> <text>  patch a string at a byte offset, keeping the rest",
   "  help                     this message",
   "  quit | exit | Ctrl-D     leave the repl"]

/-! ### One line of input -/

/-- The `write` arm of `run_repl_line`. -/
def runWrite (lba : Str) (rest : List Str) : Command Unit := do
  let deviceLba ← Method.lift (parseU64 lba)
  let text := joinSpace rest
  let count ← writeBlocks p blocks deviceLba text.bytes
  println ("wrote ".toList ++ showNat text.bytes.length ++ " bytes into ".toList ++
    showNat count.toNat ++ " ".toList ++ plural count ++ " at device-lba ".toList ++
    showNat deviceLba.toNat ++ " (block tail zeroed)".toList)

/-- The `read` arm of `run_repl_line`. -/
def runRead (lba count : Str) : Command Unit := do
  let deviceLba ← Method.lift (parseU64 lba)
  let count ← Method.lift (parseU64 count)
  let data ← confinedRead p blocks deviceLba count
  printRead p deviceLba data (blockSize blocks)

/-- The two `fill` arms of `run_repl_line`. -/
def runFill (lba ch : Str) (count : Outcome IoError UInt64) : Command Unit := do
  let deviceLba ← Method.lift (parseU64 lba)
  let byte ← Method.lift (parseAsciiChar ch)
  let count ← Method.lift count
  fill p blocks deviceLba byte count

/-- The `peek` arm of `run_repl_line`. -/
def runPeek (lba offset len : Str) : Command Unit := do
  let deviceLba ← Method.lift (parseU64 lba)
  let offset ← Method.lift (parseUsize offset)
  let len ← Method.lift (parseUsize len)
  peek p blocks deviceLba offset len

/-- The `poke` arm of `run_repl_line`. -/
def runPoke (lba offset : Str) (rest : List Str) : Command Unit := do
  let deviceLba ← Method.lift (parseU64 lba)
  let offset ← Method.lift (parseUsize offset)
  poke p blocks deviceLba offset (joinSpace rest)

/-- The `identify` arm of `run_repl_line`. -/
def runIdentify : Command Unit := do
  let data ← question (← Method.call ReplOp.identifyController)
  printControllerIdentification data

/-- The arm of `run_repl_line` that a token list selects: `none` for `quit` and `exit`. -/
def dispatch (tokens : List Str) : Option (Command Unit) :=
  let unknown : Command Unit := Method.fail .unknownCommand
  match tokens with
  | [] => some unknown
  | command :: args =>
    if command = "help".toList then
      match args with
      | [] => some (printLines (helpLines.map String.toList))
      | _ => some unknown
    else if command = "quit".toList ∨ command = "exit".toList then
      match args with
      -- the arms that end the loop
      | [] => none
      | _ => some unknown
    else if command = "list".toList then
      match args with
      | [] => some (printBlocks p blocks)
      | _ => some unknown
    else if command = "identify".toList then
      match args with
      | [] => some runIdentify
      | _ => some unknown
    else if command = "read".toList then
      match args with
      | [lba, count] => some (runRead p blocks lba count)
      | _ => some unknown
    else if command = "write".toList then
      match args with
      | lba :: first :: rest => some (runWrite p blocks lba (first :: rest))
      | _ => some unknown
    else if command = "fill".toList then
      match args with
      | [lba, ch] => some (runFill p blocks lba ch (.ok 1))
      -- the count is parsed after the character, so its error comes last
      | [lba, ch, count] => some (runFill p blocks lba ch (parseU64 count))
      | _ => some unknown
    else if command = "peek".toList then
      match args with
      | [lba, offset, len] => some (runPeek p blocks lba offset len)
      | _ => some unknown
    else if command = "poke".toList then
      match args with
      | lba :: offset :: first :: rest => some (runPoke p blocks lba offset (first :: rest))
      | _ => some unknown
    else some unknown

/-- The arms of `run_repl_line`, each with the tokens it is taken for. -/
inductive Arm : List Str → Command Unit → Prop where
  | help : Arm ["help".toList] (printLines (helpLines.map String.toList))
  | list : Arm ["list".toList] (printBlocks p blocks)
  | identify : Arm ["identify".toList] runIdentify
  | read (lba count : Str) : Arm ["read".toList, lba, count] (runRead p blocks lba count)
  | write (lba first : Str) (rest : List Str) :
      Arm ("write".toList :: lba :: first :: rest) (runWrite p blocks lba (first :: rest))
  | fillOne (lba ch : Str) : Arm ["fill".toList, lba, ch] (runFill p blocks lba ch (.ok 1))
  | fill (lba ch count : Str) :
      Arm ["fill".toList, lba, ch, count] (runFill p blocks lba ch (parseU64 count))
  | peek (lba offset len : Str) :
      Arm ["peek".toList, lba, offset, len] (runPeek p blocks lba offset len)
  | poke (lba offset first : Str) (rest : List Str) :
      Arm ("poke".toList :: lba :: offset :: first :: rest)
        (runPoke p blocks lba offset (first :: rest))
  | unknown (tokens : List Str) : Arm tokens (Method.fail .unknownCommand)

/-- What a line runs is one of the arms. -/
theorem arm_of_dispatch {tokens : List Str} {command : Command Unit}
    (h : dispatch p blocks tokens = some command) : Arm p blocks tokens command := by
  cases tokens with
  | nil => exact Option.some.inj h ▸ .unknown _
  | cons name args =>
    simp only [dispatch] at h
    -- one split for each arm, in the order of the `match`: its name first, then its argument count
    split at h
    · next hname =>
      subst hname
      split at h
      · exact Option.some.inj h ▸ .help
      · exact Option.some.inj h ▸ .unknown _
    split at h
    · split at h
      · cases h
      · exact Option.some.inj h ▸ .unknown _
    split at h
    · next hname =>
      subst hname
      split at h
      · exact Option.some.inj h ▸ .list
      · exact Option.some.inj h ▸ .unknown _
    split at h
    · next hname =>
      subst hname
      split at h
      · exact Option.some.inj h ▸ .identify
      · exact Option.some.inj h ▸ .unknown _
    split at h
    · next hname =>
      subst hname
      split at h
      · exact Option.some.inj h ▸ .read _ _
      · exact Option.some.inj h ▸ .unknown _
    split at h
    · next hname =>
      subst hname
      split at h
      · exact Option.some.inj h ▸ .write _ _ _
      · exact Option.some.inj h ▸ .unknown _
    split at h
    · next hname =>
      subst hname
      split at h
      · exact Option.some.inj h ▸ .fillOne _ _
      · exact Option.some.inj h ▸ .fill _ _ _
      · exact Option.some.inj h ▸ .unknown _
    split at h
    · next hname =>
      subst hname
      split at h
      · exact Option.some.inj h ▸ .peek _ _ _
      · exact Option.some.inj h ▸ .unknown _
    split at h
    · next hname =>
      subst hname
      split at h
      · exact Option.some.inj h ▸ .poke _ _ _ _
      · exact Option.some.inj h ▸ .unknown _
    · exact Option.some.inj h ▸ .unknown _

/-- `run_repl_line`: `false` ends the loop. -/
def runReplLine (line : Str) : Command Bool :=
  match dispatch p blocks (splitWhitespace line) with
  | none => pure false
  | some command => do
    command
    pure true

/-- The loop of `run`, over the lines the user enters: an error is printed and the loop
goes on. -/
def loop [Unicode] : List Str → Command Unit
  | [] => pure ()
  | line :: rest =>
    if (trim line).isEmpty then loop rest
    else do
      let result ← (runReplLine p blocks (trim line)).attempt
      -- a panic is no result: it goes through `attempt`
      match result with
      | .ok true => loop rest
      | .ok false => pure ()
      | .error e => do
        println ("error: ".toList ++ e.message.toList)
        loop rest

/-- The part of `run` that follows `open`: the banner and the loop. -/
def interact [Unicode] (lines : List Str) : Command Unit := do
  let total ← Method.lift (blocks.totalLbas p)
  println ("nvmetoy repl: ".toList ++ showNat total.toNat ++ " device blocks of ".toList ++
    showNat blocks.deviceLbaSize.toNat ++
    " bytes accessible (the file's blocks). Type 'help', or Ctrl-D to quit.".toList)
  loop p blocks lines

/-- The commands whose arguments are a rest of words, read off the match. -/
theorem dispatch_write (lba first : Str) (rest : List Str) :
    dispatch p blocks ("write".toList :: lba :: first :: rest) =
      some (runWrite p blocks lba (first :: rest)) := rfl

theorem dispatch_fillOne (lba ch : Str) :
    dispatch p blocks ["fill".toList, lba, ch] = some (runFill p blocks lba ch (.ok 1)) := rfl

theorem dispatch_fill (lba ch count : Str) :
    dispatch p blocks ["fill".toList, lba, ch, count] =
      some (runFill p blocks lba ch (parseU64 count)) := rfl

/-! ### Lengths -/

/-- `len` bytes, padded to whole blocks of `size` bytes. -/
def padded (size len : Nat) : Nat := (len + (size - 1)) / size * size

variable {p blocks}

theorem dvd_padded (size len : Nat) : size ∣ padded size len := Nat.dvd_mul_left _ _

theorem le_padded {size : Nat} (len : Nat) (h : 0 < size) : len ≤ padded size len := by
  have hdiv := Nat.div_add_mod (len + (size - 1)) size
  have hmod := Nat.mod_lt (len + (size - 1)) h
  rw [padded, Nat.mul_comm]
  omega

/-- A copy keeps the length of the buffer. -/
theorem length_copyInto {buffer source result : List UInt8} {start : Nat}
    (h : copyInto buffer start source = .ok result) : result.length = buffer.length := by
  unfold copyInto at h
  split at h
  · next hfits =>
    obtain rfl := Outcome.ok.inj h
    simp only [List.length_append, List.length_take, List.length_drop]
    omega
  · cases h

/-- A fill is as long as it should be, exactly if that is no more than a transfer. -/
theorem fillBytes_eq_some {count : UInt64} {len : Nat} :
    fillBytes blocks count = some len ↔
      len = count.toNat * blockSize blocks ∧ len ≤ MAX_TRANSFER_BYTES := by
  have hmax : MAX_TRANSFER_BYTES < U64_SIZE := by decide
  simp only [fillBytes]
  split
  · next h => simp only [Option.some.injEq]; constructor <;> (rintro h'; omega)
  · next h =>
    simp only [reduceCtorEq, false_iff]
    rintro ⟨rfl, hle⟩
    exact h ⟨Nat.lt_of_le_of_lt hle hmax, hle⟩

/-- A range passes exactly if it begins and ends in the block. -/
theorem rangeRefused_eq_false {offset len : Nat} :
    rangeRefused blocks offset len = false ↔
      offset < blockSize blocks ∧ offset + len ≤ blockSize blocks := by
  simp only [rangeRefused, Bool.or_eq_false_iff, decide_eq_false_iff_not]
  omega

/-- The buffer of `write_blocks` is filled only when its length is exact: a wrapped length
is shorter than the text. -/
theorem padded_of_copyInto {bytes buffer : List UInt8} {len : Nat}
    (hlen : paddedLength p blocks bytes = .ok len)
    (hbuffer : copyInto (List.replicate len 0) 0 bytes = .ok buffer) :
    buffer.length = padded (blockSize blocks) bytes.length := by
  -- the copy went well, so the buffer is long enough for the text
  have hfits : bytes.length ≤ len := by
    unfold copyInto at hbuffer
    split at hbuffer
    · simp_all
    · cases hbuffer
  rw [length_copyInto hbuffer, List.length_replicate]
  simp only [paddedLength, divCeil] at hlen
  split at hlen
  · cases hlen
  next hsize =>
  change p.fit (padded (blockSize blocks) bytes.length) = .ok len at hlen
  by_cases hlt : padded (blockSize blocks) bytes.length < U64_SIZE
  · rw [Profile.fit_of_lt hlt] at hlen
    exact (Outcome.ok.inj hlen).symm
  · cases p with
    | debug => rw [Profile.fit_debug_of_ge (Nat.not_lt.mp hlt)] at hlen; cases hlen
    | release =>
      rw [Profile.fit_release_of_ge (Nat.not_lt.mp hlt)] at hlen
      obtain rfl := Outcome.ok.inj hlen
      -- the exact length is less than one block past the text
      have hblock : blockSize blocks < U64_SIZE := blocks.deviceLbaSize.toNat_lt
      have hnear : padded (blockSize blocks) bytes.length ≤
          bytes.length + (blockSize blocks - 1) := Nat.div_mul_le_self _ _
      have hmod := Nat.mod_add_div (padded (blockSize blocks) bytes.length) U64_SIZE
      have hquot : 0 < padded (blockSize blocks) bytes.length / U64_SIZE :=
        Nat.div_pos (Nat.not_lt.mp hlt) (by decide)
      have hmul : U64_SIZE ≤ U64_SIZE * (padded (blockSize blocks) bytes.length / U64_SIZE) :=
        Nat.le_mul_of_pos_right _ hquot
      omega

end Commands

end Repl

end Nvmetoy
