import Nvmetoy.Framework.Solo
import Nvmetoy.Repl.BlockMap
import Nvmetoy.Repl.Lines
import Nvmetoy.Repl.Report
import Nvmetoy.Repl.Sectors

/-!
# The meaning of the commands

What a line of the REPL is for can be said without the program that runs it: a line turns the bytes
of the disk into others, and prints some lines. `Means` is that, one rule for each command, in terms
of the numbers that its words denote, of the blocks that the file owns and of the data that the
controller identifies itself with. On a disk that does what it is asked or refuses it, each command
does what its line means (`arm_yields`), and its one write leads from the bytes before to the bytes
after.

* `Means` — the rules. A line can always be refused; it then changes nothing.
* `Midway` — where a command issues an operation: before it has changed anything, or when all is
  done but for some lines that are still to be printed.
-/

namespace Nvmetoy

open Framework Machine

/-- The blocks from `first` on, `count` of them, belong to the file. -/
def FileBlocks.Owns (blocks : FileBlocks) (first count : Nat) : Prop :=
  ∀ b, first ≤ b → b < first + count → blocks.Contains b

namespace Repl

/-! ### The lines that are printed -/

/-- How the loop prints an error. -/
def errorLine [Unicode] (e : IoError) : Str := "error: ".toList ++ e.message.toList

/-- What `list` prints. -/
def listing (blocks : FileBlocks) (total bytes : UInt64) : List Str :=
  ("block size ".toList ++ showNat blocks.deviceLbaSize.toNat ++ " bytes, ".toList ++
    showNat total.toNat ++ " blocks total (".toList ++ showNat bytes.toNat ++
      " bytes)".toList) ::
  (padLeft 16 "device-lba".toList ++ "  ".toList ++ padLeft 12 "count".toList ++
    "  state".toList) ::
  blocks.extents.map extentLine

/-- What `write` prints. -/
def wroteLine (len : Nat) (count lba : UInt64) : Str :=
  "wrote ".toList ++ showNat len ++ " bytes into ".toList ++ showNat count.toNat ++ " ".toList ++
    plural count ++ " at device-lba ".toList ++ showNat lba.toNat ++ " (block tail zeroed)".toList

/-- What `fill` prints. -/
def filledLine (count : UInt64) (len : Nat) (byte : UInt8) (lba : UInt64) : Str :=
  "wrote ".toList ++ showNat count.toNat ++ " ".toList ++ plural count ++ " (".toList ++
    showNat len ++ " bytes) of '".toList ++ [Char.ofNat byte.toNat] ++
    "' at device-lba ".toList ++ showNat lba.toNat

/-- What `poke` prints. -/
def pokedLine (len : Nat) (lba : UInt64) (offset : Nat) : Str :=
  "wrote ".toList ++ showNat len ++ " bytes at device-lba ".toList ++ showNat lba.toNat ++
    " offset ".toList ++ showNat offset

/-! ### The rules -/

section Rules

variable [Unicode] (p : Profile) (blocks : FileBlocks) (idData : List UInt8 → Prop)

/-- The bytes of some blocks. -/
def content (m : Mem) (lba count : UInt64) : List UInt8 :=
  m.read (lba.toNat * blockSize blocks) (count.toNat * blockSize blocks)

/-- A text, and zeros to the end of its last block. -/
def wholeBlocks (text : List UInt8) : List UInt8 :=
  text ++ List.replicate (padded (blockSize blocks) text.length - text.length) 0

/-- A line, given by its words, takes the bytes `m` of the disk to others and prints lines. The
controller identifies itself with data in `idData`. -/
inductive Means : List Str → Mem → List Str → Mem → Prop where
  | help (m : Mem) : Means ["help".toList] m (helpLines.map String.toList) m
  | list (m : Mem) {total bytes : UInt64} (htotal : blocks.totalLbas p = .ok total)
      (hbytes : (p.mulU64 total blocks.deviceLbaSize : Outcome IoError UInt64) = .ok bytes) :
      Means ["list".toList] m (listing blocks total bytes) m
  | identify (m : Mem) {data : List UInt8} {id : IdentifyController} (hdata : idData data)
      (hread : IdentifyController.readFromPrefix data = some id) :
      Means ["identify".toList] m id.report m
  | read (m : Mem) {lba count : Str} {a n : UInt64} (ha : Denotes U64_SIZE lba a.toNat)
      (hn : Denotes U64_SIZE count n.toNat) (howns : blocks.Owns a.toNat n.toNat) :
      Means ["read".toList, lba, count] m
        (headline a.toNat (content blocks m a n) ::
          report a.toNat (content blocks m a n) (blockSize blocks)) m
  | write (m : Mem) {lba first : Str} {rest : List Str} {a n : UInt64} {text : List UInt8}
      (ha : Denotes U64_SIZE lba a.toNat) (htext : text = (joinSpace (first :: rest)).bytes)
      (hne : text ≠ []) (hn : n.toNat * blockSize blocks = padded (blockSize blocks) text.length)
      (howns : blocks.Owns a.toNat n.toNat) :
      Means ("write".toList :: lba :: first :: rest) m [wroteLine text.length n a]
        (m.write (a.toNat * blockSize blocks) (wholeBlocks blocks text))
  | fill (m : Mem) {lba ch : Str} {args : List Str} {a n : UInt64} {byte : UInt8}
      (ha : Denotes U64_SIZE lba a.toNat) (hbyte : ch.bytes = [byte])
      (hn : args = [] ∧ n = 1 ∨ ∃ count, args = [count] ∧ Denotes U64_SIZE count n.toNat)
      (hne : n ≠ 0) (howns : blocks.Owns a.toNat n.toNat) :
      Means ("fill".toList :: lba :: ch :: args) m
        [filledLine n (n.toNat * blockSize blocks) byte a]
        (m.write (a.toNat * blockSize blocks)
          (List.replicate (n.toNat * blockSize blocks) byte))
  | peek (m : Mem) {lba offset len : Str} {a : UInt64} {i k : Nat}
      (ha : Denotes U64_SIZE lba a.toNat) (hi : Denotes U64_SIZE offset i)
      (hk : Denotes U64_SIZE len k) (hin : i < blockSize blocks ∧ i + k ≤ blockSize blocks)
      (howns : blocks.Owns a.toNat 1) :
      Means ["peek".toList, lba, offset, len] m
        [peekLine a i k (asciiLine (m.read (a.toNat * blockSize blocks + i) k))] m
  | poke (m : Mem) {lba offset first : Str} {rest : List Str} {a : UInt64} {i : Nat}
      {text : List UInt8} (ha : Denotes U64_SIZE lba a.toNat) (hi : Denotes U64_SIZE offset i)
      (htext : text = (joinSpace (first :: rest)).bytes) (hne : text ≠ [])
      (hin : i + text.length ≤ blockSize blocks) (howns : blocks.Owns a.toNat 1) :
      Means ("poke".toList :: lba :: offset :: first :: rest) m [pokedLine text.length a i]
        (m.write (a.toNat * blockSize blocks + i) text)
  | refused (tokens : List Str) (m : Mem) (error : IoError) :
      Means tokens m [errorLine error] m

/-- The operation is no write. -/
def Unwriting (o : ReplOp) : Prop := ∀ slba data, o ≠ .write slba data

/-- A line has done, and printed, all that it means. -/
def Meant (tokens : List Str) (v u : Device) : Prop :=
  ∃ out, Means p blocks idData tokens v.disk out u.disk ∧ u.output = v.output ++ out

/-- Where a command that was started on `v` issues an operation. -/
inductive Midway (tokens : List Str) (v : Device) : ReplOp → Device → Prop where
  | before {o : ReplOp} (ho : Unwriting o) : Midway tokens v o v
  | write {slba : UInt64} {data : List UInt8} {out : List Str}
      (h : Means p blocks idData tokens v.disk out
        (v.disk.write (slba.toNat * blockSize blocks) data)) :
      Midway tokens v (.write slba data) v
  | after {line : Str} {u : Device} {out rest : List Str}
      (h : Means p blocks idData tokens v.disk out u.disk)
      (hout : u.output ++ rest = v.output ++ out) :
      Midway tokens v (.println line) u

/-- From `u` on, the command ends as `Q` says, or in an error that has changed nothing. A panic
leaves what an operation that prints a line would find. -/
def Yields {α : Type} (tokens : List Str) (v : Device) (command : Command α) (u : Device)
    (Q : α → Device → Prop) : Prop :=
  (command ()).Along (sectors (blockSize blocks) idData) (Midway p blocks idData tokens v)
    (fun x u' => (∀ a, x.1 = .ok a → Q a u') ∧ (∀ e, x.1 = .err e → u' = v) ∧
      ∀ why, x.1 = .panic why → Midway p blocks idData tokens v (.println []) u') u

end Rules

section Yielding

variable [Unicode] {p : Profile} {blocks : FileBlocks} {idData : List UInt8 → Prop}
  {tokens : List Str} {v u : Device} {α β : Type}
  {Q : α → Device → Prop} {Q' : β → Device → Prop}

theorem Yields.post {Q₁ : α → Device → Prop} {m : Command α}
    (h : Yields p blocks idData tokens v m u Q₁) (hQ : ∀ a u, Q₁ a u → Q a u) :
    Yields p blocks idData tokens v m u Q :=
  Prog.Along.post h fun _ _ hx => ⟨fun a ha => hQ a _ (hx.1 a ha), hx.2⟩

/-- **Sequencing.** -/
theorem Yields.bind {m : Command α} {f : α → Command β} (hm : Yields p blocks idData tokens v m u Q)
    (hf : ∀ a u', Q a u' → Yields p blocks idData tokens v (f a) u' Q') :
    Yields p blocks idData tokens v (m >>= f) u Q' :=
  Prog.Along.method_bind hm (fun a _ u' hx => hf a u' (hx.1 a rfl))
    (fun e _ _ hx => ⟨(fun _ h => by cases h), fun _ _ => hx.2.1 e rfl, (fun _ h => by cases h)⟩)
    fun why _ _ hx => ⟨(fun _ h => by cases h), (fun _ h => by cases h), fun _ _ => hx.2.2 why rfl⟩

section Sized

variable (hsize : 0 < blockSize blocks)
include hsize

end Sized

end Yielding

end Repl

end Nvmetoy
