import Nvmetoy.Framework.Interleave
import Nvmetoy.Framework.Bytes
import Nvmetoy.Repl.Commands
import Nvmetoy.Repl.Coverage

/-!
# What the editing commands do to the device

The device is an array of `B`-byte blocks, kept as one byte memory: `read` gives the bytes
of the blocks asked for, an accepted `write` replaces them, and a refused `write` may leave
anything. Nothing acts on the device between two calls.

Where a command ends well, every call it made was accepted. `write` and `fill` are then one
write of whole blocks (`write_confinedWrite`); `poke` reads a block and writes it back with
a slice replaced, which is the write of the slice alone (`Mem.write_patched`).
-/

namespace Nvmetoy

open Framework Machine

/-- The contents of the device, and the lines printed so far. -/
structure Device where
  disk : Mem
  output : List Str

/-- What a call does to the device, and what it answers. Only the calls in `fails` may be
answered with an error. -/
def blockArrayAct (B : Nat) (fails : ReplOp → Prop) :
    (o : ReplOp) → Device → ReplRes o → Device → Prop
  | .read slba blockCount, w, .ok data, w' =>
    data = w.disk.read (slba.toNat * B) (blockCount.toNat * B) ∧ w' = w
  | .read slba blockCount, w, .error _, w' => fails (.read slba blockCount) ∧ w' = w
  | .write slba data, w, .ok _, w' =>
    B ∣ data.length ∧ w' = { w with disk := w.disk.write (slba.toNat * B) data }
  | .write slba data, w, .error _, w' => fails (.write slba data) ∧ w'.output = w.output
  | .println line, w, _, w' => w' = { w with output := w.output ++ [line] }
  | _, w, _, w' => w' = w

/-- The array of blocks, as a machine whose environment does nothing. -/
def blockArray (B : Nat) (fails : ReplOp → Prop) : Machine ReplOp ReplRes Device where
  act := blockArrayAct B fails
  env := fun _ _ => False

theorem blockArray_stable {B : Nat} {fails : ReplOp → Prop} (P : Device → Prop) :
    (blockArray B fails).Stable P :=
  fun _ _ _ h => h.elim

namespace Repl

variable {p : Profile} {blocks : FileBlocks} {B : Nat} {fails : ReplOp → Prop} {w : Device}

/-- What a command that ends well has done to the device `w`. -/
abbrev Does {α : Type} (B : Nat) (fails : ReplOp → Prop) (w : Device) (command : Command α)
    (Q : α → Device → Prop) : Prop :=
  (blockArray B fails).Triple (fun _ => True) (fun v => v = w) (command ()) fun x v =>
    ∀ a, x.1 = .ok a → Q a v

/-- A step that does not touch the device. -/
theorem does_lift {α β : Type} {x : Outcome IoError α} {f : α → Command β}
    {Q : β → Device → Prop} (h : ∀ a, x = .ok a → Does B fails w (f a) Q) :
    Does B fails w (Method.lift x >>= f) Q :=
  Triple.lift_bind (blockArray_stable _) (fun _ _ => trivial) h (by simp) (by simp)

/-- A value, when it is the right one. -/
theorem does_pure {α : Type} {a : α} {Q : α → Device → Prop} (h : Q a w) :
    Does B fails w (pure a) Q :=
  Triple.ret (blockArray_stable _) (fun _ _ => trivial) fun v hv b hb => by
    obtain rfl := hv
    obtain rfl := Outcome.ok.inj hb
    exact h

theorem does_fail {α : Type} {e : IoError} {Q : α → Device → Prop} :
    Does B fails w (Method.fail e) Q :=
  Triple.ret (blockArray_stable _) (fun _ _ => trivial) fun _ _ b hb => by cases hb

/-- An operation. -/
theorem does_call {β : Type} {o : ReplOp} {f : ReplRes o → Command β} {Q : β → Device → Prop}
    (h : ∀ r w', blockArrayAct B fails o w r w' → Does B fails w' (f r) Q) :
    Does B fails w (Method.call o >>= f) Q := by
  refine Triple.call_bind (R := blockArrayAct B fails o w) (blockArray_stable _)
    (fun _ _ => trivial)
    ?_ fun r => ?_
  · rintro v r w' rfl hact
    exact hact
  · exact fun w' hw' => h r w' hw' w' rfl

/-- **Sequencing.** An error of the first half ends the second. -/
theorem does_bind {α β : Type} {m : Command α} {f : α → Command β} {Q : α → Device → Prop}
    {Q' : β → Device → Prop} (hm : Does B fails w m Q)
    (hf : ∀ a w', Q a w' → Does B fails w' (f a) Q') : Does B fails w (m >>= f) Q' :=
  Triple.method_bind hm (fun a _ w' hw' => hf a w' (hw' a rfl) w' rfl)
    (fun _ _ _ _ _ h => by cases h) fun _ _ _ _ _ h => by cases h

/-- Printing never fails. -/
theorem println_prints {line : Str} :
    (blockArray B fails).Triple (fun _ => True) (fun v => v = w) (println line ()) fun x v =>
      x.1 = .ok () ∧ v = { w with output := w.output ++ [line] } := by
  refine Triple.op (R := fun _ v => v = { w with output := w.output ++ [line] })
    (blockArray_stable _) (fun _ _ => trivial) ?_ fun r => ?_
  · rintro v r w' rfl hact
    exact hact
  · exact Triple.ret (blockArray_stable _) (fun _ _ => trivial) fun _ hv => ⟨rfl, hv⟩

theorem does_println {line : Str} :
    Does B fails w (println line) fun _ v => v = { w with output := w.output ++ [line] } :=
  println_prints.post fun _ _ h _ _ => h.2

/-! ### The two confined calls -/

/-- A confined read of one block gives its bytes. -/
theorem does_confinedRead {deviceLba : UInt64} :
    Does B fails w (confinedRead p blocks deviceLba 1) fun data v =>
      blocks.check p deviceLba 1 = .ok () ∧ data = w.disk.read (deviceLba.toNat * B) B ∧
        v = w := by
  refine does_lift fun _ hcheck => ?_
  rw [if_neg (by decide), if_pos (by decide)]
  refine does_call fun answer v hact => ?_
  cases answer with
  | error e => exact does_fail
  | ok data =>
    obtain ⟨rfl, rfl⟩ := hact
    exact does_pure ⟨hcheck, by simp, rfl⟩

/-- A confined write that is accepted stores its payload. -/
theorem does_confinedWrite {deviceLba : UInt64} {data : List UInt8} :
    Does B fails w (confinedWrite p blocks deviceLba data) fun _ v =>
      v = { w with disk := w.disk.write (deviceLba.toNat * B) data } := by
  refine does_lift fun refused _ => ?_
  split
  · exact does_fail
  refine does_lift fun count _ => does_lift fun _ _ => does_call fun answer v hact => ?_
  cases answer with
  | error e => exact does_fail
  | ok _ => exact does_pure hact.2

/-! ### The commands -/

/-- The buffer of `write_blocks` is long enough. -/
theorem copyInto_of_le {bytes : List UInt8} {len : Nat} (h : bytes.length ≤ len) :
    copyInto (List.replicate len 0) 0 bytes =
      .ok (bytes ++ List.replicate (len - bytes.length) 0) := by
  have hfits : 0 + bytes.length ≤ (List.replicate len (0 : UInt8)).length := by
    rwa [Nat.zero_add, List.length_replicate]
  rw [copyInto, if_pos hfits, List.take_zero, List.nil_append, Nat.zero_add, List.drop_replicate]

/-- The buffer of `write_blocks`: the text, and zeros to the end. -/
theorem copyInto_zeros {bytes buffer : List UInt8} {len : Nat}
    (h : copyInto (List.replicate len 0) 0 bytes = .ok buffer) :
    buffer = bytes ++ List.replicate (len - bytes.length) 0 := by
  unfold copyInto at h
  split at h
  · obtain rfl := Outcome.ok.inj h
    simp
  · cases h

/-- An allocation leaves no trace. -/
theorem does_allocVec {β : Type} {bytes : Nat} {f : Unit → Command β} {Q : β → Device → Prop}
    (h : Does B fails w (f ()) Q) : Does B fails w (allocVec bytes >>= f) Q := by
  unfold allocVec
  split
  · exact does_call fun _ _ hact => by obtain rfl := hact; exact h
  · exact does_lift fun _ hx => by cases hx

/-- A successful write of text writes the text and zeros up to the end of its last block. -/
theorem does_writeBlocks {deviceLba : UInt64} {bytes : List UInt8} :
    Does B fails w (writeBlocks p blocks deviceLba bytes) fun _ v =>
      v = { w with disk := w.disk.write (deviceLba.toNat * B) (bytes ++ List.replicate
        (padded (blockSize blocks) bytes.length - bytes.length) 0) } := by
  rw [writeBlocks]
  split
  · exact does_fail
  refine does_lift fun len hlen => does_allocVec (does_lift fun buffer hbuffer => ?_)
  have hpadded := padded_of_copyInto hlen hbuffer
  rw [length_copyInto hbuffer, List.length_replicate] at hpadded
  rw [← hpadded, ← copyInto_zeros hbuffer]
  exact does_confinedWrite

/-- A successful fill writes one byte all over the range. -/
theorem does_fill {deviceLba count : UInt64} {byte : UInt8} :
    Does B fails w (fill p blocks deviceLba byte count) fun _ v =>
      v.disk = w.disk.write (deviceLba.toNat * B)
        (List.replicate (count.toNat * blockSize blocks) byte) := by
  rw [fill]
  split
  · exact does_fail
  cases hlen : fillBytes blocks count with
  | none => exact does_fail
  | some len =>
    -- the product has not overflowed
    obtain ⟨rfl, -⟩ := fillBytes_eq_some.mp hlen
    refine does_allocVec (does_bind does_confinedWrite fun _ v hv => ?_)
    refine Triple.post does_println fun x u h a ha => ?_
    rw [h a ha, hv]

/-- `poke` writes its text where it is asked to, and nothing else. -/
theorem does_poke {deviceLba : UInt64} {offset : Nat} {text : Str} (hB : B = blockSize blocks) :
    Does B fails w (poke p blocks deviceLba offset text) fun _ v =>
      blocks.check p deviceLba 1 = .ok () ∧
        rangeRefused blocks offset text.bytes.length = false ∧
        v.disk = w.disk.write (deviceLba.toNat * B + offset) text.bytes := by
  rw [poke]
  -- both refusals come before the read
  split
  · exact does_fail
  split
  · exact does_fail
  next hrange =>
  rw [Bool.not_eq_true] at hrange
  have hfits := (rangeRefused_eq_false.mp hrange).2
  rw [← hB] at hfits
  refine does_bind does_confinedRead fun block v hblock => does_lift fun buffer hbuffer => ?_
  obtain ⟨hcheck, rfl, rfl⟩ := hblock
  refine does_bind does_confinedWrite fun _ u hu => ?_
  refine Triple.post does_println fun x t h a ha => ⟨hcheck, hrange, ?_⟩
  -- the patched block differs from the one that was read in the text alone
  unfold copyInto at hbuffer
  rw [if_pos (by simpa using hfits)] at hbuffer
  obtain rfl := Outcome.ok.inj hbuffer
  rw [h a ha, hu]
  exact Mem.write_patched hfits

/-- `peek` prints a slice of the block and leaves the device alone, unless the driver
fails to read the block. -/
theorem peek_shows {deviceLba : UInt64} {offset len : Nat} (hB : B = blockSize blocks)
    (hcheck : blocks.check p deviceLba 1 = .ok ()) (hrange : rangeRefused blocks offset len = false)
    (hreads : ¬ fails (.read deviceLba 1)) :
    (blockArray B fails).Triple (fun _ => True) (fun v => v = w)
      (peek p blocks deviceLba offset len ()) fun x v =>
        x.1 = .ok () ∧ v = { w with output := w.output ++ [peekLine deviceLba offset len
          (asciiLine (w.disk.read (deviceLba.toNat * B + offset) len))] } := by
  have hfits := (rangeRefused_eq_false.mp hrange).2
  rw [← hB] at hfits
  rw [peek, if_neg (by simp [hrange]), confinedRead, hcheck, Method.lift_ok_bind,
    if_neg (by decide), if_pos (by decide), Method.bind_assoc]
  refine Triple.call_bind (R := blockArrayAct B fails (.read deviceLba 1) w)
    (blockArray_stable _) (fun _ _ => trivial) ?_ fun answer => ?_
  · rintro v r w' rfl hact
    exact hact
  -- the device may only fail where it is said to
  cases answer with
  | error e => exact fun _ h => absurd h.1 hreads
  | ok block =>
    rintro v ⟨rfl, rfl⟩
    -- the slice lies in the block
    have hslice : slice (v.disk.read (deviceLba.toNat * B) (UInt16.toNat 1 * B)) offset len =
        .ok (v.disk.read (deviceLba.toNat * B + offset) len) := by
      rw [slice, if_pos (by simpa using hfits), Mem.read_drop_take (by simpa using hfits)]
    simp only [question, Method.lift_ok_bind, hslice]
    exact println_prints v rfl

/-- A printable ASCII character. -/
def Printable (c : Char) : Prop := 0x20 ≤ c.toNat ∧ c.toNat ≤ 0x7E

/-- Printable ASCII text is shown as it is. -/
theorem asciiLine_bytes {text : Str} (h : ∀ c ∈ text, Printable c) :
    asciiLine text.bytes = text := by
  induction text with
  | nil => rfl
  | cons c rest ih =>
    obtain ⟨hc, hrest⟩ := List.forall_mem_cons.mp h
    -- a printable character is one byte
    have hbyte : String.utf8EncodeChar c = [UInt8.ofNat c.toNat] :=
      if_pos (Nat.le_trans hc.2 (by decide))
    have hvalue : (UInt8.ofNat c.toNat).toNat = c.toNat :=
      UInt8.toNat_ofNat_of_lt' (Nat.lt_of_le_of_lt hc.2 (by decide))
    have hchar : asciiChar (UInt8.ofNat c.toNat) = c := by
      rw [asciiChar, if_pos, hvalue, Char.ofNat_toNat]
      simp only [UInt8.le_iff_toNat_le, hvalue]
      exact hc
    have hcons : asciiLine (Str.bytes (c :: rest)) =
        asciiChar (UInt8.ofNat c.toNat) :: asciiLine (Str.bytes rest) := by
      simp [asciiLine, Str.bytes, hbyte]
    rw [hcons, hchar, ih hrest]

/-- The bytes from `start` to `start + len` may differ, no others. -/
def SameOutside (start len : Nat) (m m' : Mem) : Prop :=
  ∀ x, x < start ∨ start + len ≤ x → m' x = m x

/-- What a write leaves. -/
theorem stored {m m' : Mem} {a n : Nat} {bs : List UInt8} (h : m' = m.write a bs)
    (hlen : bs.length = n) : m'.read a n = bs ∧ SameOutside a n m m' := by
  subst hlen h
  exact ⟨Mem.read_write_self, fun _ hx => Mem.write_of_outside hx⟩

/-- **The effect of the editing commands.** `write_blocks` leaves its bytes and zeros to the
end of the block, `fill` leaves its character in exactly the blocks asked for, and `poke`
leaves its text in the block, where a `peek` then finds it. Nothing else changes. -/
theorem editing_effects (p : Profile) (blocks : FileBlocks) (B : Nat) (fails : ReplOp → Prop)
    (hB : blockSize blocks = B) (hpos : 0 < B) (deviceLba : UInt64) (w v : Device) :
    (∀ bytes count, (blockArray B fails).Reaches (writeBlocks p blocks deviceLba bytes (), w)
        (.pure (.ok count, ()), v) →
      v.disk.read (deviceLba.toNat * B) (padded B bytes.length) =
          bytes ++ List.replicate (padded B bytes.length - bytes.length) 0 ∧
        SameOutside (deviceLba.toNat * B) (padded B bytes.length) w.disk v.disk) ∧
    (∀ byte count, (blockArray B fails).Reaches (fill p blocks deviceLba byte count (), w)
        (.pure (.ok (), ()), v) →
      v.disk.read (deviceLba.toNat * B) (count.toNat * B) =
          List.replicate (count.toNat * B) byte ∧
        SameOutside (deviceLba.toNat * B) (count.toNat * B) w.disk v.disk) ∧
    ∀ offset text, (blockArray B fails).Reaches (poke p blocks deviceLba offset text (), w)
        (.pure (.ok (), ()), v) →
      offset + text.bytes.length ≤ B ∧
        v.disk.read (deviceLba.toNat * B + offset) text.bytes.length = text.bytes ∧
        SameOutside (deviceLba.toNat * B + offset) text.bytes.length w.disk v.disk ∧
        ∀ x u, (blockArray B fails).Reaches
            (peek p blocks deviceLba offset text.bytes.length (), v) (.pure x, u) →
          ¬ fails (.read deviceLba 1) → x.1 = .ok () ∧ u = { v with output := v.output ++
            [peekLine deviceLba offset text.bytes.length (asciiLine text.bytes)] } ∧
            ((∀ c ∈ text, Printable c) → asciiLine text.bytes = text) := by
  subst hB
  -- each of the three: what was written, and then what it reads
  refine ⟨fun bytes count h => ?_, fun byte count h => ?_, fun offset text h => ?_⟩
  · have hv : v = _ := (does_writeBlocks w rfl _ h).2 _ rfl _ rfl
    have hlen := le_padded bytes.length hpos
    refine stored (congrArg Device.disk hv) ?_
    rw [List.length_append, List.length_replicate]
    omega
  · have hv : v.disk = _ := (does_fill w rfl _ h).2 _ rfl _ rfl
    exact stored hv List.length_replicate
  · obtain ⟨hcheck, hrange, hv⟩ := (does_poke rfl w rfl _ h).2 _ rfl _ rfl
    obtain ⟨hread, hsame⟩ := stored hv rfl
    refine ⟨(rangeRefused_eq_false.mp hrange).2, hread, hsame, fun x u hpeek hreads => ?_⟩
    obtain ⟨hx, hu⟩ := (peek_shows rfl hcheck hrange hreads v rfl _ hpeek).2 x rfl
    rw [hread] at hu
    exact ⟨hx, hu, asciiLine_bytes⟩

/-- One block of four bytes, at block 5. -/
def oneBlock : FileBlocks := ⟨4, [⟨5, 1, false⟩]⟩

theorem check_oneBlock : oneBlock.check .debug 5 1 = .ok () := by
  rw [FileBlocks.check, if_neg (by decide), if_pos (by decide), FileBlocks.walk_of_lt (by decide)]
  exact FileBlocks.walk_of_ge (by decide)

theorem confinedWrite_oneBlock : confinedWrite .debug oneBlock 5 [0, 104, 105, 0] =
    (Method.call (ReplOp.write 5 [0, 104, 105, 0]) >>= fun answer =>
      question answer >>= fun _ => pure 1) := by
  have hcount : (divUsize ([0, 104, 105, 0] : List UInt8).length (blockSize oneBlock) :
      Outcome IoError Nat) = .ok 1 := by decide
  rw [confinedWrite, show payloadRefused oneBlock [0, 104, 105, 0] = .ok false by decide,
    Method.lift_ok_bind, if_neg (by decide), hcount, Method.lift_ok_bind,
    show UInt64.ofNat 1 = 1 from rfl, check_oneBlock, Method.lift_ok_bind]

/-- A run of `poke`, on a device of zeros. -/
theorem poke_oneBlock : (blockArray 4 fun _ => False).Reaches
    (poke .debug oneBlock 5 1 "hi".toList (), ⟨fun _ => 0, []⟩)
    (.pure (.ok (), ()), ⟨Mem.write (fun _ => 0) 20 [0, 104, 105, 0],
      ["wrote 2 bytes at device-lba 5 offset 1".toList]⟩) := by
  rw [poke, if_neg (by decide), if_neg (by decide), confinedRead, check_oneBlock,
    Method.lift_ok_bind, if_neg (by decide), if_pos (by decide), Method.bind_assoc]
  refine Reaches.call_bind (.ok [0, 0, 0, 0]) ⟨rfl, rfl⟩ ?_
  rw [question, Method.lift_ok_bind, show copyInto [0, 0, 0, 0] 1 (Str.bytes "hi".toList) =
    .ok [0, 104, 105, 0] by decide, Method.lift_ok_bind, confinedWrite_oneBlock,
    Method.bind_assoc]
  refine Reaches.call_bind (.ok ()) ⟨by decide, rfl⟩ ?_
  exact Reaches.act (r := ()) rfl .refl

/-- The text of that run is where it was put. -/
theorem editing_effects_poke : (Mem.write (fun _ => 0) 20 [0, 104, 105, 0]).read 21 2 =
    Str.bytes "hi".toList :=
  ((editing_effects .debug oneBlock 4 (fun _ => False) rfl (by decide) 5 _ _).2.2 1 "hi".toList
    poke_oneBlock).2.1

end Repl

end Nvmetoy
