import Nvmetoy.Repl.Session
import Nvmetoy.Repl.Coverage

/-!
# Confinement

The REPL promises that it touches the blocks of the file alone. The range it checks is
counted in blocks of the map (`device_lba_size`); the range the device is given is counted
again by the driver, in blocks of the namespace, and nothing compares the two sizes.

* Reads pass a block count through, so they are confined whatever the sizes are.
* Writes pass a payload through. `Recounted` says that the payload, cut into blocks of the
  namespace, still lies in the file; `LineConfined` asks it of the payload of a line.
* `poke` writes back what it has read, one block of the namespace, so it is confined too.

`sat_runReplLine` is the step: a line that meets the condition issues confined calls
alone. `confined_of_lineConfined` is the run. `LineConfined.of_le` is the setting that
`nvmetoy.sh` arranges, and `write_escapes` a session of the other kind.
-/

namespace Nvmetoy

open Framework

namespace Repl

open NvmeUserspaceDriver

/-- The `count` blocks from `slba` on belong to the file. -/
def InFile (blocks : FileBlocks) (slba count : Nat) : Prop :=
  ∀ k, k < count → blocks.Contains (slba + k)

/-- The payload of a line: where a `write` or a `fill` puts how many bytes. -/
inductive Payload (blocks : FileBlocks) (line : Str) : UInt64 → Nat → Prop where
  | write {lba : Str} {text : List Str} {deviceLba : UInt64}
      (htokens : splitWhitespace line = "write".toList :: lba :: text) (htext : text ≠ [])
      (hlba : parseU64 lba = .ok deviceLba) :
      Payload blocks line deviceLba (padded (blockSize blocks) (joinSpace text).bytes.length)
  | fillOne {lba ch : Str} {deviceLba : UInt64} {byte : UInt8}
      (htokens : splitWhitespace line = ["fill".toList, lba, ch])
      (hlba : parseU64 lba = .ok deviceLba) (hch : parseAsciiChar ch = .ok byte) :
      Payload blocks line deviceLba (blockSize blocks)
  | fill {lba ch n : Str} {deviceLba count : UInt64} {byte : UInt8}
      (htokens : splitWhitespace line = ["fill".toList, lba, ch, n])
      (hlba : parseU64 lba = .ok deviceLba) (hch : parseAsciiChar ch = .ok byte)
      (hn : parseU64 n = .ok count) :
      Payload blocks line deviceLba (count.toNat * blockSize blocks)

/-- A payload of `len` bytes reaches the device: the map accepts it, counted in blocks of
the map, and the driver sends it, counted in blocks of `B` bytes. -/
structure Sent (p : Profile) (blocks : FileBlocks) (B : Nat) (deviceLba : UInt64) (len : Nat) :
    Prop where
  accepted : blocks.check p deviceLba (UInt64.ofNat (len / blockSize blocks)) = .ok ()
  pos : 0 < len
  whole : B ∣ len
  within : len ≤ MAX_TRANSFER_BYTES
  counted : ¬ CutsToZero p B len

/-- The payload of the line, if it has one and it is sent, stays in the file when it is
counted in blocks of `B` bytes. -/
def LineConfined (p : Profile) (blocks : FileBlocks) (B : Nat) (line : Str) : Prop :=
  ∀ deviceLba len, Payload blocks line deviceLba len → Sent p blocks B deviceLba len →
    InFile blocks deviceLba.toNat (sentBlocks B len)

variable {p : Profile} {blocks : FileBlocks} {B : Nat}

/-- The call names blocks of the file alone. -/
def Keeps (p : Profile) (blocks : FileBlocks) (B : Nat) (o : ReplOp) : Prop :=
  ∀ e, Names p B o e → InFile blocks e.slba e.blockCount

theorem keeps_println (line : Str) : Keeps p blocks B (.println line) := fun _ h => h.elim

theorem keeps_alloc (bytes : Nat) : Keeps p blocks B (.alloc bytes) := fun _ h => h.elim

/-! ### What the commands ask for -/

section Commands

/-- Every command of the REPL that only prints is confined. -/
theorem sat_printLines (lines : List Str) :
    (printLines lines ()).Sat (Answers p B) (Keeps p blocks B) fun _ => True := by
  induction lines with
  | nil => trivial
  | cons line rest ih => exact ⟨keeps_println line, fun _ _ => ih⟩

/-- The count of a read is passed through, so the check of the map is a check of the
command. -/
theorem sat_confinedRead (deviceLba count : UInt64) :
    (confinedRead p blocks deviceLba count ()).Sat (Answers p B) (Keeps p blocks B) fun x =>
      ∀ data, x.1 = .ok data → blocks.check p deviceLba count = .ok () ∧ (count ≠ 0 →
        p.mulUsize B count.toNat = (.ok data.length : Outcome IoError Nat)) := by
  refine Method.sat_lift (fun _ hcheck => ?_) (by simp) (by simp)
  split
  · next hzero => exact fun data _ => ⟨hcheck, fun hne => absurd hzero hne⟩
  split
  · next hlt =>
    -- the cast to `u16` is exact on this branch, so the driver is asked for the blocks checked
    have hcast : (UInt16.ofNat count.toNat).toNat = count.toNat :=
      UInt16.toNat_ofNat_of_lt' hlt
    refine Method.sat_call ?_ fun answer hanswer => ?_
    · rintro e ⟨hslba, hcount⟩ k hk
      rw [hslba]
      exact FileBlocks.contains_of_check hcheck (by rwa [hcount, hcast] at hk)
    · cases answer with
      -- an error reads nothing, and the caller sees no data
      | error e => exact fun data h => by cases h
      | ok data =>
        rintro data' ⟨⟩
        refine ⟨hcheck, fun _ => ?_⟩
        rw [← hcast]
        exact hanswer.2.2
  · exact fun data h => by cases h

/-- A payload goes out when the map accepts it, and is then counted again. -/
theorem sat_confinedWrite {deviceLba : UInt64} {data : List UInt8}
    (h : Sent p blocks B deviceLba data.length →
      InFile blocks deviceLba.toNat (sentBlocks B data.length)) :
    (confinedWrite p blocks deviceLba data ()).Sat (Answers p B) (Keeps p blocks B)
      fun _ => True := by
  refine Method.sat_lift (fun refused _ => ?_) (fun _ _ => trivial) fun _ _ => trivial
  split
  · trivial
  refine Method.sat_lift (fun count hcount => ?_) (fun _ _ => trivial) fun _ _ => trivial
  obtain rfl := (divUsize_eq_ok.mp hcount).2
  -- what is sent to the driver has passed the check
  refine Method.sat_lift (fun _ hcheck => ?_) (fun _ _ => trivial) fun _ _ => trivial
  refine Method.sat_call ?_ fun answer _ => ?_
  · rintro e ⟨hacc, hcut, hslba, hblocks⟩
    rw [hslba, hblocks]
    exact h ⟨hcheck, List.length_pos_iff.mpr hacc.1, hacc.2.1, hacc.2.2, hcut⟩
  · cases answer <;> trivial

/-- The rest of a command that has nothing more to ask. -/
theorem sat_println {line : Str} :
    (println line ()).Sat (Answers p B) (Keeps p blocks B) fun _ => True :=
  ⟨keeps_println line, fun _ _ => trivial⟩

/-- What follows an allocation decides. -/
theorem sat_allocVec {α : Type} {bytes : Nat} {f : Unit → Command α}
    (h : (f () ()).Sat (Answers p B) (Keeps p blocks B) fun _ => True) :
    ((allocVec bytes >>= f) ()).Sat (Answers p B) (Keeps p blocks B) fun _ => True := by
  unfold allocVec
  split
  · exact ⟨keeps_alloc bytes, fun _ _ => h⟩
  · trivial

/-- Sequencing, where nothing is asked of the results. -/
theorem sat_andThen {α β : Type} {m : Command α} {f : α → Command β}
    (hm : (m ()).Sat (Answers p B) (Keeps p blocks B) fun _ => True)
    (hf : ∀ a, (f a ()).Sat (Answers p B) (Keeps p blocks B) fun _ => True) :
    ((m >>= f) ()).Sat (Answers p B) (Keeps p blocks B) fun _ => True :=
  Method.sat_bind hm (fun a _ _ => hf a) (fun _ _ _ => trivial) fun _ _ _ => trivial

theorem sat_liftThen {α β : Type} {x : Outcome IoError α} {f : α → Command β}
    (hf : ∀ a, x = .ok a → (f a ()).Sat (Answers p B) (Keeps p blocks B) fun _ => True) :
    ((Method.lift x >>= f) ()).Sat (Answers p B) (Keeps p blocks B) fun _ => True :=
  Method.sat_lift hf (fun _ _ => trivial) fun _ _ => trivial

/-- Printing the chunks of a read confines itself. -/
theorem sat_printChunks (deviceLba : UInt64) (total index : Nat) (data : List (List UInt8)) :
    (printChunks p deviceLba total index data ()).Sat (Answers p B) (Keeps p blocks B)
      fun _ => True := by
  induction data generalizing index with
  | nil => trivial
  | cons block rest ih =>
    rw [printChunks]
    split
    · split
      · exact sat_andThen sat_println fun _ => ih _
      · exact ih _
    · exact sat_liftThen fun _ _ => sat_andThen sat_println fun _ => ih _

theorem sat_printBlocks :
    (printBlocks p blocks ()).Sat (Answers p B) (Keeps p blocks B) fun _ => True :=
  sat_liftThen fun _ _ => sat_liftThen fun _ _ => sat_andThen sat_println fun _ =>
    sat_andThen sat_println fun _ => sat_printLines _

theorem sat_runIdentify :
    (runIdentify ()).Sat (Answers p B) (Keeps p blocks B) fun _ => True := by
  refine Method.sat_call (fun _ h => h.elim) fun answer _ => ?_
  cases answer with
  | error e => trivial
  | ok data =>
    change (printControllerIdentification data ()).Sat _ _ _
    rcases printControllerIdentification_cases data with h | ⟨id, -, h⟩
    · rw [h]
      trivial
    · rw [h]
      exact sat_printLines _

/-- `read` writes nothing. -/
theorem sat_runRead (lba count : Str) :
    (runRead p blocks lba count ()).Sat (Answers p B) (Keeps p blocks B) fun _ => True := by
  refine sat_liftThen fun deviceLba _ => sat_liftThen fun count _ => ?_
  refine sat_andThen ((sat_confinedRead _ _).post fun _ _ => trivial) fun data => ?_
  exact sat_andThen sat_println fun _ => sat_liftThen fun total _ => sat_printChunks _ _ _ _

theorem sat_runPeek (lba offset len : Str) :
    (runPeek p blocks lba offset len ()).Sat (Answers p B) (Keeps p blocks B) fun _ => True := by
  refine sat_liftThen fun deviceLba _ => sat_liftThen fun offset _ => sat_liftThen fun len _ => ?_
  rw [peek]
  split
  · trivial
  · refine sat_andThen ((sat_confinedRead _ _).post fun _ _ => trivial) fun block => ?_
    exact sat_liftThen fun shown _ => sat_println

/-- A fill is confined if its payload is. -/
theorem sat_runFill {lba ch : Str} {count : Outcome IoError UInt64}
    (h : ∀ deviceLba byte n, parseU64 lba = .ok deviceLba → parseAsciiChar ch = .ok byte →
      count = .ok n → Sent p blocks B deviceLba (n.toNat * blockSize blocks) →
        InFile blocks deviceLba.toNat (sentBlocks B (n.toNat * blockSize blocks))) :
    (runFill p blocks lba ch count ()).Sat (Answers p B) (Keeps p blocks B) fun _ => True := by
  refine sat_liftThen fun deviceLba hlba => sat_liftThen fun byte hbyte =>
    sat_liftThen fun n hn => ?_
  rw [fill]
  split
  · trivial
  cases hlen : fillBytes blocks n with
  | none => trivial
  | some len =>
    obtain ⟨rfl, -⟩ := fillBytes_eq_some.mp hlen
    refine sat_allocVec (sat_andThen (sat_confinedWrite ?_) fun _ => sat_println)
    -- the length of the payload is the one that was computed
    rw [List.length_replicate]
    exact h deviceLba byte n hlba hbyte hn

/-- So is a write of text. -/
theorem sat_runWrite {lba : Str} {text : List Str}
    (h : ∀ deviceLba len, len = padded (blockSize blocks) (joinSpace text).bytes.length →
      parseU64 lba = .ok deviceLba → Sent p blocks B deviceLba len →
        InFile blocks deviceLba.toNat (sentBlocks B len)) :
    (runWrite p blocks lba text ()).Sat (Answers p B) (Keeps p blocks B) fun _ => True := by
  refine sat_liftThen fun deviceLba hlba => sat_andThen ?_ fun _ => sat_println
  rw [writeBlocks]
  split
  · trivial
  refine sat_liftThen fun len hlen => sat_allocVec ?_
  refine sat_liftThen fun buffer hbuffer => sat_confinedWrite ?_
  exact h deviceLba _ (padded_of_copyInto hlen hbuffer) hlba

/-- **`poke`** writes back what it has read: one block of the namespace, at a block of the
file. -/
theorem sat_runPoke (hB : 0 < B) (hlt : B < U64_SIZE) (lba offset : Str) (text : List Str) :
    (runPoke p blocks lba offset text ()).Sat (Answers p B) (Keeps p blocks B)
      fun _ => True := by
  refine sat_liftThen fun deviceLba _ => sat_liftThen fun offset _ => ?_
  rw [poke]
  split
  · trivial
  split
  · trivial
  refine Method.sat_bind (sat_confinedRead _ _) (fun block _ hblock => ?_)
    (fun _ _ _ => trivial) fun _ _ _ => trivial
  obtain ⟨hcheck, hmul⟩ := hblock block rfl
  -- the one block that `peek_block` returned is the buffer written back, at its length
  have hlen : block.length = B := by
    specialize hmul (by decide)
    rw [Profile.mulUsize, Profile.fit_of_lt (by simpa using hlt)] at hmul
    simpa using (Outcome.ok.inj hmul).symm
  refine sat_liftThen fun buffer hbuffer => sat_andThen (sat_confinedWrite ?_) fun _ => sat_println
  -- so the write sends that block alone, which the check already found in the file
  rw [length_copyInto hbuffer, hlen]
  intro _ k hk
  obtain rfl : k = 0 := by
    rw [sentBlocks, Nat.div_self hB] at hk
    simpa using hk
  exact FileBlocks.contains_of_check hcheck (by decide)

end Commands

/-- **One line.** A line whose payload stays in the file when it is recounted asks the
driver for blocks of the file alone. -/
theorem sat_runReplLine (hB : 0 < B) (hlt : B < U64_SIZE) {line : Str}
    (hline : LineConfined p blocks B line) :
    (runReplLine p blocks line ()).Sat (Answers p B) (Keeps p blocks B) fun _ => True := by
  unfold runReplLine
  cases hdispatch : dispatch p blocks (splitWhitespace line) with
  | none => trivial
  | some command =>
    refine sat_andThen ?_ fun _ => trivial
    -- the arms of the `match`, with the words of the line
    have harm := arm_of_dispatch p blocks hdispatch
    generalize htokens : splitWhitespace line = tokens at harm
    cases harm with
    | help => exact sat_printLines _
    | list => exact sat_printBlocks
    | identify => exact sat_runIdentify
    | read lba count => exact sat_runRead lba count
    -- the payload arms are where the line itself must be confined; the others check the map
    | write lba first rest =>
      refine sat_runWrite fun deviceLba len hlen hlba => ?_
      exact hline deviceLba len (hlen ▸ .write htokens (by simp) hlba)
    | fillOne lba ch =>
      refine sat_runFill fun deviceLba byte n hlba hbyte hn => ?_
      obtain rfl := Outcome.ok.inj hn
      refine hline deviceLba _ ?_
      simpa using Payload.fillOne htokens hlba hbyte
    | fill lba ch count =>
      refine sat_runFill fun deviceLba byte n hlba hbyte hn => ?_
      exact hline deviceLba _ (.fill htokens hlba hbyte hn)
    | peek lba offset len => exact sat_runPeek lba offset len
    | poke lba offset first rest => exact sat_runPoke hB hlt lba offset (first :: rest)
    | unknown => trivial

/-- **The run.** A session whose lines all meet the condition asks for blocks of the file
alone. -/
theorem sat_loop [Unicode] (hB : 0 < B) (hlt : B < U64_SIZE) {lines : List Str}
    (hlines : ∀ line ∈ lines, LineConfined p blocks B (trim line)) :
    (loop p blocks lines ()).Sat (Answers p B) (Keeps p blocks B) fun _ => True := by
  -- by induction on the lines that are left; an error goes on with the next
  induction lines with
  | nil => trivial
  | cons line rest ih =>
    obtain ⟨hline, hrest⟩ := List.forall_mem_cons.mp hlines
    rw [loop]
    split
    · exact ih hrest
    refine sat_andThen (Method.sat_attempt ?_) fun result => ?_
    · refine (sat_runReplLine hB hlt hline).post ?_
      rintro ⟨x, t⟩ -
      cases x <;> trivial
    · match result with
      | .ok true => exact ih hrest
      | .ok false => trivial
      | .error e => exact sat_andThen sat_println fun _ => ih hrest

theorem sat_interact [Unicode] (hB : 0 < B) (hlt : B < U64_SIZE) {lines : List Str}
    (hlines : ∀ line ∈ lines, LineConfined p blocks B (trim line)) :
    (interact p blocks lines ()).Sat (Answers p B) (Keeps p blocks B) fun _ => True :=
  sat_liftThen fun _ _ => sat_andThen sat_println fun _ => sat_loop hB hlt hlines

section Runs

variable {d : NvmeUserspaceDriver} {bdf : Str} {nsid : UInt32} {lines : List Str}
  {offset : Nat} {entry : SubmissionQueueEntry}

/-- The drop of the driver unmaps, and asks nothing of the controller. -/
theorem sat_drop {R : (o : Op) → Res o → Prop} {φ : Op → Prop} (hbar : φ .unmapBar)
    (hdma : φ .unmapDma) : (NvmeUserspaceDriver.drop d).Sat R φ fun _ => True :=
  ⟨hbar, fun _ _ => ⟨hdma, fun _ _ => trivial⟩⟩

/-- **Confinement of the REPL.** In a session on a driver that `open` has returned, where
the payload of every line stays in the file when it is counted in blocks of the namespace,
every command on the I/O queue names blocks of the file alone. -/
theorem confined_of_lineConfined [Unicode]
    (hopen : (openDriver p bdf nsid ()).Returns Prog.Any (.ok d, ()))
    (hB : d.blockSizes nsid = some B)
    (hlines : ∀ line ∈ lines, LineConfined p blocks B (trim line))
    (hemit : (session p blocks lines d).Emits Prog.Any (.writeSqe offset entry))
    (hio : IO_SUBMISSION_QUEUE_OFFSET ≤ offset) :
    InFile blocks entry.slba entry.blockCount := by
  obtain ⟨hnsid, B', hready⟩ := sat_openDriver.returns hopen d rfl
  obtain rfl : B' = B := by
    have hcached := hready.cached
    rw [hnsid, hB] at hcached
    exact (Option.some.inj hcached).symm
  -- dropping the driver submits nothing
  have hdrop (t : NvmeUserspaceDriver) : (NvmeUserspaceDriver.drop t).Sat Prog.Any
      (fun o' => ∃ o, Keeps p blocks B' o ∧ Serves p B' o o') fun _ => True :=
    sat_drop ⟨.println [], keeps_println _, trivial⟩ ⟨.println [], keeps_println _, trivial⟩
  -- the session over the driver issues what the session over its interface asks for
  have hrun := onDriver_issues (R := Prog.Any) hready (sat_interact hready.pos hready.lt hlines)
  have hsession : (session p blocks lines d).Sat Prog.Any
      (fun o' => ∃ o, Keeps p blocks B' o ∧ Serves p B' o o') fun _ => True := by
    refine Method.sat_unwinding ((Method.sat_bind hrun (fun _ t _ => hdrop t)
      (fun _ _ _ => trivial) fun _ _ _ => trivial).post ?_)
    rintro ⟨x, t⟩ -
    cases x with
    | ok _ => trivial
    | err e => exact hdrop t
    | panic why => exact hdrop t
  obtain ⟨o, hkeeps, hserves⟩ := hsession.emits hemit
  exact hkeeps entry (hserves hio)

/-! ### The condition is needed -/

/-- The REPL asks the driver for no `write` outside `Q`, unless the driver refuses it. -/
def Writes (p : Profile) (B : Nat) (Q : UInt64 → Nat → Prop) : ReplOp → Prop
  | .write deviceLba data =>
    Accepts B data → ¬ CutsToZero p B data.length → Q deviceLba data.length
  | _ => True

variable {Q : UInt64 → Nat → Prop}

/-- Conversely, a payload that is sent has passed the check, so what holds of every write holds of
it. -/
theorem of_confinedWrite {deviceLba : UInt64} {data : List UInt8}
    (hsize : blockSize blocks ∣ data.length) (hsent : Sent p blocks B deviceLba data.length)
    (h : (confinedWrite p blocks deviceLba data ()).Sat (Completes p B) (Writes p B Q)
      fun _ => True) : Q deviceLba data.length := by
  have hne : data ≠ [] := List.length_pos_iff.mp hsent.pos
  have hblock : blockSize blocks ≠ 0 := by
    intro hzero
    rw [hzero, Nat.zero_dvd] at hsize
    exact hsent.pos.ne' hsize
  -- a payload that is sent is not refused, so that the write takes place
  have hrefused : payloadRefused blocks data = .ok false := by
    simp [payloadRefused, remUsize, hne, hblock, Outcome.bind,
      Nat.mod_eq_zero_of_dvd hsize]
  simp only [confinedWrite, hrefused, divUsize, if_neg hblock, hsent.accepted,
    Method.lift_ok_bind, Bool.false_eq_true, if_false, Method.call_bind, Prog.sat_op] at h
  exact h.1 ⟨hne, hsent.whole, hsent.within⟩ hsent.counted

/-- A text that pads to a payload within the limit reaches `confined_write` so padded. -/
theorem of_runWrite {lba : Str} {text : List Str} {deviceLba : UInt64} {len : Nat}
    (hlen : len = padded (blockSize blocks) (joinSpace text).bytes.length)
    (hlba : parseU64 lba = .ok deviceLba) (hsent : Sent p blocks B deviceLba len)
    (h : (runWrite p blocks lba text ()).Sat (Completes p B) (Writes p B Q) fun _ => True) :
    Q deviceLba len := by
  -- a payload that is sent is not empty, so neither are the text and a block
  have hsize : 0 < blockSize blocks := by
    rw [Nat.pos_iff_ne_zero]
    intro hzero
    simpa [hlen, padded, hzero] using hsent.pos
  have hne : (joinSpace text).bytes ≠ [] := by
    intro hnil
    rw [hnil, padded, List.length_nil, Nat.zero_add,
      Nat.div_eq_of_lt (Nat.sub_lt hsize Nat.one_pos), Nat.zero_mul] at hlen
    exact hsent.pos.ne' hlen
  have hlength : paddedLength p blocks (joinSpace text).bytes = .ok len := by
    have hlt : padded (blockSize blocks) (joinSpace text).bytes.length < U64_SIZE :=
      hlen ▸ Nat.lt_of_le_of_lt hsent.within (by decide)
    simp only [paddedLength, divCeil, if_neg hsize.ne']
    rw [hlen]
    exact Profile.fit_of_lt hlt
  have hcopy : (joinSpace text).bytes.length ≤ len := hlen ▸ le_padded _ hsize
  -- so the padding has a result, and the copy fits in it
  obtain ⟨buffer, hbuffer⟩ :
      ∃ buffer, copyInto (List.replicate len 0) 0 (joinSpace text).bytes = .ok buffer :=
    ⟨_, if_pos (by simpa using hcopy)⟩
  have hbufferLen : buffer.length = len := by
    rw [length_copyInto hbuffer, List.length_replicate]
  have halloc : len < 2 ^ 63 := Nat.lt_of_le_of_lt hsent.within (by decide)
  rw [runWrite, hlba, Method.lift_ok_bind] at h
  replace h := Method.sat_of_bind h
  simp only [writeBlocks, List.isEmpty_iff, hne, if_false, hlength, Method.lift_ok_bind, allocVec,
    if_pos halloc, Method.call_bind, Prog.sat_op, hbuffer] at h
  rw [← hbufferLen] at hsent ⊢
  exact of_confinedWrite (by rw [hbufferLen, hlen]; exact dvd_padded _ _) hsent (h.2 () trivial)

/-- Likewise for `fill`. -/
theorem of_runFill {lba ch : Str} {n : Outcome IoError UInt64} {deviceLba count : UInt64}
    {byte : UInt8} (hlba : parseU64 lba = .ok deviceLba) (hch : parseAsciiChar ch = .ok byte)
    (hn : n = .ok count) (hsent : Sent p blocks B deviceLba (count.toNat * blockSize blocks))
    (h : (runFill p blocks lba ch n ()).Sat (Completes p B) (Writes p B Q) fun _ => True) :
    Q deviceLba (count.toNat * blockSize blocks) := by
  have hcount : count ≠ 0 := by
    rintro rfl
    simpa using hsent.pos
  have halloc : count.toNat * blockSize blocks < 2 ^ 63 :=
    Nat.lt_of_le_of_lt hsent.within (by decide)
  have hfill : fillBytes blocks count = some (count.toNat * blockSize blocks) :=
    fillBytes_eq_some.mpr ⟨rfl, hsent.within⟩
  -- nothing stands between the arguments and the payload
  simp only [runFill, hlba, hch, hn, Method.lift_ok_bind, fill, if_neg hcount, hfill, allocVec,
    if_pos halloc, Method.call_bind, Prog.sat_op] at h
  have hlen : (List.replicate (count.toNat * blockSize blocks) byte).length =
      count.toNat * blockSize blocks := List.length_replicate
  rw [← hlen] at hsent ⊢
  exact of_confinedWrite (by rw [hlen]; exact Nat.dvd_mul_left _ _) hsent
    (Method.sat_of_bind (h.2 () trivial))

/-- A payload that is sent is asked of the driver. -/
theorem of_payload {line : Str} {deviceLba : UInt64} {len : Nat}
    (hpayload : Payload blocks line deviceLba len) (hsent : Sent p blocks B deviceLba len)
    (h : (runReplLine p blocks line ()).Sat (Completes p B) (Writes p B Q) fun _ => True) :
    Q deviceLba len := by
  -- the line is dispatched to one command
  have hcommand {command : Command Unit}
      (hdispatch : dispatch p blocks (splitWhitespace line) = some command) :
      (command ()).Sat (Completes p B) (Writes p B Q) fun _ => True := by
    rw [runReplLine, hdispatch] at h
    exact Method.sat_of_bind h
  cases hpayload with
  | @write lba text _ htokens htext hlba =>
    obtain ⟨first, rest, rfl⟩ := List.exists_cons_of_ne_nil htext
    exact of_runWrite rfl hlba hsent
      (hcommand (by rw [htokens]; exact dispatch_write p blocks lba first rest))
  | @fillOne lba ch _ _ htokens hlba hch =>
    have hone : (1 : UInt64).toNat * blockSize blocks = blockSize blocks := by simp
    have hq := of_runFill hlba hch rfl (hone.symm ▸ hsent)
      (hcommand (by rw [htokens]; exact dispatch_fillOne p blocks lba ch))
    rwa [hone] at hq
  | @fill lba ch n _ _ _ htokens hlba hch hn =>
    exact of_runFill hlba hch hn hsent
      (hcommand (by rw [htokens]; exact dispatch_fill p blocks lba ch n))

/-- The line of a session of one line is run after the banner. -/
theorem sat_line_of_interact [Unicode] {R : (o : ReplOp) → ReplRes o → Prop} {φ : ReplOp → Prop}
    {line : Str} {total : UInt64} (hR : ∀ text, R (.println text) ())
    (htotal : blocks.totalLbas p = .ok total) (hline : trim line ≠ [])
    (h : (interact p blocks [line] ()).Sat R φ fun _ => True) :
    (runReplLine p blocks (trim line) ()).Sat R φ fun _ => True := by
  rw [interact, htotal, Method.lift_ok_bind] at h
  have hloop := h.2 () (hR _)
  simp only [loop, List.isEmpty_iff, hline, if_false] at hloop
  have hattempt := Method.sat_of_bind hloop
  rw [Method.attempt, Prog.sat_bind] at hattempt
  exact hattempt.post fun _ _ => trivial

/-- **What is sent goes out.** In a session of one line, on whose I/O commands `P` holds
whatever the controller does, the command of the payload has `P`. -/
theorem of_session [Unicode] {P : SubmissionQueueEntry → Prop} {line : Str}
    {total deviceLba : UInt64} {len : Nat} (hd : d.Ready B) (hm : d.DoorbellsMapped)
    (htotal : blocks.totalLbas p = .ok total) (hline : trim line ≠ [])
    (hpayload : Payload blocks (trim line) deviceLba len) (hsent : Sent p blocks B deviceLba len)
    (h : ∀ offset entry, (session p blocks [line] d).Emits Prog.Any (.writeSqe offset entry) →
      IO_SUBMISSION_QUEUE_OFFSET ≤ offset → P entry) :
    ∃ entry, entry.slba = deviceLba.toNat ∧ entry.blockCount = sentBlocks B len ∧ P entry := by
  -- what holds of every command that is submitted, as a condition on the program
  have hsat : (onDriver p (interact p blocks [line]) d).Sat Prog.Any
      (fun o => ∀ offset entry, o = .writeSqe offset entry →
        IO_SUBMISSION_QUEUE_OFFSET ≤ offset → P entry) fun _ => True := by
    refine Prog.sat_iff.mpr ⟨fun o ho offset entry he hio => ?_, fun _ _ => trivial⟩
    refine h offset entry (Prog.emits_bind.mpr (.inl ?_)) hio
    exact Method.emits_bind.mpr (.inl (he ▸ ho))
  -- hence on the commands of the REPL, for every write that is accepted
  have hinteract : (interact p blocks [line] ()).Sat (Completes p B)
      (Writes p B fun deviceLba len => ∃ entry, entry.slba = deviceLba.toNat ∧
        entry.blockCount = sentBlocks B len ∧ P entry) fun _ => True := by
    refine (sat_of_onDriver hd hm hsat).mono ?_ fun _ _ => trivial
    rintro o ⟨t, hk, ht⟩
    cases o with
    | write deviceLba data =>
      intro hacc hcut
      obtain ⟨offset, entry, hemits, hio, hslba, hcount⟩ :=
        write_emits deviceLba (hk.ready hd) hacc hcut
      exact ⟨entry, hslba, hcount,
        ht.emits (Method.emits_attempt.mpr hemits) offset entry rfl hio⟩
    | _ => trivial
  exact of_payload hpayload hsent (sat_line_of_interact (fun _ => trivial) htotal hline hinteract)

/-- **The condition is exact.** A line that puts no command outside the file on the I/O
queue, whatever the controller does, meets it. -/
theorem lineConfined_of_confined [Unicode] {line : Str} {total : UInt64} (hd : d.Ready B)
    (hm : d.DoorbellsMapped) (htotal : blocks.totalLbas p = .ok total) (hline : trim line ≠ [])
    (h : ∀ offset entry, (session p blocks [line] d).Emits Prog.Any (.writeSqe offset entry) →
      IO_SUBMISSION_QUEUE_OFFSET ≤ offset → InFile blocks entry.slba entry.blockCount) :
    LineConfined p blocks B (trim line) := by
  intro deviceLba len hpayload hsent
  obtain ⟨entry, hslba, hcount, hin⟩ := of_session hd hm htotal hline hpayload hsent h
  rwa [hslba, hcount] at hin

end Runs

/-! ### The sizes agree, and they do not -/

/-- Payloads are whole blocks of the map. -/
theorem Payload.dvd {line : Str} {deviceLba : UInt64} {len : Nat}
    (h : Payload blocks line deviceLba len) : blockSize blocks ∣ len := by
  cases h with
  | write => exact dvd_padded _ _
  | fillOne => exact Nat.dvd_refl _
  | fill => exact Nat.dvd_mul_left _ _

/-- A namespace block that is no smaller than the map's: the recounted range is no longer
than the checked one. -/
theorem LineConfined.of_le {line : Str} (hle : blockSize blocks ≤ B) :
    LineConfined p blocks B line := by
  intro deviceLba len hpayload hsent k hk
  have hsize : 0 < blockSize blocks := Nat.pos_of_dvd_of_pos hpayload.dvd hsent.pos
  have hcount : len / B ≤ len / blockSize blocks := Nat.div_le_div_left hle hsize
  have hblocks : 0 < len / B :=
    Nat.div_pos (Nat.le_of_dvd hsent.pos hsent.whole) (Nat.lt_of_lt_of_le hsize hle)
  -- no more blocks are sent than the payload has, also where the count is cut
  have hcut : sentBlocks B len ≤ len / B := by
    have hmod := Nat.mod_le (len / B - 1) (2 ^ 16)
    rw [sentBlocks]
    omega
  have hfits : len / blockSize blocks < 2 ^ 64 :=
    Nat.lt_of_le_of_lt ((Nat.div_le_self _ _).trans hsent.within) (by decide)
  refine FileBlocks.contains_of_check hsent.accepted ?_
  rw [UInt64.toNat_ofNat_of_lt' hfits]
  omega

/-- One block of 1024 bytes, at block 100. -/
def coarseMap : FileBlocks := ⟨1024, [⟨100, 1, false⟩]⟩

theorem payload_coarseMap : Payload coarseMap (trim "write 100 a".toList) 100 1024 :=
  .write (show _ = "write".toList :: "100".toList :: ["a".toList] by decide) (by simp) (by decide)

theorem sent_coarseMap {B : Nat} (hdvd : B ∣ 1024) : Sent .release coarseMap B 100 1024 where
  accepted := by
    rw [FileBlocks.check, if_neg (by decide), if_pos (by decide), FileBlocks.walk_of_lt (by decide)]
    exact FileBlocks.walk_of_ge (by decide)
  pos := by decide
  whole := hdvd
  within := by decide
  counted := by simp [CutsToZero]

section Escape

attribute [local instance] Unicode.plain

/-- **A write that escapes.** On a namespace of 512-byte blocks, one block of a map of
1024-byte blocks is two, and the second is not of the file. -/
theorem write_escapes : ∃ blocks d offset entry,
    FileBlocks.parse (Str.bytes "device_lba_size 1024\n100 1 0\n".toList) = .ok blocks ∧
    (openDriver .release "0000:01:00.0".toList 1 ()).Returns Prog.Any (.ok d, ()) ∧
    d.blockSizes 1 = some 512 ∧
    (session .release blocks ["write 100 a".toList] d).Emits Prog.Any (.writeSqe offset entry) ∧
    IO_SUBMISSION_QUEUE_OFFSET ≤ offset ∧ ¬ InFile blocks entry.slba entry.blockCount := by
  obtain ⟨d, hopen, hnsid, hready, hm⟩ :=
    opens () .release "0000:01:00.0".toList 1 (show 9 < 64 by decide)
  -- the map has one block of 1024 bytes
  have hparse : FileBlocks.parse (Str.bytes "device_lba_size 1024\n100 1 0\n".toList) =
      .ok coarseMap := by decide
  have hcached := hready.cached
  rw [hnsid] at hcached
  by_contra hall
  push Not at hall
  have hconfined := lineConfined_of_confined hready hm (show coarseMap.totalLbas .release = .ok 1 by
    decide) (by decide) (fun offset entry => hall coarseMap d offset entry hparse hopen hcached)
  -- the second of the two blocks that are sent is not in the file
  have hin := hconfined 100 1024 payload_coarseMap (sent_coarseMap (by decide)) 1 (by decide)
  exact absurd hin (by decide)

/-- The same session on a namespace of 1024-byte blocks. -/
theorem confined_of_lineConfined_write : ∃ d offset entry,
    d.blockSizes 1 = some 1024 ∧
    (session .release coarseMap ["write 100 a".toList] d).Emits Prog.Any
      (.writeSqe offset entry) ∧ InFile coarseMap entry.slba entry.blockCount := by
  obtain ⟨d, hopen, hnsid, hready, hm⟩ :=
    opens () .release "0000:01:00.0".toList 1 (show 10 < 64 by decide)
  have hcached := hready.cached
  rw [hnsid] at hcached
  -- if every write of the line stayed outside the file, there would be none
  by_contra hall
  push Not at hall
  obtain ⟨_, _, _, hfalse⟩ := of_session (P := fun _ => False) hready hm
    (show coarseMap.totalLbas .release = .ok 1 by decide) (by decide) payload_coarseMap
    (sent_coarseMap (by decide)) fun offset entry hemits hio =>
      hall d offset entry hcached hemits (confined_of_lineConfined hopen hcached
        (fun line _ => LineConfined.of_le (by decide)) hemits hio)
  exact hfalse

end Escape

end Repl

end Nvmetoy
