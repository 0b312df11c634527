import Nvmetoy.Framework.Ghost
import Nvmetoy.Repl.Sectors

/-!
# The marks around the calls

The calls of the REPL are marked for the proofs (`recorded`), so that an invariant can tell which
call the disk is in. The process has no such marks. They are taken out again here:

* `marks`, `erase_main` — without the marks, the marked process is the process.
* `act_recount`, `env_recount` — the driver and the controller go on in the same way in two worlds
  that differ in the history of the calls alone (`recount`).
* `main_unmarked` — a run of the marked process is a run of the process, and the disk is the same.

With that, a run to the end can be built call by call: `main_writes` is the process on a file of one
block, which is overwritten with what is typed.
-/

namespace Nvmetoy

open Framework Machine NvmeUserspaceDriver

namespace Repl

/-! ### The marks are taken out -/

/-- The marks around a call. -/
def marks : (o : Op) → Option (Res o)
  | .mark (.beginCall _) => some ()
  | .mark (.endCall _) => some ()
  | _ => none

theorem Silent.marks {o : Op} (h : Silent o) : marks o = none := by
  cases o <;> first | rfl | exact h.elim

section Erasing

variable {p : Profile} {e : Process}

/-- A method that marks nothing is its own erasure. -/
theorem erase_silent {σ α : Type} {m : Method Op Res σ IoError α} (h : Method.Only Silent m) :
    m.erase marks = m :=
  Method.erase_of_sat fun s => (h s trivial).mono (fun _ => Silent.marks) fun _ => id

/-- Without its marks, a recorded call is the call. -/
theorem erase_recorded (k : Call) : (recorded p k).erase marks = (perform p k).attempt := by
  have hcall : Method.erase marks (perform p k).attempt = (perform p k).attempt :=
    erase_silent (silent_perform k).attempt
  -- without its marks the call is all that is left
  have hrest (result : Except IoError (List UInt8)) :
      Method.erase marks (do
        Method.call (Op.mark (.endCall result))
        pure result : DriverMethod _) = pure result :=
    Method.erase_call_ghost rfl _
  calc (recorded p k).erase marks
      = Method.erase marks ((perform p k).attempt >>= fun result => do
          Method.call (Op.mark (.endCall result))
          pure result) := Method.erase_call_ghost rfl _
    _ = (perform p k).attempt >>= pure := by
      rw [Method.erase_bind, hcall]
      exact congrArg (Bind.bind _) (funext hrest)
    _ = (perform p k).attempt := Method.bind_pure _

/-- The result of a write is that it is done. -/
theorem attempt_perform_write (slba : UInt64) (data : List UInt8) :
    ((perform p (.write slba data)).attempt >>= fun result => pure (result.map fun _ => ())) =
      (NvmeUserspaceDriver.write p slba data).attempt := by
  funext s
  show ((((NvmeUserspaceDriver.write p slba data s).bind _).bind _).bind _) = _
  rw [Prog.bind_assoc, Prog.bind_assoc]
  refine congrArg (Prog.bind _) (funext ?_)
  rintro ⟨x, t⟩
  cases x <;> rfl

/-- Without its marks, the recorded service is the service. -/
theorem erase_serveRecorded (o : ReplOp) : (serveRecorded p o).erase marks = serve p o := by
  cases o with
  | read slba blockCount => exact erase_recorded _
  | identifyController => exact erase_recorded _
  | write slba data =>
    -- a write gives no bytes, which is said behind the call
    calc (serveRecorded p (.write slba data)).erase marks
        = (perform p (.write slba data)).attempt >>= fun result =>
            pure (result.map fun _ => ()) := by
          rw [serveRecorded, Method.erase_bind, erase_recorded]
          rfl
      _ = serve p (.write slba data) := attempt_perform_write slba data
  | alloc bytes => rfl
  | println line => rfl

/-- **Without the marks**, the process is the process. -/
theorem erase_main [Unicode] : (mainWith p e (onRecorded p)).erase marks = main p e := by
  -- from the commands outwards: the marks are in the calls of the driver alone
  have hcommand (command : Command Unit) :
      (onRecorded p command).erase marks = onDriver p command := by
    rw [onRecorded, Method.erase_bind]
    exact congrArg (· >>= fun x => Method.lift x.1)
      (Prog.erase_interp erase_serveRecorded (command ()))
  have hdrop : Method.erase marks (drop : Method Op Res Unit IoError Unit) = drop :=
    erase_silent silent_drop
  have hdriver (blocks : FileBlocks) (d : NvmeUserspaceDriver) :
      (withDriver p e (onRecorded p) blocks d : Method Op Res Unit IoError Unit).erase marks =
        withDriver p e (onDriver p) blocks d := by
    rw [withDriver, Method.erase_bind, Method.erase_unwinding, Method.erase_owning, hcommand,
      hdrop]
    rfl
  have hopen (s : Settings) :
      Method.erase marks (openController p s.bdf s.nsid : Method Op Res Unit IoError _) =
        openController p s.bdf s.nsid :=
    erase_silent (silent_openDriver s.bdf s.nsid).mapErr
  have hrun : (runWith p e (onRecorded p)).erase marks = run p e := by
    rw [runWith, Method.erase_bind]
    refine congrArg (Bind.bind _) (funext fun s => ?_)
    rw [Method.erase_bind, hopen]
    exact congrArg (Bind.bind _) (funext fun d => hdriver s.blocks d)
  rw [mainWith, Method.erase_bind, Method.erase_attempt, hrun]
  refine congrArg (Bind.bind _) (funext fun result => ?_)
  cases result <;> rfl

end Erasing

/-! ### The controller does not see the marks -/

section Recount

variable {P : Platform} {N : Namespace} {w w' : World}

/-- The world with another history of the calls. -/
def recount (w : World) (current : Option Call) (calls : List CallRecord)
    (issuedBy : Nat → Option Call) : World :=
  { w with current := current, calls := calls, issuedBy := issuedBy }

variable (current : Option Call) (calls : List CallRecord) (issuedBy : Nat → Option Call)

/-- The registers do not look at the record. -/
theorem writeRegister_recount (offset : Nat) (value : UInt32) :
    (recount w current calls issuedBy).writeRegister P offset value =
      recount (w.writeRegister P offset value) current calls issuedBy := by
  unfold World.writeRegister World.writeConfiguration
  split_ifs <;> rfl

/-- The counts of the marks are unchanged by every other operation. -/
theorem act_recount {o : Op} {r : Res o} (ho : marks o = none) (h : act P o w r w') :
    ∃ issued, act P o (recount w current calls issuedBy) r (recount w' current calls issued) := by
  cases o with
  | writeSqe offset entry =>
    obtain rfl := h
    exact ⟨_, rfl⟩
  | write32 offset value =>
    obtain rfl := h
    exact ⟨issuedBy, (writeRegister_recount current calls issuedBy offset value).symm⟩
  -- what is read, and what the platform answers, does not depend on the record
  | readSqe => obtain ⟨hr, rfl⟩ := h; exact ⟨issuedBy, hr, rfl⟩
  | readCqe => obtain ⟨hr, rfl⟩ := h; exact ⟨issuedBy, hr, rfl⟩
  | readBytes => obtain ⟨hr, rfl⟩ := h; exact ⟨issuedBy, hr, rfl⟩
  | read64 => obtain ⟨hr, rfl⟩ := h; exact ⟨issuedBy, hr, rfl⟩
  | mapBar => obtain ⟨hr, rfl⟩ := h; exact ⟨issuedBy, hr, rfl⟩
  | allocHuge =>
    cases r with
    | ok a => obtain ⟨hr, rfl⟩ := h; exact ⟨issuedBy, hr, rfl⟩
    | error e => obtain rfl := h; exact ⟨issuedBy, rfl⟩
  | mark m =>
    cases m with
    | beginSubmit i => obtain rfl := h; exact ⟨issuedBy, rfl⟩
    | endSubmit i result => obtain rfl := h; exact ⟨issuedBy, rfl⟩
    -- the marks of a call are the ones that are erased
    | beginCall => cases ho
    | endCall => cases ho
  | _ => obtain rfl := h; exact ⟨issuedBy, rfl⟩

theorem env_recount (h : EnvStep P (servingController N) w w') :
    EnvStep P (servingController N) (recount w current calls issuedBy)
      (recount w' current calls issuedBy) := by
  cases h with
  | fetch i hpending henabled =>
    exact .fetch (w := recount w current calls issuedBy) i hpending henabled
  | post i hroom hphase hmay henabled =>
    exact .post (w := recount w current calls issuedBy) i hroom hphase hmay henabled
  | transfer h henabled =>
    refine .transfer ?_ henabled
    obtain ⟨i, before, command, after, hlive, hstatus, hexecutes⟩ := h
    refine ⟨i, before, command, after, hlive, hstatus, ?_⟩
    -- a transfer looks at the rings, the memory and the disk
    cases hexecutes with
    | give fuel n pages hdir hwalk =>
      exact .give (w := recount w current calls issuedBy) fuel n pages hdir hwalk
    | take fuel n pages hdir hwalk hn =>
      exact .take (w := recount w current calls issuedBy) fuel n pages hdir hwalk hn
    | finish status hdone hrejected =>
      exact .finish (w := recount w current calls issuedBy) status hdone hrejected

/-- The worlds differ in the history of the calls. -/
def Recounted (w u : World) : Prop := ∃ current calls issuedBy, u = recount w current calls issuedBy

/-- The marks change the history alone. -/
theorem Recounted.mark {o : Op} {r₀ r : Res o} {u : World} (h : Recounted w u)
    (ho : marks o = some r₀) (hact : act P o w r w') : r = r₀ ∧ Recounted w' u := by
  obtain ⟨current, calls, issuedBy, rfl⟩ := h
  -- only the marks of a call are such operations
  cases o with
  | mark m =>
    cases m with
    | beginSubmit => cases ho
    | endSubmit => cases ho
    | beginCall k =>
      obtain rfl := hact
      exact ⟨rfl, current, calls, issuedBy, rfl⟩
    | endCall result =>
      obtain rfl := hact
      refine ⟨rfl, current, calls, issuedBy, ?_⟩
      rw [World.mark]
      cases w.current <;> rfl
  | _ => cases ho

end Recount

section Unmarked

variable [Unicode] {P : Platform} {N : Namespace} {p : Profile} {e : Process} {w w' : World}
  {x : Outcome IoError Nat × Unit}

/-- **A run with the marks** is a run without them, to a world that differs in the history alone. -/
theorem main_unmarked (h : (machine P (servingController N) Always).Reaches
      (mainWith p e (onRecorded p) (), w) (.pure x, w')) :
    ∃ u, (machine P (servingController N) Always).Reaches (main p e (), w) (.pure x, u) ∧
      Recounted w' u := by
  have hsame : Recounted w w := ⟨w.current, w.calls, w.issuedBy, rfl⟩
  -- the record may be anything, and no other operation tells the difference
  have hact (o : Op) (w u : World) (r : Res o) (w' : World) (hR : Recounted w u)
      (ho : marks o = none) (h : (machine P (servingController N) Always).act o w r w') :
      ∃ u', (machine P (servingController N) Always).act o u r u' ∧ Recounted w' u' := by
    obtain ⟨current, calls, issuedBy, rfl⟩ := hR
    obtain ⟨issued, hact'⟩ := act_recount current calls issuedBy ho h.1
    exact ⟨_, ⟨hact', trivial⟩, _, _, _, rfl⟩
  have henv (w u w' : World) (hR : Recounted w u)
      (h : (machine P (servingController N) Always).env w w') :
      ∃ u', (machine P (servingController N) Always).env u u' ∧ Recounted w' u' := by
    obtain ⟨current, calls, issuedBy, rfl⟩ := hR
    exact ⟨_, env_recount current calls issuedBy h, _, _, _, rfl⟩
  obtain ⟨u, hreach, hu⟩ := Reaches.erase hact (fun _ _ _ _ _ _ hR ho h => hR.mark ho h.1) henv
    hsame h
  have herased : (mainWith p e (onRecorded p) ()).erase marks = main p e () :=
    congrFun erase_main ()
  rw [herased] at hreach
  exact ⟨u, hreach, hu⟩

end Unmarked

/-! ### A run to the end -/

/-- The map of a file of one block of 512 bytes. -/
def oneSector : FileBlocks := ⟨512, [⟨100, 1, false⟩]⟩

/-- The file is written. -/
def oneBlockBlob : Process where
  arguments := ["nvmetoy_repl".toList, [], "map".toList]
  file := fun _ => .ok (Str.bytes "device_lba_size 512\n100 1 0\n".toList)
  editor := .ok ()
  events := [.line "write 100 a".toList]

/-- The map of the witnesses is read as it stands. -/
theorem settings_oneBlock : settings oneBlockBlob = .ok ⟨[], oneSector, 1⟩ := by
  have hparse : FileBlocks.parse (Str.bytes "device_lba_size 512\n100 1 0\n".toList) =
      .ok oneSector := by decide
  have hsettings : settings oneBlockBlob = (FileBlocks.parse
      (Str.bytes "device_lba_size 512\n100 1 0\n".toList)).bind fun blocks =>
      .ok ⟨[], blocks, 1⟩ := rfl
  rw [hsettings, hparse]
  rfl

/-- What is written: the letter, and zeros to the end of the block. -/
def letterBlock : List UInt8 := Str.bytes "a".toList ++ List.replicate 511 0

theorem length_letterBlock : letterBlock.length = 512 := by
  rw [letterBlock, List.length_append, List.length_replicate]
  rfl

/-- What is printed then. -/
def letterLine : Str := "wrote 1 bytes into 1 block at device-lba 100 (block tail zeroed)".toList

/-- The line, as the calls that it makes. -/
theorem line_writes : runReplLine .release oneSector "write 100 a".toList = (do
    Method.call (ReplOp.alloc 512)
    let answer ← Method.call (ReplOp.write 100 letterBlock)
    question answer
    println letterLine
    pure true) := by
  -- the line, word by word
  have hwords : splitWhitespace "write 100 a".toList =
      ["write".toList, "100".toList, "a".toList] := by decide
  have hlba : parseU64 "100".toList = .ok 100 := by decide
  have hpadded : paddedLength .release oneSector (joinSpace ["a".toList]).bytes = .ok 512 := by
    decide
  have hbuffer : copyInto (List.replicate 512 0) 0 (joinSpace ["a".toList]).bytes =
      .ok letterBlock := copyInto_of_le (by decide)
  have hempty : ¬ letterBlock.isEmpty = true := Bool.false_ne_true
  have hrefused : payloadRefused oneSector letterBlock = .ok false := by
    rw [payloadRefused, length_letterBlock, if_neg hempty]
    rfl
  have hcount : (divUsize letterBlock.length (blockSize oneSector) : Outcome IoError Nat) =
      .ok 1 := by
    rw [length_letterBlock]
    rfl
  have hcheck : FileBlocks.check .release oneSector 100 (UInt64.ofNat 1) = .ok () := by
    rw [FileBlocks.check, if_neg (by decide), if_pos (by decide), FileBlocks.walk_of_lt (by decide)]
    exact FileBlocks.walk_of_ge (by decide)
  -- the buffer is allocated, filled, checked and written
  have hwrite : writeBlocks .release oneSector 100 (joinSpace ["a".toList]).bytes = (do
      Method.call (ReplOp.alloc 512)
      let answer ← Method.call (ReplOp.write 100 letterBlock)
      question answer
      pure 1) := by
    rw [writeBlocks, if_neg (by decide), hpadded, Method.lift_ok_bind, allocVec, if_pos (by decide),
      hbuffer, Method.lift_ok_bind, confinedWrite, hrefused, Method.lift_ok_bind,
      if_neg Bool.false_ne_true, hcount, Method.lift_ok_bind, hcheck, Method.lift_ok_bind]
    rfl
  have hline : "wrote ".toList ++ showNat (joinSpace ["a".toList]).bytes.length ++
      " bytes into ".toList ++ showNat (1 : UInt64).toNat ++ " ".toList ++ plural 1 ++
      " at device-lba ".toList ++ showNat (100 : UInt64).toNat ++ " (block tail zeroed)".toList =
      letterLine := by decide
  rw [runReplLine, hwords, dispatch_write]
  show (runWrite .release oneSector "100".toList ["a".toList] >>= fun _ => pure true) = _
  rw [runWrite, hlba, Method.lift_ok_bind]
  dsimp only
  rw [hwrite]
  simp only [Method.bind_assoc, Method.pure_bind, hline]

section Process

variable [Unicode] {b₀ v : Mem} {d : NvmeUserspaceDriver} {w : World} {data : List UInt8}
  {e : Process}

/-- The terminal, where that is all that is typed. -/
theorem terminal_writes (heditor : e.editor = .ok ())
    (hevents : e.events = [.line "write 100 a".toList]) :
    terminal .release oneSector e () =
      .op (ReplOp.println (bannerLine oneSector 1)) fun _ => .op (ReplOp.alloc 512) fun _ =>
      .op (ReplOp.write 100 letterBlock) fun answer => .op (ReplOp.println (match answer with
        | .ok _ => letterLine
        | .error error => "error: ".toList ++ error.message.toList)) fun _ =>
      .pure (.ok (), ()) := by
  have htotal : FileBlocks.totalLbas .release oneSector = .ok 1 := by decide
  have htrim : trim "write 100 a".toList = "write 100 a".toList := by decide
  have hblank : ¬ ("write 100 a".toList : Str).isEmpty = true := by decide
  rw [terminal, htotal, Method.lift_ok_bind, heditor, hevents, readLoop, htrim, if_neg hblank,
    line_writes]
  -- the four operations in front of the end of the loop
  refine congrArg (Prog.op _) (funext fun _ => congrArg (Prog.op _) (funext fun _ =>
    congrArg (Prog.op _) (funext fun answer => ?_)))
  cases answer with
  | ok _ => rfl
  | error error => rfl

/-- The device is opened, and its disk is as it was. -/
theorem openController_opens : ∃ d w,
    (machine .twoPages (servingController .ofSectors) Always).Reaches
      ((openController .release [] 1 : Method Op Res Unit IoError _) (), World.zeroed)
      (.pure (.ok d, ()), w) ∧ Answering w ∧ ReadyFor .twoPages .ofSectors d ∧
      BetweenCalls .twoPages .ofSectors World.zeroed.disk World.zeroed.disk d w := by
  obtain ⟨d, w, hopen, hanswering, hd, hknown, hbefore⟩ := opens_512 (p := .release)
    allowsDrained_always 512 (length_namespaceData 9) ofSectors_size
  have hready : ∃ B, d.Ready B :=
    ((hopen.sat (R := Prog.Any) (fun _ _ _ _ _ => trivial) sat_openDriver) d rfl).2
  obtain ⟨B, hB⟩ := hready
  obtain rfl : B = 512 := Option.some.inj (hB.cached.symm.trans hknown)
  refine ⟨d, w, Reaches.bind hopen, hanswering, ⟨hd, hB⟩, hbefore, ?_⟩
  have hsilent : (machine .twoPages (servingController .ofSectors) Always).Triple
      (fun w => w.calls = [] ∧ w.current = none) (fun w => w.calls = [] ∧ w.current = none)
      ((openDriver .release [] 1 : Method Op Res Unit IoError _) ()) _ :=
    silent_triple (silent_openDriver [] 1 () trivial)
  -- no call has been made, so the run of the blocks is the empty one
  obtain ⟨hcalls, -⟩ := (hsilent World.zeroed ⟨rfl, rfl⟩ _ hopen).1
  have hrun := (hbefore.blocks trivial).2
  rw [hcalls] at hrun
  exact hrun.unique .nil

omit [Unicode] in
/-- **A marked write of one block**, as far as its end. -/
theorem recorded_writes (hd : ReadyFor .twoPages .ofSectors d)
    (hw : BetweenCalls .twoPages .ofSectors b₀ v d w) (hanswering : Answering w) (slba : UInt64)
    (hlen : data.length = 512) : ∃ t w',
    (machine .twoPages (servingController .ofSectors) Always).Reaches
      (recorded .release (.write slba data) d, w) (.pure (.ok (.ok []), t), w') ∧ Answering w' ∧
      BetweenCalls .twoPages .ofSectors b₀ (v.write (slba.toNat * 512) data) t w' := by
  obtain ⟨t, w', hwrite, hanswering'⟩ := write_answers twoPages_aligned Platform.twoPages_covers
    hd.1 hd.2.cached rfl hlen (hw.beforeCommand.beginCall (.write slba data))
    ⟨hanswering.enabled, hanswering.inTime⟩
  have hperform : (machine .twoPages (servingController .ofSectors) Always).Reaches
      (perform .release (.write slba data) d, w.mark (.beginCall (.write slba data)))
      (.pure (.ofExcept (.ok []), t), w') := Reaches.bind_ok hwrite .refl
  -- the call between its two marks
  have hrun : (machine .twoPages (servingController .ofSectors) Always).Reaches
      (recorded .release (.write slba data) d, w)
      (.pure (.ok (.ok []), t), w'.mark (.endCall (.ok []))) :=
    Reaches.call_bind () ⟨rfl, trivial⟩ (Reaches.bind_ok (Reaches.attempt hperform)
      (Reaches.act (r := ()) ⟨rfl, trivial⟩ .refl))
  have hring (i : QueueId) : (w'.mark (.endCall (.ok []))).ring i = w'.ring i := by
    rw [World.mark]
    cases w'.current <;> rfl
  have hfinal : Answering (w'.mark (.endCall (.ok []))) := by
    refine ⟨?_, fun i => by rw [hring i]; exact hanswering'.inTime i⟩
    rw [World.mark]
    cases w'.current <;> exact hanswering'.enabled
  -- what it has done to the disk is what the triple says of every such run
  have hfits : (Call.write slba data).Fits .release 512 :=
    Call.fits_of_block le_rfl (by decide) _
  obtain ⟨-, v', hgave, hbetween⟩ := (recorded_triple twoPages_aligned hd hfits w hw _
    (reaches_inTime hrun hfinal.inTime)).2 _ rfl _ rfl
  cases hgave.did with
  | write => exact ⟨t, _, hrun, hfinal, hbetween⟩

/-- **The process on a file of one block**, which is overwritten with what is typed. -/
theorem main_writes (hs : settings e = .ok ⟨[], oneSector, 1⟩) (heditor : e.editor = .ok ())
    (hevents : e.events = [.line "write 100 a".toList]) : ∃ w,
    (machine .twoPages (servingController .ofSectors) Always).Reaches
      (main .release e (), World.zeroed) (.pure (.ok 0, ()), w) ∧
    (∀ i, (w.ring i).expired = 0) ∧ w.released = some 0 ∧
    w.disk = World.zeroed.disk.write (100 * 512) letterBlock := by
  obtain ⟨d, w, hcontroller, hanswering, hd, hbetween⟩ := openController_opens
  -- the call of the line is made on a world in which the banner is printed
  obtain ⟨t, w', hcall, hanswering', hwritten⟩ := recorded_writes hd hbetween hanswering 100
    length_letterBlock
  have hserve : (machine .twoPages (servingController .ofSectors) Always).Reaches
      (serveRecorded .release (.write 100 letterBlock) d, w) (.pure (.ok (.ok ()), t), w') :=
    Reaches.bind_ok hcall .refl
  -- the terminal, the driver with its drop, `run`, and `main` around it
  have hterminal : (machine .twoPages (servingController .ofSectors) Always).Reaches
      ((terminal .release oneSector e ()).interp (serveRecorded .release) d, w)
      (.pure (.ok (.ok (), ()), t), w') := by
    rw [terminal_writes heditor hevents]
    refine Reaches.call_bind () ⟨rfl, trivial⟩ (Reaches.call_bind () ⟨rfl, trivial⟩ ?_)
    exact Reaches.bind_ok hserve (Reaches.call_bind () ⟨rfl, trivial⟩ .refl)
  have hdriver : (machine .twoPages (servingController .ofSectors) Always).Reaches
      (withDriver .release e (onRecorded .release) oneSector d (), w)
      (.pure (.ok (), ()), w'.release) := by
    refine Reaches.bind_ok (Reaches.unwinding_ok (Reaches.owning_ok
      (Reaches.bind_ok hterminal .refl))) ?_
    refine Reaches.call_bind () ⟨rfl, trivial⟩ ?_
    exact Reaches.act (r := ()) ⟨rfl, trivial⟩ .refl
  have hrun : (machine .twoPages (servingController .ofSectors) Always).Reaches
      (runWith .release e (onRecorded .release) (), World.zeroed)
      (.pure (.ok (), ()), w'.release) := by
    rw [runWith, hs, Method.lift_ok_bind]
    exact Reaches.bind_ok hcontroller hdriver
  have hmain : (machine .twoPages (servingController .ofSectors) Always).Reaches
      (mainWith .release e (onRecorded .release) (), World.zeroed)
      (.pure (.ok 0, ()), w'.release) :=
    Reaches.bind_ok (Reaches.attempt (x := .ok ()) hrun) .refl
  obtain ⟨u, hreach, current, calls, issuedBy, rfl⟩ := main_unmarked hmain
  refine ⟨_, hreach, hanswering'.inTime, ?_, hwritten.disk⟩
  show (if w'.enabled then some ((w'.ring .admin).held + (w'.ring .io).held) else some 0) = some 0
  rw [if_pos hanswering'.enabled, (hwritten.drained .admin).held, (hwritten.drained .io).held]

end Process

theorem neverUsed_zeroed : NeverUsed World.zeroed :=
  ⟨⟨fun _ => rfl, rfl⟩, rfl, rfl, rfl⟩

end Repl

end Nvmetoy
