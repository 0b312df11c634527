import Nvmetoy.Repl.BlockMap
import Nvmetoy.Repl.Marks

/-!
# What the process leaves alone

The promise of `nvmetoy_repl` is about the disk: the blocks of the file may change, the rest of the
device may not. `Confinement` has it for the commands that are put on the queue. Here it is followed
to the disk, over the whole process (`main_spares`): from the arguments to the exit status, with
whatever is typed, on a controller that does its part in any order and at any time, also long after
the call it was asked by has given up.

`nvmetoy.sh` starts the process on a map that it has printed itself, in blocks of the size that the
namespace has (`Launch`). From there the two ends are joined: the extents of the file go through
the text of the map, the parser, the terminal, the driver and the queues, and come out as the blocks
of the disk that may change (`main_edits_file`). No condition on what is typed is left.
-/

namespace Nvmetoy

open Framework Machine NvmeUserspaceDriver

namespace Repl

variable {P : Platform} {N : Namespace} {w₀ : World} {d : NvmeUserspaceDriver} {p : Profile}
  {blocks : FileBlocks} {e : Process} {B : Nat}

/-- A write that names blocks of the file alone. -/
theorem Keeps.within {slba : UInt64} {data : List UInt8}
    (h : Keeps p blocks B (.write slba data)) :
    (Call.write slba data).Within p B blocks.Contains := by
  intro haccepts hcut k hk
  have hslba (nlb : UInt16) : (nvmeWrite 0 slba nlb 0 0).slba = slba.toNat :=
    nvmeTransfer_slba .write 0 slba nlb 0 0
  have hcount : (nvmeWrite 0 slba (.ofNat (data.length / B - 1)) 0 0).blockCount =
      sentBlocks B data.length := by
    refine (nvmeTransfer_blockCount .write 0 slba _ 0 0).trans ?_
    rw [sentBlocks, UInt16.toNat_ofNat']
  -- what the check of the REPL promised of the command, it promised of its blocks
  have hin := h _ ⟨haccepts, hcut, hslba _, hcount⟩ k (hcount ▸ hk)
  rwa [hslba] at hin

section Process

variable (halign : P.base.val.toNat % PAGE_SIZE = 0) (hblock : N.blockSize ≤ 2 ^ 48)
include halign hblock

/-- **The driver answers**, in time or not. -/
theorem unharmed_serve (hd : ReadyFor P N d) {o : ReplOp} (ho : Keeps p blocks N.blockSize o) :
    (machine P (servingController N) Always).Triple (Unharmed P N blocks.Contains w₀)
      (Unharmed P N blocks.Contains w₀) (serve p o d) fun _ =>
        Unharmed P N blocks.Contains w₀ := by
  cases o with
  | read slba blockCount =>
    exact Triple.attempt (intact_read halign hd.1 hd.2 (Call.fits_read hblock slba blockCount))
  | write slba data => exact Triple.attempt (intact_write halign hd.1 hd.2 ho.within)
  -- Identify writes no block
  | identifyController =>
    refine Triple.attempt ((intact_perform (p := p) (k := .identifyController) halign hd.1 hd.2
      (fun _ _ hk => by cases hk) trivial).post fun _ _ hw => hw.2)
  | alloc bytes => exact intact_harmless halign ⟨fun _ => trivial, fun _ _ => trivial⟩
  | println line => exact intact_harmless halign ⟨fun _ => trivial, fun _ _ => trivial⟩

/-- A command that asks for blocks of the file alone. -/
theorem unharmed_onDriver {command : Command Unit} (hd : ReadyFor P N d)
    (hc : (command ()).Sat (Answers p N.blockSize) (Keeps p blocks N.blockSize) fun _ => True) :
    (machine P (servingController N) Always).Triple (Unharmed P N blocks.Contains w₀)
      (Unharmed P N blocks.Contains w₀) (onDriver p command d) fun _ =>
        Unharmed P N blocks.Contains w₀ := by
  -- no operation of a confined command harms what is not the file's
  have hstable : (machine P (servingController N) Always).Stable
      (Unharmed P N blocks.Contains w₀) := unharmed_stable halign
  have hrun : (machine P (servingController N) Always).Triple (Unharmed P N blocks.Contains w₀)
      (fun w => d.Kept d ∧ Unharmed P N blocks.Contains w₀ w) ((command ()).interp (serve p) d)
      fun _ => Unharmed P N blocks.Contains w₀ := by
    refine Triple.interp (J := fun t w => d.Kept t ∧ Unharmed P N blocks.Contains w₀ w) hc
      (fun t => Stable.and (Stable.const _) hstable) (fun t w hw => hw.2) (fun o t ho => ?_)
      fun a t w _ hw => hw.2
    refine Triple.of_pure fun ht => ?_
    -- the driver may have learnt something, but it is still the one that was opened
    have ht' := hd.kept ht
    refine ((unharmed_serve halign hblock ht' ho).returns (sat_serve (R := Prog.Any) ht'.2 o)).post
      ?_
    rintro ⟨x, t'⟩ w ⟨⟨hk, hanswers, -⟩, hw⟩
    cases x with
    | ok r => exact ⟨hanswers r rfl, ht.trans hk, hw⟩
    | err error => exact hw
    | panic why => exact hw
  refine Triple.method_bind (hrun.pre fun w hw => ⟨.refl hd.2.toShaped, hw⟩) (fun x t => ?_)
    (fun _ _ _ => id) fun _ _ _ => id
  exact Triple.ret hstable (fun _ => id) fun _ => id

/-- **The terminal**, with whatever is typed. -/
theorem unharmed_terminal [Unicode] (hd : ReadyFor P N d)
    (hlines : ∀ line ∈ typed e.events, LineConfined p blocks N.blockSize (trim line)) :
    (machine P (servingController N) Always).Triple (Unharmed P N blocks.Contains w₀)
      (Unharmed P N blocks.Contains w₀) (onDriver p (terminal p blocks e) d) fun _ =>
        Unharmed P N blocks.Contains w₀ :=
  unharmed_onDriver halign hblock hd (sat_terminal (sat_interact hd.2.pos hd.2.lt hlines))

/-- `run`. -/
theorem beforeOrUnharmed_run [Unicode] {s : Settings} (hs : settings e = .ok s)
    (hlearn : ∀ data size, Identified N .namespace s.nsid data → blockSizeOf p data = .ok size →
      size = N.blockSize)
    (hlines : ∀ line ∈ typed e.events, LineConfined p s.blocks N.blockSize (trim line)) :
    (machine P (servingController N) Always).Triple (Spared P N s.blocks.Contains w₀)
      (BeforeMapping w₀) (run p e ()) fun _ => BeforeOrUnharmed P N s.blocks.Contains w₀ := by
  rw [run, runWith, hs, Method.lift_ok_bind]
  -- opening changes no block, and the terminal those of the file alone
  have hopen : (machine P (servingController N) Always).Triple (Spared P N s.blocks.Contains w₀)
      (BeforeMapping w₀) (openDriver p s.bdf s.nsid ())
      (Ends (fun d w => ReadyFor P N d ∧ Unharmed P N s.blocks.Contains w₀ w)
        (BeforeOrUnharmed P N s.blocks.Contains w₀)) :=
    openDriver_anyTime halign s.bdf s.nsid hlearn
  refine Triple.method_bind (R := Ends (fun d w => ReadyFor P N d ∧
      Unharmed P N s.blocks.Contains w₀ w) (BeforeOrUnharmed P N s.blocks.Contains w₀))
    (Triple.mapErr (hopen.post ?_)) (fun d t => Triple.of_pure fun hd => ?_)
    (fun _ _ _ => id) fun _ _ _ => id
  · rintro ⟨x, t⟩ w hw
    cases x <;> exact hw
  · exact unharmed_owning halign (unharmed_terminal halign hblock hd hlines)

omit hblock in
/-- `main` prints the error of `run`, and that is all. -/
theorem beforeOrUnharmed_main [Unicode] {may : Nat → Prop}
    (hrun : (machine P (servingController N) Always).Triple (Spared P N may w₀) (BeforeMapping w₀)
      (run p e ()) fun _ => BeforeOrUnharmed P N may w₀) :
    (machine P (servingController N) Always).Triple (Spared P N may w₀) (BeforeMapping w₀)
      (main p e ()) fun _ => BeforeOrUnharmed P N may w₀ := by
  have hstable : (machine P (servingController N) Always).Stable (BeforeOrUnharmed P N may w₀) :=
    beforeOrUnharmed_stable halign
  refine Triple.method_bind (R := fun _ => BeforeOrUnharmed P N may w₀) (Triple.attempt hrun)
    (fun result t => ?_) (fun _ _ _ => id) fun _ _ _ => id
  cases result with
  | ok _ => exact Triple.ret hstable (fun _ hw => hw.spared) fun _ => id
  -- an error is printed, which changes nothing
  | error error =>
    refine Triple.call_bind (R := fun _ => BeforeOrUnharmed P N may w₀) hstable
      (fun _ hw => hw.spared) ?_
      fun _ => Triple.ret hstable (fun _ hw => hw.spared) fun _ => id
    rintro w r w' hw ⟨rfl, -⟩
    exact hw

/-- The process, once its settings are known. -/
theorem spared_main [Unicode] {s : Settings} (hs : settings e = .ok s)
    (hformatted : N.Formatted s.nsid) (hplain : N.Plain p s.nsid)
    (hlines : ∀ line ∈ typed e.events, LineConfined p s.blocks N.blockSize (trim line))
    (hstart : NeverUsed w₀) {c : Config Op Res World (Outcome IoError Nat × Unit)}
    (hc : (machine P (servingController N) Always).Reaches (main p e (), w₀) c) :
    Spared P N s.blocks.Contains w₀ c.2 := by
  have hunmapped : BeforeMapping w₀ w₀ := ⟨hstart.toBeforeOpen, hstart.unused, rfl⟩
  have hrun : (machine P (servingController N) Always).Triple (Spared P N s.blocks.Contains w₀)
      (BeforeMapping w₀) (run p e ()) fun _ => BeforeOrUnharmed P N s.blocks.Contains w₀ :=
    beforeOrUnharmed_run halign hblock hs
      (fun data size hdata hsize => hformatted.learns hplain hdata hsize) hlines
  exact (beforeOrUnharmed_main halign hrun w₀ hunmapped c hc).1

end Process

/-- **The process harms nothing but the file.** From its arguments to its exit status, whatever is
typed, and however late the controller fetches, executes and completes the commands it was given:
the disk changes in blocks of the map alone, and the memory of the host in the hugepage alone. Where
the settings are refused, that is nowhere at all. Of a hugepage that was unmapped under a command,
nothing is said. -/
theorem main_spares [Unicode] (P : Platform) (N : Namespace) (p : Profile) (e : Process)
    (w₀ : World)
    (halign : P.base.val.toNat % PAGE_SIZE = 0) (hblock : N.blockSize ≤ 2 ^ 48)
    (hformat : ∀ s, settings e = .ok s → N.Formatted s.nsid ∧ N.Plain p s.nsid)
    (hlines : ∀ s, settings e = .ok s → ∀ line ∈ typed e.events,
      LineConfined p s.blocks N.blockSize (trim line))
    (hstart : NeverUsed w₀) (c : Config Op Res World (Outcome IoError Nat × Unit))
    (hc : (machine P (servingController N) Always).Reaches (main p e (), w₀) c) :
    (∀ n, c.2.released = some n → n = 0) →
      (∀ x, (∀ s, settings e = .ok s → ¬ s.blocks.Contains (x / N.blockSize)) →
        c.2.disk x = w₀.disk x) ∧
      ∀ x, Beyond P x → c.2.mem x = w₀.mem x := by
  intro _
  cases hs : settings e with
  | ok s =>
    -- what may change is named by the map of the settings
    obtain ⟨hformatted, hplain⟩ := hformat s hs
    have hspared := spared_main halign hblock hs hformatted hplain (hlines s hs) hstart hc
    exact ⟨fun x hx => hspared.disk x (hx s rfl), hspared.beyond⟩
  | err _ | panic _ =>
    -- there is nothing to open
    have hrun : (machine P (servingController N) Always).Triple (Spared P N (fun _ => False) w₀)
        (BeforeMapping w₀) (run p e ()) fun _ => BeforeOrUnharmed P N (fun _ => False) w₀ := by
      rw [run, runWith, hs]
      exact Triple.ret (stable_of_drained fun _ hw => hw.drained) (fun _ hw => hw.spared)
        fun _ => .inl
    have hunmapped : BeforeMapping w₀ w₀ := ⟨hstart.toBeforeOpen, hstart.unused, rfl⟩
    have hspared := (beforeOrUnharmed_main halign hrun w₀ hunmapped c hc).1
    exact ⟨fun x _ => hspared.disk x id, hspared.beyond⟩

section OneBlock

attribute [local instance] Unicode.plain

/-- Its only block is written, and the process ends. -/
theorem main_spares_oneBlock : ∃ w,
    (machine .twoPages (servingController .ofSectors) Always).Reaches
      (main .release oneBlockBlob (), World.zeroed) (.pure (.ok 0, ()), w) ∧
    w.released = some 0 ∧ w.disk = World.zeroed.disk.write (100 * 512) letterBlock ∧
    (∀ x, (∀ s, settings oneBlockBlob = .ok s → ¬ s.blocks.Contains (x / 512)) →
      w.disk x = World.zeroed.disk x) ∧
    ∀ x, Beyond .twoPages x → w.mem x = World.zeroed.mem x := by
  obtain ⟨w, hmain, -, hreleased, hdisk⟩ := main_writes settings_oneBlock rfl rfl
  -- at the end no command is left with the controller
  have hidle (n : Nat) (hn : w.released = some n) : n = 0 :=
    Option.some.inj (hn.symm.trans hreleased)
  refine ⟨w, hmain, hreleased, hdisk, main_spares .twoPages .ofSectors .release oneBlockBlob .zeroed
    twoPages_aligned (show 512 ≤ 2 ^ 48 by decide)
    (fun s _ => ⟨ofSectors_formatted, ofSectors_plain⟩) (fun s hs line _ => ?_)
    neverUsed_zeroed _ hmain hidle⟩
  obtain rfl := Outcome.ok.inj (settings_oneBlock.symm.trans hs)
  exact LineConfined.of_le (show 512 ≤ 512 from le_rfl)

end OneBlock

/-! ### The session that the script starts -/

/-- How `nvmetoy.sh` starts `nvmetoy_repl`: on the block map of a file, which it has printed. -/
structure Launch where
  program : Str
  bdf : Str
  /-- `MAP`. -/
  path : Str
  /-- `NSID`, and what it denotes. -/
  value : Str
  nsid : UInt32
  parses : parseU32 value = .ok nsid
  /-- What was printed. -/
  lbaSize : UInt64
  extents : List Extent
  lines : List Str
  layout : FileBlocks.Layout (FileBlocks.emitted lbaSize extents) lines
  file : Str → Except IoError (List UInt8)
  reads : file path = .ok (textOf lines).bytes
  editor : Except String Unit
  events : List Readline

namespace Launch

/-- The process. -/
def process (l : Launch) : Process :=
  ⟨[l.program, l.bdf, l.path, l.value], l.file, l.editor, l.events⟩

/-- It opens what the script meant. -/
theorem settings_process (l : Launch) :
    settings l.process = .ok ⟨l.bdf, ⟨l.lbaSize, l.extents⟩, l.nsid⟩ := by
  have hload : loadBlocks l.file l.path = .ok ⟨l.lbaSize, l.extents⟩ := by
    rw [loadBlocks, l.reads]
    exact FileBlocks.parse_of_layout l.layout
  -- the map first, then the namespace
  have hread : settings l.process = (loadBlocks l.file l.path).bind fun blocks =>
      (parseU32 l.value).bind fun nsid => .ok ⟨l.bdf, blocks, nsid⟩ := rfl
  rw [hread, hload, l.parses]
  rfl

end Launch

/-- **The session edits the file.** On the map that `nvmetoy.sh` has printed for a file, whatever is
typed, and however late the controller does its part: the disk changes in the extents of the file
alone, and the memory of the host in the hugepage alone. -/
theorem main_edits_file [Unicode] (P : Platform) (N : Namespace) (p : Profile) (l : Launch)
    (w₀ : World)
    (hsize : l.lbaSize.toNat = N.blockSize) (halign : P.base.val.toNat % PAGE_SIZE = 0)
    (hblock : N.blockSize ≤ 2 ^ 48) (hformat : N.Formatted l.nsid) (hplain : N.Plain p l.nsid)
    (hstart : NeverUsed w₀) (c : Config Op Res World (Outcome IoError Nat × Unit))
    (hc : (machine P (servingController N) Always).Reaches (main p l.process (), w₀) c) :
    (∀ n, c.2.released = some n → n = 0) →
      (∀ x, (∀ extent ∈ l.extents, ¬ extent.Contains (x / N.blockSize)) →
        c.2.disk x = w₀.disk x) ∧
      ∀ x, Beyond P x → c.2.mem x = w₀.mem x := by
  intro _
  -- the map counts in blocks of the namespace, so no payload is longer than it was checked for
  have hlines : ∀ line ∈ typed l.process.events,
      LineConfined p ⟨l.lbaSize, l.extents⟩ N.blockSize (trim line) :=
    fun _ _ => LineConfined.of_le hsize.le
  have hspared := spared_main halign hblock l.settings_process hformat hplain hlines hstart hc
  refine ⟨fun x hx => hspared.disk x ?_, hspared.beyond⟩
  rintro ⟨extent, hextent, hcontains⟩
  exact hx extent hextent hcontains

/-- The map that is printed for a file of one block. -/
def oneBlockMap : List Str :=
  ["nvmetoy-block-map 1".toList, "device_lba_size 512".toList, "100 1 0".toList]

/-- The map of the witnesses is one that is emitted. -/
theorem layout_oneBlock :
    FileBlocks.Layout (FileBlocks.emitted 512 [⟨100, 1, false⟩]) oneBlockMap := by
  have hshows (line : Str) (tokens : List Str) (h : splitWhitespace line = tokens) :
      Spaced tokens line := h ▸ spaced_splitWhitespace line
  exact .line (hshows _ _ (by decide)) (by decide) (.line (hshows _ _ (by decide)) (by decide)
    (.line (hshows _ _ (by decide)) (by decide) .nil))

theorem parseU32_one : parseU32 ['1'] = .ok 1 := by decide

/-- The file is written. -/
def oneBlockLaunch : Launch where
  program := "nvmetoy_repl".toList
  bdf := []
  path := "/tmp/nvmetoy.map".toList
  value := ['1']
  nsid := 1
  parses := parseU32_one
  lbaSize := 512
  extents := [⟨100, 1, false⟩]
  lines := oneBlockMap
  layout := layout_oneBlock
  file := fun _ => .ok (textOf oneBlockMap).bytes
  reads := rfl
  editor := .ok ()
  events := [.line "write 100 a".toList]

section Launched

attribute [local instance] Unicode.plain

/-- The session writes the file, and ends. -/
theorem main_edits_file_oneBlock : ∃ w,
    (machine .twoPages (servingController .ofSectors) Always).Reaches
      (main .release oneBlockLaunch.process (), World.zeroed) (.pure (.ok 0, ()), w) ∧
    w.released = some 0 ∧ w.disk = World.zeroed.disk.write (100 * 512) letterBlock ∧
    (∀ x, (∀ extent ∈ oneBlockLaunch.extents, ¬ extent.Contains (x / 512)) →
      w.disk x = World.zeroed.disk x) ∧
    ∀ x, Beyond .twoPages x → w.mem x = World.zeroed.mem x := by
  obtain ⟨w, hmain, -, hreleased, hdisk⟩ := main_writes oneBlockLaunch.settings_process rfl rfl
  -- at the end no command is left with the controller
  have hidle (n : Nat) (hn : w.released = some n) : n = 0 :=
    Option.some.inj (hn.symm.trans hreleased)
  exact ⟨w, hmain, hreleased, hdisk, main_edits_file .twoPages .ofSectors .release oneBlockLaunch
    .zeroed rfl twoPages_aligned (show 512 ≤ 2 ^ 48 by decide) ofSectors_formatted
    ofSectors_plain neverUsed_zeroed _ hmain hidle⟩

end Launched

end Repl

end Nvmetoy
