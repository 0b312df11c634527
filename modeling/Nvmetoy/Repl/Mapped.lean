import Nvmetoy.Mappings
import Nvmetoy.Repl.Spared

/-!
# The mappings, over the whole process

From its start to its end, whatever its arguments, the system, the controller and the terminal give,
the process touches the device only through mappings that are live, and inside of them, and only
once the device is known to be free; and it ends with nothing mapped, also when it panics
(`main_permitted`).
-/

namespace Nvmetoy

open Framework Machine NvmeUserspaceDriver

namespace Repl

section Process

variable {p : Profile} {e : Process} {blocks : FileBlocks} {bar : NvmeBar} {dma : DmaRegion}
  {d : NvmeUserspaceDriver}

/-- What a command does with a driver: it accesses the mappings, and prints. -/
def Attends (bar : NvmeBar) (dma : DmaRegion) (o : Op) : Prop :=
  Inbounds bar dma o ∨ ∃ line, o = .println line

/-- A command keeps the driver's mappings. -/
theorem attends_onDriver {α : Type} (command : Command α) :
    Method.Stays (Holds bar dma) (Attends bar dma) (onDriver p command) := by
  have hinbounds (o : Op) (ho : Inbounds bar dma o) : Attends bar dma o := .inl ho
  refine (Prog.interp_stays (fun o => ?_) (command ())).bind fun x => .lift _
  cases o with
  | read slba blockCount => exact ((inbounds_read slba blockCount).mono hinbounds).attempt
  | write slba data => exact ((inbounds_write slba data).mono hinbounds).attempt
  | identifyController => exact ((inbounds_identify _ _).mono hinbounds).attempt
  | alloc bytes => exact .call (.inl trivial)
  | println line => exact .call (.inr ⟨line, rfl⟩)

/-- While a command runs, the mappings stay. -/
theorem command_permitted (command : Command Unit) (hd : Holds bar dma d) :
    ruled.Triple (Held fun _ => True) (Held (MappedAs bar dma)) (onDriver p command d)
      fun _ => Held (MappedAs bar dma) := by
  have hstable : Mappings.machine.Stable (MappedAs bar dma) := fun _ _ _ henv => henv.elim
  refine (held_sat (attends_onDriver command d hd) hstable ?_ ?_).post fun _ _ hu => hu.2
  · rintro o m (ho | ⟨line, rfl⟩) hm
    · exact ho.permits hm
    · trivial
  · rintro o m r m' (ho | ⟨line, rfl⟩) hm rfl
    · rwa [ho.after]
    · exact hm

/-- The driver is dropped however the terminal is left. -/
theorem withDriver_permitted [Unicode] (hd : Holds bar dma d) (t : Unit) :
    ruled.Triple (Held fun _ => True) (Held (MappedAs bar dma))
      (withDriver p e (onDriver p) blocks d t) fun _ => Held Unmapped := by
  have hrun : ruled.Triple (Held fun _ => True) (Held (MappedAs bar dma))
      (Method.owning d (onDriver p (terminal p blocks e)) t) fun _ => Held (MappedAs bar dma) :=
    Triple.owning (command_permitted _ hd)
  have hscope : ruled.Triple (Held fun _ => True) (Held (MappedAs bar dma))
      (Method.unwinding drop (Method.owning d (onDriver p (terminal p blocks e))) t)
      (Ends (fun _ => Held (MappedAs bar dma)) (Held Unmapped)) :=
    Triple.unwinding hrun (fun _ _ _ => id) (fun _ t => drop_permitted) fun _ t => drop_permitted
  exact Triple.method_bind hscope (fun _ t => drop_permitted) (fun _ _ _ => id) fun _ _ _ => id

/-- `run` maps at most what it unmaps. -/
theorem run_permitted [Unicode] :
    ruled.Triple (Held fun _ => True) (Held NeverMapped) (run p e ()) fun _ => Held Unmapped := by
  have hunmapped {u : Option Mappings} (hu : Held NeverMapped u) : Held Unmapped u :=
    hu.mono fun _ hm => hm.1
  refine Triple.lift_bind (still _) (fun _ => held_any) (fun s _ => ?_)
    (fun _ _ _ => hunmapped) fun _ _ _ => hunmapped
  have hopen : ruled.Triple (Held fun _ => True) (Held NeverMapped)
      ((openController p s.bdf s.nsid : Method Op Res Unit IoError NvmeUserspaceDriver) ())
      (Ends (fun d => Held (MappedAs d.nvmeBar d.dmaRegion)) (Held Unmapped)) := by
    refine Triple.mapErr ((openDriver_permitted s.bdf s.nsid).post ?_)
    rintro ⟨x, t⟩ u hu
    cases x <;> exact hu
  -- with the device open, the driver is at work and is dropped at the end
  exact Triple.method_bind hopen (fun d t => withDriver_permitted ⟨rfl, rfl⟩ t) (fun _ _ _ => id)
    fun _ _ _ => id

/-- And so does the whole process. -/
theorem main_ruled [Unicode] :
    ruled.Triple (Held fun _ => True) (Held NeverMapped) (main p e ()) fun _ => Held Unmapped := by
  refine Triple.method_bind (R := fun _ => Held Unmapped) (Triple.attempt run_permitted)
    (fun result t => ?_) (fun _ _ _ => id) fun _ _ _ => id
  cases result with
  | ok _ => exact Triple.ret (still _) (fun _ => held_any) fun _ => id
  | error error =>
    exact ruled_call (R := fun _ => Unmapped) (fun _ _ => trivial) (fun _ _ hm => hm) fun _ =>
      Triple.ret (still _) (fun _ => held_any) fun _ => id

end Process

/-- **The unsafe accesses are right.** Whatever the process is given and whatever the system and the
controller respond: the configuration space is opened once the kernel's driver is known not to be
bound; the command register is rewritten in place, and nothing but the two bits changes; the BAR is
mapped after that, where it has not been mapped before, and the hugepage after the BAR, where there
has been none before; each access to a register or to the
hugepage happens while both are mapped, inside of them and aligned; each is unmapped while it is
mapped, and in the end, also after a panic, neither is. -/
theorem main_permitted [Unicode] (p : Profile) (e : Process)
    (c : Config Op Res Mappings (Outcome IoError Nat × Unit))
    (hc : Mappings.machine.Reaches (main p e (), .initial) c) :
    (∀ o k, c.1 = .op o k → Permits o c.2) ∧ ∀ x, c.1 = .pure x → Unmapped c.2 := by
  have hinitial : NeverMapped .initial := ⟨⟨rfl, rfl⟩, rfl, rfl⟩
  obtain ⟨-, hend, hallowed⟩ := guarded_keeps (Q := fun _ => Unmapped) main_ruled hinitial hc
  refine ⟨fun o k ho => ?_, hend⟩
  obtain ⟨r⟩ := res_nonempty o
  exact hallowed o k r _ ho rfl

section OneBlock

attribute [local instance] Unicode.plain

/-- There is no hugepage, so that the BAR is unmapped again. -/
theorem main_permitted_oneBlock : ∃ c : Config Op Res Mappings (Outcome IoError Nat × Unit),
    Mappings.machine.Reaches (main .release oneBlockBlob (), .initial) c ∧
      c.1 = .pure (.ok 1, ()) ∧ c.2.master = true ∧
      (∀ o k, c.1 = .op o k → Permits o c.2) ∧ ∀ x, c.1 = .pure x → Unmapped c.2 := by
  let m : Mappings := ⟨true, some 6, some 0, true, none, none, true, false⟩
  -- everything works up to the allocation of the hugepage, which fails; the BAR is unmapped
  have hopen : Mappings.machine.Reaches
      ((openDriver .release [] 1 : Method Op Res Unit IoError NvmeUserspaceDriver) (), .initial)
      (.pure (.err (.os "no memory"), ()), m) := by
    refine Reaches.act (r := DriverLink.notFound) rfl ?_
    refine Reaches.act (r := .ok ()) rfl (Reaches.act (r := .ok ()) rfl ?_)
    refine Reaches.act (r := .ok ⟨[0, 0], rfl⟩) rfl (Reaches.act (r := .ok ()) rfl ?_)
    refine Reaches.act (r := .ok ()) rfl (Reaches.act (r := .ok 8192) rfl ?_)
    exact Reaches.act (r := .error (.os "no memory")) rfl (Reaches.act (r := ()) rfl .refl)
  have hrun : ∃ e, Mappings.machine.Reaches (run .release oneBlockBlob (), .initial)
      (.pure (.err e, ()), m) := by
    rw [run, runWith, settings_oneBlock, Method.lift_ok_bind]
    exact ⟨_, Reaches.bind (Reaches.bind hopen)⟩
  obtain ⟨e, hrun⟩ := hrun
  -- the error is printed, and the exit status is one
  have hmain : Mappings.machine.Reaches (main .release oneBlockBlob (), .initial)
      (.pure (.ok 1, ()), m) :=
    Reaches.bind_ok (Reaches.attempt (x := .error e) hrun) (Reaches.act (r := ()) rfl .refl)
  exact ⟨_, hmain, rfl, rfl, main_permitted .release oneBlockBlob _ hmain⟩

end OneBlock

end Repl

end Nvmetoy
