import Nvmetoy.Framework.Runs
import Nvmetoy.Rust

/-!
# Borrowing the device

`nvmetoy.sh` takes the controller from the kernel driver for the time of the REPL: it mounts
the file system to find the blocks of the file, unmounts it, unbinds the driver, runs the REPL
and leaves the rest to `cleanup`, the trap of the shell's exit. `cleanup` does not know what
the script did. It looks at the mounts, at sysfs and at `MOUNT_DIR`.

* `System` — what the script finds: the driver of the controller, the directory of the nvme
  driver in sysfs, the mounts.
* `Command`, `Cleanup` — the commands of the script and the steps of `cleanup`, in the order
  of the source.
* `step` — what a command does, at any of its fates: it works, it fails, or HUP, INT or TERM
  arrives. The shell runs under `set -e` and `pipefail`, in `cleanup` too: a command that
  fails outside of a test ends it.
* `gives_back` — exactly when the binding and the mounts are the initial ones at the end.
-/

namespace Nvmetoy

open Framework
open Framework.Runs (Avoided run moves)

namespace Script

/-- The driver that the controller is bound to. -/
inductive Binding where
  | nvme
  | other
  | none
deriving DecidableEq, Repr

/-- An entry of the mount table. -/
structure Mount where
  source : Str
  dir : Str
deriving DecidableEq, Repr

/-- What the script finds, and what it may change. A device is bound to a driver that is
there. -/
structure System where
  bound : Binding
  /-- `$DRIVER_PATH` is a directory. -/
  nvmeDir : Bool
  /-- The last one mounted first. -/
  mounts : List Mount
  loaded : bound = .nvme → nvmeDir = true
deriving DecidableEq

namespace System

variable (sys : System)

/-- `mountpoint -q`. -/
def isMountpoint (dir : Str) : Bool := sys.mounts.any fun m => m.dir = dir

/-- `mount`. -/
def mount (m : Mount) : System := { sys with mounts := m :: sys.mounts }

/-- `umount`: what was mounted there last. -/
def umount (dir : Str) : System := { sys with mounts := sys.mounts.eraseP fun m => m.dir = dir }

/-- `echo "$BDF" > unbind`. -/
def unbind : System := { sys with bound := .none, loaded := nofun }

/-- `echo "$BDF" > bind`: a device that has no driver gets this one. -/
def bind : System :=
  if h : sys.bound = .none ∧ sys.nvmeDir = true then
    { sys with bound := .nvme, loaded := fun _ => h.2 }
  else sys

end System

/-- The commands of `nvmetoy.sh`. -/
inductive Command where
  /-- `FILE`, `BDF`, `XFS_DEVICE`, `NSID` and `REPO_DIR`. -/
  | arguments
  | cd
  /-- `. "$HOME/.cargo/env"`. -/
  | cargoEnv
  /-- `[ ! -e "$DEV_PATH" ]`. -/
  | noPciDevice
  /-- `trap cleanup EXIT`. -/
  | trapExit
  /-- The traps of HUP, INT and TERM. They set the exit status: a signal ends the shell
  through its EXIT trap before them too. -/
  | trapSignals
  | findmnt
  /-- `[ ! -b "$XFS_DEVICE" ]`. -/
  | noBlockDevice
  | cargoBuild
  /-- `MOUNT_DIR="$(mktemp -d)"`. -/
  | mktemp
  | echo
  | mount
  /-- `sudo test -f "$TARGET"`. -/
  | testFile
  /-- `emit_block_map "$TARGET" | tee "$MAP"`. -/
  | emitBlockMap
  | umount
  | rmdir
  /-- `MOUNT_DIR=""`. -/
  | forget
  | unbind
  | repl
deriving DecidableEq, Repr

/-- The script. -/
def script : List Command :=
  [.arguments, .cd, .cargoEnv, .noPciDevice, .trapExit, .trapSignals, .findmnt, .noBlockDevice,
    .cargoBuild, .mktemp, .echo, .mount, .testFile, .echo, .emitBlockMap, .umount, .rmdir,
    .forget, .echo, .unbind, .echo, .repl]

/-- The steps of `cleanup`. -/
inductive Cleanup where
  /-- `[ -n "$MOUNT_DIR" ]`. -/
  | mountDir
  | mountpoint
  | umount
  | rmdir
  /-- `[ -d "$DRIVER_PATH" ] && [ ! -e "$DRIVER_PATH/$BDF" ]`. -/
  | driver
  | echo
  | bind
deriving DecidableEq, Repr

/-- The system, and what the shell knows. -/
structure State where
  sys : System
  /-- `MOUNT_DIR`, when it is not empty. -/
  mountDir : Option Str
  /-- The EXIT trap is set. -/
  trapped : Bool
deriving DecidableEq

/-- `MOUNT_DIR` is a mount point. -/
def State.mounted (s : State) : Bool :=
  match s.mountDir with
  | some dir => s.sys.isMountpoint dir
  | none => false

/-- Where the shell is. -/
inductive Config where
  | running (rest : List Command) (s : State)
  | cleaning (point : Cleanup) (s : State)
  | ended (sys : System)
deriving DecidableEq

/-- How a command ends. A failure or a signal may find its effect done or not. -/
inductive Event where
  | works
  | fails (effect : Bool)
  | signal (effect : Bool)
deriving DecidableEq, Repr

/-- `$XFS_DEVICE`, and the name `mktemp` makes up. -/
structure Names where
  xfsDevice : Str
  tempDir : Str

namespace Command

variable (names : Names)

/-- The commands that are followed by `exit 1`: the tests of the refusals. -/
def refuses : Command → Bool
  | noPciDevice | findmnt | noBlockDevice => true
  | _ => false

/-- When the command can work. `mktemp -d` makes a new directory; a write to `unbind` is
refused unless the driver has the device. -/
def possible : Command → State → Bool
  | findmnt, s => s.sys.mounts.any fun m => m.source = names.xfsDevice
  | mktemp, s => !s.sys.isMountpoint names.tempDir
  | umount, s => s.mounted
  | unbind, s => s.sys.bound = .nvme
  | _, _ => true

/-- What the command does. -/
def effect : Command → State → State
  | trapExit, s => { s with trapped := true }
  | mktemp, s => { s with mountDir := some names.tempDir }
  | mount, s => match s.mountDir with
    | some dir => { s with sys := s.sys.mount ⟨names.xfsDevice, dir⟩ }
    | none => s
  | umount, s => match s.mountDir with
    | some dir => { s with sys := s.sys.umount dir }
    | none => s
  | forget, s => { s with mountDir := none }
  | unbind, s => { s with sys := s.sys.unbind }
  | _, s => s

end Command

namespace Cleanup

/-- When the step succeeds: the tests when they hold, the commands when they apply. -/
def holds : Cleanup → State → Bool
  | mountDir, s => s.mountDir.isSome
  | mountpoint, s => s.mounted
  | umount, s => s.mounted
  | driver, s => s.sys.nvmeDir && s.sys.bound ≠ .nvme
  | bind, s => s.sys.nvmeDir && s.sys.bound = .none
  | _, _ => true

/-- When the step can fail: `umount` and `bind` work where they apply, and the tests of the
shell are what they are. -/
def mayFail : Cleanup → State → Bool
  | mountpoint, _ | rmdir, _ | echo, _ => true
  | step, s => !step.holds s

/-- What the step does where it works. -/
def effect : Cleanup → State → State
  | umount, s => match s.mountDir with
    | some dir => { s with sys := s.sys.umount dir }
    | none => s
  | bind, s => { s with sys := s.sys.bind }
  | _, s => s

/-- The step after one that worked. -/
def afterSuccess : Cleanup → Option Cleanup
  | mountDir => some mountpoint
  | mountpoint => some umount
  | umount => some rmdir
  | rmdir => some driver
  | driver => some echo
  | echo => some bind
  | bind => none

/-- The step after one that failed. Nothing catches the failure of `echo`. -/
def afterFailure : Cleanup → Option Cleanup
  | mountDir => some driver
  | mountpoint => some rmdir
  | umount => some rmdir
  | rmdir => some driver
  | driver | echo | bind => none

end Cleanup

/-- The shell exits: through `cleanup`, once its trap is set. -/
def leave (s : State) : Config :=
  if s.trapped then .cleaning .mountDir s else .ended s.sys

/-- `cleanup` goes on, or the shell ends. -/
def goOn (next : Option Cleanup) (s : State) : Config :=
  match next with
  | some step => .cleaning step s
  | none => .ended s.sys

/-- The move that an event makes. -/
def step (names : Names) (event : Event) : Config → Option Config
  | .running [] s => some (leave s)
  | .running (command :: rest) s =>
    match event with
    | .works =>
      if command.possible names s then
        some (if command.refuses then leave s else .running rest (command.effect names s))
      else none
    | .fails effect =>
      if effect && !command.possible names s then none
      else if command.refuses then some (.running rest s)
      else some (leave (if effect then command.effect names s else s))
    | .signal effect =>
      if effect && !command.possible names s then none
      else some (leave (if effect then command.effect names s else s))
  | .cleaning point s =>
    match event with
    | .works => if point.holds s then some (goOn point.afterSuccess (point.effect s)) else none
    | .fails effect =>
      if !effect && point.mayFail s then some (goOn point.afterFailure s) else none
    | .signal effect =>
      if effect && !point.holds s then none
      else some (.ended (if effect then point.effect s else s).sys)
  | .ended _ => none

/-- The start of the script. -/
def start (sys : System) : Config := .running script ⟨sys, none, false⟩

/-! ### The moves that matter -/

/-- The move leaves the mount behind: a signal ends `cleanup` before `umount` has worked, or
`mountpoint` fails on a mount point. -/
def SkipsUmount : Event → Config → Prop
  | .fails _, .cleaning .mountpoint s => s.mounted
  | .signal effect, .cleaning point s => s.mounted ∧ ¬ (point = .umount ∧ effect = true)
  | _, _ => False

/-- The move leaves the device without the driver that `cleanup` would bind: a signal ends
`cleanup` before `bind` has worked, or the `echo` before it fails. -/
def SkipsBind : Event → Config → Prop
  | .fails _, .cleaning .echo s => s.sys.bound = .none
  | .signal effect, .cleaning point s => s.sys.bound = .none ∧ ¬ (point = .bind ∧ effect = true)
  | _, _ => False

instance (event : Event) (c : Config) : Decidable (SkipsUmount event c) := by
  unfold SkipsUmount
  split <;> infer_instance

instance (event : Event) (c : Config) : Decidable (SkipsBind event c) := by
  unfold SkipsBind
  split <;> infer_instance

/-- The move is made under the EXIT trap. -/
def Trapped : Event → Config → Prop
  | _, .running _ s => s.trapped
  | _, .cleaning _ _ => True
  | _, .ended _ => False

/-! ### What the script does before it exits -/

section Covered

variable (names : Names) (initial : System)

/-- What `cleanup` may find: without the trap, what the script found; with it, what the
commands before have left, at most a mount on the directory of `mktemp` and a device without
the nvme driver it had. -/
structure Due (s : State) : Prop where
  untrapped : s.trapped = false → s.sys = initial
  nvmeDir : s.sys.nvmeDir = initial.nvmeDir
  bound : s.sys.bound = initial.bound ∨ initial.bound = .nvme ∧ s.sys.bound = .none
  mounts : s.sys.mounts = initial.mounts ∨ s.mounted ∧
    s.sys.mounts.eraseP (fun m => some m.dir = s.mountDir) = initial.mounts ∧
    s.sys.mounts ≠ initial.mounts
  fresh : ∀ dir, s.mountDir = some dir → initial.isMountpoint dir = false

/-- From here on, the shell leaves nothing but what is due, wherever it exits. -/
def Covered : List Command → State → Prop
  | [], s => Due initial s
  | command :: rest, s => Due initial s ∧
    (command.possible names s → Due initial (command.effect names s)) ∧
    (command.refuses = true → Covered rest s) ∧
    (command.refuses = false → command.possible names s → Covered rest (command.effect names s))

variable {names initial}

theorem Covered.due {commands : List Command} {s : State} (h : Covered names initial commands s) :
    Due initial s := by
  cases commands with
  | nil => exact h
  | cons command rest => exact h.1

/-- A command without an effect. -/
theorem Covered.quiet {command : Command} {rest : List Command} {s : State}
    (hquiet : command.effect names s = s) (h : Covered names initial rest s) :
    Covered names initial (command :: rest) s := by
  refine ⟨h.due, fun _ => ?_, fun _ => h, fun _ _ => ?_⟩
  · rw [hquiet]
    exact h.due
  · rw [hquiet]
    exact h

/-- A command with an effect. -/
theorem Covered.acts {command : Command} {rest : List Command} {s : State}
    (hdue : Due initial s) (hacts : command.refuses = false)
    (h : command.possible names s → Covered names initial rest (command.effect names s)) :
    Covered names initial (command :: rest) s :=
  ⟨hdue, fun hpossible => (h hpossible).due, fun hrefuses => absurd hrefuses (by simp [hacts]),
    fun _ hpossible => h hpossible⟩

@[simp] theorem System.umount_mount {sys : System} {source dir : Str} :
    (sys.mount ⟨source, dir⟩).umount dir = sys := by
  simp [System.mount, System.umount]

/-- With the trap set, nothing mounted and nothing unbound. -/
theorem due_initial {mountDir : Option Str} {trapped : Bool}
    (hfresh : ∀ dir, mountDir = some dir → initial.isMountpoint dir = false) :
    Due initial ⟨initial, mountDir, trapped⟩ where
  untrapped := fun _ => rfl
  nvmeDir := rfl
  bound := .inl rfl
  mounts := .inl rfl
  fresh := hfresh

theorem due_mounted (hfresh : initial.isMountpoint names.tempDir = false) :
    Due initial ⟨initial.mount ⟨names.xfsDevice, names.tempDir⟩, some names.tempDir, true⟩ where
  untrapped := nofun
  nvmeDir := rfl
  bound := .inl rfl
  mounts := by
    refine .inr ⟨by simp [State.mounted, System.isMountpoint, System.mount],
      by simp [System.mount], ?_⟩
    exact List.cons_ne_self _ _
  fresh := by
    rintro dir hdir
    obtain rfl := Option.some.inj hdir
    exact hfresh

theorem due_unbound (hbound : initial.bound = .nvme) :
    Due initial ⟨initial.unbind, none, true⟩ where
  untrapped := nofun
  nvmeDir := rfl
  bound := .inr ⟨hbound, rfl⟩
  mounts := .inl rfl
  fresh := nofun

/-- **The script is covered from its start.** -/
theorem covered_script : Covered names initial script ⟨initial, none, false⟩ := by
  have hnone : ∀ trapped, Due initial ⟨initial, none, trapped⟩ := fun _ => due_initial nofun
  refine .quiet rfl <| .quiet rfl <| .quiet rfl <| .quiet rfl ?_
  refine .acts (hnone _) rfl fun _ => ?_
  refine .quiet rfl <| .quiet rfl <| .quiet rfl <| .quiet rfl ?_
  refine .acts (hnone _) rfl fun hnew => ?_
  -- the directory of `mktemp` is no mount point yet
  have hfresh : initial.isMountpoint names.tempDir = false := by
    simpa [Command.possible, Command.effect] using hnew
  have hdir : Due initial ⟨initial, some names.tempDir, true⟩ := by
    refine due_initial fun dir h => ?_
    obtain rfl := Option.some.inj h
    exact hfresh
  refine .quiet rfl <| .acts hdir rfl fun _ => ?_
  refine .quiet rfl <| .quiet rfl <| .quiet rfl ?_
  refine .acts (due_mounted hfresh) rfl fun _ => ?_
  -- `umount` undoes the mount
  have hback : Command.umount.effect names
      ⟨initial.mount ⟨names.xfsDevice, names.tempDir⟩, some names.tempDir, true⟩ =
      ⟨initial, some names.tempDir, true⟩ := by
    simp only [Command.effect, System.umount_mount]
  change Covered names initial _ (Command.umount.effect names
    ⟨initial.mount ⟨names.xfsDevice, names.tempDir⟩, some names.tempDir, true⟩)
  rw [hback]
  refine .quiet rfl <| .acts hdir rfl fun _ => ?_
  refine .quiet rfl <| .acts (hnone true) rfl fun hbound => ?_
  -- from the unbinding to the end the driver is not bound
  have hunbound : Due initial ⟨initial.unbind, none, true⟩ :=
    due_unbound (of_decide_eq_true hbound)
  exact .quiet rfl <| .quiet rfl hunbound

end Covered

/-! ### Runs -/

section Runs

variable {names : Names} {initial : System}

theorem Command.trapped_effect {command : Command} {s : State} (h : s.trapped = true) :
    (command.effect names s).trapped = true := by
  cases command <;> simp only [Command.effect] <;> first | exact h | rfl | (split <;> exact h)

/-- A command of the script: the shell exits, before or after its effect, or goes on. -/
theorem step_running {event : Event} {command : Command} {rest : List Command} {s : State}
    {next : Config} (h : step names event (.running (command :: rest) s) = some next) :
    (∃ s', (s' = s ∨ command.possible names s ∧ s' = command.effect names s) ∧ next = leave s') ∨
    (command.refuses = true ∧ next = .running rest s) ∨
    (command.refuses = false ∧ command.possible names s ∧
      next = .running rest (command.effect names s)) := by
  -- a failure and a signal differ only in whether the command may have taken effect
  have hexit : ∀ effect : Bool, (effect && !command.possible names s) ≠ true →
      ∃ s', (s' = s ∨ command.possible names s ∧ s' = command.effect names s) ∧
        leave (if effect then command.effect names s else s) = leave s' := by
    intro effect hpossible
    cases effect with
    | false => exact ⟨s, .inl rfl, rfl⟩
    | true =>
      refine ⟨command.effect names s, .inr ⟨?_, rfl⟩, rfl⟩
      simpa using hpossible
  cases event with
  | works =>
    simp only [step] at h
    split at h
    · next hpossible =>
      obtain rfl := Option.some.inj h
      split
      · exact .inl ⟨s, .inl rfl, rfl⟩
      -- a failure that the line itself catches goes on to the next command
      · next hrefuses => exact .inr (.inr ⟨by simpa using hrefuses, hpossible, rfl⟩)
    · cases h
  -- a failure ends the script, unless the line catches it
  | fails effect =>
    simp only [step] at h
    split at h
    · cases h
    · next hpossible =>
      split at h
      · next hrefuses =>
        obtain rfl := Option.some.inj h
        exact .inr (.inl ⟨hrefuses, rfl⟩)
      · obtain rfl := Option.some.inj h
        exact .inl (hexit effect hpossible)
  | signal effect =>
    simp only [step] at h
    split at h
    · cases h
    · next hpossible =>
      obtain rfl := Option.some.inj h
      exact .inl (hexit effect hpossible)

/-- A step of `cleanup`. -/
theorem step_cleaning {event : Event} {point : Cleanup} {s : State} {next : Config}
    (h : step names event (.cleaning point s) = some next) :
    (event = .works ∧ point.holds s = true ∧ next = goOn point.afterSuccess (point.effect s)) ∨
    (event = .fails false ∧ point.mayFail s = true ∧ next = goOn point.afterFailure s) ∨
    (event = .signal false ∧ next = .ended s.sys) ∨
    (event = .signal true ∧ point.holds s = true ∧ next = .ended (point.effect s).sys) := by
  cases event with
  | works =>
    simp only [step] at h
    split at h
    · next hholds => exact .inl ⟨rfl, hholds, (Option.some.inj h).symm⟩
    · cases h
  | fails effect =>
    simp only [step] at h
    split at h
    · next hfails =>
      simp only [Bool.and_eq_true, Bool.not_eq_true'] at hfails
      exact .inr (.inl ⟨congrArg _ hfails.1, hfails.2, (Option.some.inj h).symm⟩)
    · cases h
  -- a signal ends `cleanup` in front of the command, or behind it
  | signal effect =>
    cases effect with
    | false => exact .inr (.inr (.inl ⟨rfl, (Option.some.inj h).symm⟩))
    | true =>
      simp only [step] at h
      split at h
      · cases h
      · next hholds =>
        exact .inr (.inr (.inr ⟨rfl, by simpa using hholds, (Option.some.inj h).symm⟩))

/-! ### The mounts -/

/-- `umount` has not had its turn yet. -/
def Cleanup.early : Cleanup → Bool
  | mountDir | mountpoint | umount => true
  | _ => false

/-- Either the mounts are the initial ones and no move skipped `umount`, or the mount of the
script is there, and that was no skip as long as its turn is to come. -/
structure MountDue (initial : System) (history : List (Event × Config)) (early : Bool)
    (s : State) : Prop where
  fresh : ∀ dir, s.mountDir = some dir → initial.isMountpoint dir = false
  mounts : (s.sys.mounts = initial.mounts ∧ Avoided SkipsUmount history) ∨
    (s.mounted ∧ s.sys.mounts.eraseP (fun m => some m.dir = s.mountDir) = initial.mounts ∧
      s.sys.mounts ≠ initial.mounts ∧ (Avoided SkipsUmount history ↔ early = true))

/-- How a run stands with the mounts. -/
def MountsTracked (names : Names) (initial : System) (history : List (Event × Config)) :
    Config → Prop
  | .running rest s => Covered names initial rest s ∧ Avoided SkipsUmount history
  | .cleaning point s => MountDue initial history point.early s
  | .ended sys => sys.mounts = initial.mounts ↔ Avoided SkipsUmount history

theorem MountDue.mounts_eq_iff {history : List (Event × Config)} {s : State}
    (h : MountDue initial history false s) :
    s.sys.mounts = initial.mounts ↔ Avoided SkipsUmount history := by
  rcases h.mounts with ⟨hmounts, havoid⟩ | ⟨-, -, hmounts, havoid⟩
  · exact iff_of_true hmounts havoid
  · exact iff_of_false hmounts fun h => Bool.false_ne_true (havoid.mp h)

/-- Only the mounts and `MOUNT_DIR` matter. -/
theorem MountDue.of_eq {history : List (Event × Config)} {early : Bool} {s s' : State}
    (h : MountDue initial history early s) (hmounts : s'.sys.mounts = s.sys.mounts)
    (hdir : s'.mountDir = s.mountDir) : MountDue initial history early s' := by
  obtain ⟨hfresh, hdue⟩ := h
  have hmounted : s'.mounted = s.mounted := by
    simp only [State.mounted, System.isMountpoint, hmounts, hdir]
  refine ⟨by rwa [hdir], ?_⟩
  rw [hmounts, hdir, hmounted]
  exact hdue

theorem MountDue.goOn {history : List (Event × Config)} {next : Option Cleanup} {s : State}
    (h : MountDue initial history (next.any Cleanup.early) s) :
    MountsTracked names initial history (goOn next s) := by
  cases next with
  | none => exact h.mounts_eq_iff
  | some point => exact h

/-- A directory that was no mount point is none while the mounts are the initial ones. -/
theorem not_mounted {s : State}
    (hfresh : ∀ dir, s.mountDir = some dir → initial.isMountpoint dir = false)
    (hmounts : s.sys.mounts = initial.mounts) : s.mounted = false := by
  unfold State.mounted
  split
  · next dir hdir =>
    rw [System.isMountpoint, hmounts]
    exact hfresh dir hdir
  · rfl

theorem mountDue_leave {history : List (Event × Config)} {s : State} (h : Due initial s)
    (havoid : Avoided SkipsUmount history) : MountsTracked names initial history (leave s) := by
  unfold leave
  split
  · refine ⟨h.fresh, ?_⟩
    rcases h.mounts with hmounts | ⟨hmounted, herase, hne⟩
    · exact .inl ⟨hmounts, havoid⟩
    · exact .inr ⟨hmounted, herase, hne, iff_of_true havoid rfl⟩
  · next htrap =>
    have hsys := h.untrapped (by simpa using htrap)
    exact iff_of_true (congrArg System.mounts hsys) havoid

/-- The effects of `cleanup` on the mounts. -/
theorem Cleanup.effect_mounts {point : Cleanup} {s : State} (h : point ≠ .umount) :
    (point.effect s).sys.mounts = s.sys.mounts ∧ (point.effect s).mountDir = s.mountDir := by
  cases point <;> first | exact absurd rfl h | exact ⟨rfl, rfl⟩ | skip
  refine ⟨?_, rfl⟩
  simp only [Cleanup.effect, System.bind]
  split <;> rfl

/-- A step of `cleanup` while the mounts are the initial ones. -/
theorem mountsTracked_idle {history : List (Event × Config)} {event : Event} {point : Cleanup}
    {s : State} {next : Config}
    (hfresh : ∀ dir, s.mountDir = some dir → initial.isMountpoint dir = false)
    (hmounts : s.sys.mounts = initial.mounts) (havoid : Avoided SkipsUmount history)
    (hstep : step names event (.cleaning point s) = some next) :
    MountsTracked names initial (history ++ [(event, .cleaning point s)]) next := by
  have hnone := not_mounted hfresh hmounts
  -- nothing is mounted, so nothing is left mounted by this move
  have hskip : ¬ SkipsUmount event (.cleaning point s) := by
    cases event with
    | works => exact id
    | fails effect => cases point <;> simp [SkipsUmount, hnone]
    | signal effect => simp [SkipsUmount, hnone]
  have hdue : ∀ early, MountDue initial (history ++ [(event, .cleaning point s)]) early s :=
    fun _ => ⟨hfresh, .inl ⟨hmounts, Runs.avoided_concat.mpr ⟨havoid, hskip⟩⟩⟩
  -- `umount` does not hold, and no other step changes the mounts
  have heffect : point.holds s = true → ∀ early,
      MountDue initial (history ++ [(event, .cleaning point s)]) early (point.effect s) := by
    intro hholds early
    have hpoint : point ≠ .umount := by
      rintro rfl
      rw [Cleanup.holds, hnone] at hholds
      cases hholds
    obtain ⟨hsame, hdir⟩ := Cleanup.effect_mounts (s := s) hpoint
    exact (hdue early).of_eq hsame hdir
  rcases step_cleaning hstep with
    ⟨-, hholds, rfl⟩ | ⟨-, -, rfl⟩ | ⟨-, rfl⟩ | ⟨-, hholds, rfl⟩
  · exact (heffect hholds _).goOn
  · exact (hdue _).goOn
  · exact (hdue false).mounts_eq_iff
  · exact (heffect hholds false).mounts_eq_iff

/-- What `umount` takes away is what the script mounted. -/
theorem effect_umount {s : State} (hmounted : s.mounted = true) :
    (Cleanup.umount.effect s).sys.mounts =
        s.sys.mounts.eraseP (fun m => some m.dir = s.mountDir) ∧
      (Cleanup.umount.effect s).mountDir = s.mountDir := by
  obtain ⟨sys, mountDir, trapped⟩ := s
  cases mountDir with
  | none => cases hmounted
  | some dir => simp [Cleanup.effect, System.umount]

theorem mountsTracked_cleaning {history : List (Event × Config)} {event : Event}
    {point : Cleanup} {s : State} {next : Config} (h : MountDue initial history point.early s)
    (hstep : step names event (.cleaning point s) = some next) :
    MountsTracked names initial (history ++ [(event, .cleaning point s)]) next := by
  rcases h.mounts with ⟨hmounts, havoid⟩ | ⟨hmounted, herase, hne, hearly⟩
  · exact mountsTracked_idle h.fresh hmounts havoid hstep
  -- the mount stays: the move is a skip, or `umount` is still to come, or was skipped before
  have hstays : ∀ early, (Avoided SkipsUmount (history ++ [(event, .cleaning point s)]) ↔
      early = true) → MountDue initial (history ++ [(event, .cleaning point s)]) early s :=
    fun _ hiff => ⟨h.fresh, .inr ⟨hmounted, herase, hne, hiff⟩⟩
  have heffect : point ≠ .umount → ∀ early, (Avoided SkipsUmount
      (history ++ [(event, .cleaning point s)]) ↔ early = true) →
      MountDue initial (history ++ [(event, .cleaning point s)]) early (point.effect s) := by
    intro hpoint early hiff
    obtain ⟨hsame, hdir⟩ := Cleanup.effect_mounts (s := s) hpoint
    exact (hstays early hiff).of_eq hsame hdir
  have hskips : SkipsUmount event (.cleaning point s) →
      (Avoided SkipsUmount (history ++ [(event, .cleaning point s)]) ↔ false = true) := by
    intro hskip
    simp [hskip]
  have hkeeps : ¬ SkipsUmount event (.cleaning point s) →
      (Avoided SkipsUmount (history ++ [(event, .cleaning point s)]) ↔ point.early = true) := by
    intro hskip
    simp [hskip, hearly]
  rcases step_cleaning hstep with
    ⟨rfl, hholds, rfl⟩ | ⟨rfl, hfails, rfl⟩ | ⟨rfl, rfl⟩ | ⟨rfl, hholds, rfl⟩
  · have hkeeps := hkeeps id
    cases point with
    | umount =>
      -- the mount of the script goes
      obtain ⟨hsame, hdir⟩ := effect_umount hmounted
      refine MountDue.goOn ⟨fun dir h' => h.fresh dir (hdir ▸ h'), .inl ⟨hsame.trans herase, ?_⟩⟩
      exact hkeeps.mpr rfl
    | mountDir => exact (heffect (by decide) _ hkeeps).goOn
    | mountpoint => exact (heffect (by decide) _ hkeeps).goOn
    | rmdir => exact (heffect (by decide) _ hkeeps).goOn
    | driver => exact (heffect (by decide) _ hkeeps).goOn
    | echo => exact (heffect (by decide) _ hkeeps).goOn
    | bind => exact (heffect (by decide) _ hkeeps).goOn
  · cases point with
    | mountDir =>
      -- there is a `MOUNT_DIR`
      simp only [Cleanup.mayFail, Cleanup.holds, Bool.not_eq_true', Option.isSome_eq_false_iff,
        Option.isNone_iff_eq_none] at hfails
      rw [State.mounted, hfails] at hmounted
      cases hmounted
    | mountpoint => exact (hstays _ (hskips hmounted)).goOn
    | umount =>
      simp only [Cleanup.mayFail, Cleanup.holds, hmounted] at hfails
      cases hfails
    | rmdir => exact (hstays _ (hkeeps id)).goOn
    | driver => exact (hstays _ (hkeeps id)).goOn
    | echo => exact (hstays _ (hkeeps id)).goOn
    | bind => exact (hstays _ (hkeeps id)).goOn
  · exact (hstays _ (hskips ⟨hmounted, by simp⟩)).mounts_eq_iff
  · -- a signal: `umount` is done, or never will be
    by_cases hpoint : point = .umount
    · subst hpoint
      obtain ⟨hsame, -⟩ := effect_umount hmounted
      refine iff_of_true (hsame.trans herase) ((hkeeps ?_).mpr rfl)
      simp [SkipsUmount]
    · exact (heffect hpoint _ (hskips ⟨hmounted, by simp [hpoint]⟩)).mounts_eq_iff

/-! ### The driver -/

/-- When the controller ends with the driver it had. -/
def BoundBack (initial : System) (history : List (Event × Config)) : Prop :=
  (initial.bound = .nvme → Avoided SkipsBind history) ∧
    (initial.bound = .none → initial.nvmeDir = false ∨ Avoided Trapped history ∨
      ¬ Avoided SkipsBind history)

/-- How a run stands with the driver. `cleanup` reaches its `bind` with a device that has not
got the nvme driver. -/
def DriverTracked (names : Names) (initial : System) (history : List (Event × Config)) :
    Config → Prop
  | .running rest s => Covered names initial rest s ∧ Avoided SkipsBind history ∧
    (s.trapped = false → Avoided Trapped history)
  | .cleaning point s => s.sys.nvmeDir = initial.nvmeDir ∧
    (s.sys.bound = initial.bound ∨ initial.bound = .nvme ∧ s.sys.bound = .none) ∧
    Avoided SkipsBind history ∧
    (point = .echo ∨ point = .bind → s.sys.bound ≠ .nvme ∧ s.sys.nvmeDir = true)
  | .ended sys => sys.bound = initial.bound ↔ BoundBack initial history

theorem driverTracked_leave {history : List (Event × Config)} {s : State} (h : Due initial s)
    (havoid : Avoided SkipsBind history) (htrap : s.trapped = false → Avoided Trapped history) :
    DriverTracked names initial history (leave s) := by
  unfold leave
  split
  · exact ⟨h.nvmeDir, h.bound, havoid, by simp⟩
  · next hnot =>
    have huntrapped : s.trapped = false := by simpa using hnot
    have hsys := h.untrapped huntrapped
    exact iff_of_true (congrArg System.bound hsys)
      ⟨fun _ => havoid, fun _ => .inr (.inl (htrap huntrapped))⟩

/-- The driver at the end, by what `cleanup` has done about it. -/
theorem boundBack_of_cleaning {history : List (Event × Config)} {s : State} {bound : Binding}
    {event : Event} {point : Cleanup}
    (hdue : s.sys.bound = initial.bound ∨ initial.bound = .nvme ∧ s.sys.bound = .none)
    (havoid : Avoided SkipsBind history)
    (h : (s.sys.bound = .none ∧ bound = .nvme ∧ initial.nvmeDir = true ∧
        ¬ SkipsBind event (.cleaning point s)) ∨
      (s.sys.bound = .none ∧ bound = .none ∧ SkipsBind event (.cleaning point s)) ∨
      (bound = s.sys.bound ∧ (s.sys.bound = .none → initial.nvmeDir = false) ∧
        ¬ SkipsBind event (.cleaning point s))) :
    bound = initial.bound ↔ BoundBack initial (history ++ [(event, .cleaning point s)]) := by
  have hloaded := initial.loaded
  simp only [BoundBack, Runs.avoided_concat, havoid, true_and, Trapped, not_true_eq_false,
    and_false, false_or, not_not]
  -- bound again, skipped, or left as it was
  rcases h with ⟨hnone, rfl, hdir, hskip⟩ | ⟨hnone, rfl, hskip⟩ | ⟨rfl, hdir, hskip⟩
  · cases hb : initial.bound <;> simp_all
  · cases hb : initial.bound <;> simp_all
  · cases hb : initial.bound <;> simp_all

/-- Only `bind` gives the device a driver. -/
theorem Cleanup.effect_bound {point : Cleanup} {s : State} (h : point ≠ .bind) :
    (point.effect s).sys.bound = s.sys.bound ∧ (point.effect s).sys.nvmeDir = s.sys.nvmeDir := by
  cases point <;> first | exact absurd rfl h | exact ⟨rfl, rfl⟩ | skip
  simp only [Cleanup.effect]
  split <;> exact ⟨rfl, rfl⟩

theorem effect_bind {s : State} (h : Cleanup.bind.holds s = true) :
    (Cleanup.bind.effect s).sys.bound = .nvme ∧ s.sys.bound = .none ∧ s.sys.nvmeDir = true := by
  simp only [Cleanup.holds, Bool.and_eq_true, decide_eq_true_eq] at h
  refine ⟨?_, h.2, h.1⟩
  simp only [Cleanup.effect, System.bind]
  rw [dif_pos ⟨h.2, h.1⟩]

theorem driverTracked_cleaning {history : List (Event × Config)} {event : Event}
    {point : Cleanup} {s : State} {next : Config}
    (h : DriverTracked names initial history (.cleaning point s))
    (hstep : step names event (.cleaning point s) = some next) :
    DriverTracked names initial (history ++ [(event, .cleaning point s)]) next := by
  obtain ⟨hdir, hdue, havoid, hpoint⟩ := h
  -- `cleanup` goes on with the driver as it is
  have htriple : ∀ next' s', ¬ SkipsBind event (.cleaning point s) →
      (s'.sys.bound = s.sys.bound ∧ s'.sys.nvmeDir = s.sys.nvmeDir) →
      (next' = .echo ∨ next' = .bind → s.sys.bound ≠ .nvme ∧ s.sys.nvmeDir = true) →
      DriverTracked names initial (history ++ [(event, .cleaning point s)])
        (.cleaning next' s') := by
    rintro next' s' hskip ⟨hbound, hsame⟩ hnext
    refine ⟨hsame.trans hdir, ?_, Runs.avoided_concat.mpr ⟨havoid, hskip⟩, ?_⟩
    · rwa [hbound]
    · rwa [hbound, hsame]
  -- `cleanup` ends with the driver as it is
  have hends : ∀ sys : System, sys.bound = s.sys.bound →
      (s.sys.bound = .none → initial.nvmeDir = false ∨ SkipsBind event (.cleaning point s)) →
      (s.sys.bound ≠ .none → ¬ SkipsBind event (.cleaning point s)) →
      DriverTracked names initial (history ++ [(event, .cleaning point s)]) (.ended sys) := by
    intro sys hbound hnone hsome
    refine boundBack_of_cleaning hdue havoid ?_
    by_cases hskip : SkipsBind event (.cleaning point s)
    · have hb : s.sys.bound = .none := by
        by_contra hb
        exact hsome hb hskip
      exact .inr (.inl ⟨hb, hbound.trans hb, hskip⟩)
    · exact .inr (.inr ⟨hbound, fun hb => (hnone hb).resolve_right hskip, hskip⟩)
  -- the four moves of `cleanup`, and for each the command it is at
  rcases step_cleaning hstep with
    ⟨rfl, hholds, rfl⟩ | ⟨rfl, hfails, rfl⟩ | ⟨rfl, rfl⟩ | ⟨rfl, hholds, rfl⟩
  · cases point with
    | bind =>
      obtain ⟨hbound, hnone, hsysDir⟩ := effect_bind hholds
      exact boundBack_of_cleaning hdue havoid
        (.inl ⟨hnone, hbound, hdir.symm.trans hsysDir, id⟩)
    | driver =>
      simp only [Cleanup.holds, Bool.and_eq_true, decide_eq_true_eq] at hholds
      exact htriple .echo _ id ⟨rfl, rfl⟩ fun _ => ⟨hholds.2, hholds.1⟩
    | echo => exact htriple .bind _ id ⟨rfl, rfl⟩ fun _ => hpoint (.inl rfl)
    | mountDir => exact htriple .mountpoint _ id ⟨rfl, rfl⟩ (by simp)
    | mountpoint => exact htriple .umount _ id ⟨rfl, rfl⟩ (by simp)
    | umount => exact htriple .rmdir _ id (Cleanup.effect_bound (by decide)) (by simp)
    | rmdir => exact htriple .driver _ id ⟨rfl, rfl⟩ (by simp)
  · cases point with
    | mountDir => exact htriple .driver _ id ⟨rfl, rfl⟩ (by simp)
    | mountpoint => exact htriple .rmdir _ id ⟨rfl, rfl⟩ (by simp)
    | umount => exact htriple .rmdir _ id ⟨rfl, rfl⟩ (by simp)
    | rmdir => exact htriple .driver _ id ⟨rfl, rfl⟩ (by simp)
    | driver =>
      refine hends _ rfl (fun hnone => .inl ?_) fun _ => id
      simp only [Cleanup.mayFail, Cleanup.holds, hnone] at hfails
      rw [← hdir]
      simpa using hfails
    | echo => exact hends _ rfl (fun hnone => .inr hnone) id
    | bind =>
      refine hends _ rfl (fun hnone => ?_) fun _ => id
      simp only [Cleanup.mayFail, Cleanup.holds, hnone, (hpoint (.inr rfl)).2] at hfails
      cases hfails
  · exact hends _ rfl (fun hnone => .inr ⟨hnone, by simp⟩) fun hsome hskip => hsome hskip.1
  · by_cases hbind : point = .bind
    · subst hbind
      obtain ⟨hbound, hnone, hsysDir⟩ := effect_bind hholds
      refine boundBack_of_cleaning hdue havoid (.inl ⟨hnone, hbound, hdir.symm.trans hsysDir, ?_⟩)
      simp [SkipsBind]
    · refine hends _ (Cleanup.effect_bound hbind).1 (fun hnone => .inr ⟨hnone, ?_⟩)
        fun hsome hskip => hsome hskip.1
      simp [hbind]

/-! ### The whole run -/

/-- How a run stands. -/
structure Tracked (names : Names) (initial : System) (history : List (Event × Config))
    (c : Config) : Prop where
  mounts : MountsTracked names initial history c
  driver : DriverTracked names initial history c

theorem tracked_leave {history : List (Event × Config)} {s : State} (h : Due initial s)
    (humount : Avoided SkipsUmount history) (hbind : Avoided SkipsBind history)
    (htrap : s.trapped = false → Avoided Trapped history) :
    Tracked names initial history (leave s) :=
  ⟨mountDue_leave h humount, driverTracked_leave h hbind htrap⟩

/-- **Every move keeps track.** -/
theorem tracked_step (history : List (Event × Config)) (event : Event) (c next : Config)
    (h : Tracked names initial history c) (hstep : step names event c = some next) :
    Tracked names initial (history ++ [(event, c)]) next := by
  cases c with
  | ended sys => cases hstep
  | cleaning point s =>
    exact ⟨mountsTracked_cleaning h.mounts hstep, driverTracked_cleaning h.driver hstep⟩
  | running rest s =>
    obtain ⟨hcovered, humount⟩ := h.mounts
    obtain ⟨-, hbind, htrap⟩ := h.driver
    have humount' : Avoided SkipsUmount (history ++ [(event, .running rest s)]) :=
      Runs.avoided_concat.mpr ⟨humount, by cases event <;> exact id⟩
    have hbind' : Avoided SkipsBind (history ++ [(event, .running rest s)]) :=
      Runs.avoided_concat.mpr ⟨hbind, by cases event <;> exact id⟩
    have htrap' : s.trapped = false → Avoided Trapped (history ++ [(event, .running rest s)]) :=
      fun hnot => Runs.avoided_concat.mpr ⟨htrap hnot, by simp [Trapped, hnot]⟩
    -- a command that leaves the trap unset found it unset
    have heffect : ∀ command : Command, (command.effect names s).trapped = false →
        s.trapped = false := by
      intro command hnot
      by_contra hset
      rw [Command.trapped_effect (by simpa using hset)] at hnot
      cases hnot
    cases rest with
    | nil =>
      obtain rfl := Option.some.inj hstep
      exact tracked_leave hcovered humount' hbind' htrap'
    | cons command rest =>
      obtain ⟨hdue, hacts, hrefused, htriple⟩ := hcovered
      rcases step_running hstep with
        ⟨s', rfl | ⟨hpossible, rfl⟩, rfl⟩ | ⟨hrefuses, rfl⟩ | ⟨hrefuses, hpossible, rfl⟩
      -- left early without its effect, left early with it, caught, or gone on
      · exact tracked_leave hdue humount' hbind' htrap'
      · exact tracked_leave (hacts hpossible) humount' hbind' fun hnot => htrap' (heffect _ hnot)
      · exact ⟨⟨hrefused hrefuses, humount'⟩, hrefused hrefuses, hbind', htrap'⟩
      · have hrest := htriple hrefuses hpossible
        exact ⟨⟨hrest, humount'⟩, hrest, hbind', fun hnot => htrap' (heffect _ hnot)⟩

/-- **When the device is given back as it was found.** At the end of any run, the mounts and
the driver of the controller are the initial ones exactly when no move of `cleanup` skipped
its `umount`; none skipped its `bind`, if the controller had the nvme driver; and `cleanup`
did not get to its `bind`, if the controller had no driver: there was no nvme driver to bind,
or the trap was never set, or a move skipped it. -/
theorem gives_back {final : System} {events : List Event}
    (hrun : run (step names) events (start initial) = some (.ended final)) :
    (final.mounts = initial.mounts ∧ final.bound = initial.bound) ↔
      Avoided SkipsUmount (moves (step names) events (start initial)) ∧
        BoundBack initial (moves (step names) events (start initial)) := by
  have hstart : Tracked names initial [] (start initial) :=
    ⟨⟨covered_script, Runs.avoided_nil⟩, covered_script, Runs.avoided_nil,
      fun _ => Runs.avoided_nil⟩
  have hend := Runs.run_history tracked_step hstart hrun
  rw [List.nil_append] at hend
  exact and_congr hend.mounts hend.driver

end Runs

/-! ### Runs of one device -/

/-- The resting state: bound to the nvme driver, and nothing mounted. -/
def resting : System := ⟨.nvme, true, [], fun _ => rfl⟩

/-- The script up to the REPL, on a device in the resting state. -/
def toRepl : List Event :=
  [.works, .works, .works, .fails false, .works, .works, .fails false, .fails false] ++
    List.replicate 13 .works

/-- The REPL is interrupted, and `cleanup` runs through. -/
theorem gives_back_interrupted :
    resting.unbind.bind.mounts = resting.mounts ∧ resting.unbind.bind.bound = resting.bound :=
  (@gives_back ⟨"/dev/nvme0n1".toList, "/tmp/tmp.0".toList⟩ resting _
    (toRepl ++ [.signal false, .fails false, .works, .works, .works])
    (by decide)).mpr ⟨by decide, fun _ => by decide, nofun⟩

/-- A refusal binds a device that has no driver: the script found no block device, and its
trap is set. -/
theorem refusal_binds {names : Names} {initial : System} (hnone : initial.bound = .none)
    (hdir : initial.nvmeDir = true) :
    run (step names) [.works, .works, .works, .fails false, .works, .works, .fails false, .works,
      .fails false, .works, .works, .works] (start initial) = some (.ended initial.bind) ∧
      initial.bind.bound = .nvme := by
  constructor
  · simp [run, step, start, script, leave, goOn, Command.refuses, Command.possible,
      Command.effect, Cleanup.holds, Cleanup.mayFail, Cleanup.effect, Cleanup.afterSuccess,
      Cleanup.afterFailure, hnone, hdir]
  · rw [System.bind, dif_pos ⟨hnone, hdir⟩]

/-- The terminal hangs up during the REPL. `cleanup` runs, its `echo` fails on the terminal
that is gone, and the device stays without a driver. -/
theorem not_gives_back : ¬ ∀ (names : Names) (initial final : System) (events : List Event),
    run (step names) events (start initial) = some (.ended final) →
      final.mounts = initial.mounts ∧ final.bound = initial.bound := by
  intro hback
  have hrun : run (step ⟨"/dev/nvme0n1".toList, "/tmp/tmp.0".toList⟩)
      (toRepl ++ [.signal false, .fails false, .works, .fails false]) (start resting) =
        some (.ended resting.unbind) := by decide
  exact absurd (hback _ _ _ _ hrun).2 (by decide)

end Script

end Nvmetoy
