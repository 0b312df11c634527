import Nvmetoy.Script

/-!
# The device is handed over

`nvmetoy.sh` takes the controller from the kernel and gives it to the REPL. Two drivers of one
controller, or a mounted file system below a REPL that writes to its blocks, would destroy data. In
every run of the script, with every command failing or interrupted anywhere, the REPL is started
only with the controller taken from the kernel's driver, nothing mounted from `$XFS_DEVICE`, the
mounts as they were found, and the trap set that gives the controller back (`repl_exclusive`); and
at no moment is it without the driver that it had while something is mounted from `$XFS_DEVICE`.

That one block device is what the script looks at. Mounts from other namespaces of the controller,
or from partitions of this one, have other sources, and nothing is said of them.

The one thing that the script must be able to trust is `findmnt`: `overlooks` is its failure while
`$XFS_DEVICE` is mounted.

* `Apart` — what holds at every moment.
* `Handed` — what the REPL is given.
* `Guarded` — what the rest of the script makes of both, by recursion on its commands.
-/

namespace Nvmetoy

open Framework
open Framework.Runs (Avoided run moves)

namespace Script

/-- `findmnt` fails, and `$XFS_DEVICE` is mounted. -/
def overlooks (names : Names) : Event → Config → Bool
  | .fails _, .running (.findmnt :: _) s => Command.findmnt.possible names s
  | _, _ => false

/-- The system of a configuration. -/
def Config.sys : Config → System
  | .running _ s => s.sys
  | .cleaning _ s => s.sys
  | .ended sys => sys

section Handover

variable (names : Names) (initial : System)

/-- Nothing is mounted from `$XFS_DEVICE`. -/
def Free (sys : System) : Prop := ∀ m ∈ sys.mounts, m.source ≠ names.xfsDevice

/-- Where the controller is without the driver that it had, nothing is mounted from
`$XFS_DEVICE`. -/
def Apart (sys : System) : Prop :=
  sys.bound = .none → initial.bound ≠ .none → Free names sys

/-- What the REPL is given. -/
structure Handed (s : State) : Prop where
  unbound : s.sys.bound = .none
  taken : initial.bound = .nvme
  free : Free names s.sys
  mounts : s.sys.mounts = initial.mounts
  mountDir : s.mountDir = none
  trapped : s.trapped = true

/-- From here on, the shell keeps the two apart, wherever it exits, and starts the REPL on a
controller that is handed over. -/
def Guarded : List Command → State → Prop
  | [], s => Apart names initial s.sys
  | command :: rest, s => Apart names initial s.sys ∧
    (command.possible names s = true → Apart names initial (command.effect names s).sys) ∧
    (command = .repl → Handed names initial s) ∧
    (command.refuses = true → (command = .findmnt → command.possible names s = false) →
      Guarded rest s) ∧
    (command.refuses = false → command.possible names s = true →
      Guarded rest (command.effect names s))

/-- How a run stands. -/
def Kept : Config → Prop
  | .running rest s => Guarded names initial rest s
  | .cleaning _ s => Apart names initial s.sys
  | .ended sys => Apart names initial sys

variable {names initial}

/-! ### The script -/

/-- Whatever is guarded is apart. -/
theorem Guarded.apart {commands : List Command} {s : State}
    (h : Guarded names initial commands s) : Apart names initial s.sys := by
  cases commands with
  | nil => exact h
  | cons command rest => exact h.1

/-- A command without an effect. -/
theorem Guarded.quiet {command : Command} {rest : List Command} {s : State}
    (hquiet : command.effect names s = s) (hrepl : command ≠ .repl)
    (h : Guarded names initial rest s) : Guarded names initial (command :: rest) s := by
  refine ⟨h.apart, fun _ => ?_, fun h => absurd h hrepl, fun _ _ => h, fun _ _ => ?_⟩
  · rw [hquiet]
    exact h.apart
  · rw [hquiet]
    exact h

/-- A command with an effect. -/
theorem Guarded.acts {command : Command} {rest : List Command} {s : State}
    (hapart : Apart names initial s.sys) (hacts : command.refuses = false)
    (hrepl : command ≠ .repl)
    (h : command.possible names s = true → Guarded names initial rest (command.effect names s)) :
    Guarded names initial (command :: rest) s := by
  refine ⟨hapart, fun hpossible => (h hpossible).apart, fun h => absurd h hrepl, ?_, ?_⟩
  · intro hrefuses
    rw [hacts] at hrefuses
    cases hrefuses
  · intro _ hpossible
    exact h hpossible

/-- After `findmnt` nothing is mounted. -/
theorem guarded_findmnt {rest : List Command} {s : State} (hapart : Apart names initial s.sys)
    (h : Free names s.sys → Guarded names initial rest s) :
    Guarded names initial (.findmnt :: rest) s := by
  refine ⟨hapart, fun _ => hapart, (fun hrepl => by cases hrepl), fun _ hfound => ?_,
    (fun hacts => by cases hacts)⟩
  refine h fun m hm hsource => ?_
  have hnone : (s.sys.mounts.any fun m => m.source = names.xfsDevice) = false := hfound rfl
  rw [List.any_eq_false] at hnone
  exact hnone m hm (by simpa using hsource)

/-- A binding that is as before needs no check. -/
theorem apart_of_bound {sys : System} (h : sys.bound = initial.bound) :
    Apart names initial sys :=
  fun hnone hhad => absurd (h.symm.trans hnone) hhad

/-- **The script is guarded from its start.** -/
theorem guarded_script : Guarded names initial script ⟨initial, none, false⟩ := by
  have hbound (mountDir : Option Str) (trapped : Bool) :
      Apart names initial (State.mk initial mountDir trapped).sys := apart_of_bound rfl
  -- up to `trap cleanup EXIT`, nothing has an effect
  refine .quiet rfl (by decide) <| .quiet rfl (by decide) <| .quiet rfl (by decide) <|
    .quiet rfl (by decide) ?_
  refine .acts (hbound _ _) rfl (by decide) fun _ => .quiet rfl (by decide) ?_
  -- from here on, nothing is known to be mounted from `$XFS_DEVICE`
  refine guarded_findmnt (hbound _ _) fun hfree => ?_
  refine .quiet rfl (by decide) <| .quiet rfl (by decide) ?_
  refine .acts (hbound _ _) rfl (by decide) fun _ => .quiet rfl (by decide) ?_
  refine .acts (hbound _ _) rfl (by decide) fun _ => ?_
  -- while the script has it mounted, the controller still has its driver
  have hmounted : Apart names initial (initial.mount ⟨names.xfsDevice, names.tempDir⟩) :=
    apart_of_bound rfl
  refine .quiet rfl (by decide) <| .quiet rfl (by decide) <| .quiet rfl (by decide) ?_
  refine .acts hmounted rfl (by decide) fun _ => ?_
  -- `umount` takes away what `mount` has added, so that the mounts are those found
  have hback : Command.umount.effect names
      ⟨initial.mount ⟨names.xfsDevice, names.tempDir⟩, some names.tempDir, true⟩ =
      ⟨initial, some names.tempDir, true⟩ := by
    simp only [Command.effect, System.umount_mount]
  change Guarded names initial _ (Command.umount.effect names
    ⟨initial.mount ⟨names.xfsDevice, names.tempDir⟩, some names.tempDir, true⟩)
  rw [hback]
  refine .quiet rfl (by decide) <| .acts (hbound _ _) rfl (by decide) fun _ => ?_
  refine .quiet rfl (by decide) <| .acts (hbound _ _) rfl (by decide) fun htaken => ?_
  -- the device is taken from the kernel
  have hunbound : Apart names initial initial.unbind := fun _ _ => hfree
  have hhanded : Handed names initial ⟨initial.unbind, none, true⟩ :=
    ⟨rfl, of_decide_eq_true htaken, hfree, rfl, rfl, rfl⟩
  refine .quiet rfl (by decide) ?_
  exact ⟨hunbound, fun _ => hunbound, fun _ => hhanded, (fun hrefuses => by cases hrefuses),
    fun _ _ => hunbound⟩

/-! ### Runs -/

/-- Leaving changes nothing. -/
theorem kept_leave {s : State} (h : Apart names initial s.sys) :
    Kept names initial (leave s) := by
  unfold leave
  split
  · exact h
  · exact h

theorem kept_goOn {next : Option Cleanup} {s : State} (h : Apart names initial s.sys) :
    Kept names initial (goOn next s) := by
  cases next with
  | none => exact h
  | some point => exact h

/-- A test that goes on has failed. -/
theorem event_of_caught {event : Event} {command : Command} {rest : List Command} {s : State}
    (hrefuses : command.refuses = true)
    (h : step names event (.running (command :: rest) s) = some (.running rest s)) :
    ∃ effect, event = .fails effect := by
  -- whoever leaves is running no command
  have hleaves (s' : State) : leave s' ≠ .running rest s := by
    unfold leave
    split
    · exact fun h => by cases h
    · exact fun h => by cases h
  cases event with
  | fails effect => exact ⟨effect, rfl⟩
  -- a refusal that does not fail leaves the script
  | works =>
    simp only [step] at h
    split at h
    · exact absurd (Option.some.inj h) (hleaves _)
    · cases h
  | signal effect =>
    simp only [step] at h
    split at h
    · cases h
    · exact absurd (Option.some.inj h) (hleaves _)

/-- **`cleanup` keeps them apart**: it takes mounts away, and adds a driver. -/
theorem apart_effect {point : Cleanup} {s : State} (h : Apart names initial s.sys) :
    Apart names initial (point.effect s).sys := by
  cases point with
  | umount =>
    -- fewer mounts, and the same driver
    simp only [Cleanup.effect]
    split
    · exact fun hnone hhad m hm => h hnone hhad m (List.mem_of_mem_eraseP hm)
    · exact h
  | bind =>
    -- with a driver, nothing is asked of the mounts
    simp only [Cleanup.effect, System.bind]
    split
    · exact fun hnone => by cases hnone
    · exact h
  | mountDir => exact h
  | mountpoint => exact h
  | rmdir => exact h
  | driver => exact h
  | echo => exact h

/-- **Every move** keeps them apart. -/
theorem kept_step (history : List (Event × Config)) (event : Event) (c next : Config)
    (h : Avoided (overlooks names · ·) history → Kept names initial c)
    (hstep : step names event c = some next) :
    Avoided (overlooks names · ·) (history ++ [(event, c)]) → Kept names initial next := by
  intro hseen
  rw [Runs.avoided_concat] at hseen
  have hkept := h hseen.1
  cases c with
  | ended sys => cases hstep
  | cleaning point s =>
    have hapart : Apart names initial s.sys := hkept
    rcases step_cleaning hstep with ⟨-, -, rfl⟩ | ⟨-, -, rfl⟩ | ⟨-, rfl⟩ | ⟨-, -, rfl⟩
    · exact kept_goOn (apart_effect hapart)
    · exact kept_goOn hapart
    · exact hapart
    · exact apart_effect hapart
  | running rest s =>
    cases rest with
    | nil =>
      obtain rfl := Option.some.inj hstep
      exact kept_leave hkept
    | cons command rest =>
      obtain ⟨hapart, hacts, -, hrefused, htriple⟩ := hkept
      rcases step_running hstep with
        ⟨s', rfl | ⟨hpossible, rfl⟩, rfl⟩ | ⟨hrefuses, rfl⟩ | ⟨hrefuses, hpossible, rfl⟩
      -- the shell has left without the effect of the command, or with it; or the failure of a test
      -- was what it waited for; or the command has worked
      · exact kept_leave hapart
      · exact kept_leave (hacts hpossible)
      · -- a test that was passed; that of `findmnt` tells the truth
        refine hrefused hrefuses fun hfindmnt => ?_
        obtain ⟨effect, rfl⟩ := event_of_caught hrefuses hstep
        subst hfindmnt
        exact Bool.eq_false_iff.mpr hseen.2
      · exact htriple hrefuses hpossible

end Handover

/-- **Exclusive use.** In every run of the script in which `findmnt` does not overlook a mount: when
the REPL is started, the controller has been taken from the kernel's driver, nothing is mounted from
`$XFS_DEVICE`, the mounts are those that the script found, and `cleanup` is due; and at every
moment, a controller without the driver that it had has nothing mounted from `$XFS_DEVICE`. -/
theorem repl_exclusive {names : Names} {initial : System} {events : List Event} {c : Config}
    (hrun : run (step names) events (start initial) = some c)
    (hseen : Avoided (overlooks names · ·) (moves (step names) events (start initial))) :
    (∀ rest s, c = .running (.repl :: rest) s → Handed names initial s) ∧
      Apart names initial c.sys := by
  have hstart : Avoided (overlooks names · ·) [] → Kept names initial (start initial) :=
    fun _ => guarded_script
  -- the invariant holds at the start and after each event that overlooks no mount
  have hkept : Kept names initial c := Runs.run_history kept_step hstart hrun hseen
  constructor
  · rintro rest s rfl
    exact hkept.2.2.1 rfl
  · cases c with
    | running rest s => exact Guarded.apart hkept
    | cleaning point s => exact hkept
    | ended sys => exact hkept

/-- Up to the REPL, on a device in the resting state. -/
theorem repl_exclusive_resting :
    Handed ⟨"/dev/nvme0n1".toList, "/tmp/tmp.0".toList⟩ resting ⟨resting.unbind, none, true⟩ :=
  (@repl_exclusive ⟨"/dev/nvme0n1".toList, "/tmp/tmp.0".toList⟩ resting toRepl _
    (by decide) (by decide)).1 [] _ rfl

end Script

end Nvmetoy
