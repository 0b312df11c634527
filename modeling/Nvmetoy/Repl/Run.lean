import Nvmetoy.Repl.Confinement

/-!
# The process

`nvmetoy_repl` from its arguments to its exit status. What it finds on the way is a `Process`:
the arguments, the file system, the line editor, and what the terminal gives.

* `settings` — the part that decides whether there is a device to open at all.
* `readLoop` — the loop over the terminal. `typed` are the lines that it takes from there, and
  what holds of the loop over lines alone holds of this one (`sat_readLoop`).
* `run`, `main` — the whole. The driver is dropped however `run` ends.
-/

namespace Nvmetoy

open Framework

namespace Repl

open NvmeUserspaceDriver

/-- `other`: an error with this text. -/
def other (message : String) : IoError := .os message

/-- What a call of `readline` gives. -/
inductive Readline where
  | line (text : Str)
  | interrupted
  | eof
  | failed (error : String)

/-- What the process finds: its arguments, the content of the files it can open, whether there
is a line editor, and what that gives, one call after the other. A terminal that gives nothing
more has been closed. -/
structure Process where
  arguments : List Str
  file : Str → Except IoError (List UInt8)
  editor : Except String Unit
  events : List Readline

/-! ### Before the device -/

/-- `arg`: an argument of the command line, by its index. -/
def arg (arguments : List Str) (index : Nat) (name : String) : Outcome IoError Str :=
  match arguments[index]? with
  | some text => .ok text
  | none => .err (other ("missing argument: " ++ name))

/-- `load_blocks`: the block map, as the file has it. -/
def loadBlocks (file : Str → Except IoError (List UInt8)) (path : Str) :
    Outcome IoError FileBlocks :=
  (Outcome.ofExcept (file path)).bind FileBlocks.parse

/-- What `run` needs to open the device. -/
structure Settings where
  bdf : Str
  blocks : FileBlocks
  nsid : UInt32

/-- The first part of `run`. The namespace is the first one, unless the third argument names
another. -/
def settings (e : Process) : Outcome IoError Settings := do
  let bdf ← arg e.arguments 1 "bdf"
  let path ← arg e.arguments 2 "map-file"
  let blocks ← loadBlocks e.file path
  -- the file is read before the third argument is looked at
  let nsid ← match e.arguments[3]? with
    | some value => parseU32 value
    | none => .ok 1
  pure ⟨bdf, blocks, nsid⟩

/-- `open`: the error says what to do about it. -/
def openController [Unicode] {σ : Type} (p : Profile) (bdf : Str) (nsid : UInt32) :
    Method Op Res σ IoError NvmeUserspaceDriver :=
  Method.mapErr (fun error => other ("failed to open controller " ++ String.ofList bdf ++ ": " ++
    error.message ++ " (run as root, with the device unbound from the kernel nvme driver)"))
    (openDriver p bdf nsid)

/-! ### The loop -/

section Loop

variable [Unicode] (p : Profile) (blocks : FileBlocks)

/-- The loop of `run`. An error of a line is printed; one of the terminal ends the run. -/
def readLoop : List Readline → Command Unit
  | [] => pure ()
  | .line text :: rest =>
    if (trim text).isEmpty then readLoop rest
    else do
      let result ← (runReplLine p blocks (trim text)).attempt
      match result with
      | .ok true => readLoop rest
      | .ok false => pure ()
      | .error e => do
        println ("error: ".toList ++ e.message.toList)
        readLoop rest
  -- Ctrl-C drops the line, Ctrl-D ends the run
  | .interrupted :: rest => readLoop rest
  | .eof :: _ => pure ()
  | .failed error :: _ => Method.fail (other ("readline error: " ++ error))

/-- `Editor::new`. -/
def openEditor : Except String Unit → Outcome IoError Unit
  | .ok _ => .ok ()
  | .error error => .err (other ("readline init failed: " ++ error))

/-- The line above the prompt. -/
def bannerLine (total : UInt64) : Str :=
  "nvmetoy repl: ".toList ++ showNat total.toNat ++ " device blocks of ".toList ++
    showNat blocks.deviceLbaSize.toNat ++
    " bytes accessible (the file's blocks). Type 'help', or Ctrl-D to quit.".toList

/-- The part of `run` that follows `open`. -/
def terminal (e : Process) : Command Unit := do
  let total ← Method.lift (blocks.totalLbas p)
  println (bannerLine blocks total)
  Method.lift (openEditor e.editor)
  readLoop p blocks e.events

end Loop

/-- The lines that the loop takes from the terminal, unless it is left before. -/
def typed : List Readline → List Str
  | [] => []
  | .line text :: rest => text :: typed rest
  | .interrupted :: rest => typed rest
  | .eof :: _ => []
  | .failed _ :: _ => []

section Typed

variable [Unicode] {p : Profile} {blocks : FileBlocks} {R : (o : ReplOp) → ReplRes o → Prop}
  {φ : ReplOp → Prop}

/-- **The terminal adds nothing.** What the loop over the lines issues, the loop over the
terminal issues. -/
theorem sat_readLoop {events : List Readline}
    (h : (loop p blocks (typed events) ()).Sat R φ fun _ => True) :
    (readLoop p blocks events ()).Sat R φ fun _ => True := by
  -- by induction on the events; what is not a line is no more than passed over, or the end
  induction events with
  | nil => trivial
  | cons event rest ih =>
    cases event with
    | interrupted => exact ih h
    | eof => trivial
    | failed error => trivial
    | line text =>
      rw [typed, loop] at h
      rw [readLoop]
      -- a blank line is passed over by both
      by_cases hblank : (trim text).isEmpty = true
      · rw [if_pos hblank] at h ⊢
        exact ih h
      · rw [if_neg hblank] at h ⊢
        refine Method.sat_bind_iff.mpr ((Method.sat_bind_iff.mp h).post ?_)
        rintro ⟨x, t⟩ hx
        cases x with
        | err e => exact trivial
        | panic why => exact trivial
        | ok result =>
          cases result with
          | error e => exact ⟨hx.1, fun r hr => ih (hx.2 r hr)⟩
          | ok more =>
            cases more with
            | true => exact ih hx
            | false => exact trivial

/-- What holds of a session of all the typed lines holds of the terminal. -/
theorem sat_terminal {e : Process}
    (h : (interact p blocks (typed e.events) ()).Sat R φ fun _ => True) :
    (terminal p blocks e ()).Sat R φ fun _ => True := by
  refine Method.sat_bind_iff.mpr ((Method.sat_bind_iff.mp h).post ?_)
  rintro ⟨x, t⟩ hx
  cases x with
  | ok total =>
    refine ⟨hx.1, fun r hr => ?_⟩
    exact Method.sat_lift (fun _ _ => sat_readLoop (hx.2 r hr)) (fun _ _ => trivial)
      fun _ _ => trivial
  | err error => trivial
  | panic why => trivial

end Typed

/-! ### The whole -/

section Run

variable [Unicode] (p : Profile) (e : Process) (on : Command Unit → DriverMethod Unit)

/-- The part of `run` that has a driver, where `on` runs a command on it. -/
def withDriver {σ : Type} (blocks : FileBlocks) (d : NvmeUserspaceDriver) :
    Method Op Res σ IoError Unit := do
  let _ ← Method.unwinding drop (Method.owning d (on (terminal p blocks e)))
  drop

/-- `run`, for any driver to open. -/
def runWith : Method Op Res Unit IoError Unit := do
  let s ← Method.lift (settings e)
  let d ← openController p s.bdf s.nsid
  withDriver p e on s.blocks d

/-- `run`. -/
def run : Method Op Res Unit IoError Unit := runWith p e (onDriver p)

/-- `main`, for any `run`: an error is printed and the exit status is one. -/
def mainWith : Method Op Res Unit IoError Nat := do
  let result ← (runWith p e on).attempt
  match result with
  | .ok _ => pure 0
  | .error error => do
    Method.call (Op.println ("error: ".toList ++ error.message.toList))
    pure 1

/-- `main`, with the status that the process exits with. -/
def main : Method Op Res Unit IoError Nat := mainWith p e (onDriver p)

end Run

end Repl

end Nvmetoy
