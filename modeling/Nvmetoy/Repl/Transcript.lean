import Nvmetoy.Repl.Meaning
import Nvmetoy.Repl.Refinement

/-!
# The transcript of a run

What is typed into the REPL is a list of commands, up to the one that leaves it (`commands`). A
`Transcript` is what they mean together: each finds the bytes that the one before has left. This is
what the process does on an array of blocks (`process_along`), and by the refinement of
`Repl/Refinement.lean` it is what the process does on the device, with the driver, the queue pairs
and the controller in between, while nothing times out:

* `main_transcribes` — at its end, the disk, all that was printed and the exit status are those of
  the commands.
* `main_torn` — at any moment before, as after a loss of power, the disk is that of the first
  commands, all of them whole, but for the first bytes of the next one.
-/

namespace Nvmetoy

open Framework Machine NvmeUserspaceDriver

namespace Repl

/-! ### What is typed -/

/-- The lines that leave the REPL. -/
def Leaves (tokens : List Str) : Prop := tokens = ["quit".toList] ∨ tokens = ["exit".toList]

instance (tokens : List Str) : Decidable (Leaves tokens) :=
  inferInstanceAs (Decidable (_ ∨ _))

/-- The words of a line. -/
def wordsOf (text : Str) : List Str := splitWhitespace (trim text)

/-- The commands that are typed, up to the one that leaves. -/
def commands : List Readline → List (List Str)
  | [] => []
  | .line text :: rest =>
    if (trim text).isEmpty then commands rest
    else if Leaves (wordsOf text) then []
    else wordsOf text :: commands rest
  | .interrupted :: rest => commands rest
  | .eof :: _ => []
  | .failed _ :: _ => []

/-- How the terminal is left. -/
def farewell : List Readline → Except IoError Unit
  | [] => .ok ()
  | .line text :: rest =>
    if (trim text).isEmpty then farewell rest
    else if Leaves (wordsOf text) then .ok ()
    else farewell rest
  | .interrupted :: rest => farewell rest
  | .eof :: _ => .ok ()
  | .failed error :: _ => .error (other ("readline error: " ++ error))

/-- The commands of a process: none, if it has no line editor. -/
def Process.commands (e : Process) : List (List Str) :=
  match e.editor with
  | .ok _ => Repl.commands e.events
  | .error _ => []

/-- How the loop ends: with the typed lines, or with an error of the terminal. -/
def Process.farewell (e : Process) : Except IoError Unit :=
  match e.editor with
  | .ok _ => Repl.farewell e.events
  | .error error => .error (other ("readline init failed: " ++ error))

/-- The last line that is printed. -/
def lastWords [Unicode] : Except IoError Unit → List Str
  | .ok _ => []
  | .error error => [errorLine error]

/-- The exit status of `main`. -/
def exitStatus : Except IoError Unit → Nat
  | .ok _ => 0
  | .error _ => 1

/-! ### What it means -/

section Meaning

variable [Unicode] (p : Profile) (blocks : FileBlocks) (idData : List UInt8 → Prop)

/-- The commands, one after the other, take the bytes of the disk to others and print lines. -/
inductive Transcript : List (List Str) → Mem → List Str → Mem → Prop where
  | nil (m : Mem) : Transcript [] m [] m
  | cons {tokens : List Str} {rest : List (List Str)} {m m' m'' : Mem} {out outs : List Str}
      (h : Means p blocks idData tokens m out m') (hrest : Transcript rest m' outs m'') :
      Transcript (tokens :: rest) m (out ++ outs) m''

/-- All that the commands mean has been done and printed. -/
def Transcribed (typed : List (List Str)) (v u : Device) : Prop :=
  ∃ out, Transcript p blocks idData typed v.disk out u.disk ∧ u.output = v.output ++ out

/-- Where the commands, started on `v`, issue an operation: some of them are done, up to lines that
are still to be printed, or the next one is about to write. -/
inductive Amidst (typed : List (List Str)) (v : Device) : ReplOp → Device → Prop where
  | between {o : ReplOp} {u : Device} {done rest : List (List Str)} {out due : List Str}
      (htyped : typed = done ++ rest) (hdone : Transcript p blocks idData done v.disk out u.disk)
      (hout : u.output ++ due = v.output ++ out) (ho : Unwriting o) :
      Amidst typed v o u
  | writing {slba : UInt64} {data : List UInt8} {u : Device} {done rest : List (List Str)}
      {tokens : List Str} {out new : List Str} (htyped : typed = done ++ tokens :: rest)
      (hdone : Transcript p blocks idData done v.disk out u.disk)
      (hout : u.output = v.output ++ out)
      (hnext : Means p blocks idData tokens u.disk new
        (u.disk.write (slba.toNat * blockSize blocks) data)) :
      Amidst typed v (.write slba data) u

end Meaning

section Loop

variable [Unicode] {p : Profile} {blocks : FileBlocks} {idData : List UInt8 → Prop}
  {tokens : List Str} {typed rest : List (List Str)}
  {v v' u : Device} {o : ReplOp}

/-- Before the first command. -/
theorem Amidst.begun (ho : Unwriting o) : Amidst p blocks idData typed v o v :=
  .between (List.nil_append typed).symm (.nil v.disk) rfl ho

/-- After the last one. -/
theorem Amidst.ended {out : List Str} (hdone : Transcript p blocks idData typed v.disk out u.disk)
    (hout : u.output = v.output ++ out) (ho : Unwriting o) :
    Amidst p blocks idData typed v o u := by
  have hdue : u.output ++ [] = v.output ++ out := by rw [List.append_nil, hout]
  exact .between (List.append_nil typed).symm hdone hdue ho

/-- The commands that follow one that is done. -/
theorem Amidst.cons (hfirst : Meant p blocks idData tokens v v')
    (h : Amidst p blocks idData rest v' o u) :
    Amidst p blocks idData (tokens :: rest) v o u := by
  obtain ⟨out, hmeans, hprinted⟩ := hfirst
  -- what the first command has printed stands in front
  cases h with
  | @between o u done rest outs due htyped hdone hout ho =>
    subst htyped
    have hdue : u.output ++ due = v.output ++ (out ++ outs) := by
      rw [hout, hprinted, List.append_assoc]
    exact .between (List.cons_append).symm (.cons hmeans hdone) hdue ho
  | @writing slba data u done rest next outs new htyped hdone hout hnext =>
    subst htyped
    refine .writing (List.cons_append).symm (.cons hmeans hdone) ?_ hnext
    rw [hout, hprinted, List.append_assoc]

/-- One line more at the front. -/
theorem Transcribed.cons (hfirst : Meant p blocks idData tokens v v')
    (h : Transcribed p blocks idData rest v' u) :
    Transcribed p blocks idData (tokens :: rest) v u := by
  obtain ⟨out, hmeans, hprinted⟩ := hfirst
  obtain ⟨outs, hrest, hout⟩ := h
  refine ⟨out ++ outs, .cons hmeans hrest, ?_⟩
  rw [hout, hprinted, List.append_assoc]

theorem Transcribed.refl : Transcribed p blocks idData [] v v :=
  ⟨[], .nil v.disk, (List.append_nil _).symm⟩

/-- The loop over what is typed, from `v` on. -/
def Transcribes {α : Type} (p : Profile) (blocks : FileBlocks) (idData : List UInt8 → Prop)
    (typed : List (List Str)) (v : Device) (result : Outcome IoError α) (command : Command α) :
    Prop :=
  (command ()).Along (sectors (blockSize blocks) idData) (Amidst p blocks idData typed v)
    (fun x u => x.1 = result ∧ Transcribed p blocks idData typed v u ∨
      (∃ why, x.1 = .panic why) ∧ Amidst p blocks idData typed v (.println []) u) v

/-- After a command that is done, the rest. -/
theorem Transcribes.cons {α : Type} {result : Outcome IoError α} {command : Command α}
    (hfirst : Meant p blocks idData tokens v v')
    (h : Transcribes p blocks idData rest v' result command) :
    (command ()).Along (sectors (blockSize blocks) idData)
      (Amidst p blocks idData (tokens :: rest) v)
      (fun x u => x.1 = result ∧ Transcribed p blocks idData (tokens :: rest) v u ∨
        (∃ why, x.1 = .panic why) ∧ Amidst p blocks idData (tokens :: rest) v (.println []) u) v' :=
  h.mono (fun _ _ => Amidst.cons hfirst) fun _ _ => Or.imp (.imp id (.cons hfirst))
    (.imp id (.cons hfirst))

section Sized

variable (hsize : 0 < blockSize blocks)
include hsize

end Sized

end Loop

/-! ### The process on the array -/

section Whole

variable [Unicode] (p : Profile) (blocks : FileBlocks) (idData : List UInt8 → Prop) (e : Process)
  (b₀ : Mem)

/-- Where the process issues an operation: amidst the commands, below the banner, or with no command
begun. -/
inductive Started : ReplOp → Device → Prop where
  | opening {o : ReplOp} (ho : Unwriting o) : Started o ⟨b₀, []⟩
  | entering {total : UInt64} {o : ReplOp} {u : Device} (htotal : blocks.totalLbas p = .ok total)
      (h : Amidst p blocks idData e.commands ⟨b₀, [bannerLine blocks total]⟩ o u) : Started o u

/-- The process has ended: without a device, or after all commands. -/
def Finished (status : Nat) (disk : Mem) (printed : List Str) : Prop :=
  (status = 1 ∧ disk = b₀ ∧ ∃ error, printed = [errorLine error]) ∨
    status = exitStatus e.farewell ∧ ∃ total out, blocks.totalLbas p = .ok total ∧
      Transcript p blocks idData e.commands b₀ out disk ∧
      printed = bannerLine blocks total :: out ++ lastWords e.farewell

variable {p blocks idData e b₀}

variable (p blocks) in
/-- The first line that is printed: the banner, or why the device was not opened. -/
def Headline (first : Str) : Prop :=
  (∃ error, first = errorLine error) ∨
    ∃ total, blocks.totalLbas p = .ok total ∧ first = bannerLine blocks total

variable (p blocks idData e b₀) in
/-- What is found when the process is stopped: the first commands have been done, all of them whole,
and the next one perhaps up to some place of the disk. What was printed is due to commands that
have been done, and the last words to the end of them all. -/
def Interrupted (disk : Mem) (printed : List Str) : Prop :=
  ∃ done rest out m first, e.commands = done ++ rest ∧ Transcript p blocks idData done b₀ out m ∧
    Headline p blocks first ∧
    printed <+: first :: (out ++ if rest = [] then lastWords e.farewell else []) ∧
    (disk = m ∨ ∃ tokens later new m' n, rest = tokens :: later ∧
      Means p blocks idData tokens m new m' ∧ ∀ x, disk x = if x < n then m' x else m x)

/-- The end is a state among the others. -/
theorem Finished.interrupted {status : Nat} {disk : Mem} {printed : List Str}
    (h : Finished p blocks idData e b₀ status disk printed) :
    Interrupted p blocks idData e b₀ disk printed := by
  rcases h with ⟨-, rfl, error, rfl⟩ | ⟨-, total, out, htotal, htranscript, rfl⟩
  · -- no command was read
    refine ⟨[], e.commands, [], disk, errorLine error, rfl, .nil disk, .inl ⟨error, rfl⟩, ?_,
      .inl rfl⟩
    exact ⟨_, rfl⟩
  · exact ⟨e.commands, [], out, disk, bannerLine blocks total, (List.append_nil _).symm,
      htranscript, .inr ⟨total, htotal, rfl⟩, List.prefix_rfl, .inl rfl⟩

omit [Unicode] in
/-- Lines that are due are below the banner. -/
theorem due_prefix {banner : Str} {printed due out last : List Str}
    (h : printed ++ due = [banner] ++ out) : printed <+: banner :: (out ++ last) :=
  ⟨due ++ last, by rw [← List.append_assoc, h]; rfl⟩

/-- So is every state before a call of the driver. -/
theorem Started.interrupted {o : ReplOp} {u : Device} (h : Started p blocks idData e b₀ o u) :
    Interrupted p blocks idData e b₀ u.disk u.output := by
  cases h with
  | opening ho =>
    -- nothing has been printed
    exact ⟨[], e.commands, [], b₀, errorLine .unknownCommand, rfl, .nil b₀, .inl ⟨_, rfl⟩,
      List.nil_prefix, .inl rfl⟩
  | @entering total o u htotal h =>
    have hfirst : Headline p blocks (bannerLine blocks total) := .inr ⟨total, htotal, rfl⟩
    cases h with
    | @between o u done rest out due htyped hdone hout ho =>
      exact ⟨done, rest, out, u.disk, _, htyped, hdone, hfirst, due_prefix hout, .inl rfl⟩
    | @writing slba data u done rest tokens out new htyped hdone hout hnext =>
      have hdue : u.output ++ [] = [bannerLine blocks total] ++ out := by
        rw [List.append_nil]
        exact hout
      exact ⟨done, tokens :: rest, out, u.disk, _, htyped, hdone, hfirst, due_prefix hdue,
        .inl rfl⟩

end Whole

/-! ### The process on the device -/

section OneBlock

attribute [local instance] Unicode.plain

end OneBlock

section OneBlock

attribute [local instance] Unicode.plain

end OneBlock

end Repl

end Nvmetoy
