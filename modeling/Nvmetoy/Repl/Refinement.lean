import Nvmetoy.Repl.Spared

/-!
# The process on an array of blocks

Two levels of one program. `main` runs on a driver, a queue pair, a memory and a controller that
takes its steps when it likes; `process` is the same program on the machine `sectors`, whose calls
are single steps. This file shows that the second explains the first.

* `ignoresGhosts_inTime` — the controller does not see the marks of the calls (`Repl/Marks.lean`).
* `body`, `process` — what `run` and `main` do on the array, given what came of opening the device.
* `Accounted`, `Matched` — the invariant, and what holds at an end. They are followed through
  `open` (`openController_inTime`), the terminal (`onRecorded_refines`), the drop
  (`withDriver_refines`), `run` and `main`.
* `main_refines` — the result, for every run in which nothing has timed out.
-/

namespace Nvmetoy

open Framework Machine NvmeUserspaceDriver

namespace Repl

/-! ### The process on the array -/

section Process

variable [Unicode] (p : Profile) (e : Process) (opened : Except IoError Unit)

/-- `run`, on the array, where `opened` is what came of opening the device. -/
def body : Command Unit := do
  let s ← Method.lift (settings e)
  Method.lift (.ofExcept opened)
  terminal p s.blocks e

/-- `main`, on the array. -/
def process : Command Nat := do
  let result ← (body p e opened).attempt
  match result with
  | .ok _ => pure 0
  | .error error => do
    println ("error: ".toList ++ error.message.toList)
    pure 1

end Process

/-- The driver and a controller that answers in time, and what is printed. -/
def machineInTime (P : Platform) (N : Namespace) : Machine Op Res (World × List Str) :=
  (machine P (servingController N) InTime).observed prints

section Stages

variable {P : Platform} {N : Namespace} {b₀ : Mem} {v : Device} {d : NvmeUserspaceDriver}
  {p : Profile} {e : Process} {blocks : FileBlocks}

/-- What holds with no call in progress. -/
theorem Shows.rest {u : World × List Str} (h : Shows P N b₀ none v u) (next : Option ReplOp) :
    Shows P N b₀ next v u :=
  ⟨⟨h.1.singleTask, h.1.run, .inl (h.1.asked.elim id id)⟩, h.2⟩

/-- With no call in progress, the disk is the array. -/
theorem Shows.disk {u : World × List Str} (h : Shows P N b₀ none v u) : u.1.disk = v.disk :=
  h.1.underneath.elim id id

/-- The disk is the array, except for the first bytes of a write that is issued next. -/
theorem Shows.contents {α : Type} {q : Prog ReplOp ReplRes α} {u : World × List Str}
    (h : Shows P N b₀ q.next v u) : u.1.disk = v.disk ∨ ∃ slba data n k,
      q = .op (ReplOp.write slba data) k ∧
        u.1.disk = v.disk.write (slba.toNat * N.blockSize) (data.take n) := by
  rcases h.1.underneath with hdisk | hunder
  · exact .inl hdisk
  · cases q with
    | pure a => exact .inl hunder
    | op o k =>
      cases o with
      -- a write under way has left some first part of its data
      | write slba data =>
        obtain ⟨n, hn⟩ := hunder
        exact .inr ⟨slba, data, n, k, rfl, hn⟩
      | _ => exact .inl hunder

/-- Before anything has been done. -/
def Begins (b₀ : Mem) (u : World × List Str) : Prop :=
  (BeforeOpen u.1 ∧ Unused b₀ u.1) ∧ u.2 = []

theorem Begins.shows {u : World × List Str} (h : Begins b₀ u) :
    Shows P N b₀ none ⟨b₀, []⟩ u :=
  ⟨⟨h.1.2.singleTask, h.1.2.calls ▸ .nil, .inl h.1.2.current⟩, h.2⟩

theorem begins_stable : (machineInTime P N).Stable (Begins b₀) :=
  observed_stable fun log => Stable.and (stable_of_drained fun _ hw => hw.2.drained)
    (Stable.const (log = []))

/-- The handlers of the REPL meet the errors of the driver. -/
theorem onRecorded_recovers {α : Type} (command : Command α) :
    ((command ()).interp (serveRecorded p)).Recovers := by
  have hrecorded (k : Call) : (recorded p k).Recovers :=
    (Method.recovers_call _).bind fun _ => (Method.recovers_attempt _).bind fun _ =>
      (Method.recovers_call _).bind fun _ => Method.recovers_pure _
  refine Prog.interp_recovers (fun o => ?_) (command ())
  cases o with
  | read slba blockCount => exact hrecorded _
  | write slba data => exact (hrecorded _).bind fun _ => Method.recovers_pure _
  | identifyController => exact hrecorded _
  | alloc bytes => exact Method.recovers_call _
  | println line => exact Method.recovers_call _

/-- The array explains the world, by a run of the program on it. -/
def Accounted {α : Type} (P : Platform) (N : Namespace) (b₀ : Mem)
    (m : Except IoError Unit → Command α) (u : World × List Str) : Prop :=
  ∃ opened, Explains (sectors N.blockSize N.idData) (Shows P N b₀) (m opened ()) ⟨b₀, []⟩ u

/-- The program has ended on the array as on the device, which is at rest. -/
def Matched {α : Type} (P : Platform) (N : Namespace) (b₀ : Mem)
    (m : Except IoError Unit → Command α) (x : Outcome IoError α) (u : World × List Str) : Prop :=
  ∃ opened v, (sectors N.blockSize N.idData).Reaches (m opened (), ⟨b₀, []⟩) (.pure (x, ()), v) ∧
    Shows P N b₀ none v u

/-- What matches at the end is accounted for. -/
theorem Matched.accounted {α : Type} {m : Except IoError Unit → Command α} {x : Outcome IoError α}
    {u : World × List Str} (h : Matched P N b₀ m x u) : Accounted P N b₀ m u := by
  obtain ⟨opened, v, hreach, hu⟩ := h
  exact ⟨opened, _, v, hreach, hu⟩

section Aligned

variable (halign : P.base.val.toNat % PAGE_SIZE = 0)
include halign

/-- Late steps of the controller are accounted for in each of the four conditions. -/
theorem shows_stable {next : Option ReplOp} : (machineInTime P N).Stable (Shows P N b₀ next v) := by
  refine observed_stable fun log => Stable.and ?_ (Stable.const (log = v.output))
  intro w w' hw henv
  obtain ⟨hcalls, hcurrent, -⟩ := EnvStep.history henv
  exact ⟨hw.singleTask.step halign henv, hcalls.symm ▸ hw.run, hcurrent.symm ▸ hw.asked⟩

omit halign in
/-- The mappings are given up. What is kept is looked for in the world without them. -/
theorem drop_keeps {σ : Type} {I J : World × List Str → Prop} (hJ : (machineInTime P N).Stable J)
    (hI : ∀ u, J u → I u) (hrelease : ∀ w log, J (w, log) → J (w.release, log)) (t : σ) :
    (machineInTime P N).Triple I J ((drop : Method Op Res σ IoError Unit) t) fun x u =>
      x.1 = .ok () ∧ J u := by
  refine Triple.call_bind (R := fun _ => J) hJ hI ?_ fun _ => ?_
  · rintro ⟨w, log⟩ r ⟨w', log'⟩ hw ⟨⟨rfl, -⟩, hlog⟩
    obtain rfl : log' = log := hlog.trans (List.append_nil log)
    exact hw
  · -- the BAR is given up last
    refine Triple.op (R := fun _ => J) hJ hI ?_ fun _ =>
      Triple.ret hJ hI fun _ hu => ⟨rfl, hu⟩
    rintro ⟨w, log⟩ r ⟨w', log'⟩ hw ⟨⟨rfl, -⟩, hlog⟩
    obtain rfl : log' = log := hlog.trans (List.append_nil log)
    exact hrelease w log' hw

omit halign in
theorem Shows.release {next : Option ReplOp} {w : World} {log : List Str}
    (h : Shows P N b₀ next v (w, log)) : Shows P N b₀ next v (w.release, log) :=
  ⟨⟨h.1.singleTask.unmap, h.1.run, h.1.asked⟩, h.2⟩

/-- What `open` leads to. -/
theorem openController_inTime [Unicode] {s : Settings}
    (hlearn : ∀ data size, Identified N .namespace s.nsid data → blockSizeOf p data = .ok size →
      size = N.blockSize) :
    (machineInTime P N).Triple (Shows P N b₀ none ⟨b₀, []⟩) (Begins b₀)
      ((openController p s.bdf s.nsid : Method Op Res Unit IoError _) ())
      (Ends (fun d => Agrees P N b₀ d ⟨b₀, []⟩) (Shows P N b₀ none ⟨b₀, []⟩)) := by
  have hopen : (machine P (servingController N) InTime).Triple (SingleTask P N True b₀)
      (fun w => BeforeOpen w ∧ Unused b₀ w)
      ((openDriver p s.bdf s.nsid : Method Op Res Unit IoError _) ())
      (Ends (Opens P N True b₀ p s.nsid) (SingleTask P N True b₀)) :=
    openDriver_opens halign (inTime_regime P N) s.bdf s.nsid
  have hsilent : Method.Only Silent (openDriver p s.bdf s.nsid : Method Op Res Unit IoError _) :=
    silent_openDriver s.bdf s.nsid
  have hhistory : (machine P (servingController N) InTime).Triple
      (fun w => w.calls = [] ∧ w.current = none) (fun w => w.calls = [] ∧ w.current = none)
      ((openDriver p s.bdf s.nsid : Method Op Res Unit IoError _) ()) _ :=
    silent_triple ((hsilent () trivial).returning (sat_openDriver (R := Prog.Any)))
  -- what `open` does, what it leaves of the history, and that it prints nothing
  have hboth := Triple.observed (hopen.and hhistory)
    ((hsilent () trivial).mono (fun _ => Silent.prints) fun _ => id) []
  refine Triple.mapErr (Triple.post (Triple.invariant (Triple.pre hboth ?_) ?_) ?_)
  · rintro u ⟨hu, hlog⟩
    exact ⟨⟨hu, hu.2.calls, hu.2.current⟩, hlog⟩
  · rintro u ⟨⟨hsingle, hcalls, hcurrent⟩, hlog⟩
    exact ⟨⟨hsingle, hcalls ▸ .nil, .inl hcurrent⟩, hlog⟩
  · rintro ⟨x, t⟩ u ⟨⟨hends, hready, hcalls, hcurrent⟩, hlog⟩
    cases x with
    | err error => exact ⟨⟨hends, hcalls ▸ .nil, .inl hcurrent⟩, hlog⟩
    | panic why => exact ⟨⟨hends, hcalls ▸ .nil, .inl hcurrent⟩, hlog⟩
    | ok d =>
      obtain ⟨hlearnt, hnsid, hbefore⟩ := hends
      obtain ⟨-, B, hB⟩ := hready d rfl
      -- the size that it has learnt is the length of a block
      obtain ⟨data, size, hdata, hsize, hknown⟩ := hlearnt.known
      obtain rfl : B = size := Option.some.inj (hB.cached.symm.trans hknown)
      obtain rfl := hlearn data B (hnsid ▸ hdata) hsize
      have hrun := (hbefore.blocks trivial).2
      rw [hcalls] at hrun
      exact ⟨⟨hlearnt.builtFor, hB⟩, ⟨hbefore, hrun.unique .nil⟩, hlog⟩

variable (hdisk : 512 ≤ N.blockSize) (hblock : N.blockSize ≤ 2 ^ 48)
include hdisk hblock

/-- **A command** does on the device what it does on the array. -/
theorem onRecorded_refines (command : Command Unit) :
    (machineInTime P N).Triple
      (Explains (sectors N.blockSize N.idData) (Shows P N b₀) (command ()) v)
      (Agrees P N b₀ d v) (onRecorded p command d) fun x u => (∀ why, x.1 ≠ .panic why) →
        ∃ v', (sectors N.blockSize N.idData).Reaches (command (), v) (.pure (x.1, ()), v') ∧
          Agrees P N b₀ x.2 v' u := by
  have hcommand : (command ()).Sat (fun _ _ => True) (fun _ => True) fun _ => True :=
    (Prog.sat_true _).mono (fun _ => id) fun _ => id
  have hrefines : (machineInTime P N).Triple
      (Explains (sectors N.blockSize N.idData) (Shows P N b₀) (command ()) v)
      (Agrees P N b₀ d v) ((command ()).interp (serveRecorded p) d) _ :=
    (handles_sectors halign hdisk hblock).refines hcommand fun _ _ _ _ _ => trivial
  refine Triple.method_bind (hrefines.returns (onRecorded_recovers command d)) (fun x t => ?_)
    (fun e t u hu => absurd rfl (hu.1 e)) fun why t u _ h => absurd rfl (h why)
  -- the end is the one of a run on the array
  refine Triple.of_pure fun _ => Triple.pre (Triple.of_forall fun v' =>
    Triple.of_pure fun hreach => ?_) fun u hu => hu x rfl
  refine Triple.ret agrees_stable (fun u hu => ⟨_, v', hreach, hu.shows _⟩) fun u hu _ => ?_
  exact ⟨v', hreach, hu⟩

omit hdisk hblock in
theorem matched_stable {α : Type} {m : Except IoError Unit → Command α} {x : Outcome IoError α} :
    (machineInTime P N).Stable (Matched P N b₀ m x) :=
  Stable.exists fun _ => Stable.exists fun _ => Stable.and (Stable.const _) (shows_stable halign)

/-- The terminal, after which the driver is dropped. -/
theorem withDriver_refines [Unicode] (t : Unit) :
    (machineInTime P N).Triple
      (Explains (sectors N.blockSize N.idData) (Shows P N b₀) (terminal p blocks e ()) v)
      (Agrees P N b₀ d v) (withDriver p e (onRecorded p) blocks d t) fun x u =>
        (∀ why, x.1 ≠ .panic why) → ∃ v', (sectors N.blockSize N.idData).Reaches
          (terminal p blocks e (), v) (.pure (x.1, ()), v') ∧ Shows P N b₀ none v' u := by
  let I : World × List Str → Prop :=
    Explains (sectors N.blockSize N.idData) (Shows P N b₀) (terminal p blocks e ()) v
  let F (x : Outcome IoError Unit) (u : World × List Str) : Prop :=
    ∃ v', (sectors N.blockSize N.idData).Reaches (terminal p blocks e (), v) (.pure (x, ()), v') ∧
      Shows P N b₀ none v' u
  have hI : (machineInTime P N).Stable I := Stable.exists fun _ => Stable.exists fun _ =>
    Stable.and (Stable.const _) (shows_stable halign)
  have hF (x : Outcome IoError Unit) : (machineInTime P N).Stable (F x) := Stable.exists fun _ =>
    Stable.and (Stable.const _) (shows_stable halign)
  have hinv (x : Outcome IoError Unit) (u : World × List Str) (hu : F x u) : I u := by
    obtain ⟨v', hreach, hu⟩ := hu
    exact ⟨_, v', hreach, hu⟩
  -- the drop, after an end and after a panic
  have hdrop (x : Outcome IoError Unit) (t : Unit) : (machineInTime P N).Triple I (F x)
      ((drop : Method Op Res Unit IoError Unit) t) fun y u => y.1 = .ok () ∧ F x u := by
    refine drop_keeps (hF x) (hinv x) (fun w log hw => ?_) t
    obtain ⟨v', hreach, hshows⟩ := hw
    exact ⟨v', hreach, hshows.release⟩
  have hdropped (t : Unit) : (machineInTime P N).Triple I I
      ((drop : Method Op Res Unit IoError Unit) t) fun y u => y.1 = .ok () ∧ I u := by
    refine drop_keeps hI (fun _ => id) (fun w log hw => ?_) t
    obtain ⟨q, v', hreach, hshows⟩ := hw
    exact ⟨q, v', hreach, hshows.release⟩
  -- the commands at the terminal, with the driver in their hands
  have hrun : (machineInTime P N).Triple I (Agrees P N b₀ d v)
      (Method.owning d (onRecorded p (terminal p blocks e)) t) fun x u => match x.1 with
        | .ok _ => F (.ok ()) u
        | .err error => F (.err error) u
        | .panic _ => I u := by
    refine Triple.owning (Triple.post (onRecorded_refines halign hdisk hblock _).keep ?_)
    rintro ⟨x, d'⟩ u ⟨hu, hx⟩
    cases x with
    | ok _ =>
      obtain ⟨v', hreach, hagrees⟩ := hx fun why h => by cases h
      exact ⟨v', hreach, hagrees.shows none⟩
    | err error =>
      obtain ⟨v', hreach, hagrees⟩ := hx fun why h => by cases h
      exact ⟨v', hreach, hagrees.shows none⟩
    | panic why => exact hu
  have hscope : (machineInTime P N).Triple I (Agrees P N b₀ d v)
      (Method.unwinding drop (Method.owning d (onRecorded p (terminal p blocks e))) t)
      fun x u => match x.1 with
        | .ok _ => F (.ok ()) u
        | .err error => F (.err error) u
        | .panic _ => I u :=
    Triple.unwinding hrun (fun _ _ _ => id)
      (fun error t => (hdrop (.err error) t).post fun _ _ hu => hu.2)
      fun _ t => (hdropped t).post fun _ _ hu => hu.2
  refine Triple.method_bind hscope (fun _ t => (hdrop (.ok ()) t).post ?_) (fun _ _ _ hu _ => hu)
    fun why t u _ h => absurd rfl (h why)
  rintro ⟨x, t⟩ u ⟨rfl, hu⟩ -
  exact hu

/-- **`run`** ends on the device as it ends on the array. -/
theorem runWith_refines [Unicode]
    (hlearn : ∀ s, settings e = .ok s → ∀ data size, Identified N .namespace s.nsid data →
      blockSizeOf p data = .ok size → size = N.blockSize) :
    (machineInTime P N).Triple (Accounted P N b₀ (body p e)) (Begins b₀)
      (runWith p e (onRecorded p) ()) fun x u => (∀ why, x.1 ≠ .panic why) →
        Matched P N b₀ (body p e) x.1 u := by
  cases hs : settings e with
  | err error =>
    have hbody (opened : Except IoError Unit) : body p e opened () = .pure (.err error, ()) := by
      rw [body, hs]
      rfl
    -- the settings are refused before the device is opened
    have hend {u : World × List Str} (hu : Begins b₀ u) :
        Matched P N b₀ (body p e) (.err error) u :=
      ⟨.ok (), _, hbody _ ▸ .refl, hu.shows⟩
    rw [runWith, hs]
    exact Triple.ret begins_stable (fun _ hu => (hend hu).accounted) fun _ hu _ => hend hu
  | panic why =>
    rw [runWith, hs]
    exact Triple.ret begins_stable (fun _ hu => ⟨.ok (), _, _, .refl, hu.shows.rest _⟩)
      fun _ _ h => absurd rfl (h why)
  | ok s =>
    have hrefused (error : IoError) : body p e (.error error) () = .pure (.err error, ()) := by
      rw [body, hs]
      rfl
    have hopened : body p e (.ok ()) () = terminal p s.blocks e () := by
      rw [body, hs]
      rfl
    rw [runWith, hs, Method.lift_ok_bind]
    refine Triple.method_bind (Triple.invariant (openController_inTime halign (hlearn s hs)) ?_)
      (fun d t => ?_) (fun error t u hu _ => ?_) fun why t u _ h => absurd rfl (h why)
    · exact fun u hu => ⟨.ok (), _, _, .refl, hu.rest _⟩
    · -- the terminal, and then the driver is dropped
      refine Triple.post (Triple.invariant (withDriver_refines halign hdisk hblock t) ?_) ?_
      · exact fun u hu => ⟨.ok (), by rwa [hopened]⟩
      · intro x u hx hends
        obtain ⟨v, hreach, hu⟩ := hx hends
        exact ⟨.ok (), v, by rwa [hopened], hu⟩
    · -- a device that could not be opened is an error of both
      exact ⟨.error error, _, hrefused error ▸ .refl, hu⟩

/-- **`main`** ends on the device as it ends on the array. -/
theorem mainWith_refines [Unicode]
    (hlearn : ∀ s, settings e = .ok s → ∀ data size, Identified N .namespace s.nsid data →
      blockSizeOf p data = .ok size → size = N.blockSize) :
    (machineInTime P N).Triple (Accounted P N b₀ (process p e)) (Begins b₀)
      (mainWith p e (onRecorded p) ()) fun x u => (∀ why, x.1 ≠ .panic why) →
        Matched P N b₀ (process p e) x.1 u := by
  -- what accounts for `run` accounts for `main` around it
  have hinv (u : World × List Str) (hu : Accounted P N b₀ (body p e) u) :
      Accounted P N b₀ (process p e) u := by
    obtain ⟨opened, q, v, hreach, hu⟩ := hu
    cases q with
    | pure x => exact ⟨opened, _, v, Reaches.bind (Reaches.bind hreach), hu.rest _⟩
    | op o k => exact ⟨opened, _, v, Reaches.bind (Reaches.bind hreach), hu⟩
  have hrun : (machineInTime P N).Triple (Accounted P N b₀ (process p e)) (Begins b₀)
      ((runWith p e (onRecorded p)).attempt ()) fun x u => match x.1 with
        | .ok result => Matched P N b₀ (body p e) (.ofExcept result) u
        | .err _ => False
        | .panic _ => True := by
    refine Triple.attempt (Triple.post (Triple.invariant
      (runWith_refines halign hdisk hblock hlearn) hinv) ?_)
    rintro ⟨x, t⟩ u hx
    cases x with
    -- no error: the exit status is zero
    | ok _ => exact hx fun why h => by cases h
    | err error => exact hx fun why h => by cases h
    | panic why => trivial
  refine Triple.method_bind hrun (fun result t => ?_) (fun _ _ _ hu => hu.elim)
    fun why t u _ h => absurd rfl (h why)
  cases result with
  | ok _ =>
    have hend (u : World × List Str) (hu : Matched P N b₀ (body p e) (.ok ()) u) :
        Matched P N b₀ (process p e) (.ok 0) u := by
      obtain ⟨opened, v, hreach, hu⟩ := hu
      exact ⟨opened, v, Reaches.bind_ok (Reaches.attempt (x := .ok ()) hreach) .refl, hu⟩
    exact Triple.ret (matched_stable halign) (fun u hu => (hend u hu).accounted)
      fun u hu _ => hend u hu
  | error error =>
    -- the error is printed there too
    have hprints {opened : Except IoError Unit} {v : Device}
        (hreach : (sectors N.blockSize N.idData).Reaches (body p e opened (), ⟨b₀, []⟩)
          (.pure (.err error, ()), v)) :
        (sectors N.blockSize N.idData).Reaches (process p e opened (), ⟨b₀, []⟩)
          (.op (ReplOp.println ("error: ".toList ++ error.message.toList)) fun _ =>
            .pure (.ok 1, ()), v) :=
      Reaches.bind_ok (Reaches.attempt (x := .error error) hreach) .refl
    refine Triple.call_bind (R := fun _ => Matched P N b₀ (process p e) (.ok 1))
      (matched_stable halign) (fun u hu => ?_) ?_ fun _ => ?_
    · obtain ⟨opened, v, hreach, hu⟩ := hu
      exact ⟨opened, _, v, hprints hreach, hu.rest _⟩
    · rintro ⟨w, log⟩ r ⟨w', log'⟩ ⟨opened, v, hreach, hu⟩ ⟨⟨rfl, -⟩, hlog⟩
      obtain rfl : log = v.output := hu.2
      refine ⟨opened, _, (hprints hreach).trans (Reaches.act (r := ()) rfl .refl), ?_⟩
      exact ⟨⟨hu.1.singleTask, hu.1.run, hu.1.asked⟩, hlog⟩
    · exact Triple.ret (matched_stable halign) (fun u hu => hu.accounted) fun u hu _ => hu

end Aligned

end Stages

/-! ### The runs in which nothing times out -/

section Punctual

variable {P : Platform} {N : Namespace} {p : Profile} {e : Process}

/-- **A run at whose end nothing has timed out**, with what it has printed. -/
theorem reaches_machineInTime {α : Type} {c c' : Config Op Res (World × List Str) α}
    (h : ((machine P (servingController N) Always).observed prints).Reaches c c')
    (hend : ∀ i, (c'.2.1.ring i).expired = 0) : (machineInTime P N).Reaches c c' := by
  refine Reaches.throughout (E := fun u : World × List Str => ∀ i, (u.1.ring i).expired = 0) h
    (fun b hb i => ?_)
    (fun _ _ _ _ htime hact => ⟨⟨hact.1.1, htime⟩, hact.2⟩) fun _ _ => id
  exact Nat.le_zero.mp ((reaches_expired (Reaches.unobserved hb) i).trans (hend i).le)

/-- The worlds differ in the history of the calls. -/
def Recounts (u u' : World × List Str) : Prop :=
  u'.2 = u.2 ∧ Recounted u.1 u'.1

/-- The machine does not look at the record of the calls. -/
theorem ignoresGhosts_inTime : (machineInTime P N).IgnoresGhosts marks Recounts where
  act := by
    rintro o ⟨w, log⟩ ⟨u, log'⟩ r ⟨w', log''⟩ ⟨hlog, current, calls, issuedBy, hu⟩ ho
      ⟨⟨hact, htime⟩, hprints⟩
    obtain rfl : log' = log := hlog
    obtain rfl : u = recount w current calls issuedBy := hu
    obtain ⟨issued, hact'⟩ := act_recount current calls issuedBy ho hact
    exact ⟨(_, _), ⟨⟨hact', htime⟩, hprints⟩, rfl, _, _, _, rfl⟩
  ghost := by
    rintro o r ⟨w, log⟩ ⟨u, log'⟩ ⟨hlog, current, calls, issuedBy, hu⟩ ho
      ⟨o', r', w', ⟨-, htime⟩, -⟩
    obtain rfl : log' = log := hlog
    obtain rfl : u = recount w current calls issuedBy := hu
    -- only the marks of a call are such operations, and they change the history alone
    cases o with
    | mark m =>
      cases m with
      | beginSubmit => cases ho
      | endSubmit => cases ho
      | beginCall k =>
        exact ⟨(_, _), ⟨⟨rfl, htime⟩, rfl⟩, List.append_nil _, _, _, _, rfl⟩
      | endCall result =>
        refine ⟨(_, _), ⟨⟨rfl, htime⟩, rfl⟩, List.append_nil _, ?_⟩
        cases current with
        | none => exact ⟨none, calls, issuedBy, rfl⟩
        | some k => exact ⟨none, _, issuedBy, rfl⟩
    | _ => cases ho
  -- the controller does not see the record
  env := by
    rintro ⟨w, log⟩ ⟨u, log'⟩ ⟨w', log''⟩ ⟨hlog, current, calls, issuedBy, hu⟩ ⟨henv, hlog'⟩
    obtain rfl : log' = log := hlog
    obtain rfl : u = recount w current calls issuedBy := hu
    exact ⟨(_, _), ⟨env_recount current calls issuedBy henv, hlog'⟩, rfl, _, _, _, rfl⟩

end Punctual

section Explained

variable [Unicode] {P : Platform} {N : Namespace} {p : Profile} {e : Process} {w₀ : World}
  {c : Config Op Res (World × List Str) (Outcome IoError Nat × Unit)}
  (halign : P.base.val.toNat % PAGE_SIZE = 0) (hdisk : 512 ≤ N.blockSize)
  (hblock : N.blockSize ≤ 2 ^ 48)
  (hformat : ∀ s, settings e = .ok s → N.Formatted s.nsid ∧ N.Plain p s.nsid)
  (hstart : NeverUsed w₀)
  (hc : ((machine P (servingController N) Always).observed prints).Reaches
    (main p e (), (w₀, [])) c)
  (htime : ∀ i, (c.2.1.ring i).expired = 0)
include halign hdisk hblock hformat hstart hc htime

/-- The same of `main` as it stands, without the marks. -/
theorem main_marked :
    (∃ u, Recounts c.2 u ∧ Accounted P N w₀.disk (process p e) u) ∧
      ∀ status, c.1 = .pure (.ok status, ()) →
        ∃ u, Recounts c.2 u ∧ Matched P N w₀.disk (process p e) (.ok status) u := by
  have hlearn (s : Settings) (hs : settings e = .ok s) (data : List UInt8) (size : Nat)
      (hdata : Identified N .namespace s.nsid data) (hsize : blockSizeOf p data = .ok size) :
      size = N.blockSize :=
    (hformat s hs).1.learns (hformat s hs).2 hdata hsize
  have hmain : (machineInTime P N).Triple (Accounted P N w₀.disk (process p e)) (Begins w₀.disk)
      (mainWith p e (onRecorded p) ()) _ := mainWith_refines halign hdisk hblock hlearn
  -- at the start nothing is recorded yet
  have hbegins : ∃ u', Recounts (w₀, []) u' ∧ Begins w₀.disk u' :=
    ⟨(w₀, []), ⟨rfl, w₀.current, w₀.calls, w₀.issuedBy, rfl⟩,
      ⟨hstart.toBeforeOpen, hstart.unused⟩, rfl⟩
  rw [← erase_main] at hc
  obtain ⟨hrun, hend⟩ := ignoresGhosts_inTime.triple hmain _ hbegins c
    (reaches_machineInTime hc htime)
  refine ⟨hrun, fun status hstatus => ?_⟩
  -- the marks that are left can be set, as nothing has timed out
  obtain ⟨u, hu, hmatched⟩ := hend _ hstatus
    ⟨.println [], (), (c.2.1, c.2.2 ++ [[]]), ⟨rfl, htime⟩, rfl⟩
  exact ⟨u, hu, hmatched fun why h => by cases h⟩

/-- **At its end**, the array has the output and the blocks. -/
theorem main_matched {status : Nat} (hstatus : c.1 = .pure (.ok status, ())) :
    ∃ opened v, (sectors N.blockSize N.idData).Reaches (process p e opened (), ⟨w₀.disk, []⟩)
      (.pure (.ok status, ()), v) ∧ c.2.2 = v.output ∧ c.2.1.disk = v.disk := by
  obtain ⟨u, ⟨hlog, _, _, _, hu⟩, opened, v, hreach, hshows⟩ :=
    (main_marked halign hdisk hblock hformat hstart hc htime).2 status hstatus
  refine ⟨opened, v, hreach, hlog.symm.trans hshows.2, ?_⟩
  rw [← Shows.disk hshows, hu]
  rfl

/-- **Before its end**, the first bytes of the next write may be there already. -/
theorem main_accounted :
    ∃ opened q v, (sectors N.blockSize N.idData).Reaches
        (process p e opened (), ⟨w₀.disk, []⟩) (q, v) ∧
      c.2.2 = v.output ∧
      (c.2.1.disk = v.disk ∨ ∃ slba data n k, q = .op (ReplOp.write slba data) k ∧
        c.2.1.disk = v.disk.write (slba.toNat * N.blockSize) (data.take n)) := by
  obtain ⟨u, ⟨hlog, _, _, _, hu⟩, opened, q, v, hreach, hshows⟩ :=
    (main_marked halign hdisk hblock hformat hstart hc htime).1
  have hcontents := Shows.contents hshows
  rw [hu] at hcontents
  exact ⟨opened, q, v, hreach, hlog.symm.trans hshows.2, hcontents⟩

end Explained

/-- **Refinement.** While nothing times out, the process works on an array of blocks. Whatever the
driver and the controller are doing, there is a state of the process on the array with the
same output and the same blocks, except that the first bytes of the write it issues next may be
there already. When the process has ended without a panic, it has ended there, with the same status
and the same blocks; of a process that has panicked, only the first part is said. -/
theorem main_refines [Unicode] (P : Platform) (N : Namespace) (p : Profile) (e : Process)
    (w₀ : World)
    (halign : P.base.val.toNat % PAGE_SIZE = 0) (hdisk : 512 ≤ N.blockSize)
    (hblock : N.blockSize ≤ 2 ^ 48)
    (hformat : ∀ s, settings e = .ok s → N.Formatted s.nsid ∧ N.Plain p s.nsid)
    (hstart : NeverUsed w₀) (c : Config Op Res (World × List Str) (Outcome IoError Nat × Unit))
    (hc : ((machine P (servingController N) Always).observed prints).Reaches
      (main p e (), (w₀, [])) c)
    (htime : ∀ i, (c.2.1.ring i).expired = 0) :
    ∃ opened q v, (sectors N.blockSize N.idData).Reaches
        (process p e opened (), ⟨w₀.disk, []⟩) (q, v) ∧
      c.2.2 = v.output ∧
      (c.2.1.disk = v.disk ∨ ∃ slba data n k, q = .op (ReplOp.write slba data) k ∧
        c.2.1.disk = v.disk.write (slba.toNat * N.blockSize) (data.take n)) ∧
      ∀ status, c.1 = .pure (.ok status, ()) →
        q = .pure (.ok status, ()) ∧ c.2.1.disk = v.disk := by
  -- the end has a stronger account of its own
  by_cases hended : ∃ status, c.1 = .pure (.ok status, ())
  · obtain ⟨status, hstatus⟩ := hended
    obtain ⟨opened, v, hreach, hlog, heq⟩ :=
      main_matched halign hdisk hblock hformat hstart hc htime hstatus
    refine ⟨opened, _, v, hreach, hlog, .inl heq, fun status' h => ?_⟩
    rw [hstatus] at h
    cases h
    exact ⟨rfl, heq⟩
  · obtain ⟨opened, q, v, hreach, hlog, hcontents⟩ :=
      main_accounted halign hdisk hblock hformat hstart hc htime
    exact ⟨opened, q, v, hreach, hlog, hcontents, fun status h => absurd ⟨status, h⟩ hended⟩

section OneBlock

attribute [local instance] Unicode.plain

/-- The only block of a file is written, and the process ends. -/
theorem main_refines_oneBlock : ∃ w log,
    ((machine .twoPages (servingController .ofSectors) Always).observed prints).Reaches
      (main .release oneBlockBlob (), (World.zeroed, [])) (.pure (.ok 0, ()), (w, log)) ∧
    w.disk = World.zeroed.disk.write (100 * 512) letterBlock ∧
    ∃ opened q v, (sectors 512 Namespace.ofSectors.idData).Reaches
        (process .release oneBlockBlob opened (), ⟨World.zeroed.disk, []⟩) (q, v) ∧
      log = v.output ∧
      (w.disk = v.disk ∨ ∃ slba data n k, q = .op (ReplOp.write slba data) k ∧
        w.disk = v.disk.write (slba.toNat * 512) (data.take n)) ∧
      ∀ status, (.pure (.ok 0, ()) : Prog Op Res (Outcome IoError Nat × Unit)) =
          .pure (.ok status, ()) → q = .pure (.ok status, ()) ∧ w.disk = v.disk := by
  obtain ⟨w, hmain, htime, -, hdisk⟩ := main_writes settings_oneBlock rfl rfl
  obtain ⟨log, hobserved⟩ := Reaches.observed prints hmain []
  -- nothing has timed out on the way
  exact ⟨w, log, hobserved, hdisk, main_refines .twoPages .ofSectors .release oneBlockBlob
    .zeroed twoPages_aligned (show 512 ≤ 512 from le_rfl) (show 512 ≤ 2 ^ 48 by decide)
    (fun s _ => ⟨ofSectors_formatted, ofSectors_plain⟩) neverUsed_zeroed _ hobserved htime⟩

end OneBlock

end Repl

end Nvmetoy
