import Nvmetoy.LateAnswers
import Nvmetoy.Repl.Effects
import Nvmetoy.Repl.Run

/-!
# The REPL on an array of blocks

What is typed on a terminal is meant for a disk, not for a queue pair. The machine `sectors` is that
disk: a call that ends well reads or replaces the blocks it names, or gives the data that the
controller identifies itself with; one that ends in an error changes nothing; and what is printed is
kept (`Device`). On a controller that answers in time, the driver behind the REPL does what this
machine does (`handles_sectors`): each call of the REPL is one step of the array, and until it ends
the disk shows at most the first bytes of a write.

The calls are told apart in a run by the marks around them (`recorded`), which the driver and the
controller do not see.
-/

namespace Nvmetoy

open Framework Machine NvmeUserspaceDriver

/-! ### What the calls have done is determined -/

/-- A call with its result leaves one disk. -/
theorem Did.unique {B : Nat} {b b₁ b₂ : Mem} {k : Call} {result : Except IoError (List UInt8)}
    (h : Did B b k result b₁) (h' : Did B b k result b₂) : b₁ = b₂ := by
  cases h <;> cases h' <;> rfl

theorem BlockRun.unique {B : Nat} {b₀ b₁ b₂ : Mem} {calls : List CallRecord}
    (h : BlockRun B b₀ calls b₁) (h' : BlockRun B b₀ calls b₂) : b₁ = b₂ := by
  -- by induction on the run, the last call being the same in both
  induction h generalizing b₂ with
  | nil =>
    generalize hnil : ([] : List CallRecord) = calls at h'
    cases h' with
    | nil => rfl
    | snoc => simp at hnil
  | snoc _ hdid ih =>
    obtain ⟨b, hrun, hdid'⟩ := h'.last
    obtain rfl := ih hrun
    exact hdid.unique hdid'

/-- A call that has been answered is still the one in progress. -/
theorem CallEnded.current {P : Platform} {N : Namespace} {explains : Prop} {b₀ : Mem} {k : Call}
    {result : Except IoError (List UInt8)} {d : NvmeUserspaceDriver} {w : World}
    (h : CallEnded P N explains b₀ k result d w) : w.current = some k := by
  cases result with
  | ok bytes => exact h.toBetweenCommands.current
  | error error => exact h.toBetweenCommands.current

/-- The array after a call. -/
def Device.store (v : Device) (disk : Mem) : Device := { v with disk := disk }

namespace Repl

/-- The disk that the REPL works on: blocks of `B` bytes, and what has been printed. Identify gives
one of the data in `idData`. -/
def sectorsAct (B : Nat) (idData : List UInt8 → Prop) :
    (o : ReplOp) → Device → ReplRes o → Device → Prop
  | .read slba blockCount, v, .ok data, v' => (Call.read slba blockCount).Accepted B ∧
      data = v.disk.read (slba.toNat * B) (blockCount.toNat * B) ∧ v' = v
  | .write slba data, v, .ok _, v' => (Call.write slba data).Accepted B ∧
      v' = { v with disk := v.disk.write (slba.toNat * B) data }
  | .identifyController, v, .ok data, v' => idData data ∧ v' = v
  | .println line, v, _, v' => v' = { v with output := v.output ++ [line] }
  | _, v, _, v' => v' = v

/-- The disk as a machine, whose environment does nothing. -/
def sectors (B : Nat) (idData : List UInt8 → Prop) : Machine ReplOp ReplRes Device where
  act := sectorsAct B idData
  env := fun _ _ => False

/-! ### Calls with their place in the history -/

section Recorded

variable (p : Profile)

/-- A call, marked. -/
def recorded (k : Call) : DriverMethod (Except IoError (List UInt8)) := do
  Method.call (Op.mark (.beginCall k))
  let result ← (perform p k).attempt
  Method.call (Op.mark (.endCall result))
  pure result

/-- The driver answers a call of the REPL, as in `serve`. -/
def serveRecorded : (o : ReplOp) → DriverMethod (ReplRes o)
  | .read slba blockCount => recorded p (.read slba blockCount)
  | .write slba data => do
    let result ← recorded p (.write slba data)
    pure (result.map fun _ => ())
  | .identifyController => recorded p .identifyController
  | .alloc bytes => Method.call (Op.alloc bytes)
  | .println line => Method.call (Op.println line)

/-- A command of the REPL, on a driver whose calls are marked. -/
def onRecorded {α : Type} (command : Command α) : DriverMethod α := do
  let x ← (command ()).interp (serveRecorded p)
  Method.lift x.1

end Recorded

/-- The lines that an operation prints. -/
def prints : Op → Option Str
  | .println line => some line
  | _ => none

section Serving

variable {P : Platform} {N : Namespace} {b₀ v : Mem} {d t : NvmeUserspaceDriver} {p : Profile}
  {w : World} {k : Call}

/-- The calls that have ended have led to the blocks `v`; the one in progress, if any, is
`asked`. -/
structure LedTo (P : Platform) (N : Namespace) (b₀ : Mem) (asked : Option Call) (v : Mem)
    (w : World) : Prop where
  singleTask : SingleTask P N True b₀ w
  run : BlockRun N.blockSize b₀ w.calls v
  asked : w.current = none ∨ w.current = asked

/-- The disk is that array, but for a write in progress. -/
theorem LedTo.underneath {asked : Option Call} (h : LedTo P N b₀ asked v w) :
    w.disk = v ∨ Underneath N.blockSize v asked w.disk := by
  obtain ⟨b, hrun, hunder⟩ := h.singleTask.explained trivial
  obtain rfl := h.run.unique hrun
  rcases h.asked with hnone | hasked
  · rw [hnone] at hunder
    exact .inl hunder
  · exact .inr (hasked ▸ hunder)

/-- Between two calls. -/
structure BetweenCalls (P : Platform) (N : Namespace) (b₀ v : Mem) (d : NvmeUserspaceDriver)
    (w : World) : Prop where
  beforeCommand : BeforeCommand P N True b₀ none d w
  disk : w.disk = v

/-- Between two calls, the disk is where the calls led to. -/
theorem BetweenCalls.ledTo (h : BetweenCalls P N b₀ v d w) (asked : Option Call) :
    LedTo P N b₀ asked v w :=
  ⟨h.beforeCommand.singleTask, h.disk ▸ (h.beforeCommand.blocks trivial).2,
    .inl h.beforeCommand.current⟩

theorem BetweenCalls.drained (h : BetweenCalls P N b₀ v d w) : ∀ i, Drained (w.ring i) :=
  (h.beforeCommand.blocks trivial).1

theorem betweenCalls_stable {G : Op → World → Prop} :
    (machine P (servingController N) G).Stable (BetweenCalls P N b₀ v d) :=
  stable_of_drained fun _ hw => hw.drained

/-- A register is no part of the history. -/
theorem writeRegister_history (P : Platform) (w : World) (offset : Nat) (value : UInt32) :
    (w.writeRegister P offset value).calls = w.calls ∧
      (w.writeRegister P offset value).current = w.current := by
  unfold World.writeRegister World.writeConfiguration
  split_ifs <;> exact ⟨rfl, rfl⟩

/-- No call begins or ends without its mark. -/
theorem Silent.history {o : Op} {r : Res o} {w' : World} (ho : Silent o) (hact : act P o w r w') :
    w'.calls = w.calls ∧ w'.current = w.current := by
  cases o with
  | write32 offset value =>
    obtain rfl := hact
    exact writeRegister_history P w offset value
  | mark => exact ho.elim
  | println => exact ho.elim
  -- what reads or answers leaves the world alone
  | readSqe => obtain ⟨-, rfl⟩ := hact; exact ⟨rfl, rfl⟩
  | readBytes => obtain ⟨-, rfl⟩ := hact; exact ⟨rfl, rfl⟩
  | readCqe => obtain ⟨-, rfl⟩ := hact; exact ⟨rfl, rfl⟩
  | read64 => obtain ⟨-, rfl⟩ := hact; exact ⟨rfl, rfl⟩
  | mapBar => obtain ⟨-, rfl⟩ := hact; exact ⟨rfl, rfl⟩
  | allocHuge =>
    cases r with
    | ok a => obtain ⟨-, rfl⟩ := hact; exact ⟨rfl, rfl⟩
    | error e => obtain rfl := hact; exact ⟨rfl, rfl⟩
  | _ => obtain rfl := hact; exact ⟨rfl, rfl⟩

/-- What marks no call leaves the history alone. -/
theorem silent_triple {α : Type} {m : Prog Op Res α} {ψ : α → Prop} {l : List CallRecord}
    {call : Option Call} {G : Op → World → Prop} (hm : m.Sat Prog.Any Silent ψ) :
    (machine P (servingController N) G).Triple (fun w => w.calls = l ∧ w.current = call)
      (fun w => w.calls = l ∧ w.current = call) m
      fun a w => ψ a ∧ w.calls = l ∧ w.current = call := by
  refine Triple.of_sat hm ?_ (fun _ => id) (fun _ _ _ _ _ _ => trivial) ?_
  · intro w w' hw henv
    obtain ⟨hcalls, hcurrent, -⟩ := EnvStep.history henv
    exact ⟨hcalls.trans hw.1, hcurrent.trans hw.2⟩
  · intro o w r w' ho hw hact
    obtain ⟨hcalls, hcurrent⟩ := Silent.history ho hact.1
    exact ⟨hcalls.trans hw.1, hcurrent.trans hw.2⟩

/-- What a call has done to the blocks `v`; if it was Identify, it has returned what the controller
says of itself. -/
structure Gave (N : Namespace) (v : Mem) (k : Call) (result : Except IoError (List UInt8))
    (v' : Mem) : Prop where
  did : Did N.blockSize v k result v'
  idData : ∀ bytes, k = .identifyController → result = .ok bytes → N.idData bytes

section Call

variable (halign : P.base.val.toNat % PAGE_SIZE = 0)
include halign

/-- The call itself, with what is known of the history. -/
theorem perform_ledTo (hd : ReadyFor P N d) (hfits : k.Fits p N.blockSize) :
    (machine P (servingController N) InTime).Triple (LedTo P N b₀ (some k) v)
      (fun w => BeforeCommand P N True b₀ (some k) d w ∧ BlockRun N.blockSize b₀ w.calls v)
      ((perform p k).attempt d) fun x w => match x.1 with
        | .ok result => d.Kept x.2 ∧
            (∀ bytes, k = .identifyController → result = .ok bytes → N.idData bytes) ∧
              CallEnded P N True b₀ k result x.2 w ∧ BlockRun N.blockSize b₀ w.calls v
        | .err _ => False
        | .panic _ => True := by
  refine Triple.pre (P := fun w => ∃ l, BlockRun N.blockSize b₀ l v ∧
    BeforeCommand P N True b₀ (some k) d w ∧ w.calls = l ∧ w.current = some k) ?_
    fun w hw => ⟨w.calls, hw.2, hw.1, rfl, hw.1.current⟩
  refine Triple.of_forall fun l => Triple.of_pure fun hrun => Triple.attempt ?_
  have htriple : CallTriple P N True b₀ InTime (some k) d (BeforeCommand P N True b₀ (some k) d)
      (perform p k d) fun bytes t w => (k = .identifyController → N.idData bytes) ∧
        CallSucceeded P N True b₀ k bytes t w :=
    callTriple_perform halign (inTime_regime P N) hd.1 hd.2.cached hd.2.pos hfits
  -- the history is as it was, so the run is still that of the calls before
  have hcalls : (machine P (servingController N) InTime).Triple
      (fun w => w.calls = l ∧ w.current = some k) (fun w => w.calls = l ∧ w.current = some k)
      (perform p k d) _ :=
    silent_triple ((silent_perform k d trivial).returning (perform_ofCall hd.2 k))
  refine Triple.post (Triple.invariant (Triple.and htriple hcalls) fun w hw =>
    ⟨hw.1, hw.2.1 ▸ hrun, .inr hw.2.2⟩) ?_
  rintro ⟨x, t⟩ w ⟨hx, hk, rfl, -⟩
  cases x with
  | ok bytes =>
    obtain ⟨-, hdata, hsucceeded⟩ := hx
    refine ⟨hk, fun bytes' hcall hbytes => ?_, hsucceeded, hrun⟩
    obtain rfl := Except.ok.inj hbytes
    exact hdata hcall
  | err error => exact ⟨hk, (fun _ _ h => by cases h), hx.2, hrun⟩
  | panic why => trivial

/-- **A marked call** does to the array what its result tells. -/
theorem recorded_triple (hd : ReadyFor P N d) (hfits : k.Fits p N.blockSize) :
    (machine P (servingController N) InTime).Triple
      (fun w => LedTo P N b₀ (some k) v w ∨ ∃ result v', Gave N v k result v' ∧
        ∀ asked, LedTo P N b₀ asked v' w)
      (BetweenCalls P N b₀ v d) (recorded p k d) fun x w => ∀ result, x.1 = .ok result →
        d.Kept x.2 ∧ ∃ v', Gave N v k result v' ∧ BetweenCalls P N b₀ v' x.2 w := by
  refine Triple.call_bind (R := fun _ w => BeforeCommand P N True b₀ (some k) d w ∧
    BlockRun N.blockSize b₀ w.calls v) betweenCalls_stable (fun w hw => .inl (hw.ledTo _)) ?_
    fun _ => ?_
  · rintro w r w' hw ⟨rfl, -⟩
    exact ⟨hw.beforeCommand.beginCall k, (hw.ledTo none).run⟩
  refine Triple.method_bind ((perform_ledTo halign hd hfits).invariant fun w => .inl)
    (fun result t => Triple.of_pure fun hk => Triple.of_pure fun hdata => ?_)
    (fun _ _ _ hw => hw.elim) fun _ _ _ _ result h => by cases h
  -- the end is marked in time, so that its record is an entry of the run
  refine Triple.call_bind (R := fun _ w => ∃ v', Gave N v k result v' ∧
      BetweenCalls P N b₀ v' t w) ?_
      (fun w hw => .inl ⟨hw.1.singleTask, hw.2, .inr (CallEnded.current hw.1)⟩) ?_ fun _ => ?_
  · intro w w' hw henv
    exact ⟨hw.1.step halign henv, (EnvStep.history henv).1.symm ▸ hw.2⟩
  · -- one call more, with what it did
    rintro w r w' ⟨hended, hrun⟩ ⟨rfl, hG⟩
    obtain ⟨-, -, hrecord⟩ := hended.record fun _ => hG
    obtain ⟨-, -, b, hb, hdid⟩ := hrecord trivial
    obtain rfl := hb.unique hrun
    refine ⟨_, ⟨hdid, hdata⟩, hended.endCall fun _ => hG, ?_⟩
    rw [World.mark]
    split <;> rfl
  · refine Triple.ret (Stable.exists fun _ => Stable.and (Stable.const _) betweenCalls_stable)
      (fun w hw => ?_) fun w hw result' hresult => ?_
    · obtain ⟨v', hgave, hw⟩ := hw
      exact .inr ⟨result, v', hgave, fun asked => hw.ledTo asked⟩
    · obtain rfl := Outcome.ok.inj hresult
      exact ⟨hk, hw⟩

end Call

/-! ### The REPL -/

/-- What is printed meanwhile is nothing. -/
theorem Silent.prints {o : Op} (h : Silent o) : prints o = none := by
  cases o <;> first | rfl | exact h.elim

/-- The driver prints nothing. -/
theorem recorded_prints (k : Call) :
    Method.Only (fun o => prints o = none) (recorded p k) := by
  refine Method.Stays.bind (.call rfl) fun _ => Method.Stays.bind ?_ fun result => ?_
  · exact ((silent_perform k).mono fun _ => Silent.prints).attempt
  · exact Method.Stays.bind (.call rfl) fun _ => .pure _

/-- The call of the driver that an operation is. -/
def asks : ReplOp → Option Call
  | .read slba blockCount => some (.read slba blockCount)
  | .write slba data => some (.write slba data)
  | .identifyController => some .identifyController
  | _ => none

/-- The array explains the world, with the operation `next` in progress, and what has been
printed. -/
def Shows (P : Platform) (N : Namespace) (b₀ : Mem) (next : Option ReplOp) (v : Device)
    (u : World × List Str) : Prop :=
  LedTo P N b₀ (next.bind asks) v.disk u.1 ∧ u.2 = v.output

/-- Between two calls of the REPL. -/
def Agrees (P : Platform) (N : Namespace) (b₀ : Mem) (d : NvmeUserspaceDriver) (v : Device)
    (u : World × List Str) : Prop :=
  ReadyFor P N d ∧ BetweenCalls P N b₀ v.disk d u.1 ∧ u.2 = v.output

/-- Agreement does not depend on the controller's steps. -/
theorem agrees_stable {v : Device} :
    ((machine P (servingController N) InTime).observed prints).Stable (Agrees P N b₀ d v) :=
  observed_stable fun log => Stable.and (Stable.const _)
    (Stable.and betweenCalls_stable (Stable.const (log = v.output)))

theorem Agrees.shows {v : Device} {u : World × List Str} (h : Agrees P N b₀ d v u)
    (next : Option ReplOp) : Shows P N b₀ next v u :=
  ⟨h.2.1.ledTo _, h.2.2⟩

section Handlers

variable (halign : P.base.val.toNat % PAGE_SIZE = 0) (hdisk : 512 ≤ N.blockSize)
  (hblock : N.blockSize ≤ 2 ^ 48)
include halign hdisk hblock

/-- A call of the driver is a step `A` of the disk, where whatever the call has given is such a
step. -/
theorem recorded_agrees {v : Device} {o : ReplOp} {A : Except IoError (List UInt8) → Device → Prop}
    (ho : asks o = some k) (hA : ∀ result b, Gave N v.disk k result b → A result (v.store b)) :
    ((machine P (servingController N) InTime).observed prints).Triple
      (fun u => Shows P N b₀ (some o) v u ∨ ∃ result v', A result v' ∧
        ∀ next, Shows P N b₀ next v' u)
      (Agrees P N b₀ d v) (recorded p k d) fun x u => ∀ result, x.1 = .ok result →
        ∃ v', A result v' ∧ Agrees P N b₀ x.2 v' u := by
  refine Triple.of_pure fun hd => ?_
  have hfits : k.Fits p N.blockSize := Call.fits_of_block hdisk hblock k
  refine Triple.post (Triple.invariant (Triple.observed (recorded_triple halign hd hfits)
    (recorded_prints k d trivial) v.output) ?_) ?_
  -- the call is under way, or has just done what it does
  · rintro u ⟨hu | ⟨result, b, hgave, hu⟩, hlog⟩
    · refine .inl ⟨?_, hlog⟩
      rwa [Option.bind_some, ho]
    · exact .inr ⟨result, _, hA result b hgave, fun next => ⟨hu _, hlog⟩⟩
  · rintro x u ⟨hx, hlog⟩ result hresult
    obtain ⟨hk, b, hgave, hu⟩ := hx result hresult
    exact ⟨_, hA result b hgave, hd.kept hk, hu, hlog⟩

/-- **The driver is such a disk.** -/
theorem handles_sectors : Handles ((machine P (servingController N) InTime).observed prints)
    (sectors N.blockSize N.idData) (serveRecorded p) (fun _ => True) (Shows P N b₀)
    (Agrees P N b₀) where
  stable := fun _ _ => agrees_stable
  explains := fun _ _ _ h => h.shows
  handler := fun o d v _ => by
    cases o with
    | read slba blockCount =>
      refine recorded_agrees halign hdisk hblock rfl fun result b hgave => ?_
      cases hgave.did with
      | read _ _ h => exact ⟨h, rfl, rfl⟩
      | failed => rfl
    -- Identify reads no block, and returns what the controller says of itself
    | identifyController =>
      refine recorded_agrees halign hdisk hblock rfl fun result b hgave => ?_
      cases hgave.did with
      | identify bytes => exact ⟨hgave.idData bytes rfl rfl, rfl⟩
      | failed => rfl
    | write slba data =>
      let A (result : Except IoError (List UInt8)) (v' : Device) : Prop :=
        sectorsAct N.blockSize N.idData (.write slba data) v (result.map fun _ => ()) v'
      have hA (result : Except IoError (List UInt8)) (b : Mem)
          (hgave : Gave N v.disk (.write slba data) result b) : A result (v.store b) := by
        cases hgave.did with
        | write _ _ h => exact ⟨h, rfl⟩
        | failed => rfl
      -- a write may have been cut off, or have come to its end
      have hinv (u : World × List Str) (hu : Shows P N b₀ (some (.write slba data)) v u ∨
          ∃ result v', A result v' ∧ ∀ next, Shows P N b₀ next v' u) :
          Shows P N b₀ (some (.write slba data)) v u ∨
            ∃ r v', sectorsAct N.blockSize N.idData (.write slba data) v r v' ∧
              ∀ next, Shows P N b₀ next v' u := by
        rcases hu with hu | ⟨result, v', hact, hu⟩
        · exact .inl hu
        · exact .inr ⟨_, v', hact, hu⟩
      refine Triple.method_bind
        (Triple.invariant (recorded_agrees halign hdisk hblock rfl hA) hinv)
        (fun result t => ?_) (fun _ _ _ _ r h => by cases h) fun _ _ _ _ r h => by cases h
      refine Triple.pre (Triple.ret (P := fun u => ∃ v', A result v' ∧ Agrees P N b₀ t v' u)
        (Stable.exists fun _ => Stable.and (Stable.const _) agrees_stable) ?_ ?_)
        fun u hu => hu result rfl
      · rintro u ⟨v', hact, hu⟩
        exact .inr ⟨_, v', hact, hu.shows⟩
      · rintro u ⟨v', hact, hu⟩ r hr
        obtain rfl := Outcome.ok.inj hr
        exact ⟨v', hact, hu⟩
    | alloc bytes =>
      refine Triple.op (R := fun _ => Agrees P N b₀ d v) agrees_stable
        (fun _ hu => .inl (hu.shows _)) ?_ fun _ =>
          Triple.ret agrees_stable (fun _ hu => .inl (hu.shows _)) ?_
      · rintro ⟨w, log⟩ r ⟨w', log'⟩ hu ⟨⟨rfl, -⟩, hlog⟩
        obtain rfl : log' = log := hlog.trans (List.append_nil log)
        exact hu
      · exact fun u hu r _ => ⟨v, rfl, hu⟩
    -- the line is printed by both
    | println line =>
      let v' : Device := { v with output := v.output ++ [line] }
      refine Triple.op (R := fun _ => Agrees P N b₀ d v') agrees_stable
        (fun _ hu => .inl (hu.shows _)) ?_ fun _ => Triple.ret agrees_stable
          (fun _ hu => .inr ⟨(), v', rfl, hu.shows⟩) ?_
      · rintro ⟨w, log⟩ r ⟨w', log'⟩ ⟨hd, hw, hlog⟩ ⟨⟨rfl, -⟩, hlog'⟩
        refine ⟨hd, hw, hlog'.trans ?_⟩
        exact congrArg (· ++ [line]) hlog
      · exact fun u hu r _ => ⟨v', rfl, hu⟩

end Handlers

end Serving

end Repl

end Nvmetoy
