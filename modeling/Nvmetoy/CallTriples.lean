import Nvmetoy.Ownership

/-!
# The calls of the driver, on a controller that executes them

A call is followed from its mark to its end: the payload and the list of entries are put in place,
one command is submitted, its completion is checked, and the data is copied out.

* `BetweenCommands`, `BeforeCommand` — what holds between two calls, and until the command of a
  call.
* `CallTriple` — the methods of the driver, as triples that lead on to the next:
  `callTriple_submitAdmin`, `callTriple_submitIo`, and with them `identify`, `read` and `write`.
* `Call.Fits` — the calls whose arithmetic is exact.
* `CallEnded.endCall` — the history is right again once a call has ended, whether it ended well
  or not.
-/

namespace Nvmetoy

open Framework Machine NvmeUserspaceDriver

variable {P : Platform} {N : Namespace} {i j : QueueId} {w w' : World} {τ : Task}
  {explains : Prop} {b₀ : Mem} {G : Op → World → Prop} {call : Option Call}
  {d t : NvmeUserspaceDriver} {e : SubmissionQueueEntry} {payload : List UInt8}
  {c : CompletionQueueEntry}

/-! ### The driver -/

/-- The driver was made for this machine. -/
structure BuiltFor (P : Platform) (d : NvmeUserspaceDriver) : Prop where
  bar : d.nvmeBar = P.bar
  region : d.dmaRegion = P.region
  stride : d.doorbellStride = P.stride

theorem BuiltFor.length (hd : BuiltFor P d) : d.dmaRegion.length = HUGE_PAGE_SIZE := by
  rw [hd.region]
  rfl

/-- The pages of the data area are where the hugepage is. -/
theorem BuiltFor.dataPage (hd : BuiltFor P d) {page : Nat}
    (h : DATA_OFFSET + page * PAGE_SIZE < HUGE_PAGE_SIZE) :
    (d.dataPagePhysicalAddress page).toNat =
      NvmeUserspaceDriver.dataPage P.base.val.toNat page := by
  rw [toNat_dataPagePhysicalAddress hd.length h, hd.region]
  rfl

theorem BuiltFor.prpList (hd : BuiltFor P d) :
    d.prpListPhysicalAddress.toNat = prpEntryAddress P.base.val.toNat 0 := by
  rw [prpListPhysicalAddress, DmaRegion.toNat_physicalAddressAt _ (by rw [hd.length]; decide),
    hd.region, prpEntryAddress, Nat.mul_zero, Nat.add_zero]
  rfl

/-- A transfer of one page needs no more than the first entry. -/
theorem BuiltFor.listed_page (hd : BuiltFor P d) {length : Nat} (hpage : length ≤ PAGE_SIZE)
    (hprp1 : e.prp1 = d.dataPagePhysicalAddress 0) (m : Mem) : Listed P length e m := by
  have hone : transferPages length ≤ 1 := by
    unfold transferPages PAGE_SIZE at *
    omega
  exact ⟨hpage.trans (by decide), hprp1 ▸ hd.dataPage (by decide), fun h => by omega,
    fun h => by omega, fun h => by omega⟩

/-- The driver with another queue pair. -/
def NvmeUserspaceDriver.putQueue (d : NvmeUserspaceDriver) (i : QueueId) (q : QueuePair) :
    NvmeUserspaceDriver :=
  match i with
  | .admin => { d with adminQueue := q }
  | .io => { d with ioQueue := q }

/-- Only the queue pairs have changed. -/
def SameButQueues (d t : NvmeUserspaceDriver) : Prop :=
  t = { d with adminQueue := t.adminQueue, ioQueue := t.ioQueue }

theorem SameButQueues.refl (d : NvmeUserspaceDriver) : SameButQueues d d := rfl

theorem SameButQueues.trans {t' : NvmeUserspaceDriver} (h : SameButQueues d t)
    (h' : SameButQueues t t') :
    SameButQueues d t' := by
  rw [SameButQueues, h', h]

/-- Where the driver lies is not a matter of its queues. -/
theorem SameButQueues.builtFor (h : SameButQueues d t) (hd : BuiltFor P d) : BuiltFor P t := by
  rw [h]
  exact ⟨hd.bar, hd.region, hd.stride⟩

theorem SameButQueues.sizes (h : SameButQueues d t) :
    t.blockSizes = d.blockSizes ∧ t.nsid = d.nsid := by
  rw [h]
  exact ⟨rfl, rfl⟩

/-- Replacing a queue pair changes nothing else. -/
theorem sameButQueues_putQueue (d : NvmeUserspaceDriver) (i : QueueId) (q : QueuePair) :
    SameButQueues d (d.putQueue i q) := by
  cases i <;> rfl

@[simp] theorem queue_putQueue (d : NvmeUserspaceDriver) (i : QueueId) (q : QueuePair) :
    (d.putQueue i q).queue i = q := by
  cases i <;> rfl

theorem queue_putQueue_of_ne (d : NvmeUserspaceDriver) (q : QueuePair) (h : j ≠ i) :
    (d.putQueue i q).queue j = d.queue j := by
  cases i <;> cases j <;> first | rfl | exact absurd rfl h

/-! ### The assertions -/

/-- Between two commands, with `call` in progress. -/
structure BetweenCommands (P : Platform) (N : Namespace) (explains : Prop) (b₀ : Mem)
    (call : Option Call) (d : NvmeUserspaceDriver) (w : World) : Prop where
  singleTask : SingleTask P N explains b₀ w
  atMostOneLeft : AtMostOneLeft P N w
  rest : ∀ i, AtRest P i (d.queue i) w
  current : w.current = call

/-- Before the command of the call. -/
structure BeforeCommand (P : Platform) (N : Namespace) (explains : Prop) (b₀ : Mem)
    (call : Option Call) (d : NvmeUserspaceDriver) (w : World) : Prop
    extends BetweenCommands P N explains b₀ call d w where
  blocks : explains → (∀ i, Drained (w.ring i)) ∧ BlockRun N.blockSize b₀ w.calls w.disk

/-- After an error, which has not changed the blocks: a command has timed out, or the controller
has completed them all. -/
structure AfterError (P : Platform) (N : Namespace) (explains : Prop) (b₀ : Mem)
    (call : Option Call) (error : IoError) (d : NvmeUserspaceDriver) (w : World) : Prop
    extends BetweenCommands P N explains b₀ call d w where
  blocks : explains → (∃ i, (w.ring i).expired ≠ 0) ∨
    (∀ i, Drained (w.ring i)) ∧ BlockRun N.blockSize b₀ w.calls w.disk ∧
      ∀ c, call = some c → Told N.blockSize w ⟨c, (w.ring .io).submitted - 1, .error error⟩

/-- The completion of the task was taken. -/
structure TaskCompleted (P : Platform) (N : Namespace) (explains : Prop) (b₀ : Mem)
    (call : Option Call) (τ : Task) (c : CompletionQueueEntry) (w : World) : Prop where
  inFlight : InFlight P N τ w
  expected : explains → Expected N.blockSize b₀ τ w
  issued : τ.queue = .io → w.issuedBy τ.number = call
  last : (w.ring τ.queue).posted[τ.number]? = some (c, τ.number)

/-- With no command to answer, the controller changes nothing that matters. -/
theorem BetweenCommands.step (h : BetweenCommands P N explains b₀ call d w)
    (halign : P.base.val.toNat % PAGE_SIZE = 0) (henv : EnvStep P (servingController N) w w') :
    BetweenCommands P N explains b₀ call d w' where
  singleTask := h.singleTask.step halign henv
  atMostOneLeft := h.atMostOneLeft.step h.singleTask.recorded halign henv
  rest := fun i => (h.rest i).step (henv.onRings h.singleTask halign i)
  current := henv.history.2.1.trans h.current

theorem BeforeCommand.step (h : BeforeCommand P N explains b₀ call d w)
    (halign : P.base.val.toNat % PAGE_SIZE = 0) (henv : EnvStep P (servingController N) w w') :
    BeforeCommand P N explains b₀ call d w' :=
  ⟨h.toBetweenCommands.step halign henv,
    fun hex => absurd henv (not_env_of_drained (h.blocks hex).1)⟩

theorem AfterError.step {error : IoError} (h : AfterError P N explains b₀ call error d w)
    (halign : P.base.val.toNat % PAGE_SIZE = 0) (henv : EnvStep P (servingController N) w w') :
    AfterError P N explains b₀ call error d w' := by
  refine ⟨h.toBetweenCommands.step halign henv, fun hex => ?_⟩
  rcases h.blocks hex with ⟨i, hexpired⟩ | ⟨hdrained, -⟩
  · exact .inl ⟨i, by rwa [(henv.onRings h.singleTask halign i).later.expired]⟩
  · exact absurd henv (not_env_of_drained hdrained)

/-- A call that was not sent. -/
theorem BeforeCommand.afterError (h : BeforeCommand P N explains b₀ call d w) {error : IoError}
    (hcall : ∀ c, call = some c → ¬ c.Accepted N.blockSize) :
    AfterError P N explains b₀ call error d w :=
  ⟨h.toBetweenCommands, fun hex => .inr ⟨(h.blocks hex).1, (h.blocks hex).2,
    fun c hc haccepted => absurd haccepted (hcall c hc)⟩⟩

/-! ### What has landed -/

/-- The controller has completed everything. -/
theorem TaskCompleted.drained (h : TaskCompleted P N explains b₀ call τ c w) (i : QueueId) :
    Drained (w.ring i) := by
  refine h.inFlight.drained (h.inFlight.empty ?_) i
  rw [h.inFlight.submitted]
  exact (List.getElem?_eq_some_iff.mp h.last).1

/-- A completed task has moved its bytes, if its status says so. -/
theorem TaskCompleted.moving (h : TaskCompleted P N explains b₀ call τ c w) :
    Moving P N τ (some (c.status >>> 1)) w := by
  obtain ⟨status, hstage, hmoving⟩ := h.inFlight.under
  have hlt := (List.getElem?_eq_some_iff.mp h.last).1
  cases hstage with
  | waiting _ _ _ hposted => omega
  | inHand _ _ _ hposted => omega
  | done c' _ _ hlast =>
    rw [h.last] at hlast
    obtain ⟨rfl, -⟩ := Prod.mk.inj (Option.some.inj hlast)
    exact hmoving

/-- A command that was rejected has left the namespace alone. -/
theorem TaskCompleted.disk_of_rejected (h : TaskCompleted P N explains b₀ call τ c w)
    (hno : c.isSuccess = false) : w.disk = τ.disk := by
  by_cases hdir : τ.direction = .fromHost
  · have hnone : τ.moved w = [] := h.moving.rejected _ rfl fun hok => by
      rw [(isSuccess_iff c).mpr hok] at hno
      cases hno
    obtain ⟨-, -, -, hdisk⟩ := h.moving.taken hdir
    rw [hdisk, hnone, Mem.write_nil]
  · exact h.moving.kept hdir

/-- A command that was successful has moved all of its data. -/
theorem TaskCompleted.moved (h : TaskCompleted P N explains b₀ call τ c w)
    (hok : c.isSuccess = true) : (τ.moved w).length = τ.length N :=
  h.moving.succeeded _ rfl ((isSuccess_iff c).mp hok)

/-- What the data area holds after it. -/
theorem TaskCompleted.received (h : TaskCompleted P N explains b₀ call τ c w)
    (hok : c.isSuccess = true) (hdir : τ.direction = .toHost) :
    τ.moved w = N.supplies τ.queue τ.entry τ.disk ∧
      w.mem.read (World.address P DATA_OFFSET) (τ.length N) = τ.moved w := by
  obtain ⟨hbegins, hread⟩ := h.moving.given hdir
  have hlen := h.moved hok
  rw [hlen] at hread
  exact ⟨hbegins.eq_of_length (hlen.trans (N.length_supplies _ _ _).symm), hread⟩

/-- What the namespace holds after it. -/
theorem TaskCompleted.stored (h : TaskCompleted P N explains b₀ call τ c w)
    (hok : c.isSuccess = true) (hdir : τ.direction = .fromHost) :
    w.disk = τ.disk.write (N.position τ.entry) τ.payload := by
  obtain ⟨hlen, -, hbegins, hdisk⟩ := h.moving.taken hdir
  rw [hdisk, hbegins.eq_of_length ((h.moved hok).trans hlen.symm)]

/-- The call fails with the command. -/
theorem TaskCompleted.afterError (h : TaskCompleted P N explains b₀ call τ c w)
    (hbetween : BetweenCommands P N explains b₀ call d w) (hno : c.isSuccess = false)
    {error : IoError} (hio : ∀ c, call = some c → c.Accepted N.blockSize → τ.queue = .io) :
    AfterError P N explains b₀ call error d w := by
  refine ⟨hbetween, fun hex => .inr ⟨h.drained, ?_, fun c' hcall haccepted => ?_⟩⟩
  · rw [h.disk_of_rejected hno]
    exact (h.expected hex).blocks
  · -- the call is one on the blocks, and its command was refused
    have hqueue := hio c' hcall haccepted
    have hsubmitted := h.inFlight.submitted
    have hlast := h.last
    rw [hqueue] at hsubmitted hlast
    have hnumber : (w.ring .io).submitted - 1 = τ.number := by omega
    rw [hnumber]
    refine ⟨(h.issued hqueue).trans hcall, c, hlast, fun hok => ?_⟩
    rw [hno] at hok
    cases hok

/-! ### The rules -/

/-- How a part of a call ends that began with the driver `d`: with a value, with an error that
ends the call, or in a panic. -/
def PartEnds {α : Type} (P : Platform) (N : Namespace) (explains : Prop) (b₀ : Mem)
    (call : Option Call) (d : NvmeUserspaceDriver) (Q : α → NvmeUserspaceDriver → World → Prop)
    (x : Outcome IoError α × NvmeUserspaceDriver) (w : World) : Prop :=
  match x.1 with
  | .ok a => SameButQueues d x.2 ∧ Q a x.2 w
  | .err error => SameButQueues d x.2 ∧ AfterError P N explains b₀ call error x.2 w
  | .panic _ => SingleTask P N explains b₀ w

section Rules

variable {α β : Type} {R : World → Prop} {Q Q' : α → NvmeUserspaceDriver → World → Prop}
  {U : β → NvmeUserspaceDriver → World → Prop} {m : DriverMethod α} {f : α → DriverMethod β}

/-- The method goes from `R` to `Q`. -/
def CallTriple (P : Platform) (N : Namespace) (explains : Prop) (b₀ : Mem) (G : Op → World → Prop)
    (call : Option Call) (d : NvmeUserspaceDriver) (R : World → Prop)
    (p : Prog Op Res (Outcome IoError α × NvmeUserspaceDriver))
    (Q : α → NvmeUserspaceDriver → World → Prop) : Prop :=
  (machine P (servingController N) G).Triple (SingleTask P N explains b₀) R p
    (PartEnds P N explains b₀ call d Q)

/-- **Sequencing.** An error of the first half is an error of both. -/
theorem CallTriple.bind (hm : CallTriple P N explains b₀ G call d R (m t) Q)
    (hf : ∀ a t', SameButQueues d t' → CallTriple P N explains b₀ G call d (Q a t') (f a t') U) :
    CallTriple P N explains b₀ G call d R ((m >>= f) t) U :=
  Triple.method_bind hm (fun a t' => Triple.of_pure (hf a t')) (fun _ _ _ => id)
    fun _ _ _ => id

/-- The condition on the value may be weakened. -/
theorem CallTriple.post (h : CallTriple P N explains b₀ G call d R (m t) Q)
    (hQ : ∀ a t' w, SameButQueues d t' → Q a t' w → Q' a t' w) :
    CallTriple P N explains b₀ G call d R (m t) Q' := by
  refine Triple.post h fun x w hx => ?_
  obtain ⟨x, t'⟩ := x
  cases x with
  | ok a => exact ⟨hx.1, hQ a t' w hx.1 hx.2⟩
  | err error => exact hx
  | panic why => exact hx

variable {call' : Option Call}

/-- A value, at the end. -/
theorem CallTriple.ok (ht : SameButQueues d t) {a : α}
    (hstable : (machine P (servingController N) G).Stable R)
    (hsingle : ∀ w, R w → SingleTask P N explains b₀ w) (hQ : ∀ w, R w → Q a t w) :
    CallTriple P N explains b₀ G call d R ((Pure.pure a : DriverMethod α) t) Q :=
  Triple.ret hstable hsingle fun w hw => ⟨ht, hQ w hw⟩

/-- An error that ends the call. -/
theorem CallTriple.fail (ht : SameButQueues d t) {error : IoError}
    (hstable : (machine P (servingController N) G).Stable R)
    (hR : ∀ w, R w → AfterError P N explains b₀ call error t w) :
    CallTriple P N explains b₀ G call d R ((Method.fail error : DriverMethod α) t) Q :=
  Triple.ret hstable (fun w hw => (hR w hw).singleTask) fun w hw => ⟨ht, hR w hw⟩

/-- An operation. -/
theorem CallTriple.call_bind {o : Op} {f : Res o → DriverMethod β} {V : Res o → World → Prop}
    (hstable : (machine P (servingController N) G).Stable R)
    (hsingle : ∀ w, R w → SingleTask P N explains b₀ w)
    (hact : ∀ w r w', R w → act P o w r w' → G o w → V r w')
    (hf : ∀ r, CallTriple P N explains b₀ G call d (V r) (f r t) U) :
    CallTriple P N explains b₀ G call d R ((Method.call o >>= f) t) U :=
  Triple.call_bind hstable hsingle (fun w r w' hw h => hact w r w' hw h.1 h.2) hf

/-- An arithmetic operation that may panic. -/
theorem CallTriple.lift_bind {x : Outcome IoError α} (hx : ∀ error, x ≠ .err error)
    (hstable : (machine P (servingController N) G).Stable R)
    (hsingle : ∀ w, R w → SingleTask P N explains b₀ w)
    (hf : ∀ a, x = .ok a → CallTriple P N explains b₀ G call d R (f a t) U) :
    CallTriple P N explains b₀ G call d R ((Method.lift x >>= f) t) U :=
  Triple.lift_bind hstable hsingle hf (fun error _ he => absurd he (hx error))
    fun _ w _ hw => hsingle w hw

end Rules

/-! ### One command -/

/-- The memory is what the command needs, and nothing but the driver can change that. -/
def MemoryReady (P : Platform) (N : Namespace) (i : QueueId) (e : SubmissionQueueEntry)
    (payload : List UInt8) (w : World) : Prop :=
  Loaded P N i e payload w.mem ∧
    ((∀ j, Drained (w.ring j)) ∨ ∀ m, Loaded P N i e payload m)

/-- The completion `c` of the command `e` was taken. -/
structure CommandCompleted (P : Platform) (N : Namespace) (explains : Prop) (b₀ : Mem)
    (call : Option Call) (i : QueueId) (e : SubmissionQueueEntry) (payload : List UInt8)
    (c : CompletionQueueEntry) (d : NvmeUserspaceDriver) (w : World) : Prop
    extends BetweenCommands P N explains b₀ call d w where
  taskCompleted : ∃ S disk, TaskCompleted P N explains b₀ call
    ⟨i, S, { e with cid := .ofNat S }, payload, disk⟩ c w

/-- With its completion taken, a command leaves both rings drained. -/
theorem CommandCompleted.drained (h : CommandCompleted P N explains b₀ call i e payload c d w)
    (j : QueueId) : Drained (w.ring j) := by
  obtain ⟨S, disk, hcompleted⟩ := h.taskCompleted
  exact hcompleted.drained j

section Methods

variable (halign : P.base.val.toNat % PAGE_SIZE = 0) (hreg : Regime P N explains G)
include halign

/-- The state before a command outlasts the controller's steps. -/
theorem beforeCommand_stable :
    (machine P (servingController N) G).Stable (BeforeCommand P N explains b₀ call d) :=
  fun _ _ h henv => h.step halign henv

omit halign in
/-- A controller that has nothing left to do leaves everything as it is. -/
theorem stable_of_drained {R : World → Prop} (h : ∀ w, R w → ∀ i, Drained (w.ring i)) :
    (machine P (servingController N) G).Stable R :=
  fun w _ hw henv => absurd henv (not_env_of_drained (h w hw))

include hreg

/-- **A command, on either queue**: what the rings guarantee of `submitAndWait`, for the driver that
owns them. -/
theorem callTriple_submit {command : SubmissionQueueEntry} (ht : SameButQueues d t) {q : QueuePair}
    (hqueue : t.queue i = q)
    (hcall : i = .io → ∃ c, call = some c ∧ Orders c i command payload) :
    CallTriple P N explains b₀ G call d
      (fun w => BeforeCommand P N explains b₀ call t w ∧ MemoryReady P N i command payload w)
      ((QueuePair.submitAndWait P.bar P.region P.stride command q).bind fun x =>
        .pure (x.1, t.putQueue i x.2))
      (CommandCompleted P N explains b₀ call i command payload) := by
  refine Triple.map (((submitAndWait_sent halign hreg hqueue
    hcall).post fun x w h => ?_).pre fun w h => ?_)
  -- a submission that panicked has still kept the stand
  · rcases h with ⟨hpanic, hsingle⟩ | ⟨hrest, S, hsent, hend⟩
    · obtain ⟨x, q'⟩ := x
      cases x with
      | panic why => exact hsingle
      | ok c => exact hpanic.elim
      | err error => exact hpanic.elim
    · obtain ⟨hsingle, haside, hissued, disk, hinFlight, hexpected⟩ := hsent
      have hqueues := ht.trans (sameButQueues_putQueue t i x.2)
      -- the pair that was used is put back, the other one is as it was
      have hbetween : BetweenCommands P N explains b₀ call (t.putQueue i x.2) w := by
        refine ⟨hsingle, .inr ⟨_, hinFlight⟩, fun j => ?_, haside.current⟩
        by_cases hj : j = i
        · subst hj
          rwa [queue_putQueue]
        · rw [queue_putQueue_of_ne t x.2 hj]
          exact haside.others j hj
      obtain ⟨x, q'⟩ := x
      rcases hend with ⟨c, rfl, hposted⟩ | ⟨error, rfl, hexpired⟩
      · exact ⟨hqueues, hbetween, S, disk, hinFlight, hexpected, hissued, hposted⟩
      · exact ⟨hqueues, hbetween, fun _ => .inl ⟨i, hexpired⟩⟩
  · obtain ⟨hbefore, hloaded, hstill⟩ := h
    exact ⟨hqueue ▸ hbefore.rest i, hbefore.singleTask,
      ⟨fun j _ => hbefore.rest j, hbefore.current⟩, hbefore.atMostOneLeft, hloaded, hstill,
        hbefore.blocks⟩

/-- On the admin queue no call is answered. -/
theorem callTriple_submitAdmin {command : SubmissionQueueEntry} (ht : SameButQueues d t)
    (hd : BuiltFor P t) :
    CallTriple P N explains b₀ G call d
      (fun w => BeforeCommand P N explains b₀ call t w ∧ MemoryReady P N .admin command payload w)
      (submitAdmin command t) (CommandCompleted P N explains b₀ call .admin command payload) := by
  rw [submitAdmin, Method.get_bind, hd.bar, hd.region, hd.stride]
  exact callTriple_submit (i := .admin) halign hreg ht rfl fun h => by cases h

/-- On the I/O queue the command is that of the call. -/
theorem callTriple_submitIo {command : SubmissionQueueEntry} (ht : SameButQueues d t)
    (hd : BuiltFor P t) {c : Call} (hcall : call = some c)
    (horders : Orders c .io command payload) :
    CallTriple P N explains b₀ G call d
      (fun w => BeforeCommand P N explains b₀ call t w ∧ MemoryReady P N .io command payload w)
      (submitIo command t) (CommandCompleted P N explains b₀ call .io command payload) := by
  rw [submitIo, Method.get_bind, hd.bar, hd.region, hd.stride]
  exact callTriple_submit (i := .io) halign hreg ht rfl fun _ => ⟨c, hcall, horders⟩

end Methods

/-- The completion was successful, or the call fails. -/
theorem callTriple_checkCompletion {what : String} (ht : SameButQueues d t)
    (hio : ∀ c, call = some c → c.Accepted N.blockSize → i = .io) :
    CallTriple P N explains b₀ G call d (CommandCompleted P N explains b₀ call i e payload c t)
      (checkCompletion c what t) fun _ t' w =>
        c.isSuccess = true ∧ CommandCompleted P N explains b₀ call i e payload c t' w := by
  have hstable : (machine P (servingController N) G).Stable
      (CommandCompleted P N explains b₀ call i e payload c t) :=
    stable_of_drained fun w hw => hw.drained
  unfold checkCompletion
  -- what was refused ends the call with an error
  by_cases hok : c.isSuccess = true
  · rw [if_pos hok]
    exact .ok ht hstable (fun w hw => hw.singleTask) fun w hw => ⟨hok, hw⟩
  · rw [if_neg hok]
    refine .fail ht hstable fun w hw => ?_
    obtain ⟨S, disk, hcompleted⟩ := hw.taskCompleted
    exact hcompleted.afterError hw.toBetweenCommands (by simpa using hok) hio

/-- The bytes are copied out of the data area. -/
theorem callTriple_readBytes {len : Nat} {R : World → Prop} (ht : SameButQueues d t)
    (dma : DmaRegion) (hstable : (machine P (servingController N) G).Stable R)
    (hsingle : ∀ w, R w → SingleTask P N explains b₀ w)
    (hdrained : ∀ w, R w → ∀ i, Drained (w.ring i)) :
    CallTriple P N explains b₀ G call d R (dma.readBytes DATA_OFFSET len t) fun bytes t' w =>
      t' = t ∧ bytes = w.mem.read (World.address P DATA_OFFSET) len ∧ R w := by
  refine CallTriple.lift_bind (fun error => ?_) hstable hsingle fun _ _ => ?_
  · -- the check panics, but never gives an error
    unfold DmaRegion.checkBytes
    split_ifs <;> simp
  refine CallTriple.call_bind
    (V := fun r w => r.val = w.mem.read (World.address P DATA_OFFSET) len ∧ R w) hstable hsingle ?_
    fun r => ?_
  · rintro w r w' hw ⟨hr, rfl⟩ -
    exact ⟨hr, hw⟩
  · exact .ok ht (stable_of_drained fun w hw => hdrained w hw.2) (fun w hw => hsingle w hw.2)
      fun w hw => ⟨rfl, hw⟩

/-! ### The data area -/

/-- The payload of the call lies in the data area, and nothing but the driver can change that. -/
structure PayloadPlaced (P : Platform) (N : Namespace) (explains : Prop) (b₀ : Mem)
    (call : Option Call) (payload : List UInt8) (d : NvmeUserspaceDriver) (w : World) : Prop
    extends BeforeCommand P N explains b₀ call d w where
  data : w.mem.read (World.address P DATA_OFFSET) payload.length = payload
  still : payload = [] ∨ ∀ i, Drained (w.ring i)

/-- A call without a payload. -/
theorem BeforeCommand.payloadPlaced (h : BeforeCommand P N explains b₀ call d w) :
    PayloadPlaced P N explains b₀ call [] d w :=
  ⟨h, rfl, .inl rfl⟩

/-- The controller does not touch the payload of a command that it has not got. -/
theorem PayloadPlaced.step (h : PayloadPlaced P N explains b₀ call payload d w)
    (halign : P.base.val.toNat % PAGE_SIZE = 0) (henv : EnvStep P (servingController N) w w') :
    PayloadPlaced P N explains b₀ call payload d w' := by
  rcases h.still with rfl | hdrained
  · exact (h.toBeforeCommand.step halign henv).payloadPlaced
  · exact absurd henv (not_env_of_drained hdrained)

/-- The driver writes above the rings, while the controller has nothing. -/
theorem BeforeCommand.fill (h : BeforeCommand P N explains b₀ call d w)
    (hdrained : ∀ i, Drained (w.ring i)) {offset : Nat} (hoffset : PRP_LIST_OFFSET ≤ offset)
    (source : List UInt8) :
    BeforeCommand P N explains b₀ call d
      { w with mem := w.mem.write (World.address P offset) source } where
  singleTask := ⟨h.singleTask.recorded.congr rfl (fun _ _ => rfl) rfl (fun _ => rfl)
    fun _ => le_rfl, .inl ⟨fun i => (hdrained i).toEmpty, fun hex => h.singleTask.explained hex⟩,
    h.singleTask.told⟩
  atMostOneLeft := .inl hdrained
  rest := fun i => (h.rest i).congr rfl fun _ hs => cqe_write_above hoffset hs
  current := h.current
  blocks := h.blocks

/-- The first entries of the list name the pages of the data area. -/
def EntriesWritten (P : Platform) (count : Nat) (m : Mem) : Prop :=
  ∀ k, k < count → Prp.entry m (prpEntryAddress P.base.val.toNat k) =
    dataPage P.base.val.toNat (k + 1)

/-- One more entry. -/
theorem EntriesWritten.write {index : Nat} {m : Mem} (h : EntriesWritten P index m)
    (value : UInt64) (hvalue : value.toNat = dataPage P.base.val.toNat (index + 1)) :
    EntriesWritten P (index + 1)
      (m.write (World.address P (PRP_LIST_OFFSET + index * 8)) (toLe 8 value.toNat)) := by
  have haddress : World.address P (PRP_LIST_OFFSET + index * 8) =
      prpEntryAddress P.base.val.toNat index := by
    simp only [World.address, prpEntryAddress]
    omega
  rw [haddress]
  intro k hk
  by_cases hlast : k = index
  · subst hlast
    rw [Prp.entry_write (UInt64.toNat_lt _), hvalue]
  · -- the earlier entries lie before it
    rw [← h k (by omega)]
    refine Prp.entry_congr fun x _ hx => Mem.write_of_lt ?_
    simp only [prpEntryAddress] at hx ⊢
    omega

/-- A command with the two pointers names the first `length` bytes of the data area. -/
def PointersName (P : Platform) (length : Nat) (pointers : UInt64 × UInt64) (w : World) : Prop :=
  ∀ e : SubmissionQueueEntry, e.prp1 = pointers.1 → e.prp2 = pointers.2 →
    Listed P length e w.mem ∧ ((∀ i, Drained (w.ring i)) ∨ ∀ m, Listed P length e m)

section Fills

variable (halign : P.base.val.toNat % PAGE_SIZE = 0) (hreg : Regime P N explains G)
include halign hreg

/-- The payload is copied into the data area. -/
theorem callTriple_writeBytes (ht : SameButQueues d t) (dma : DmaRegion) (data : List UInt8) :
    CallTriple P N explains b₀ G call d (BeforeCommand P N explains b₀ call t)
      (dma.writeBytes DATA_OFFSET data t)
      fun _ t' w => t' = t ∧ PayloadPlaced P N explains b₀ call data t w ∧
        ∀ i, Drained (w.ring i) := by
  refine CallTriple.lift_bind (fun error => ?_) (beforeCommand_stable halign)
    (fun w hw => hw.singleTask) fun _ _ => ?_
  · unfold DmaRegion.checkBytes
    split_ifs <;> simp
  refine Triple.op (R := fun _ w => PayloadPlaced P N explains b₀ call data t w ∧
    ∀ i, Drained (w.ring i)) (beforeCommand_stable halign) (fun w hw => hw.singleTask) ?_
    fun _ => ?_
  · rintro w r w' hw ⟨rfl, hG⟩
    -- no command is left that could read the data area
    have hdrained := hreg.clear _ w hG trivial hw.atMostOneLeft fun i => ⟨_, hw.rest i⟩
    exact ⟨⟨hw.fill hdrained (by decide) data, Mem.read_write_self, .inr hdrained⟩, hdrained⟩
  · exact Triple.ret (stable_of_drained fun w hw => hw.2) (fun w hw => hw.1.singleTask)
      fun w hw => ⟨ht, rfl, hw⟩

/-- **The list**, by induction on the entries that are left. The first one is written while the
controller has nothing, and then it has nothing. -/
theorem callTriple_writePrpEntries {index count : Nat} (ht : SameButQueues d t) (hd : BuiltFor P t)
    (hcount : index + count ≤ PRP_LIST_CAPACITY)
    (hpages : DATA_OFFSET + (index + count) * PAGE_SIZE < HUGE_PAGE_SIZE) :
    CallTriple P N explains b₀ G call d
      (fun w => PayloadPlaced P N explains b₀ call payload t w ∧
        (index = 0 ∨ (∀ i, Drained (w.ring i)) ∧ EntriesWritten P index w.mem))
      (writePrpEntries index count t) fun _ t' w => t' = t ∧
        PayloadPlaced P N explains b₀ call payload t w ∧
          (index + count = 0 ∨
            (∀ i, Drained (w.ring i)) ∧ EntriesWritten P (index + count) w.mem) := by
  -- between two entries there is nothing for the controller to do, once the queues are drained
  have hstable (index : Nat) : (machine P (servingController N) G).Stable fun w =>
      PayloadPlaced P N explains b₀ call payload t w ∧
        (index = 0 ∨ (∀ i, Drained (w.ring i)) ∧ EntriesWritten P index w.mem) := by
    rintro w w' ⟨hplaced, hindex | ⟨hdrained, -⟩⟩ henv
    · exact ⟨hplaced.step halign henv, .inl hindex⟩
    · exact absurd henv (not_env_of_drained hdrained)
  induction count generalizing index with
  | zero => exact .ok ht (hstable index) (fun w hw => hw.1.singleTask) fun w hw => ⟨rfl, hw⟩
  | succ count ih =>
    have hslot := prpEntry_ok hd.length (show index < PRP_LIST_CAPACITY by omega)
    have hin : DATA_OFFSET + (index + 1) * PAGE_SIZE < HUGE_PAGE_SIZE := by
      have : (index + 1) * PAGE_SIZE ≤ (index + (count + 1)) * PAGE_SIZE :=
        Nat.mul_le_mul_right _ (by omega)
      omega
    have hvalue := hd.dataPage hin
    rw [writePrpEntries, Method.get_bind, DmaRegion.writeU64, hslot, Method.lift_ok_bind]
    refine CallTriple.call_bind (V := fun _ w => PayloadPlaced P N explains b₀ call payload t w ∧
      (index + 1 = 0 ∨ (∀ i, Drained (w.ring i)) ∧ EntriesWritten P (index + 1) w.mem))
      (hstable index) (fun w hw => hw.1.singleTask) ?_ fun _ => ?_
    · rintro w r w' ⟨hplaced, hindex⟩ rfl hG
      have hdrained := hreg.clear _ w hG trivial hplaced.atMostOneLeft fun i => ⟨_, hplaced.rest i⟩
      -- the entries so far are kept by the next one
      have hentered : EntriesWritten P index w.mem := by
        rcases hindex with rfl | ⟨-, hentered⟩
        · exact fun k hk => absurd hk (Nat.not_lt_zero k)
        · exact hentered
      refine ⟨⟨hplaced.toBeforeCommand.fill hdrained (Nat.le_add_right _ _) _, ?_, .inr hdrained⟩,
        .inr ⟨hdrained, hentered.write _ hvalue⟩⟩
      -- the list ends where the data area begins
      refine (Mem.read_congr fun x hx _ => Mem.write_of_ge ?_).trans hplaced.data
      simp only [World.address, DATA_OFFSET, PRP_LIST_OFFSET, PRP_LIST_CAPACITY, length_toLe] at *
      omega
    · have hsum : index + 1 + count = index + (count + 1) := by omega
      have hnext := @ih (index + 1) (by omega) (hsum ▸ hpages)
      rwa [hsum] at hnext

omit hreg in
theorem payloadPlaced_stable : (machine P (servingController N) G).Stable
    (PayloadPlaced P N explains b₀ call payload t) :=
  fun _ _ h henv => h.step halign henv

/-- **The entries of a transfer.** -/
theorem callTriple_dataPointers {p : Profile} {length : Nat} (ht : SameButQueues d t)
    (hd : BuiltFor P t) (hmax : length ≤ MAX_TRANSFER_BYTES) :
    CallTriple P N explains b₀ G call d (PayloadPlaced P N explains b₀ call payload t)
      (dataPointers p length t) fun pointers t' w => t' = t ∧
        PayloadPlaced P N explains b₀ call payload t w ∧ PointersName P length pointers w := by
  have hcapacity : transferPages length - 1 ≤ PRP_LIST_CAPACITY := pageCount_le hmax
  have hfirst := hd.dataPage (show DATA_OFFSET + 0 * PAGE_SIZE < HUGE_PAGE_SIZE by decide)
  have hsingle (w : World) (hw : PayloadPlaced P N explains b₀ call payload t w) := hw.singleTask
  rw [dataPointers, Method.get_bind,
    show (length + (PAGE_SIZE - 1)) / PAGE_SIZE = transferPages length from rfl]
  -- one page: the second entry is not used
  by_cases hone : transferPages length ≤ 1
  · rw [if_pos hone]
    refine .ok ht (payloadPlaced_stable halign) hsingle fun w hw => ⟨rfl, hw, fun e hprp1 _ => ?_⟩
    have hpage : length ≤ PAGE_SIZE := by
      unfold transferPages PAGE_SIZE at *
      omega
    exact ⟨hd.listed_page hpage hprp1 _, .inr (hd.listed_page hpage hprp1)⟩
  rw [if_neg hone]
  -- two pages: both are named directly
  by_cases htwo : transferPages length = 2
  · rw [if_pos htwo]
    have hsecond := hd.dataPage (show DATA_OFFSET + 1 * PAGE_SIZE < HUGE_PAGE_SIZE by decide)
    refine .ok ht (payloadPlaced_stable halign) hsingle fun w hw =>
      ⟨rfl, hw, fun e hprp1 hprp2 => ?_⟩
    have hlisted (m : Mem) : Listed P length e m :=
      ⟨hmax, hprp1 ▸ hfirst, fun _ => hprp2 ▸ hsecond, fun h => by omega, fun h => by omega⟩
    exact ⟨hlisted _, .inr hlisted⟩
  -- more pages: the list is written, which needs a controller that has nothing
  rw [if_neg htwo, if_neg fun h => Nat.not_lt.mpr hcapacity h.2]
  have hpages : DATA_OFFSET + (0 + (transferPages length - 1)) * PAGE_SIZE < HUGE_PAGE_SIZE := by
    simp only [transferPages, MAX_TRANSFER_BYTES, HUGE_PAGE_SIZE, DATA_OFFSET, PAGE_SIZE] at hmax ⊢
    omega
  have hwrite : CallTriple P N explains b₀ G call d
      (fun w => PayloadPlaced P N explains b₀ call payload t w ∧
        (0 = 0 ∨ (∀ i, Drained (w.ring i)) ∧ EntriesWritten P 0 w.mem)) _ _ :=
    callTriple_writePrpEntries halign hreg ht hd
      (show 0 + (transferPages length - 1) ≤ PRP_LIST_CAPACITY by omega) hpages
  refine CallTriple.bind (Triple.pre hwrite fun w hw => ⟨hw, .inl rfl⟩) fun _ t' ht' => ?_
  refine Triple.of_pure fun hsame => ?_
  subst hsame
  refine CallTriple.ok ht' (fun w w' hw henv => ?_) (fun w hw => hw.1.singleTask) fun w hw => ?_
  -- the list stays as it is, since the controller takes no step
  · obtain ⟨-, hdrained, -⟩ := hw.imp_right fun h => h.resolve_left (by omega)
    exact absurd henv (not_env_of_drained hdrained)
  · obtain ⟨hplaced, hdrained, hentered⟩ := hw.imp_right fun h => h.resolve_left (by omega)
    rw [Nat.zero_add] at hentered
    exact ⟨rfl, hplaced, fun e hprp1 hprp2 => ⟨⟨hmax, hprp1 ▸ hfirst, fun h => absurd h htwo,
      fun _ => hprp2 ▸ hd.prpList, fun _ => hentered⟩, .inl hdrained⟩⟩

end Fills

/-! ### Identify -/

/-- The data of an Identify command of the driver. -/
def Identified (N : Namespace) («structure» : IdentifyStructure) (nsid : UInt32)
    (bytes : List UInt8) : Prop :=
  ∃ prp1 cid, bytes =
    (N.identify { nvmeIdentify «structure» nsid prp1 with cid := cid }).read 0 IDENTIFY_SIZE

/-- What the controller says of itself: its Identify Controller data. -/
def Namespace.idData (N : Namespace) : List UInt8 → Prop := Identified N .controller 0

/-- A command that takes nothing from the host has left the blocks as they were. -/
theorem CommandCompleted.beforeCommand (h : CommandCompleted P N explains b₀ call i e payload c d w)
    (hdir : i.direction e ≠ .fromHost) : BeforeCommand P N explains b₀ call d w := by
  refine ⟨h.toBetweenCommands, fun hex => ⟨h.drained, ?_⟩⟩
  obtain ⟨S, disk, hcompleted⟩ := h.taskCompleted
  rw [hcompleted.moving.kept (by rwa [Task.direction, QueueId.direction_cid])]
  exact (hcompleted.expected hex).blocks

section Identify

variable {«structure» : IdentifyStructure} {nsid : UInt32}

/-- Identify moves one page to the host. -/
theorem identify_direction (prp1 : UInt64) :
    QueueId.admin.direction (nvmeIdentify «structure» nsid prp1) = .toHost := by
  rw [QueueId.direction]
  exact if_pos rfl

theorem identify_length (prp1 : UInt64) (cid : UInt16) : N.length .admin
    { nvmeIdentify «structure» nsid prp1 with cid := cid } = IDENTIFY_SIZE :=
  Namespace.length_admin N (by rw [QueueId.direction_cid, identify_direction]; simp)

/-- One page, and no list. -/
theorem identify_loaded (hd : BuiltFor P t) (m : Mem) : Loaded P N .admin
    (nvmeIdentify «structure» nsid (t.dataPagePhysicalAddress 0)) [] m := by
  refine ⟨fun _ => ?_, fun hfrom => ?_⟩
  · rw [identify_length _ (nvmeIdentify «structure» nsid (t.dataPagePhysicalAddress 0)).cid]
    have hprp1 (prp1 : UInt64) : (nvmeIdentify «structure» nsid prp1).prp1 = prp1 := rfl
    exact hd.listed_page (show IDENTIFY_SIZE ≤ PAGE_SIZE by decide) (hprp1 _) m
  · rw [identify_direction] at hfrom
    cases hfrom

variable (halign : P.base.val.toNat % PAGE_SIZE = 0) (hreg : Regime P N explains G)
include halign hreg

/-- **Identify.** The call gives the data of its own command. -/
theorem callTriple_identify (ht : SameButQueues d t) (hd : BuiltFor P t)
    (hcall : ∀ c, call = some c → ¬ c.Accepted N.blockSize) :
    CallTriple P N explains b₀ G call d (BeforeCommand P N explains b₀ call t)
      (identify «structure» nsid t) fun bytes t' w => Identified N «structure» nsid bytes ∧
        BeforeCommand P N explains b₀ call t' w ∧ ∀ i, Drained (w.ring i) := by
  rw [identify, Method.get_bind]
  refine CallTriple.bind (Triple.pre (callTriple_submitAdmin halign hreg ht hd) fun w hw =>
    ⟨hw, identify_loaded hd _, .inr (identify_loaded hd)⟩) fun c t' ht' => ?_
  refine CallTriple.bind
    (callTriple_checkCompletion ht' fun c hc haccepted => absurd haccepted (hcall c hc))
    fun _ t' ht' => ?_
  -- from here on the command has succeeded
  refine Triple.of_pure fun hok => ?_
  refine CallTriple.post (callTriple_readBytes ht' _ (stable_of_drained fun w hw => hw.drained)
    (fun w hw => hw.singleTask) fun w hw => hw.drained) ?_
  rintro bytes t' w - ⟨hsame, hbytes, hcommand⟩
  subst hsame
  refine ⟨?_, hcommand.beforeCommand (by rw [identify_direction]; simp), hcommand.drained⟩
  -- so the page holds what the namespace supplies
  obtain ⟨S, disk, hcompleted⟩ := hcommand.taskCompleted
  obtain ⟨hmoved, hread⟩ := hcompleted.received hok
    (by rw [Task.direction, QueueId.direction_cid, identify_direction])
  rw [Task.length, identify_length] at hread
  refine ⟨t.dataPagePhysicalAddress 0, UInt16.ofNat S, hbytes.trans (hread.trans
    (hmoved.trans ?_))⟩
  rw [Namespace.supplies, identify_length]

end Identify

/-! ### Read and write -/

section Commands

variable (nsid : UInt32) (slba : UInt64) (nlb : UInt16) (prp1 prp2 : UInt64)

theorem nvmeRead_direction :
    QueueId.io.direction (nvmeRead nsid slba nlb prp1 prp2) = .toHost := by
  rw [QueueId.direction]
  exact if_pos rfl

theorem nvmeWrite_direction :
    QueueId.io.direction (nvmeWrite nsid slba nlb prp1 prp2) = .fromHost := by
  have hopcode : ¬ IoOpcode.write.toUInt8 = IoOpcode.read.toUInt8 := by decide
  rw [QueueId.direction]
  exact (if_neg hopcode).trans (if_pos rfl)

theorem nvmeRead_length :
    N.length .io (nvmeRead nsid slba nlb prp1 prp2) = (nlb.toNat + 1) * N.blockSize := by
  rw [Namespace.length_io N (by rw [nvmeRead_direction]; simp), nvmeRead, nvmeTransfer_blockCount]

theorem nvmeWrite_length :
    N.length .io (nvmeWrite nsid slba nlb prp1 prp2) = (nlb.toNat + 1) * N.blockSize := by
  rw [Namespace.length_io N (by rw [nvmeWrite_direction]; simp), nvmeWrite,
    nvmeTransfer_blockCount]

end Commands

/-- The call `c` has ended well, with `bytes`. -/
structure CallSucceeded (P : Platform) (N : Namespace) (explains : Prop) (b₀ : Mem) (c : Call)
    (bytes : List UInt8) (d : NvmeUserspaceDriver) (w : World) : Prop
    extends BetweenCommands P N explains b₀ (some c) d w where
  drained : ∀ i, Drained (w.ring i)
  answered : Answered w ⟨c, (w.ring .io).submitted - 1, .ok bytes⟩
  told : Told N.blockSize w ⟨c, (w.ring .io).submitted - 1, .ok bytes⟩
  did : explains → ∃ b, BlockRun N.blockSize b₀ w.calls b ∧
    Did N.blockSize b c (.ok bytes) w.disk

/-- The last command on the I/O queue is the one that has landed. -/
theorem TaskCompleted.record {k : Call} (h : TaskCompleted P N explains b₀ (some k) τ c w)
    (hqueue : τ.queue = .io) : (w.ring .io).submitted - 1 = τ.number ∧
      w.issuedBy τ.number = some k ∧ (w.ring .io).posted[τ.number]? = some (c, τ.number) := by
  have hsubmitted := h.inFlight.submitted
  have hlast := h.last
  rw [hqueue] at hsubmitted hlast
  exact ⟨by omega, h.issued hqueue, hlast⟩

/-- A command of a call that was reported successful. -/
theorem TaskCompleted.callSucceeded {k : Call} {bytes : List UInt8}
    (h : TaskCompleted P N explains b₀ (some k) τ c w)
    (hbetween : BetweenCommands P N explains b₀ (some k) d w)
    (hok : c.isSuccess = true) (hqueue : τ.queue = .io)
    (hread : ∀ slba blockCount, k = .read slba blockCount → w.moved .io τ.number = bytes)
    (hdid : BlockRun N.blockSize b₀ w.calls τ.disk → Did N.blockSize τ.disk k (.ok bytes) w.disk) :
    CallSucceeded P N explains b₀ k bytes d w := by
  obtain ⟨hnumber, hissued, hlast⟩ := h.record hqueue
  refine ⟨hbetween, h.drained, ?_, ?_, fun hex => ?_⟩
  · -- the answer is that of the command of this call
    rw [hnumber]
    intro bytes' _ hbytes
    obtain rfl := Except.ok.inj hbytes
    exact ⟨hissued, ⟨c, hlast, hok⟩, hread⟩
  · rw [hnumber]
    exact fun _ => ⟨hissued, c, hlast, fun _ => ⟨bytes, rfl⟩⟩
  · exact ⟨τ.disk, (h.expected hex).blocks, hdid (h.expected hex).blocks⟩

/-- The command is complete: its pointers name the data area, which holds its payload. -/
theorem PayloadPlaced.laid {length : Nat} {pointers : UInt64 × UInt64}
    (h : PayloadPlaced P N explains b₀ call payload d w) (hnames : PointersName P length pointers w)
    (hlength : N.length i e = length) (hprp1 : e.prp1 = pointers.1) (hprp2 : e.prp2 = pointers.2)
    (hpayload : i.direction e = .fromHost → payload.length = length ∧ payload ≠ []) :
    MemoryReady P N i e payload w := by
  obtain ⟨hlisted, hstill⟩ := hnames e hprp1 hprp2
  have hdata (hdir : i.direction e = .fromHost) : payload.length = N.length i e :=
    (hpayload hdir).1.trans hlength.symm
  refine ⟨⟨fun _ => hlength ▸ hlisted, fun hdir => ⟨hdata hdir, h.data⟩⟩, ?_⟩
  -- there is nothing to send, or no command that would see it change
  rcases h.still with hnil | hdrained
  · refine hstill.imp_right fun hany m => ⟨fun _ => hlength ▸ hany m, fun hdir => ?_⟩
    exact absurd hnil (hpayload hdir).2
  · exact .inl hdrained

/-- A call whose arithmetic does not overflow unnoticed: the length of a read is the true one, or
is refused as the true one is; and a payload is of no more blocks than a command can name. -/
def Call.Fits (p : Profile) (B : Nat) : Call → Prop
  | identifyController => True
  | read _ blockCount => p = .release → B * blockCount.toNat < U64_SIZE ∨
    MAX_TRANSFER_BYTES < B * blockCount.toNat % U64_SIZE
  | write _ data => data.length ≤ MAX_TRANSFER_BYTES → data.length / B ≤ 2 ^ 16

/-- The length that a read computes. -/
theorem Call.Fits.length {p : Profile} {slba : UInt64} {blockCount : UInt16} {B total : Nat}
    (h : (Call.read slba blockCount).Fits p B)
    (htotal : (p.mulUsize B blockCount.toNat : Outcome IoError Nat) = .ok total) :
    total = B * blockCount.toNat ∨
      MAX_TRANSFER_BYTES < total ∧ MAX_TRANSFER_BYTES < B * blockCount.toNat := by
  rw [Profile.mulUsize] at htotal
  cases p with
  | debug => exact .inl (Profile.fit_debug_eq_ok.mp htotal).2
  | release =>
    rcases h rfl with hlt | hrefused
    · rw [Profile.fit_of_lt hlt] at htotal
      exact .inl (Outcome.ok.inj htotal).symm
    -- what is left of the product is too large as well
    · by_cases hlt : B * blockCount.toNat < U64_SIZE
      · rw [Profile.fit_of_lt hlt] at htotal
        exact .inl (Outcome.ok.inj htotal).symm
      · rw [Profile.fit, if_neg hlt] at htotal
        obtain rfl := Outcome.ok.inj htotal
        exact .inr ⟨hrefused, Nat.lt_of_lt_of_le hrefused (Nat.mod_le _ _)⟩

section Commands

variable {nsid : UInt32} {slba : UInt64} {nlb : UInt16} {prp1 prp2 : UInt64}

/-- A read that was reported successful: what is copied out are the blocks that its command
names. -/
theorem CommandCompleted.callSucceeded_read {blockCount : UInt16} {bytes : List UInt8}
    (h : CommandCompleted P N explains b₀ (some (.read slba blockCount)) .io
      (nvmeRead nsid slba nlb prp1 prp2) [] c d w) (hok : c.isSuccess = true)
    (haccepted : (Call.read slba blockCount).Accepted N.blockSize)
    (hlength : N.length .io (nvmeRead nsid slba nlb prp1 prp2) =
      N.blockSize * blockCount.toNat)
    (hbytes : bytes = w.mem.read (World.address P DATA_OFFSET)
      (N.blockSize * blockCount.toNat)) :
    CallSucceeded P N explains b₀ (.read slba blockCount) bytes d w := by
  obtain ⟨S, disk, hcompleted⟩ := h.taskCompleted
  have hdir : Task.direction ⟨.io, S, { nvmeRead nsid slba nlb prp1 prp2 with cid := .ofNat S },
      [], disk⟩ = .toHost := by
    rw [Task.direction, QueueId.direction_cid, nvmeRead_direction]
  -- a command that succeeded has filled the buffer from the disk
  obtain ⟨hmoved, hread⟩ := hcompleted.received hok hdir
  rw [Task.length, Namespace.length_cid, hlength, ← hbytes] at hread
  refine hcompleted.callSucceeded h.toBetweenCommands hok rfl (fun _ _ _ => hread.symm) fun _ => ?_
  have hslba : (nvmeRead nsid slba nlb prp1 prp2).slba = slba.toNat := nvmeTransfer_slba ..
  have hblocks : bytes = disk.read (slba.toNat * N.blockSize) (blockCount.toNat * N.blockSize) :=
    calc bytes
      _ = N.supplies .io (nvmeRead nsid slba nlb prp1 prp2) disk := hread.trans hmoved
      _ = disk.read (slba.toNat * N.blockSize) (N.blockSize * blockCount.toNat) := by
        rw [Namespace.supplies, Namespace.position, hslba, hlength]
      _ = disk.read (slba.toNat * N.blockSize) (blockCount.toNat * N.blockSize) := by
        rw [Nat.mul_comm N.blockSize]
  -- and the disk is what it was
  have hdisk : w.disk = disk := hcompleted.moving.kept (by rw [hdir]; simp)
  rw [hblocks, hdisk]
  exact .read slba blockCount haccepted

/-- A write that was reported successful: its payload is in the blocks that its command names. -/
theorem CommandCompleted.callSucceeded_write {data : List UInt8}
    (h : CommandCompleted P N explains b₀ (some (.write slba data)) .io
      (nvmeWrite nsid slba nlb prp1 prp2) data c d w) (hok : c.isSuccess = true)
    (haccepted : (Call.write slba data).Accepted N.blockSize) :
    CallSucceeded P N explains b₀ (.write slba data) [] d w := by
  obtain ⟨S, disk, hcompleted⟩ := h.taskCompleted
  have hstored := hcompleted.stored hok (by
    rw [Task.direction, QueueId.direction_cid, nvmeWrite_direction])
  refine hcompleted.callSucceeded h.toBetweenCommands hok rfl (fun _ _ h => by cases h) fun _ => ?_
  -- the command names the blocks of the call
  have hslba : (nvmeWrite nsid slba nlb prp1 prp2).slba = slba.toNat := nvmeTransfer_slba ..
  have hdisk : w.disk = disk.write (slba.toNat * N.blockSize) data := by
    rw [hstored, ← hslba]
    rfl
  rw [hdisk]
  exact .write slba data haccepted

end Commands

section Calls

variable (halign : P.base.val.toNat % PAGE_SIZE = 0) (hreg : Regime P N explains G)
include halign hreg

variable {p : Profile}

/-- **A read.** Each of its parts takes over where the one before it ended. -/
theorem callTriple_read {slba : UInt64} {blockCount : UInt16} (hd : BuiltFor P d)
    (hsize : d.blockSizes d.nsid = some N.blockSize)
    (hfits : (Call.read slba blockCount).Fits p N.blockSize) :
    CallTriple P N explains b₀ G (some (.read slba blockCount)) d
      (BeforeCommand P N explains b₀ (some (.read slba blockCount)) d)
      (NvmeUserspaceDriver.read p slba blockCount d)
      (CallSucceeded P N explains b₀ (.read slba blockCount)) := by
  have ht := SameButQueues.refl d
  have hbefore : (machine P (servingController N) G).Stable
      (BeforeCommand P N explains b₀ (some (.read slba blockCount)) d) :=
    beforeCommand_stable halign
  unfold NvmeUserspaceDriver.read
  -- no blocks
  by_cases hzero : blockCount = 0
  · rw [if_pos hzero]
    refine .fail ht hbefore fun w hw => hw.afterError fun c hc haccepted => ?_
    obtain rfl := Option.some.inj hc
    exact haccepted.1 hzero
  rw [if_neg hzero, Method.get_bind, namespaceBlockSize_bind hsize]
  refine CallTriple.lift_bind (fun error => Profile.fit_ne_err) hbefore (fun w hw => hw.singleTask)
    fun total htotal => ?_
  -- too many, also where the product has wrapped
  have hrefuse (hmax : MAX_TRANSFER_BYTES < N.blockSize * blockCount.toNat) (w : World)
      (hw : BeforeCommand P N explains b₀ (some (.read slba blockCount)) d w) :
      AfterError P N explains b₀ (some (.read slba blockCount)) .readTooLarge d w :=
    hw.afterError fun c hc haccepted => by
      obtain rfl := Option.some.inj hc
      exact absurd haccepted.2 (Nat.not_le.mpr hmax)
  rcases hfits.length htotal with rfl | ⟨htoo, hmax⟩
  case inr =>
    rw [if_pos htoo]
    exact .fail ht hbefore (hrefuse hmax)
  by_cases hmax : MAX_TRANSFER_BYTES < N.blockSize * blockCount.toNat
  · rw [if_pos hmax]
    exact .fail ht hbefore (hrefuse hmax)
  rw [if_neg hmax]
  rw [Nat.not_lt] at hmax
  -- from here on the call is accepted
  have haccepted : (Call.read slba blockCount).Accepted N.blockSize := ⟨hzero, hmax⟩
  refine CallTriple.bind
    (Triple.pre (callTriple_dataPointers halign hreg ht hd hmax) fun w hw => hw.payloadPlaced)
    fun pointers t ht => ?_
  refine Triple.of_pure fun hsame => ?_
  subst hsame
  have hdir := nvmeRead_direction t.nsid slba (blockCount - 1) pointers.1 pointers.2
  have hlength : N.length .io (nvmeRead t.nsid slba (blockCount - 1) pointers.1 pointers.2) =
      N.blockSize * blockCount.toNat := by
    rw [nvmeRead_length, toNat_sub_one hzero, Nat.mul_comm]
  have hnot : QueueId.io.direction
      (nvmeRead t.nsid slba (blockCount - 1) pointers.1 pointers.2) ≠ .fromHost := by
    rw [hdir]
    simp
  -- the command, and its status
  refine CallTriple.bind (Triple.pre (callTriple_submitIo halign hreg ht hd rfl hnot) fun w hw =>
    ⟨hw.1.toBeforeCommand, hw.1.laid hw.2 hlength rfl rfl fun hfrom => absurd hfrom hnot⟩)
    fun c t' ht' => ?_
  refine CallTriple.bind (callTriple_checkCompletion ht' fun _ _ _ => rfl) fun _ t' ht' => ?_
  refine Triple.of_pure fun hok => ?_
  have hstable : (machine P (servingController N) G).Stable (CommandCompleted P N explains b₀
      (some (.read slba blockCount)) .io (nvmeRead t.nsid slba (blockCount - 1) pointers.1
        pointers.2) [] c t') := stable_of_drained fun w hw => hw.drained
  have halloc : N.blockSize * blockCount.toNat < 2 ^ 63 := Nat.lt_of_le_of_lt hmax (by decide)
  -- the buffer that is returned
  rw [allocVec, if_pos halloc]
  refine CallTriple.call_bind (V := fun _ => CommandCompleted P N explains b₀
    (some (.read slba blockCount)) .io (nvmeRead t.nsid slba (blockCount - 1) pointers.1
      pointers.2) [] c t') hstable (fun w hw => hw.singleTask) ?_ fun _ => ?_
  · rintro w r w' hw rfl -
    exact hw
  refine CallTriple.post (callTriple_readBytes ht' _ hstable (fun w hw => hw.singleTask)
    fun w hw => hw.drained) ?_
  rintro bytes t'' w - ⟨hsame, hbytes, hcommand⟩
  subst hsame
  exact hcommand.callSucceeded_read hok haccepted hlength hbytes

/-- **A write**, likewise; the payload is placed before the pointers to it. -/
theorem callTriple_write {slba : UInt64} {data : List UInt8} (hd : BuiltFor P d)
    (hsize : d.blockSizes d.nsid = some N.blockSize) (hpos : 0 < N.blockSize)
    (hfits : (Call.write slba data).Fits p N.blockSize) :
    CallTriple P N explains b₀ G (some (.write slba data)) d
      (BeforeCommand P N explains b₀ (some (.write slba data)) d)
      (NvmeUserspaceDriver.write p slba data d)
      fun _ => CallSucceeded P N explains b₀ (.write slba data) [] := by
  have ht := SameButQueues.refl d
  have hbefore : (machine P (servingController N) G).Stable
      (BeforeCommand P N explains b₀ (some (.write slba data)) d) := beforeCommand_stable halign
  rw [NvmeUserspaceDriver.write, Method.get_bind, namespaceBlockSize_bind hsize]
  -- empty, or not of whole blocks
  obtain ⟨refused, hrefused⟩ := notMultiple_ok data hpos
  rw [hrefused, Method.lift_ok_bind]
  cases refused with
  | true =>
    rw [if_pos rfl]
    refine .fail ht hbefore fun w hw => hw.afterError fun c hc haccepted => ?_
    obtain rfl := Option.some.inj hc
    have hmultiple := (notMultiple_eq_false hpos).mpr ⟨haccepted.1, haccepted.2.1⟩
    rw [hrefused] at hmultiple
    cases hmultiple
  | false =>
  obtain ⟨hne, hdvd⟩ := (notMultiple_eq_false hpos).mp hrefused
  rw [if_neg (by simp)]
  -- too long
  by_cases hmax : MAX_TRANSFER_BYTES < data.length
  · rw [if_pos hmax]
    refine .fail ht hbefore fun w hw => hw.afterError fun c hc haccepted => ?_
    obtain rfl := Option.some.inj hc
    exact absurd haccepted.2.2 (Nat.not_le.mpr hmax)
  rw [if_neg hmax]
  rw [Nat.not_lt] at hmax
  have haccepted : (Call.write slba data).Accepted N.blockSize := ⟨hne, hdvd, hmax⟩
  have hcount : 0 < data.length / N.blockSize :=
    Nat.div_pos (Nat.le_of_dvd (List.length_pos_iff.mpr hne) hdvd) hpos
  simp only [divUsize, if_neg hpos.ne', Method.lift_ok_bind]
  -- the payload is put into the data area, where the controller has nothing to read
  refine CallTriple.bind (callTriple_writeBytes halign hreg ht _ data) fun _ t ht => ?_
  refine Triple.of_pure fun hsame => ?_
  subst hsame
  refine CallTriple.bind
    (Triple.pre (callTriple_dataPointers halign hreg ht hd hmax) fun w hw => hw.1)
    fun pointers t ht => ?_
  refine Triple.of_pure fun hsame => ?_
  subst hsame
  have hdrained (w : World)
      (hw : PayloadPlaced P N explains b₀ (some (.write slba data)) data t w) :
      ∀ i, Drained (w.ring i) := hw.still.resolve_left hne
  refine CallTriple.lift_bind (fun error => Profile.decU16_ne_err)
    (stable_of_drained fun w hw => hdrained w hw.1) (fun w hw => hw.1.singleTask) fun nlb hnlb => ?_
  -- NLB is cut to 16 bits, and exact for a payload that fits
  have hnlb' := Profile.decU16_ofNat hcount hnlb
  have hdir := nvmeWrite_direction t.nsid slba nlb pointers.1 pointers.2
  have hslba : (nvmeWrite t.nsid slba nlb pointers.1 pointers.2).slba = slba.toNat :=
    nvmeTransfer_slba ..
  have hlength : N.length .io (nvmeWrite t.nsid slba nlb pointers.1 pointers.2) = data.length := by
    have hblocks : nlb.toNat + 1 = data.length / N.blockSize := by
      have hsmall := hfits hmax
      rw [hnlb', Nat.mod_eq_of_lt (by omega)]
      omega
    rw [nvmeWrite_length, hblocks, Nat.div_mul_cancel hdvd]
  -- the command, and its status
  refine CallTriple.bind (Triple.pre (callTriple_submitIo halign hreg ht hd rfl ⟨hdir, rfl, hslba⟩)
    fun w hw => ⟨hw.1.toBeforeCommand, hw.1.laid hw.2 hlength rfl rfl fun _ => ⟨rfl, hne⟩⟩)
    fun c t' ht' => ?_
  refine CallTriple.post (callTriple_checkCompletion ht' fun _ _ _ => rfl) ?_
  rintro - t'' w - ⟨hok, hcommand⟩
  exact hcommand.callSucceeded_write hok haccepted

/-- Every call, with its arguments in range. -/
theorem callTriple_perform {k : Call} (hd : BuiltFor P d)
    (hsize : d.blockSizes d.nsid = some N.blockSize) (hpos : 0 < N.blockSize)
    (hfits : k.Fits p N.blockSize) :
    CallTriple P N explains b₀ G (some k) d (BeforeCommand P N explains b₀ (some k) d)
      (perform p k d) fun bytes t w => (k = .identifyController → N.idData bytes) ∧
        CallSucceeded P N explains b₀ k bytes t w := by
  cases k with
  | identifyController =>
    refine CallTriple.post
      (callTriple_identify halign hreg (.refl d) hd fun c hc haccepted => ?_) ?_
    · -- Identify is no call on the blocks
      obtain rfl := Option.some.inj hc
      exact haccepted
    · rintro bytes t w - ⟨hdata, hbefore, hdrained⟩
      refine ⟨fun _ => hdata, hbefore.toBetweenCommands, hdrained, fun _ hcall => absurd rfl hcall,
        fun h => h.elim, fun hex => ?_⟩
      exact ⟨w.disk, (hbefore.blocks hex).2, .identify bytes⟩
  | read slba blockCount =>
    refine CallTriple.post (callTriple_read halign hreg hd hsize hfits) fun _ _ _ _ hw => ?_
    exact ⟨(fun h => by cases h), hw⟩
  | write slba data =>
    refine CallTriple.bind (callTriple_write halign hreg hd hsize hpos hfits) fun _ t ht => ?_
    exact .ok ht (stable_of_drained fun w hw => hw.drained) (fun w hw => hw.singleTask)
      fun w hw => ⟨(fun h => by cases h), hw⟩

end Calls

/-! ### The history of the calls -/

/-- How a call has ended. -/
def CallEnded (P : Platform) (N : Namespace) (explains : Prop) (b₀ : Mem) (k : Call)
    (result : Except IoError (List UInt8)) (d : NvmeUserspaceDriver) (w : World) : Prop :=
  match result with
  | .ok bytes => CallSucceeded P N explains b₀ k bytes d w
  | .error error => AfterError P N explains b₀ (some k) error d w

/-- A step in the history of the calls, which the controller does not see. -/
theorem BetweenCommands.mark (h : BetweenCommands P N explains b₀ call d w) {call' : Option Call}
    (hl : OnlyRead w w') (hring : w'.ring = w.ring) (hrecorded : Recorded w')
    (htold : explains → ∀ record ∈ w'.calls, Told N.blockSize w' record)
    (hblocks : explains → (∀ i, Drained (w.ring i)) ∧ BlockRun N.blockSize b₀ w'.calls w'.disk)
    (hcurrent : w'.current = call') : BeforeCommand P N explains b₀ call' d w' := by
  have hdrained' (hex : explains) (i : QueueId) : Drained (w'.ring i) :=
    hring ▸ (hblocks hex).1 i
  refine ⟨⟨⟨hrecorded, ?_, htold⟩, h.atMostOneLeft.onlyRead hl, fun i => ?_, hcurrent⟩, fun hex =>
    ⟨hdrained' hex, (hblocks hex).2⟩⟩
  · by_cases hex : explains
    · exact .inl ⟨fun i => (hdrained' hex i).toEmpty, fun _ =>
        ⟨w'.disk, (hblocks hex).2, Underneath.refl _ _ _⟩⟩
    -- nothing is to be explained
    · rcases h.singleTask.flight with ⟨hempty, -⟩ | ⟨τ, hinFlight, -⟩
      · exact .inl ⟨fun i => hring ▸ hempty i, fun h => absurd h hex⟩
      · exact .inr ⟨τ, hinFlight.onlyRead hl, fun h => absurd h hex⟩
  · exact (h.rest i).congr (congrFun hring i) fun s _ => by rw [World.cqe, hl.mem]; rfl

/-- A call begins. -/
theorem BeforeCommand.beginCall (h : BeforeCommand P N explains b₀ none d w) (k : Call) :
    BeforeCommand P N explains b₀ (some k) d (w.mark (.beginCall k)) := by
  have hl : OnlyRead w (w.mark (.beginCall k)) := ⟨fun _ => .refl _, rfl, rfl, rfl, rfl⟩
  exact h.toBetweenCommands.mark hl rfl (h.singleTask.recorded.onlyRead hl rfl) h.singleTask.told
    h.blocks rfl

/-- What the history says of the call, when nothing has timed out. -/
theorem CallEnded.record {k : Call} {result : Except IoError (List UInt8)}
    (h : CallEnded P N explains b₀ k result d w)
    (htime : explains → ∀ i, (w.ring i).expired = 0) :
    BetweenCommands P N explains b₀ (some k) d w ∧
      Answered w ⟨k, (w.ring .io).submitted - 1, result⟩ ∧
      (explains → Told N.blockSize w ⟨k, (w.ring .io).submitted - 1, result⟩ ∧
        (∀ i, Drained (w.ring i)) ∧ ∃ b, BlockRun N.blockSize b₀ w.calls b ∧
          Did N.blockSize b k result w.disk) := by
  cases result with
  | ok bytes => exact ⟨h.toBetweenCommands, h.answered, fun hex => ⟨h.told, h.drained, h.did hex⟩⟩
  | error error =>
    refine ⟨h.toBetweenCommands, fun bytes _ hresult => (by cases hresult), fun hex => ?_⟩
    -- nothing has timed out, so that the error is a refusal
    rcases h.blocks hex with ⟨i, hexpired⟩ | ⟨hdrained, hrun, htold⟩
    · exact absurd (htime hex i) hexpired
    · exact ⟨htold k rfl, hdrained, w.disk, hrun, .failed k error⟩

/-- A call ends, and is recorded. -/
theorem CallEnded.endCall {k : Call} {result : Except IoError (List UInt8)}
    (h : CallEnded P N explains b₀ k result d w)
    (htime : explains → ∀ i, (w.ring i).expired = 0) :
    BeforeCommand P N explains b₀ none d (w.mark (.endCall result)) := by
  obtain ⟨hbetween, hanswered, hrest⟩ := h.record htime
  -- the mark moves the call from the current one to the records
  have hmark : w.mark (.endCall result) = { w with
      current := none
      calls := w.calls ++ [⟨k, (w.ring .io).submitted - 1, result⟩] } := by
    rw [World.mark, hbetween.current]
  rw [hmark]
  have hrecorded := hbetween.singleTask.recorded
  refine hbetween.mark ⟨fun _ => .refl _, rfl, rfl, rfl, rfl⟩ rfl
    ⟨hrecorded.filed, hrecorded.numbers, hrecorded.stored, fun record hrecord => ?_⟩
    (fun hex record hrecord => ?_) (fun hex => ?_) rfl
  -- each record is an earlier one or that of this call
  · rcases List.mem_append.mp hrecord with hold | hnew
    · exact hrecorded.answered record hold
    · obtain rfl := List.mem_singleton.mp hnew
      exact hanswered
  · rcases List.mem_append.mp hrecord with hold | hnew
    · exact hbetween.singleTask.told hex record hold
    · obtain rfl := List.mem_singleton.mp hnew
      exact (hrest hex).1
  · obtain ⟨-, hdrained, b, hrun, hdid⟩ := hrest hex
    exact ⟨hdrained, hrun.snoc hdid⟩

/-- A state that a call has ended in stays one. -/
theorem CallEnded.step {k : Call} {result : Except IoError (List UInt8)}
    (h : CallEnded P N explains b₀ k result d w) (halign : P.base.val.toNat % PAGE_SIZE = 0)
    (henv : EnvStep P (servingController N) w w') : CallEnded P N explains b₀ k result d w' := by
  cases result with
  | ok bytes => exact absurd henv (not_env_of_drained h.drained)
  | error error => exact AfterError.step h halign henv

/-- A call that has ended leaves one task at most. -/
theorem CallEnded.singleTask {k : Call} {result : Except IoError (List UInt8)}
    (h : CallEnded P N explains b₀ k result d w) : SingleTask P N explains b₀ w := by
  cases result with
  | ok bytes => exact h.toBetweenCommands.singleTask
  | error error => exact h.toBetweenCommands.singleTask

/-- The calls of a driver lead from a call's end to a call's end, or panic. -/
def CallsServed (P : Platform) (N : Namespace) (explains : Prop) (b₀ : Mem)
    (d : NvmeUserspaceDriver) (x : Outcome IoError Unit × NvmeUserspaceDriver) (w : World) : Prop :=
  match x.1 with
  | .ok _ => SameButQueues d x.2 ∧ BeforeCommand P N explains b₀ none x.2 w
  | _ => SingleTask P N explains b₀ w

section Run

variable (halign : P.base.val.toNat % PAGE_SIZE = 0) (hreg : Regime P N explains G)
include halign hreg

variable {p : Profile}

/-- **The step**: one call. -/
theorem callOne_triple {k : Call} (hd : BuiltFor P d)
    (hsize : d.blockSizes d.nsid = some N.blockSize) (hpos : 0 < N.blockSize)
    (hfits : k.Fits p N.blockSize) :
    (machine P (servingController N) G).Triple (SingleTask P N explains b₀)
      (BeforeCommand P N explains b₀ none d) (callOne p k d) (CallsServed P N explains b₀ d) := by
  refine Triple.call_bind (R := fun _ => BeforeCommand P N explains b₀ (some k) d)
    (beforeCommand_stable halign) (fun w hw => hw.singleTask) ?_ fun _ => ?_
  · rintro w r w' hw ⟨rfl, -⟩
    exact hw.beginCall k
  -- the call itself; its errors are values from here on
  refine Triple.method_bind (R := fun x w => match x.1 with
      | .ok result => SameButQueues d x.2 ∧ CallEnded P N explains b₀ k result x.2 w
      | .err _ => False
      | .panic _ => SingleTask P N explains b₀ w)
    (Triple.attempt (Triple.post (callTriple_perform halign hreg hd hsize hpos hfits) ?_))
    (fun result t => ?_) (fun error t w hw => hw.elim) fun why t w hw => hw
  · rintro ⟨x, t⟩ w hw
    cases x with
    | ok bytes => exact ⟨hw.1, hw.2.2⟩
    | err error => exact hw
    | panic why => exact hw
  -- its end is recorded
  refine Triple.of_pure fun ht => ?_
  refine Triple.op (R := fun _ => BeforeCommand P N explains b₀ none t)
    (fun w w' hw henv => hw.step halign henv) (fun w hw => hw.singleTask) ?_ fun _ => ?_
  · rintro w r w' hw ⟨rfl, hG⟩
    exact hw.endCall fun hex => hreg.inTime hex _ w hG
  · exact Triple.ret (beforeCommand_stable halign) (fun w hw => hw.singleTask) fun w hw => ⟨ht, hw⟩

/-- **The run**, by induction on its calls. -/
theorem callAll_triple {calls : List Call} (hd : BuiltFor P d)
    (hsize : d.blockSizes d.nsid = some N.blockSize) (hpos : 0 < N.blockSize)
    (hfits : ∀ k ∈ calls, k.Fits p N.blockSize) :
    (machine P (servingController N) G).Triple (SingleTask P N explains b₀)
      (BeforeCommand P N explains b₀ none d) (callAll p calls d)
      (CallsServed P N explains b₀ d) := by
  induction calls generalizing d with
  | nil =>
    exact Triple.ret (beforeCommand_stable halign) (fun w hw => hw.singleTask) fun w hw =>
      ⟨.refl d, hw⟩
  | cons k rest ih =>
    refine Triple.method_bind (callOne_triple halign hreg hd hsize hpos
      (hfits k List.mem_cons_self)) (fun _ t => ?_) (fun error t w hw => hw) fun why t w hw => hw
    -- a call changes the queue pairs only, so the next one starts as this one did
    refine Triple.of_pure fun ht => ?_
    obtain ⟨hsizes, hnsid⟩ := ht.sizes
    refine (ih (ht.builtFor hd) (by rw [hsizes, hnsid, hsize]) fun k hk =>
      hfits k (List.mem_cons_of_mem _ hk)).post ?_
    rintro ⟨x, t'⟩ w hw
    cases x with
    | ok _ => exact ⟨ht.trans hw.1, hw.2⟩
    | err error => exact hw
    | panic why => exact hw

end Run

end Nvmetoy
