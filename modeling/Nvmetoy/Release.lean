import Nvmetoy.Footprint
import Nvmetoy.ScheduledRuns

/-!
# Unmapping the region

A driver's life on the controller, from `open` to the drop, which unmaps the hugepage: an error
of `open`, a panic or the end of the calls leads there. The drop does not disable the
controller, so that what was submitted and is not completed is still the controller's to
execute.

* `Accounted` — what the controller holds and what it has completed are no more than what it
  was rung for.
* `Quiet` — the driver between two commands: every submission took a completion or has timed
  out, so that the controller holds at most what has timed out (`Quiet.safeToUnmap`).
* `Serves` — a method leads from quiet to quiet, or panics where the region can be unmapped.
  Its rules follow the method's code.
* `released_accounted` — at the drop the controller holds at most one command for each
  submission that has timed out, unless it is disabled.
-/

namespace Nvmetoy

open Framework Machine NvmeUserspaceDriver

variable {P : Platform} {C : Behaviour} {i j : QueueId} {w w' : World} {r r' : Ring}
  {q : QueuePair} {n T S t E : Nat}

/-! ### What the controller holds -/

/-- The controller holds or has completed at most `n` commands. -/
structure Accounted (n : Nat) (r : Ring) : Prop where
  indexed : Indexed r
  held : r.held + r.posted.length ≤ n

/-- Only the indices, the number of live commands and the completions count. -/
theorem Accounted.congr (h : Accounted n r) (hhead : r'.sqHead = r.sqHead)
    (htail : r'.sqTail = r.sqTail) (hlive : r'.live.length = r.live.length)
    (hposted : r'.posted = r.posted) : Accounted n r' := by
  refine ⟨⟨hhead ▸ h.indexed.head, htail ▸ h.indexed.tail⟩, ?_⟩
  rw [Ring.held, hhead, htail, hlive, hposted]
  exact h.held

/-- The controller only works off what it holds. -/
theorem Accounted.step (h : Accounted n (w.ring i))
    (hstep : RingStep P (answeringController P) i w w') : Accounted n (w'.ring i) := by
  have hindexed := h.indexed.step hstep
  have hhead := h.indexed.head
  have htail := h.indexed.tail
  have hheld := h.held
  cases hstep with
  | keep hkeep =>
    have hlive := congrArg List.length hkeep.ring.live
    rw [List.length_map, List.length_map] at hlive
    rw [hkeep.ring.rest]
    exact h.congr rfl rfl hlive rfl
  | fetch hpending hring =>
    -- fetching moves a command from the slots to those held, so their sum stays
    refine ⟨hindexed, ?_⟩
    rw [hring]
    simp only [Ring.held, Ring.fetch, List.length_append, List.length_singleton] at hheld ⊢
    unfold QUEUE_DEPTH at *
    omega
  | post c k live hroom hphase hmay hring =>
    -- and posting moves one from those held to the completion ring
    obtain ⟨before, command, after, hlive, rfl, -, -⟩ := hmay
    refine ⟨hindexed, ?_⟩
    rw [hring]
    simp only [Ring.held, Ring.post, hlive, List.length_append, List.length_cons,
      List.length_nil] at hheld ⊢
    omega

/-- Ringing for one more command. -/
theorem Accounted.ringTail (h : Accounted S r) (htail : r.sqTail = S % QUEUE_DEPTH) :
    Accounted (S + 1) (r.ringTail ((S + 1) % QUEUE_DEPTH)) := by
  have hhead := h.indexed.head
  have hheld := h.held
  refine ⟨⟨hhead, Nat.mod_lt _ (by decide)⟩, ?_⟩
  simp only [Ring.held, Ring.ringTail, htail] at hheld ⊢
  unfold QUEUE_DEPTH at *
  omega

/-! ### Between two commands -/

/-- Only the ring and its slots count. -/
theorem At.congr (h : At P i T S t E w) (hring : w'.ring i = w.ring i)
    (hcqe : ∀ s, s < QUEUE_DEPTH → w'.cqe P i s = w.cqe P i s) : At P i T S t E w' := by
  refine ⟨⟨?_, ?_, ?_, ?_, ?_⟩, ?_, ?_, ?_, ?_⟩ <;> rw [hring]
  · exact h.ok.head
  · exact h.ok.le
  · exact h.ok.room
  · exact h.ok.taken
  · exact h.ok.holds.congr (by decide) hcqe
  · exact h.taken
  · exact h.submitted
  · exact h.tail
  · exact h.expired

/-- Every submission on the queue took a completion or has timed out. -/
def Resting (P : Platform) (i : QueueId) (q : QueuePair) (w : World) : Prop :=
  ∃ T S E, S = T + E ∧ Driven q i T S ∧ At P i T S (S % QUEUE_DEPTH) E w ∧ Accounted S (w.ring i)

/-- A step of the controller leaves a queue resting. -/
theorem Resting.step (h : Resting P i q w)
    (hstep : RingStep P (answeringController P) i w w') : Resting P i q w' := by
  obtain ⟨T, S, E, hS, hq, hat, hacc⟩ := h
  exact ⟨T, S, E, hS, hq, hat.step hstep, hacc.step hstep⟩

theorem Resting.congr (h : Resting P i q w) (hring : w'.ring i = w.ring i)
    (hcqe : ∀ s, s < QUEUE_DEPTH → w'.cqe P i s = w.cqe P i s) : Resting P i q w' := by
  obtain ⟨T, S, E, hS, hq, hat, hacc⟩ := h
  exact ⟨T, S, E, hS, hq, hat.congr hring hcqe, hring ▸ hacc⟩

/-- The region can be unmapped: the controller holds at most what has timed out. -/
structure SafeToUnmap (w : World) : Prop where
  mapped : w.released = none
  held : ∀ i, Indexed (w.ring i) ∧ (w.ring i).held ≤ (w.ring i).expired

/-- **What is claimed of a run**: when the region was unmapped, the controller held at most
what had timed out. -/
def Sound (w : World) : Prop :=
  ∀ n, w.released = some n → n ≤ (w.ring .admin).expired + (w.ring .io).expired

/-- Nothing is to be accounted for while the memory is mapped. -/
theorem sound_of_mapped (h : w.released = none) : Sound w := fun n hn => by
  rw [h] at hn
  cases hn

theorem SafeToUnmap.sound (h : SafeToUnmap w) : Sound w := sound_of_mapped h.mapped

/-- The step of the controller, on a ring. -/
theorem EnvStep.onRing (h : EnvStep P (answeringController P) w w') (i : QueueId) :
    RingStep P (answeringController P) i w w' :=
  h.ringStep (answeringController_keeps fun _ => True) trivial i

/-- The controller does not unmap. -/
theorem EnvStep.released (h : EnvStep P (answeringController P) w w') :
    w'.released = w.released := by
  cases h with
  | fetch => rfl
  | post => rfl
  | transfer h =>
    rw [show w' = _ from h.rest]

/-- The controller can only answer what is held. -/
theorem SafeToUnmap.step (h : SafeToUnmap w) (henv : EnvStep P (answeringController P) w w') :
    SafeToUnmap w' := by
  refine ⟨henv.released.trans h.mapped, fun i => ?_⟩
  obtain ⟨hindexed, hheld⟩ := h.held i
  -- what is held and completed is no more, and nothing completed is forgotten
  have hacc : Accounted ((w.ring i).held + (w.ring i).posted.length) (w'.ring i) :=
    Accounted.step ⟨hindexed, le_rfl⟩ (henv.onRing i)
  have hlater := (henv.onRing i).later
  refine ⟨hacc.indexed, ?_⟩
  have hposted := hlater.posted.length_le
  have := hacc.held
  rw [hlater.expired]
  omega

theorem Sound.step (h : Sound w) (henv : EnvStep P (answeringController P) w w') : Sound w' := by
  intro n hn
  rw [henv.released] at hn
  rw [(henv.onRing .admin).later.expired, (henv.onRing .io).later.expired]
  exact h n hn

/-- What a resting queue still holds are commands that timed out. -/
theorem Resting.held (h : Resting P i q w) :
    Indexed (w.ring i) ∧ (w.ring i).held ≤ (w.ring i).expired := by
  obtain ⟨T, S, E, hS, hq, hat, hacc⟩ := h
  refine ⟨hacc.indexed, ?_⟩
  -- held are those submitted and not taken, and a call gave up on each of them
  have := hacc.held
  have hle := hat.ok.le
  rw [hat.taken] at hle
  rw [hat.expired]
  omega

/-- The queue pair of the driver. -/
def NvmeUserspaceDriver.queue (d : NvmeUserspaceDriver) : QueueId → QueuePair
  | .admin => d.adminQueue
  | .io => d.ioQueue

/-- The driver between two commands. -/
structure Quiet (P : Platform) (d : NvmeUserspaceDriver) (w : World) : Prop where
  bar : d.nvmeBar = P.bar
  region : d.dmaRegion = P.region
  stride : d.doorbellStride = P.stride
  mapped : w.released = none
  resting : ∀ i, Resting P i (d.queue i) w

/-- An assertion on the driver and the world that the controller keeps, and under which the
region can be unmapped. -/
structure Steady (P : Platform) (J : NvmeUserspaceDriver → World → Prop) : Prop where
  stable : ∀ d, (machine P (answeringController P) Always).Stable (J d)
  safeToUnmap : ∀ d w, J d w → SafeToUnmap w

/-- The idle driver stays idle whatever the controller does, and may be dropped. -/
theorem quiet_steady (P : Platform) : Steady P (Quiet P) where
  stable := fun _ _ _ h henv => ⟨h.bar, h.region, h.stride,
    (EnvStep.released henv).trans h.mapped, fun i => (h.resting i).step (EnvStep.onRing henv i)⟩
  safeToUnmap := fun _ _ h => ⟨h.mapped, fun i => (h.resting i).held⟩

/-- The method leads from `J` to `J`, or panics where the region can be unmapped. -/
def Serves {α : Type} (P : Platform) (J : NvmeUserspaceDriver → World → Prop)
    (m : DriverMethod α) : Prop :=
  ∀ d, (machine P (answeringController P) Always).Triple Sound (J d) (m d) fun x w =>
    (x.1.Panics ∧ SafeToUnmap w) ∨ J x.2 w

/-! ### One command -/

section Submit

variable {command : SubmissionQueueEntry} {queues : QueueId → QueuePair}

/-- What is carried through a submission on queue `i`, when `n` commands were rung for. -/
structure Serving (P : Platform) (i : QueueId) (queues : QueueId → QueuePair) (n : Nat)
    (w : World) : Prop where
  mapped : w.released = none
  accounted : Accounted n (w.ring i)
  others : ∀ j, j ≠ i → Resting P j (queues j) w

/-- The controller keeps what a call relies on. -/
theorem serving_carried (P : Platform) (i : QueueId) (queues : QueueId → QueuePair) (n : Nat) :
    Carried P (answeringController P) i (fun w => w.released = none)
      (Serving P i queues n) where
  inv := fun _ h => h.mapped
  step := fun _ _ _ h henv => ⟨henv.released.trans h.mapped, h.accounted.step (henv.onRing i),
    fun j hj => (h.others j hj).step (henv.onRing j)⟩

/-- Storing the entry leaves every ring as it is; the doorbell adds one command to the ring of the
call. -/
theorem serving_submit (P : Platform) (i : QueueId) (queues : QueueId → QueuePair)
    (T S E : Nat) (entry : SubmissionQueueEntry) :
    SubmitFrame P (answeringController P) Always i T S E entry (fun w => w.released = none)
      (Serving P i queues S) (Serving P i queues S) (Serving P i queues (S + 1)) where
  before := serving_carried P i queues S
  written := serving_carried P i queues S
  after := serving_carried P i queues (S + 1)
  store := fun w hat hj _ => by
    have hslot : S % QUEUE_DEPTH < QUEUE_DEPTH := Nat.mod_lt _ (by decide)
    refine ⟨hj.mapped, ?_, fun j hne => ?_⟩
    · rw [storeSqe_ring hslot]
      exact hj.accounted.congr rfl rfl rfl rfl
    · exact (hj.others j hne).congr (storeSqe_ring_of_ne hslot hne)
        fun s hs => storeSqe_cqe hslot hs
  ring := fun w hat hj => by
    refine ⟨hj.mapped, ?_, fun j hne => ?_⟩
    · -- the doorbell hands the stored command over, so one more is submitted
      rw [World.setRing_ring_self]
      exact hj.accounted.ringTail hat.tail
    · exact (hj.others j hne).congr (World.setRing_ring_of_ne hne) fun _ _ => rfl

/-- Polling counts nothing; taking a completion moves the driver's own index. -/
theorem serving_poll (P : Platform) (i : QueueId) (queues : QueueId → QueuePair)
    (T S t n : Nat) :
    PollFrame P (answeringController P) i T S t (fun w => w.released = none)
      (Serving P i queues n) (fun _ => Serving P i queues n) where
  polling := serving_carried P i queues n
  taken := fun _ => serving_carried P i queues n
  poll := fun w c E hat hj => by
    have hslot : T % QUEUE_DEPTH < QUEUE_DEPTH := Nat.mod_lt _ (by decide)
    -- a poll moves nothing that is counted, in this ring or in the other
    refine ⟨hj.mapped, ?_, fun j hne => ?_⟩
    · rw [pollCqe_ring hslot]
      exact hj.accounted.congr rfl rfl rfl rfl
    · exact (hj.others j hne).congr (pollCqe_ring_of_ne hslot hne) fun _ _ => rfl
  consume := fun w E hat hj _ => by
    refine ⟨hj.mapped, ?_, fun j hne => ?_⟩
    · rw [World.setRing_ring_self]
      exact hj.accounted.congr rfl rfl rfl rfl
    · exact (hj.others j hne).congr (World.setRing_ring_of_ne hne) fun _ _ => rfl

/-- A panic leaves nothing with the controller that has not timed out: the doorbell was not
rung, or a completion had been found. -/
theorem Serving.safeToUnmap (h : Serving P i queues n w) (hat : At P i T S t E w)
    (hn : n ≤ (w.ring i).posted.length + E) : SafeToUnmap w := by
  refine ⟨h.mapped, fun j => ?_⟩
  by_cases hij : j = i
  · subst hij
    have := h.accounted.held
    refine ⟨h.accounted.indexed, ?_⟩
    rw [hat.expired]
    omega
  · exact (h.others j hij).held

/-- **One command** on a queue leaves the queues resting. -/
theorem submitAndWait_serves (queues : QueueId → QueuePair) (command : SubmissionQueueEntry)
    (hqueue : queues i = q) :
    (machine P (answeringController P) Always).Triple Sound
      (fun w => w.released = none ∧ ∀ j, Resting P j (queues j) w)
      (QueuePair.submitAndWait P.bar P.region P.stride command q) fun x w =>
        (x.1.Panics ∧ SafeToUnmap w) ∨ w.released = none ∧ Resting P i x.2 w ∧
          ∀ j, j ≠ i → Resting P j (queues j) w := by
  rintro w ⟨hmapped, hresting⟩
  obtain ⟨T, S, E, hS, hq, hat, hacc⟩ := hresting i
  rw [hqueue] at hq
  have hserving : Serving P i queues S w := ⟨hmapped, hacc, fun j _ => hresting j⟩
  -- the bounds of the ring are what the account gives: no more held than were submitted
  have hcall := submitAndWait_triple (G := Always) (X := SafeToUnmap) (E := E)
    (answeringController_keeps _) hq
    (serving_submit P i queues T S E { command with cid := UInt16.ofNat S })
    (serving_poll P i queues T (S + 1) _ (S + 1))
    (fun w hat h => h.safeToUnmap hat (by have := hat.ok.le; rw [hat.taken] at this; omega))
    fun w hat hlt h => h.safeToUnmap hat (by omega)
  refine (hcall.invariant fun w h => sound_of_mapped h.2).post ?_ w ⟨hat, hserving⟩
  rintro ⟨x, q'⟩ w' (hpanic | ⟨c, hx, hat', -, h'⟩ | ⟨hx, hat', -, h'⟩)
  · exact .inl hpanic
  -- consumed: both counters have moved
  · obtain ⟨-, rfl⟩ := Prod.mk.inj hx
    exact .inr ⟨h'.mapped, ⟨T + 1, S + 1, E, by omega, hq.submit.advanceHead, hat', h'.accounted⟩,
      h'.others⟩
  -- expired: the command stays behind, and is counted as such
  · obtain ⟨-, rfl⟩ := Prod.mk.inj hx
    exact .inr ⟨h'.mapped, ⟨T, S + 1, E + 1, by omega, hq.submit, hat', h'.accounted⟩, h'.others⟩

end Submit

/-! ### The rules -/

section Rules

variable {α β : Type} {J : NvmeUserspaceDriver → World → Prop} {m : DriverMethod α}
  {f : α → DriverMethod β}

/-- **Sequencing.** An error of the first half ends the second. -/
theorem Serves.bind (hm : Serves P J m) (hf : ∀ a, Serves P J (f a)) : Serves P J (m >>= f) := by
  intro d
  refine Triple.method_bind (hm d) (fun a t => ?_) (fun e t w hw => ?_) fun why t w hw => ?_
  · exact (hf a t).pre fun w hw => hw.resolve_left fun h => h.1
  · exact .inr (hw.resolve_left fun h => h.1)
  · exact hw.imp_left fun h => ⟨trivial, h.2⟩

theorem Serves.lift (hJ : Steady P J) (x : Outcome IoError α) : Serves P J (Method.lift x) :=
  fun d => Triple.ret (hJ.stable d) (fun w hw => (hJ.safeToUnmap d w hw).sound) fun _ hw => .inr hw

theorem Serves.pure (hJ : Steady P J) (a : α) : Serves P J (Pure.pure a) := Serves.lift hJ (.ok a)

theorem Serves.fail (hJ : Steady P J) (e : IoError) : Serves P J (Method.fail e : DriverMethod α) :=
  Serves.lift hJ (.err e)

theorem Serves.get_bind {f : NvmeUserspaceDriver → DriverMethod α} (hf : ∀ d, Serves P J (f d)) :
    Serves P J (Method.get >>= f) :=
  fun d => hf d d

/-- An operation that keeps the assertion. -/
theorem Serves.call (hJ : Steady P J) {o : Op}
    (ho : ∀ d w r w', J d w → act P o w r w' → J d w') : Serves P J (Method.call o) :=
  fun d => Triple.op (hJ.stable d) (fun w hw => (hJ.safeToUnmap d w hw).sound)
    (fun w r w' hw h => ho d w r w' hw h.1) fun _ =>
      Triple.ret (hJ.stable d) (fun w hw => (hJ.safeToUnmap d w hw).sound) fun _ hw => .inr hw

/-- An error that is caught counts as a value. -/
theorem Serves.attempt (hm : Serves P J m) : Serves P J m.attempt := by
  intro d
  refine Triple.attempt ((hm d).post ?_)
  rintro ⟨x, t⟩ w hw
  cases x with
  | ok a => exact .inr (hw.resolve_left fun h => h.1)
  | err e => exact .inr (hw.resolve_left fun h => h.1)
  | panic why => exact hw.imp_left fun h => ⟨trivial, h.2⟩

/-- Either branch serves. -/
theorem Serves.ite {c : Prop} [Decidable c] {m m' : DriverMethod α} (hm : c → Serves P J m)
    (hm' : ¬ c → Serves P J m') : Serves P J (if c then m else m') := by
  by_cases hc : c
  · rw [if_pos hc]
    exact hm hc
  · rw [if_neg hc]
    exact hm' hc

end Rules

/-! ### The operations beside the queues -/

/-- The operation leaves the rings alone, and the region mapped. -/
structure OffRings (P : Platform) (o : Op) : Prop where
  ring : ∀ w r w', act P o w r w' → ∀ i, w'.ring i = w.ring i
  cqe : ∀ w r w', act P o w r w' → ∀ i s, s < QUEUE_DEPTH → w'.cqe P i s = w.cqe P i s
  mapped : ∀ w r w', act P o w r w' → w'.released = w.released

/-- An operation off the rings leaves the driver idle. -/
theorem OffRings.quiet {o : Op} (h : OffRings P o) {d : NvmeUserspaceDriver} {r : Res o}
    (hw : Quiet P d w) (hact : act P o w r w') : Quiet P d w' where
  bar := hw.bar
  region := hw.region
  stride := hw.stride
  mapped := (h.mapped w r w' hact).trans hw.mapped
  resting := fun i => (hw.resting i).congr (h.ring w r w' hact i) (h.cqe w r w' hact i)

/-- Bytes written above the rings are beside the queues. -/
theorem cqe_write_above {offset : Nat} {source : List UInt8} (h : PRP_LIST_OFFSET ≤ offset)
    {s : Nat} (hs : s < QUEUE_DEPTH) :
    ({ w with mem := w.mem.write (World.address P offset) source } : World).cqe P i s =
      w.cqe P i s := by
  have happart := (QueueId.slots_apart i i hs hs).2.1
  refine World.cqe_congr fun x hx hlt => Mem.write_of_outside (.inl ?_)
  simp only [World.address] at hx hlt ⊢
  omega

/-- The operations of the driver beside its queues. -/
inductive OffQueues : Op → Prop where
  | readBytes (offset len : Nat) : OffQueues (.readBytes offset len)
  | writeBytes (source : List UInt8) : OffQueues (.writeBytes DATA_OFFSET source)
  | writeU64 (index : Nat) (value : UInt64) :
    OffQueues (.writeU64 (PRP_LIST_OFFSET + index * 8) value)
  | read32 (offset : Nat) : OffQueues (.read32 offset)
  | sleep (milliseconds : Nat) : OffQueues (.sleep milliseconds)
  | alloc (bytes : Nat) : OffQueues (.alloc bytes)
  | beginCall (call : Call) : OffQueues (.mark (.beginCall call))
  | endCall (result : Except IoError (List UInt8)) : OffQueues (.mark (.endCall result))

/-- What the driver does to the data buffer and to the PRP list is off the rings. -/
theorem OffQueues.offRings {o : Op} (h : OffQueues o) : OffRings P o := by
  cases h with
  | writeBytes source =>
    refine ⟨?_, ?_, ?_⟩ <;> rintro w r w' rfl
    · exact fun _ => rfl
    · -- the data buffer lies above both completion rings
      exact fun i s hs => cqe_write_above (by decide) hs
    · rfl
  | writeU64 index value =>
    refine ⟨?_, ?_, ?_⟩ <;> rintro w r w' rfl
    · exact fun _ => rfl
    · -- and so does the PRP list
      exact fun i s hs => cqe_write_above (Nat.le_add_right _ _) hs
    · rfl
  | readBytes offset len =>
    refine ⟨?_, ?_, ?_⟩ <;> rintro w r w' ⟨-, rfl⟩
    · exact fun _ => rfl
    · exact fun _ _ _ => rfl
    · rfl
  | endCall result =>
    -- the history is no part of the rings
    have hmark (w : World) : (w.mark (.endCall result)).ring = w.ring ∧
        (w.mark (.endCall result)).mem = w.mem ∧
        (w.mark (.endCall result)).released = w.released := by
      unfold World.mark
      cases w.current <;> exact ⟨rfl, rfl, rfl⟩
    refine ⟨?_, ?_, ?_⟩ <;> rintro w r w' rfl
    · exact fun i => congrFun (hmark w).1 i
    · exact fun i s _ => by rw [World.cqe, (hmark w).2.1]; rfl
    · exact (hmark w).2.2
  | _ =>
    refine ⟨?_, ?_, ?_⟩ <;> rintro w r w' rfl
    · exact fun _ => rfl
    · exact fun _ _ _ => rfl
    · rfl

theorem OffQueues.serves {o : Op} (h : OffQueues o) : Serves P (Quiet P) (Method.call o) :=
  Serves.call (quiet_steady P) fun _ _ _ _ hw hact => h.offRings.quiet hw hact

/-! ### The methods of the driver -/

namespace NvmeUserspaceDriver

variable {p : Profile}

/-- After a bounds check that may panic. -/
theorem serves_checked {x : Outcome IoError Unit} {o : Op} (h : OffQueues o) :
    Serves P (Quiet P) (Method.lift x >>= fun _ => Method.call o) :=
  (Serves.lift (quiet_steady P) x).bind fun _ => h.serves

/-- A command on the admin queue: its own ring is served, the other one untouched. -/
theorem serves_submitAdmin (command : SubmissionQueueEntry) :
    Serves P (Quiet P) (submitAdmin command) := by
  intro d w hw
  rw [submitAdmin, Method.get_bind, hw.bar, hw.region, hw.stride]
  have hcall := submitAndWait_serves (P := P) (i := .admin) (q := d.adminQueue) d.queue command rfl
  refine Triple.onField (hcall.post ?_) w ⟨hw.mapped, hw.resting⟩
  rintro ⟨x, q⟩ w' (hpanic | ⟨hmapped, hown, hothers⟩)
  · exact .inl hpanic
  · refine .inr ⟨hw.bar, hw.region, hw.stride, hmapped, fun j => ?_⟩
    -- the admin ring comes from the call, the I/O ring from the others
    cases j with
    | admin => exact hown
    | io => exact hothers .io (by decide)

/-- A command on the I/O queue, likewise. -/
theorem serves_submitIo (command : SubmissionQueueEntry) :
    Serves P (Quiet P) (submitIo command) := by
  intro d w hw
  rw [submitIo, Method.get_bind, hw.bar, hw.region, hw.stride]
  have hcall := submitAndWait_serves (P := P) (i := .io) (q := d.ioQueue) d.queue command rfl
  refine Triple.onField (hcall.post ?_) w ⟨hw.mapped, hw.resting⟩
  rintro ⟨x, q⟩ w' (hpanic | ⟨hmapped, hown, hothers⟩)
  · exact .inl hpanic
  · refine .inr ⟨hw.bar, hw.region, hw.stride, hmapped, fun j => ?_⟩
    -- the I/O ring comes from the call, the admin ring from the others
    cases j with
    | admin => exact hothers .admin (by decide)
    | io => exact hown

theorem serves_checkCompletion (c : CompletionQueueEntry) (what : String) :
    Serves P (Quiet P) (checkCompletion c what) := by
  unfold checkCompletion
  exact Serves.ite (fun _ => .pure (quiet_steady P) _) fun _ => .fail (quiet_steady P) _

theorem serves_readBytes (dma : DmaRegion) (offset len : Nat) :
    Serves P (Quiet P) (dma.readBytes offset len) :=
  (Serves.lift (quiet_steady P) _).bind fun _ =>
    (OffQueues.readBytes offset len).serves.bind fun _ => .pure (quiet_steady P) _

theorem serves_identify («structure» : IdentifyStructure) (nsid : UInt32) :
    Serves P (Quiet P) (identify «structure» nsid) :=
  Serves.get_bind fun _ => (serves_submitAdmin _).bind fun c =>
    (serves_checkCompletion c _).bind fun _ => serves_readBytes _ _ _

theorem serves_checkEntrySize (what : String) (supported required : UInt8) :
    Serves P (Quiet P) (checkEntrySize what supported required) := by
  unfold checkEntrySize
  exact Serves.ite (fun _ => .pure (quiet_steady P) _) fun _ => .fail (quiet_steady P) _

theorem serves_checkQueueEntrySizes : Serves P (Quiet P) checkQueueEntrySizes := by
  refine (serves_identify .controller 0).bind fun data => ?_
  cases IdentifyController.readFromPrefix data with
  | none => exact .fail (quiet_steady P) _
  | some controller => exact (serves_checkEntrySize _ _ _).bind fun _ => serves_checkEntrySize _ _ _

theorem serves_createIoQueues : Serves P (Quiet P) createIoQueues :=
  Serves.get_bind fun _ => (serves_submitAdmin _).bind fun c =>
    (serves_checkCompletion c _).bind fun _ => (serves_submitAdmin _).bind fun c =>
      serves_checkCompletion c _

/-- Learning a block size touches nothing else of the driver. -/
theorem serves_namespaceBlockSize (nsid : UInt32) :
    Serves P (Quiet P) (namespaceBlockSize p nsid) := by
  refine Serves.get_bind fun d => ?_
  cases d.blockSizes nsid with
  | some blockSize => exact .pure (quiet_steady P) _
  | none =>
    refine (serves_identify .namespace nsid).bind fun data => ?_
    cases IdentifyNamespace.readFromPrefix data with
    | none => exact .fail (quiet_steady P) _
    | some ns =>
      refine (Serves.lift (quiet_steady P) _).bind fun blockSize d => ?_
      have hsteady := quiet_steady P
      -- what has been learnt is kept beside the queues, which stay as they are
      exact Triple.ret (hsteady.stable d) (fun w hw => (hsteady.safeToUnmap d w hw).sound)
        fun w hw => .inr ⟨hw.bar, hw.region, hw.stride, hw.mapped, fun j => by
          cases j with
          | admin => exact hw.resting .admin
          | io => exact hw.resting .io⟩

/-- By induction on the number of entries, each of which lies off the rings. -/
theorem serves_writePrpEntries (index count : Nat) :
    Serves P (Quiet P) (writePrpEntries index count) := by
  induction count generalizing index with
  | zero => exact .pure (quiet_steady P) _
  | succ count ih =>
    exact Serves.get_bind fun d => (serves_checked (.writeU64 index _)).bind fun _ => ih (index + 1)

/-- One page or two need no list. -/
theorem serves_dataPointers (length : Nat) : Serves P (Quiet P) (dataPointers p length) := by
  refine Serves.get_bind fun d => ?_
  refine Serves.ite (fun _ => .pure (quiet_steady P) _) fun _ => ?_
  refine Serves.ite (fun _ => .pure (quiet_steady P) _) fun _ => ?_
  refine Serves.ite (fun _ => .lift (quiet_steady P) _) fun _ => ?_
  exact (serves_writePrpEntries 0 _).bind fun _ => .pure (quiet_steady P) _

theorem serves_allocVec (bytes : Nat) : Serves P (Quiet P) (allocVec bytes) := by
  unfold allocVec
  exact Serves.ite (fun _ => (OffQueues.alloc bytes).serves) fun _ => .lift (quiet_steady P) _

/-- Every refusal comes before the command, which is the one submission of a read. -/
theorem serves_read (slba : UInt64) (blockCount : UInt16) :
    Serves P (Quiet P) (read p slba blockCount) := by
  unfold read
  refine Serves.ite (fun _ => .fail (quiet_steady P) _) fun _ => Serves.get_bind fun d => ?_
  refine (serves_namespaceBlockSize _).bind fun blockSize => ?_
  refine (Serves.lift (quiet_steady P) _).bind fun total => ?_
  refine Serves.ite (fun _ => .fail (quiet_steady P) _) fun _ => ?_
  refine (serves_dataPointers total).bind fun pointers => (serves_submitIo _).bind fun c => ?_
  exact (serves_checkCompletion c _).bind fun _ => (serves_allocVec total).bind fun _ =>
    serves_readBytes _ _ _

/-- Likewise the one submission of a write. -/
theorem serves_write (slba : UInt64) (data : List UInt8) :
    Serves P (Quiet P) (write p slba data) := by
  unfold write
  refine Serves.get_bind fun d => (serves_namespaceBlockSize _).bind fun blockSize => ?_
  refine (Serves.lift (quiet_steady P) _).bind fun refused => ?_
  refine Serves.ite (fun _ => .fail (quiet_steady P) _) fun _ => ?_
  refine Serves.ite (fun _ => .fail (quiet_steady P) _) fun _ => ?_
  refine (Serves.lift (quiet_steady P) _).bind fun blockCount => ?_
  refine (serves_checked (.writeBytes data)).bind fun _ => ?_
  refine (serves_dataPointers _).bind fun pointers => ?_
  refine (Serves.lift (quiet_steady P) _).bind fun nlb => ?_
  exact (serves_submitIo _).bind fun c => serves_checkCompletion c _

theorem serves_perform (call : Call) : Serves P (Quiet P) (perform p call) := by
  cases call with
  | identifyController => exact serves_identify .controller 0
  | read slba blockCount => exact serves_read slba blockCount
  | write slba data => exact (serves_write slba data).bind fun _ => .pure (quiet_steady P) _

end NvmeUserspaceDriver

/-! ### The life of a driver -/

/-- One call, with its place in the history. An error goes no further. -/
def callOne (p : Profile) (call : Call) : DriverMethod Unit := do
  Method.call (Op.mark (.beginCall call))
  let result ← (perform p call).attempt
  Method.call (Op.mark (.endCall result))

/-- The calls one after another; an error of one does not keep the next from being made. -/
def callAll (p : Profile) : List Call → DriverMethod Unit
  | [] => pure ()
  | call :: rest => do
    callOne p call
    callAll p rest

/-- A driver from `open` to the drop, which a panic leads to as well. -/
def lifetime (p : Profile) (bdf : Str) (nsid : UInt32) (calls : List Call) :
    Method Op Res Unit IoError Unit := do
  let d ← openDriver p bdf nsid
  let _ ← Method.unwinding drop (Method.owning d (callAll p calls))
  drop

variable {p : Profile}

/-- By induction on the calls. -/
theorem serves_callAll (calls : List Call) : Serves P (Quiet P) (callAll p calls) := by
  induction calls with
  | nil => exact .pure (quiet_steady P) _
  | cons call rest ih =>
    have hone : Serves P (Quiet P) (callOne p call) :=
      (OffQueues.beginCall call).serves.bind fun _ =>
        (serves_perform call).attempt.bind fun result => (OffQueues.endCall result).serves
    exact hone.bind fun _ => ih

/-- Before `open`: no queue was ever used, and nothing was unmapped. -/
structure BeforeOpen (w : World) : Prop where
  ring : ∀ i, w.ring i = Ring.fresh
  mapped : w.released = none

/-- Before the driver is opened nothing is held. -/
theorem BeforeOpen.safeToUnmap (h : BeforeOpen w) : SafeToUnmap w where
  mapped := h.mapped
  held := fun i => by
    rw [h.ring i]
    exact ⟨⟨by decide, by decide⟩, by decide⟩

/-- Nothing is on the rings, so the controller has nothing to do. -/
theorem beforeOpen_stable : (machine P (answeringController P) Always).Stable BeforeOpen := by
  intro w w' h henv
  refine ⟨fun i => ?_, (EnvStep.released henv).trans h.mapped⟩
  cases EnvStep.onRing henv i with
  | keep hkeep =>
    have hlive := hkeep.ring.live
    rw [h.ring i] at hlive
    rw [hkeep.ring.rest, h.ring i, List.map_eq_nil_iff.mp hlive]
    rfl
  -- there is nothing to fetch, and nothing in hand to complete
  | fetch hpending =>
    rw [h.ring i] at hpending
    exact absurd rfl hpending
  | post c k live hroom hphase hmay =>
    obtain ⟨before, command, after, hlive, -⟩ := hmay
    rw [h.ring i] at hlive
    simp [Ring.fresh] at hlive

/-- The driver before its first command. -/
structure BeforeCommands (P : Platform) (d : NvmeUserspaceDriver) (w : World) : Prop where
  bar : d.nvmeBar = P.bar
  region : d.dmaRegion = P.region
  stride : d.doorbellStride = P.stride
  mapped : w.released = none
  driven : ∀ i, Driven (d.queue i) i 0 0
  at_zero : ∀ i, At P i 0 0 0 0 w
  accounted : ∀ i, Accounted 0 (w.ring i)

theorem BeforeCommands.quiet {d : NvmeUserspaceDriver} (h : BeforeCommands P d w) : Quiet P d w :=
  ⟨h.bar, h.region, h.stride, h.mapped, fun i =>
    ⟨0, 0, 0, rfl, h.driven i, h.at_zero i, h.accounted i⟩⟩

/-- The configuration stays as it is, whatever the controller does. -/
theorem beforeCommands_steady (P : Platform) : Steady P (BeforeCommands P) where
  stable := fun _ _ _ h henv => ⟨h.bar, h.region, h.stride,
    (EnvStep.released henv).trans h.mapped, h.driven,
    fun i => (h.at_zero i).step (EnvStep.onRing henv i),
    fun i => (h.accounted i).step (EnvStep.onRing henv i)⟩
  safeToUnmap := fun d w h => (quiet_steady P).safeToUnmap d w h.quiet

/-- An operation off the rings changes nothing of it. -/
theorem OffRings.beforeCommands {o : Op} (h : OffRings P o) {d : NvmeUserspaceDriver} {r : Res o}
    (hw : BeforeCommands P d w) (hact : act P o w r w') : BeforeCommands P d w' where
  bar := hw.bar
  region := hw.region
  stride := hw.stride
  mapped := (h.mapped w r w' hact).trans hw.mapped
  driven := hw.driven
  at_zero := fun i => (hw.at_zero i).congr (h.ring w r w' hact i) (h.cqe w r w' hact i)
  accounted := fun i => by
    rw [h.ring w r w' hact i]
    exact hw.accounted i

/-- Resetting a controller that has done nothing. -/
theorem BeforeCommands.writeConfiguration {d : NvmeUserspaceDriver} (hw : BeforeCommands P d w)
    (value : UInt32) :
    BeforeCommands P d (w.writeConfiguration value) := by
  unfold World.writeConfiguration
  split
  · refine ⟨hw.bar, hw.region, hw.stride, hw.mapped, hw.driven, fun i => ?_, fun i => ?_⟩
    · have hat := hw.at_zero i
      exact ⟨⟨by change 0 = (w.ring i).taken.length % QUEUE_DEPTH; rw [hat.taken]; rfl,
        hat.ok.le, hat.ok.room, hat.ok.taken, hat.ok.holds⟩, hat.taken, hat.submitted, rfl,
        hat.expired⟩
    · -- a reset ring holds nothing
      have hheld := (hw.accounted i).held
      have hreset : (w.ring i).reset.held = 0 := by simp [Ring.held, Ring.reset, QUEUE_DEPTH]
      have hzero : 0 < QUEUE_DEPTH := by decide
      refine ⟨⟨hzero, hzero⟩, ?_⟩
      change (w.ring i).reset.held + (w.ring i).posted.length ≤ 0
      omega
  · exact ⟨hw.bar, hw.region, hw.stride, hw.mapped, hw.driven,
      fun i => (hw.at_zero i).congr rfl fun _ _ => rfl, hw.accounted⟩

/-- A register below the doorbells: the configuration, or one that does nothing. -/
theorem writeRegister_low {offset : Nat} (h : offset < DOORBELL_BASE) (value : UInt32) :
    w.writeRegister P offset value =
      if offset = CC then w.writeConfiguration value else w := by
  unfold World.writeRegister NvmeBar.submissionDoorbell NvmeBar.completionDoorbell
  rw [if_neg (by omega), if_neg (by omega), if_neg (by omega), if_neg (by omega)]

/-- The reset finds the rings empty, and leaves them so. -/
theorem NvmeUserspaceDriver.Configures.beforeCommands {o : Op} (h : Configures o)
    {d : NvmeUserspaceDriver} {r : Res o} (hw : BeforeCommands P d w) (hact : act P o w r w') :
    BeforeCommands P d w' := by
  cases o
  case read32 offset => exact (OffQueues.read32 offset).offRings.beforeCommands hw hact
  case sleep milliseconds => exact (OffQueues.sleep milliseconds).offRings.beforeCommands hw hact
  case write64 =>
    obtain rfl := hact
    exact hw
  case write32 offset value =>
    obtain rfl := hact
    -- a register below the doorbells, among which CC alone does something
    rw [writeRegister_low h]
    split
    · exact hw.writeConfiguration value
    · exact hw
  all_goals exact h.elim

/-- No command is submitted while the controller is brought up. -/
theorem serves_resetAndEnable : Serves P (BeforeCommands P) resetAndEnable := by
  intro d
  have hsteady := beforeCommands_steady P
  have hkeep (o : Op) (w : World) (r : Res o) (w' : World) (ho : Configures o)
      (hw : BeforeCommands P d w) (h : (machine P (answeringController P) Always).act o w r w') :
      BeforeCommands P d w' := ho.beforeCommands hw h.1
  refine (Triple.of_sat (sat_resetAndEnable (R := Prog.Any)) (hsteady.stable d)
    (fun w hw => (hsteady.safeToUnmap d w hw).sound) (fun _ _ _ _ _ _ => trivial) hkeep).post ?_
  rintro ⟨x, t⟩ w ⟨hsame, hw⟩
  subst hsame
  exact .inr hw

/-- From the constructed driver to the one that `open` returns. -/
theorem bringUp_triple (d : NvmeUserspaceDriver) :
    (machine P (answeringController P) Always).Triple Sound (BeforeCommands P d) (bringUp p d)
      fun x w => (x.1.Panics ∧ SafeToUnmap w) ∨ Quiet P x.2 w := by
  refine Triple.method_bind (serves_resetAndEnable d) (fun _ t => ?_) (fun e t w hw => ?_)
    fun why t w hw => ?_
  · have hrest : Serves P (Quiet P) (do
        checkQueueEntrySizes
        createIoQueues
        let d ← Method.get
        let _ ← namespaceBlockSize p d.nsid) :=
      serves_checkQueueEntrySizes.bind fun _ => serves_createIoQueues.bind fun _ =>
        Serves.get_bind fun d =>
          (serves_namespaceBlockSize _).bind fun _ => .pure (quiet_steady P) _
    -- the reset either panicked or has left the queues quiet
    exact (hrest t).pre fun w hw => (hw.resolve_left fun h => h.1).quiet
  · exact .inr (hw.resolve_left fun h => h.1).quiet
  · exact hw.elim .inl fun h => .inr h.quiet

/-- The two facts about the end are kept by every step of the controller. -/
theorem safeToUnmap_stable : (machine P (answeringController P) Always).Stable SafeToUnmap :=
  fun _ _ => SafeToUnmap.step

theorem sound_stable : (machine P (answeringController P) Always).Stable Sound :=
  fun _ _ => Sound.step

/-- Unmapping, where it can be done. -/
theorem SafeToUnmap.release (h : SafeToUnmap w) : Sound w.release := by
  intro n hn
  have hadmin := (h.held .admin).2
  have hio := (h.held .io).2
  change (if w.enabled then some ((w.ring .admin).held + (w.ring .io).held) else some 0) =
    some n at hn
  change n ≤ (w.ring .admin).expired + (w.ring .io).expired
  split at hn
  · obtain rfl := Option.some.inj hn
    omega
  · obtain rfl := Option.some.inj hn
    omega

section Open

variable {σ : Type} {s : σ}

/-- What the operating system answers leaves the device alone. -/
theorem OnHost.beforeOpen {o : Op} {r : Res o} (h : OnHost o) (hw : BeforeOpen w)
    (hact : act P o w r w') :
    BeforeOpen w' := by
  cases o
  case readDriverLink => obtain rfl := hact; exact hw
  case configOpen => obtain rfl := hact; exact hw
  case configSeek => obtain rfl := hact; exact hw
  case configRead => obtain rfl := hact; exact hw
  case configWrite => obtain rfl := hact; exact hw
  all_goals exact h.elim

/-- The hugepage is mapped, and the controller was never used. -/
structure Mapped (P : Platform) (w : World) : Prop where
  fresh : ∀ i, Fresh P i w
  mapped : w.released = none

/-- The fresh hugepage is zeroed, so both rings begin empty. -/
theorem BeforeOpen.allocate (h : BeforeOpen w) : Mapped P (w.allocate P) where
  fresh := fun i => {
    ring := h.ring i
    zeroed := fun s hs => by
      have happart := (QueueId.slots_apart i i hs hs).2.1
      have hlist : PRP_LIST_OFFSET ≤ HUGE_PAGE_SIZE := by decide
      -- the slot lies in the hugepage, of which every byte is zero
      have hslot : World.address P (i.completionOffset + 16 * s) =
          World.address P 0 + (i.completionOffset + 16 * s) := by
        simp only [World.address, Nat.add_zero]
      have hlen : (List.replicate HUGE_PAGE_SIZE (0 : UInt8)).length = HUGE_PAGE_SIZE :=
        List.length_replicate
      rw [World.allocate, hslot]
      refine List.ext_getElem (by simp [Mem.read]) fun k hk _ => ?_
      have hk' : k < 16 := by simpa [Mem.read] using hk
      rw [Mem.getElem_read, Nat.add_assoc]
      change w.mem.write (World.address P 0) (List.replicate HUGE_PAGE_SIZE 0) _ = _
      rw [Mem.write_inside (by rw [hlen]; omega), List.getElem_replicate, List.getElem_replicate] }
  mapped := h.mapped

/-- The driver that `open` constructs on it. -/
theorem Mapped.beforeCommands (h : Mapped P w) (nsid : UInt32) :
    BeforeCommands P (NvmeUserspaceDriver.fresh P.bar P.region P.stride nsid) w where
  bar := rfl
  region := rfl
  stride := rfl
  mapped := h.mapped
  driven := fun i => by
    -- both queue pairs are fresh, and nothing has been submitted
    cases i with
    | admin => exact Driven.queuePair .admin
    | io => exact Driven.queuePair .io
  at_zero := fun i => (h.fresh i).at
  accounted := fun i => by
    rw [(h.fresh i).ring]
    exact ⟨⟨by decide, by decide⟩, by decide⟩

/-- The region is mapped, and no driver has used it. -/
def FreshMapped (P : Platform) (w : World) : Prop :=
  ∀ nsid, BeforeCommands P (NvmeUserspaceDriver.fresh P.bar P.region P.stride nsid) w

theorem mapped_stable : (machine P (answeringController P) Always).Stable (FreshMapped P) :=
  Stable.forall fun _ => (beforeCommands_steady P).stable _

/-- What holds in the course of `open`: `A` until the hugepage is mapped, then `B` until the driver
is constructed, `L` where the mappings may be given up, and `S` once they are. -/
structure OpenFrame (P : Platform) (C : Behaviour) (G : Op → World → Prop)
    (I A B L S : World → Prop) : Prop where
  before : (machine P C G).Stable A
  mapped : (machine P C G).Stable B
  safeToUnmap : (machine P C G).Stable L
  ended : (machine P C G).Stable S
  host : ∀ o w r w', OnHost o → A w → act P o w r w' → A w'
  allocate : ∀ w, A w → B (w.allocate P)
  refused : ∀ w, A w → S w
  close : ∀ w, B w → L w
  release : ∀ w, L w → S w.release
  safeToUnmapInv : ∀ w, L w → I w
  endedInv : ∀ w, S w → I w

section Stages

variable {I A B L S : World → Prop} {G : Op → World → Prop}

/-- What `open` does before it maps anything. -/
theorem OpenFrame.onHost {α : Type} {m : Method Op Res σ IoError α} (h : OpenFrame P C G I A B L S)
    (hm : (m s).Sat Prog.Any OnHost fun _ => True) :
    (machine P C G).Triple I A (m s) fun _ => A :=
  (Triple.of_sat hm h.before (fun w hw => h.endedInv w (h.refused w hw))
    (fun _ _ _ _ _ _ => trivial) fun o w r w' ho hw hact =>
      h.host o w r w' ho hw hact.1).post fun _ _ hw => hw.2

/-- The BAR is unmapped. -/
theorem OpenFrame.unmapBar (h : OpenFrame P C G I A B L S) {R : World → Prop}
    (hR : (machine P C G).Stable R) (hS : ∀ w, R w → S w) :
    (machine P C G).Triple I R ((Method.call Op.unmapBar : Method Op Res σ IoError Unit) s)
      fun _ => S := by
  refine Triple.op hR (fun w hw => h.endedInv w (hS w hw)) ?_ fun _ =>
    Triple.ret h.ended h.endedInv fun _ => id
  rintro w r w' hw ⟨rfl, -⟩
  exact hS w' hw

/-- Locals are dropped in reverse: the region of a failed `open` first, then the BAR. -/
theorem OpenFrame.unmapDma (h : OpenFrame P C G I A B L S) :
    (machine P C G).Triple I L ((do Method.call Op.unmapDma; Method.call Op.unmapBar :
      Method Op Res σ IoError Unit) s) fun _ => S := by
  refine Triple.call_bind h.safeToUnmap h.safeToUnmapInv ?_ fun _ => h.unmapBar h.ended fun _ => id
  rintro w r w' hw ⟨rfl, -⟩
  exact h.release w hw

/-- The fields of a driver are dropped in their order: the BAR first, then the region. -/
theorem OpenFrame.drop (h : OpenFrame P C G I A B L S) :
    (machine P C G).Triple I L ((NvmeUserspaceDriver.drop : Method Op Res σ IoError Unit) s)
      fun _ => S := by
  refine Triple.call_bind (R := fun _ => L) h.safeToUnmap h.safeToUnmapInv ?_ fun _ => ?_
  · rintro w r w' hw ⟨rfl, -⟩
    exact hw
  · refine Triple.op h.safeToUnmap h.safeToUnmapInv ?_ fun _ =>
      Triple.ret h.ended h.endedInv fun _ => id
    rintro w r w' hw ⟨rfl, -⟩
    exact h.release w hw

/-- **The course of `open`**, given its last part. -/
theorem OpenFrame.openDriver (h : OpenFrame P C G I A B L S) (bdf : Str) {nsid : UInt32}
    {Q : NvmeUserspaceDriver → World → Prop}
    (hbring : ∀ t : σ, (machine P C G).Triple I B
      (bringUp p (.fresh P.bar P.region P.stride nsid)) fun x w => Ends Q L (owned t x) w) :
    (machine P C G).Triple I A ((openDriver p bdf nsid : Method Op Res σ IoError _) s)
      (Ends Q S) := by
  have hinv : ∀ w, A w → I w := fun w hw => h.endedInv w (h.refused w hw)
  have hmapped : ∀ w, B w → I w := fun w hw => h.safeToUnmapInv w (h.close w hw)
  refine Triple.method_bind (h.onHost (onHost_refuse bdf _ trivial)) (fun _ t => ?_)
    (fun _ _ => h.refused) fun _ _ => h.refused
  refine Triple.method_bind (h.onHost (onHost_enableBusMaster bdf _ trivial)) (fun _ t => ?_)
    (fun _ _ => h.refused) fun _ _ => h.refused
  -- the BAR
  refine Triple.call_bind (R := fun r w => (∀ length, r = .ok length → length = P.barLength) ∧ A w)
    h.before hinv ?_ fun r => Triple.of_pure fun hlength => ?_
  · rintro w r w' hw ⟨⟨hr, rfl⟩, -⟩
    exact ⟨hr, hw⟩
  cases r with
  | error e => exact Triple.ret h.before hinv h.refused
  | ok length =>
  obtain rfl : length = P.barLength := hlength length rfl
  rw [question, Method.lift_ok_bind]
  -- the hugepage
  refine Triple.method_bind (R := Ends (fun a w => a = P.base ∧ B w) S)
    (Triple.unwinding (R := Ends (fun a w => a = P.base ∧ B w) A) ?_ (fun _ _ _ => id)
      (fun _ _ => h.unmapBar h.before h.refused) fun _ _ => h.unmapBar h.before h.refused)
    (fun physical t => Triple.of_pure fun hphysical => ?_) (fun _ _ _ => id) fun _ _ _ => id
  · refine Triple.call_bind (R := fun r => Ends (fun a w => a = P.base ∧ B w) A
      (Outcome.ofExcept r, ())) h.before hinv ?_ fun r => ?_
    · rintro w (e | a) w' hw ⟨hact, -⟩
      · obtain rfl := hact
        exact hw
      · obtain ⟨ha, rfl⟩ := hact
        exact ⟨ha, h.allocate w hw⟩
    · cases r with
      | error e => exact Triple.ret h.before hinv fun _ => id
      | ok a =>
        exact Triple.ret (Stable.and (Stable.const _) h.mapped) (fun w hw => hmapped w hw.2)
          fun _ => id
  subst hphysical
  -- the capabilities
  refine Triple.method_bind
    (R := Ends (fun capabilities w => doorbellStrideOf capabilities = P.stride ∧ B w) S)
    (Triple.unwinding
      (R := Ends (fun capabilities w => doorbellStrideOf capabilities = P.stride ∧ B w) L) ?_
      (fun _ _ _ => id) (fun _ _ => h.unmapDma) fun _ _ => h.unmapDma)
    (fun capabilities t => Triple.of_pure fun hstride => ?_) (fun _ _ _ => id) fun _ _ _ => id
  · refine Triple.lift_bind h.mapped hmapped (fun _ _ => ?_) (fun _ w _ => h.close w)
      fun _ w _ => h.close w
    refine Triple.op (R := fun r w => doorbellStrideOf r = P.stride ∧ B w) h.mapped hmapped ?_
      fun r => Triple.ret (Stable.and (Stable.const _) h.mapped) (fun w hw => hmapped w hw.2)
        fun _ => id
    rintro w r w' hw ⟨⟨hr, rfl⟩, -⟩
    exact ⟨hr rfl, hw⟩
  -- the constructed driver
  rw [hstride]
  exact Triple.unwinding (R := Ends Q L) (Triple.owning (hbring _)) (fun _ _ _ => id)
    (fun _ _ => h.drop) fun _ _ => h.drop

end Stages

/-- The frame of `openDriver` for this invariant. -/
theorem openFrame (P : Platform) : OpenFrame P (answeringController P) Always Sound BeforeOpen
    (FreshMapped P) SafeToUnmap Sound where
  before := beforeOpen_stable
  mapped := mapped_stable
  safeToUnmap := safeToUnmap_stable
  ended := sound_stable
  host := fun _ _ _ _ ho hw hact => ho.beforeOpen hw hact
  allocate := fun _ hw nsid => hw.allocate.beforeCommands nsid
  refused := fun _ hw => hw.safeToUnmap.sound
  close := fun w hw => (beforeCommands_steady P).safeToUnmap _ w (hw 0)
  release := fun _ => SafeToUnmap.release
  safeToUnmapInv := fun _ => SafeToUnmap.sound
  endedInv := fun _ => id

/-- What owns a driver ends with it between two commands, or gives it up. -/
theorem ends_owned {x : Outcome IoError Unit × NvmeUserspaceDriver} {t : σ}
    (h : (x.1.Panics ∧ SafeToUnmap w) ∨ Quiet P x.2 w) :
    Ends (Quiet P) SafeToUnmap (owned t x) w := by
  obtain ⟨x, d⟩ := x
  cases x with
  | ok _ => exact h.resolve_left fun h => h.1
  | err e => exact (quiet_steady P).safeToUnmap d w (h.resolve_left fun h => h.1)
  | panic why => exact h.elim (fun h => h.2) ((quiet_steady P).safeToUnmap d w)

/-- **`open`.** -/
theorem openDriver_triple (bdf : Str) (nsid : UInt32) :
    (machine P (answeringController P) Always).Triple Sound BeforeOpen
      ((openDriver p bdf nsid : Method Op Res σ IoError _) s) (Ends (Quiet P) Sound) :=
  (openFrame P).openDriver bdf fun _ =>
    ((bringUp_triple _).pre fun _ hw => hw nsid).post fun _ _ => ends_owned

end Open

/-- **The drop.** In every world that a driver's life reaches, from `open`, which may fail
anywhere, over any calls, which may end in any way, to the drop: if the region has been
unmapped, the controller held at that moment at most one command for each submission whose
polling had timed out, or was disabled. -/
theorem released_accounted (P : Platform) (p : Profile) (bdf : Str) (nsid : UInt32)
    (calls : List Call) (w₀ : World) (h : BeforeOpen w₀)
    (c : Config Op Res World (Outcome IoError Unit × Unit))
    (hc : (machine P (answeringController P) Always).Reaches
      (lifetime p bdf nsid calls (), w₀) c) :
    ∀ n, c.2.released = some n → n ≤ (c.2.ring .admin).expired + (c.2.ring .io).expired := by
  have hlife : (machine P (answeringController P) Always).Triple Sound BeforeOpen
      (lifetime p bdf nsid calls ()) fun _ => Sound := by
    -- open; then the calls, with the drop behind them
    refine Triple.method_bind (openDriver_triple bdf nsid) (fun d t => ?_) (fun _ _ _ => id)
      fun _ _ _ => id
    refine Triple.method_bind (R := Ends (Quiet P) Sound)
      (Triple.unwinding (R := Ends (Quiet P) SafeToUnmap)
        (Triple.owning ((serves_callAll calls d).post fun _ _ => ends_owned))
        (fun _ _ _ => id) (fun _ _ => (openFrame P).drop) fun _ _ => (openFrame P).drop)
      (fun d t => ?_) (fun _ _ _ => id) fun _ _ _ => id
    exact (openFrame P).drop.pre fun w hw => (quiet_steady P).safeToUnmap d w hw
  exact (hlife w₀ h c hc).1

/-! ### Runs of `open` -/

section Failing

variable {d : NvmeUserspaceDriver} {G : Op → World → Prop}

/-- The controller that was never used, reset and enabled. -/
theorem resetAndEnable_reaches (hG : AllowsNonFills G) (hbar : d.nvmeBar = ⟨8192⟩)
    (hw : ∀ i, w.ring i = Ring.fresh) :
    ∃ w', (machine P C G).Reaches (resetAndEnable d, w) (.pure (.ok (), d), w') ∧
      w'.mem = w.mem ∧ (∀ i, w'.ring i = Ring.fresh) ∧ w'.enabled = true := by
  have hok {offset size : Nat} (h : offset + size ≤ 8192) (halign : offset % size = 0) :
      d.nvmeBar.check offset size = .ok () := hbar ▸ registers_ok le_rfl (by decide) h halign
  have hcc := hok (show CC + 4 ≤ 8192 by decide) (by decide)
  have haqa := hok (show AQA + 4 ≤ 8192 by decide) (by decide)
  have hasq := hok (show ASQ + 8 ≤ 8192 by decide) (by decide)
  have hacq := hok (show ACQ + 8 ≤ 8192 by decide) (by decide)
  -- the first poll is enough
  have hready (wantReady : Bool) (v : World) : (machine P C G).Reaches
      (waitReady wantReady READY_POLLS d, v) (.pure (.ok (), d), v) := by
    rw [show READY_POLLS = 999 + 1 from rfl, waitReady]
    simp only [Method.get_bind, NvmeBar.readStatus, NvmeBar.read32,
      hok (show CSTS + 4 ≤ 8192 by decide) (by decide), Method.lift_ok_bind]
    cases wantReady with
    | false => exact Reaches.call_bind (0 : UInt32) ⟨rfl, hG _ _ id⟩ .refl
    | true => exact Reaches.call_bind (1 : UInt32) ⟨rfl, hG _ _ id⟩ .refl
  -- the four registers that are written
  have hconfigure (v : World) (value : UInt32) :
      act P (.write32 CC value) v () (v.writeConfiguration value) :=
    ((writeRegister_low (by decide) value).trans (if_pos rfl)).symm
  have hattributes (v : World) (value : UInt32) : act P (.write32 AQA value) v () v :=
    ((writeRegister_low (by decide) value).trans (if_neg (by decide))).symm
  have hdisable : w.writeConfiguration (0 &&& ~~~1) =
      { w with enabled := false, ring := fun i => (w.ring i).reset } := if_pos (by decide)
  have henable (v : World) : v.writeConfiguration ((IO_COMPLETION_ENTRY_SIZE_EXPONENT <<< 20) |||
      (IO_SUBMISSION_ENTRY_SIZE_EXPONENT <<< 16) ||| 1) = { v with enabled := true } :=
    if_neg (by decide)
  simp only [resetAndEnable, Method.get_bind, NvmeBar.readConfiguration, NvmeBar.read32,
    NvmeBar.writeConfiguration, NvmeBar.write32, NvmeBar.writeAdminQueueAttributes,
    NvmeBar.writeAdminSubmissionQueue, NvmeBar.writeAdminCompletionQueue, NvmeBar.write64, hcc,
    haqa, hasq, hacq, Method.lift_ok_bind]
  -- the accesses of the source, in its order
  refine ⟨_, Reaches.call_bind (0 : UInt32) ⟨rfl, hG _ _ id⟩ (Reaches.call_bind ()
    ⟨hconfigure w _, hG _ _ id⟩ (Reaches.bind_ok (hready false _) (Reaches.call_bind ()
    ⟨hattributes _ _, hG _ _ id⟩ (Reaches.call_bind () ⟨rfl, hG _ _ id⟩ (Reaches.call_bind ()
    ⟨rfl, hG _ _ id⟩ (Reaches.call_bind () ⟨hconfigure _ _, hG _ _ id⟩ (hready true _))))))),
    ?_, ?_, ?_⟩
  all_goals rw [henable, hdisable]
  intro i
  change (w.ring i).reset = Ring.fresh
  rw [hw i]
  rfl

/-- The part of `open` that leads to the constructed driver. -/
theorem openDriver_reaches_bringUp {p : Profile} (hG : AllowsNonFills G) (bdf : Str)
    (nsid : UInt32) : (machine .twoPages C G).Reaches
      ((openDriver p bdf nsid : Method Op Res Unit IoError _) (), World.zeroed)
      ((Method.unwinding drop (Method.owning (.fresh Platform.twoPages.bar
        Platform.twoPages.region Platform.twoPages.stride nsid) (bringUp p)) :
          Method Op Res Unit IoError _) (), World.zeroed.allocate .twoPages) := by
  have hcap : doorbellStrideOf 0 = Platform.twoPages.stride := by decide
  have hcap8 : NvmeBar.check ⟨8192⟩ CAP 8 = .ok () :=
    registers_ok le_rfl (by decide) (by decide) (by decide)
  simp only [openDriver, refuseIfKernelDriverBound, enableBusMaster, Method.bind_assoc]
  refine Reaches.call_bind DriverLink.notFound ⟨rfl, hG _ _ id⟩ ?_
  rw [Method.pure_bind]
  -- the configuration file, and the BAR
  refine Reaches.call_bind (.ok ()) ⟨rfl, hG _ _ id⟩ (Reaches.bind_ok .refl ?_)
  refine Reaches.call_bind (.ok ()) ⟨rfl, hG _ _ id⟩ (Reaches.bind_ok .refl ?_)
  refine Reaches.call_bind (.ok ⟨[0, 0], rfl⟩) ⟨rfl, hG _ _ id⟩ (Reaches.bind_ok .refl ?_)
  refine Reaches.call_bind (.ok ()) ⟨rfl, hG _ _ id⟩ (Reaches.bind_ok .refl ?_)
  refine Reaches.call_bind (.ok ()) ⟨rfl, hG _ _ id⟩ (Reaches.bind_ok .refl ?_)
  refine Reaches.call_bind (.ok 8192) ⟨⟨fun length h => ?_, rfl⟩, hG _ _ id⟩
    (Reaches.bind_ok .refl ?_)
  · exact (Except.ok.inj h).symm
  -- the hugepage, and the capabilities
  have halloc (v : World) : (machine .twoPages C G).Reaches
      ((do question (← Method.call Op.allocHuge) : Method Op Res Unit IoError HugePageAddress) (),
        v) (.pure (.ok Platform.twoPages.base, ()), v.allocate .twoPages) :=
    Reaches.call_bind (.ok Platform.twoPages.base) ⟨⟨rfl, rfl⟩, hG _ _ id⟩ .refl
  have hread (v : World) : (machine .twoPages C G).Reaches
      ((NvmeBar.readCapabilities ⟨8192⟩ : Method Op Res Unit IoError UInt64) (), v)
        (.pure (.ok 0, ()), v) := by
    have hact : act .twoPages (.read64 CAP) v (0 : UInt64) v := ⟨fun _ => hcap, rfl⟩
    rw [NvmeBar.readCapabilities, NvmeBar.read64, hcap8, Method.lift_ok_bind]
    exact Reaches.act ⟨hact, hG _ _ id⟩ .refl
  refine Reaches.bind_ok (Reaches.unwinding_ok (halloc _)) ?_
  refine Reaches.bind_ok (Reaches.unwinding_ok (hread _)) ?_
  rw [hcap]
  exact .refl

/-- An `open` whose bring-up fails. -/
theorem openDriver_reaches_err {p : Profile} (hG : AllowsNonFills G) (bdf : Str) {nsid : UInt32}
    {e : IoError}
    (hbring : (machine .twoPages C G).Reaches
      (bringUp p (.fresh Platform.twoPages.bar Platform.twoPages.region Platform.twoPages.stride
        nsid), World.zeroed.allocate .twoPages) (.pure (.err e, d), w)) :
    (machine .twoPages C G).Reaches
      ((openDriver p bdf nsid : Method Op Res Unit IoError _) (), World.zeroed)
      (.pure (.err e, ()), w.release) := by
  have hdrop : (machine .twoPages C G).Reaches
      ((drop : Method Op Res Unit IoError Unit) (), w) (.pure (.ok (), ()), w.release) :=
    Reaches.call_bind () ⟨rfl, hG _ _ id⟩ (Reaches.act (r := ()) ⟨rfl, hG _ _ id⟩ .refl)
  -- the failed bring-up unwinds, and gives up the mappings
  exact (openDriver_reaches_bringUp hG bdf nsid).trans
    (Reaches.unwinding_err (Reaches.owning_err hbring) hdrop)

/-- An `open` whose bring-up succeeds. -/
theorem openDriver_reaches_ok {p : Profile} (hG : AllowsNonFills G) (bdf : Str) {nsid : UInt32}
    (hbring : (machine .twoPages C G).Reaches
      (bringUp p (.fresh Platform.twoPages.bar Platform.twoPages.region Platform.twoPages.stride
        nsid), World.zeroed.allocate .twoPages) (.pure (.ok (), d), w)) :
    (machine .twoPages C G).Reaches
      ((openDriver p bdf nsid : Method Op Res Unit IoError _) (), World.zeroed)
      (.pure (.ok d, ()), w) :=
  (openDriver_reaches_bringUp hG bdf nsid).trans (Reaches.unwinding_ok (Reaches.owning_ok hbring))

/-- The first command of `open` times out, and the region is unmapped with it in the controller's
hands. -/
theorem failing_open : ∃ w : World,
    (machine .twoPages (answeringController .twoPages) Always).Reaches
      (lifetime .release [] 1 [] (), World.zeroed) (.pure (.err .pollTimeout, ()), w) ∧
    w.enabled = true ∧ w.released = some 1 := by
  have hbeforeOpen : BeforeOpen World.zeroed := ⟨fun _ => rfl, rfl⟩
  have hmapped : Mapped .twoPages (World.zeroed.allocate .twoPages) := hbeforeOpen.allocate
  have hcap : doorbellStrideOf 0 = Platform.twoPages.stride := by decide
  obtain ⟨w₁, hreset, hmem, hring, henabled⟩ := resetAndEnable_reaches (P := .twoPages)
    (C := answeringController .twoPages) (G := Always) (w := World.zeroed.allocate .twoPages)
    (d := .fresh Platform.twoPages.bar Platform.twoPages.region Platform.twoPages.stride 1)
    allowsNonSqes_always.allowsNonFills rfl fun i => (hmapped.fresh i).ring
  have hfresh : Fresh .twoPages .admin w₁ := ⟨hring .admin, hmem ▸ (hmapped.fresh .admin).zeroed⟩
  have hq := Driven.queuePair .admin
  -- the command of the first Identify, on which nothing is posted
  let command := nvmeIdentify .controller 0
    ((NvmeUserspaceDriver.fresh Platform.twoPages.bar Platform.twoPages.region
      Platform.twoPages.stride 1).dataPagePhysicalAddress 0)
  have hsubmit : (machine .twoPages (answeringController .twoPages) Always).Reaches
      (QueuePair.submit Platform.twoPages.bar Platform.twoPages.region Platform.twoPages.stride
        command QueueId.admin.queuePair, w₁) _ :=
    submit_reaches allowsNonSqes_always.allowsNonFills (Platform.twoPages_covers .admin) hq trivial
  have hissue : (w₁.issue .twoPages .admin 0 command).ring .admin = _ := issue_ring
  have hat : At .twoPages .admin 0 1 1 0 (w₁.issue .twoPages .admin 0 command) :=
    (hfresh.at.storeSqe (by decide)).ringTail 1
  obtain ⟨w₂, hpolls, hpoll⟩ := poll_expires (C := answeringController .twoPages) (G := Always)
    (POLL_LIMIT + 1) (.ofNat 0) allowsNonSqes_always.allowsNonFills hq.submit hat.ok hat.taken
    (by rw [hissue, hring]; rfl)
  have hcall : (machine .twoPages (answeringController .twoPages) Always).Reaches
      (QueuePair.submitAndWait Platform.twoPages.bar Platform.twoPages.region
        Platform.twoPages.stride command QueueId.admin.queuePair, w₁) _ :=
    Reaches.bind_ok hsubmit hpoll
  have hbring : (machine .twoPages (answeringController .twoPages) Always).Reaches
      (bringUp .release (.fresh Platform.twoPages.bar Platform.twoPages.region
        Platform.twoPages.stride 1), World.zeroed.allocate .twoPages) _ :=
    Reaches.bind_ok hreset (Reaches.bind_err (Reaches.bind_err (Reaches.bind_ok .refl
      (Reaches.bind_err (Reaches.bind_ok .refl (Reaches.bind hcall))))))
  have hopen := openDriver_reaches_err allowsNonSqes_always.allowsNonFills [] hbring
  refine ⟨_, Reaches.bind_err hopen, ?_, ?_⟩
  · -- CC.EN is still set: nothing disables the controller before the unmapping
    exact hpolls.enabled.trans henabled
  · have hadmin : (w₂.ring .admin).held = 1 := by
      rw [hpolls.ring, hissue, hring]
      simp [Ring.held, Ring.ringTail, Ring.store, Ring.fresh, QUEUE_DEPTH]
    -- nothing was ever submitted on the other queue
    have hio : (w₂.ring .io).held = 0 := by
      rw [hpolls.other .io (by decide), issue_ring_of_ne (by decide), hring]
      simp [Ring.held, Ring.fresh, QUEUE_DEPTH]
    have hon : w₂.enabled = true := hpolls.enabled.trans henabled
    change (if w₂.enabled then some ((w₂.ring .admin).held + (w₂.ring .io).held) else some 0) = _
    rw [hadmin, hio, hon]
    rfl

/-- The claim without the timeouts fails. -/
theorem open_releases_live : ¬ ∀ (p : Profile) (bdf : Str) (nsid : UInt32) (calls : List Call)
    (c : Config Op Res World (Outcome IoError Unit × Unit)) (n : Nat),
    (machine .twoPages (answeringController .twoPages) Always).Reaches
        (lifetime p bdf nsid calls (), World.zeroed) c →
      c.2.released = some n → n = 0 ∨ c.2.enabled = false := by
  intro h
  obtain ⟨w, hreach, henabled, hreleased⟩ := failing_open
  rcases h .release [] 1 [] _ 1 hreach hreleased with hzero | hdisabled
  · exact absurd hzero (by decide)
  · exact absurd (henabled.symm.trans hdisabled) (by decide)

/-- The run of `failing_open` is an instance. -/
theorem released_accounted_failing : ∃ w : World,
    w.released = some 1 ∧ 1 ≤ (w.ring .admin).expired + (w.ring .io).expired := by
  obtain ⟨w, hreach, -, hreleased⟩ := failing_open
  have hbeforeOpen : BeforeOpen World.zeroed := ⟨fun _ => rfl, rfl⟩
  exact ⟨w, hreleased, released_accounted .twoPages .release [] 1 [] .zeroed hbeforeOpen _ hreach 1
    hreleased⟩

end Failing

end Nvmetoy