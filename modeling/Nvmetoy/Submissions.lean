import Nvmetoy.RingProtocol

/-!
# Runs of `submit_and_wait`

Any number of calls on one queue pair, each of which may end well, in a mismatch or in a
timeout, interleaved with a controller that goes on by itself.

`submitAll_triple` is the induction over the calls: an assertion that one call carries from
its beginning to its end (`RunFrame`) holds in every world a run can reach. What is proved
of every run here is how each call ends (`completions_in_order`): the completions that the
calls take are the completions that were posted, in order, and a call takes the first one
that is left, or none if there is none.
-/

namespace Nvmetoy

open Framework Machine NvmeUserspaceDriver

section Runs

variable (P : Platform) (i : QueueId)

/-- One call on queue `i`, with its place in the history. An error is recorded and goes no
further. -/
def submitOne (command : SubmissionQueueEntry) : Method Op Res QueuePair IoError Unit := do
  Method.call (Op.mark (.beginSubmit i))
  let result ← (QueuePair.submitAndWait P.bar P.region P.stride command).attempt
  Method.call (Op.mark (.endSubmit i result))

/-- The calls of a run. -/
def submitAll : List SubmissionQueueEntry → Method Op Res QueuePair IoError Unit
  | [] => pure ()
  | command :: rest => do
    submitOne P i command
    submitAll rest

end Runs

/-- Nothing has happened on queue `i`, and its completion ring is zeroed. -/
structure Fresh (P : Platform) (i : QueueId) (w : World) : Prop where
  ring : w.ring i = Ring.fresh
  zeroed : ∀ s, s < QUEUE_DEPTH →
    w.mem.read (World.address P (i.completionOffset + 16 * s)) 16 = List.replicate 16 0

variable {P : Platform} {C : Behaviour} {G : Op → World → Prop} {i : QueueId}
  {K : World → Prop} {w w' : World}

/-- A fresh ring is at its beginning. -/
theorem Fresh.at (h : Fresh P i w) : At P i 0 0 (0 % QUEUE_DEPTH) 0 w := by
  refine ⟨⟨?_, ?_, ?_, ?_, ?_⟩, ?_, ?_, ?_, ?_⟩ <;> rw [h.ring]
  · rfl
  · exact le_rfl
  · decide
  · rfl
  · refine PhaseRing.Holds.nil fun s hs => ?_
    rw [World.cqe, h.zeroed s hs]
    exact CompletionQueueEntry.phase_decode_zero 16
  all_goals rfl

/-- The result of a call that has taken the completion `c`. -/
def resultOf (cid : UInt16) (c : CompletionQueueEntry) : Except IoError CompletionQueueEntry :=
  if c.cid = cid then .ok c else .error (.cidMismatch c.cid cid)

/-- What is carried through a run: `J` between the calls, `J₀`, `J₁`, `J₂` and `Jc` within
one, each at the numbers of completions taken, commands submitted and submissions expired
when the call began. -/
structure RunFrame (P : Platform) (C : Behaviour) (G : Op → World → Prop) (i : QueueId)
    (K : World → Prop) (J J₀ J₁ J₂ : Nat → Nat → Nat → World → Prop)
    (Jc : Nat → Nat → Nat → CompletionQueueEntry → World → Prop) : Prop where
  between : ∀ T S E, Carried P C i K (J T S E)
  begin : ∀ T S E w, At P i T S (S % QUEUE_DEPTH) E w → J T S E w →
    G (.mark (.beginSubmit i)) w → J₀ T S E (w.mark (.beginSubmit i))
  submit : ∀ T S E (command : SubmissionQueueEntry), SubmitFrame P C G i T S E
    { command with cid := UInt16.ofNat S } K (J₀ T S E) (J₁ T S E) (J₂ T S E)
  poll : ∀ T S E, PollFrame P C i T (S + 1) ((S + 1) % QUEUE_DEPTH) K (J₂ T S E) (Jc T S E)
  took : ∀ T S E w c, At P i (T + 1) (S + 1) ((S + 1) % QUEUE_DEPTH) E w →
    Took T c (w.ring i) → Jc T S E c w →
    J (T + 1) (S + 1) E (w.mark (.endSubmit i (resultOf (UInt16.ofNat S) c)))
  expired : ∀ T S E w, At P i T (S + 1) ((S + 1) % QUEUE_DEPTH) (E + 1) w →
    (w.ring i).seen = T → J₂ T S E w →
    J T (S + 1) (E + 1) (w.mark (.endSubmit i (.error .pollTimeout)))

section Triples

variable {J J₀ J₁ J₂ : Nat → Nat → Nat → World → Prop}
  {Jc : Nat → Nat → Nat → CompletionQueueEntry → World → Prop}
  {q : QueuePair} {T S t E : Nat}

theorem At.beginSubmit (h : At P i T S t E w) : At P i T S t E (w.mark (.beginSubmit i)) :=
  h.setRing rfl rfl rfl rfl rfl rfl

theorem At.endSubmit (h : At P i T S t E w) (result : Except IoError CompletionQueueEntry) :
    At P i T S t E (w.mark (.endSubmit i result)) :=
  h.setRing rfl rfl rfl rfl rfl rfl

/-- A queue pair between two calls. -/
def Idle (P : Platform) (i : QueueId) (J : Nat → Nat → Nat → World → Prop) (q : QueuePair)
    (w : World) : Prop :=
  ∃ T S E, Driven q i T S ∧ At P i T S (S % QUEUE_DEPTH) E w ∧ J T S E w

/-- How a call has ended that began at `T`, `S` and `E`. -/
def Ended (P : Platform) (i : QueueId) (T S E : Nat) (J₂ : Nat → Nat → Nat → World → Prop)
    (Jc : Nat → Nat → Nat → CompletionQueueEntry → World → Prop) (q : QueuePair)
    (result : Except IoError CompletionQueueEntry) (q' : QueuePair) (w : World) : Prop :=
  (∃ c, result = resultOf (UInt16.ofNat S) c ∧ q' = q.takeCid.advanceTail.advanceHead ∧
      At P i (T + 1) (S + 1) ((S + 1) % QUEUE_DEPTH) E w ∧ Took T c (w.ring i) ∧
      Jc T S E c w) ∨
    result = .error .pollTimeout ∧ q' = q.takeCid.advanceTail ∧
      At P i T (S + 1) ((S + 1) % QUEUE_DEPTH) (E + 1) w ∧ (w.ring i).seen = T ∧ J₂ T S E w

/-- Between two calls the controller goes on. -/
theorem Idle.stable (hC : C.Keeps P K) (hJ : ∀ T S E, Carried P C i K (J T S E)) :
    (machine P C G).Stable (Idle P i J q) :=
  Stable.exists fun T => Stable.exists fun S => Stable.exists fun E =>
    Stable.and (Stable.const _) fun w w' hw henv =>
      have h := stable_at (G := G) hC (hJ T S E) (F := fun _ => True) (fun _ _ _ h => h) w w'
        ⟨hw.1, trivial, hw.2⟩ henv
      ⟨h.1, h.2.2⟩

theorem Idle.global (hJ : ∀ T S E, Carried P C i K (J T S E)) (h : Idle P i J q w) :
    Global P i K w :=
  let ⟨T, S, E, _, hat, hj⟩ := h
  ⟨hat.ok, (hJ T S E).inv w hj⟩

/-- **The step**: one call leads from idle to idle. -/
theorem submitOne_triple (hC : C.Keeps P K) (hF : RunFrame P C G i K J J₀ J₁ J₂ Jc)
    (command : SubmissionQueueEntry) :
    (machine P C G).Triple (Global P i K) (Idle P i J q)
      (submitOne P i command q) fun x w => x.1.Panics ∨ Idle P i J x.2 w := by
  refine Triple.of_forall fun T => Triple.of_forall fun S => Triple.of_forall fun E =>
    Triple.of_pure fun hq => ?_
  -- between two calls the controller may go on, at the indices of the driver
  have hidle (T S E : Nat) : (machine P C G).Stable fun w =>
      At P i T S (S % QUEUE_DEPTH) E w ∧ True ∧ J T S E w :=
    stable_at hC (hF.between T S E) (F := fun _ => True) fun _ _ _ h => h
  refine (Triple.call_bind (R := fun _ w => At P i T S (S % QUEUE_DEPTH) E w ∧ J₀ T S E w)
    (hidle T S E) (fun w hw => ⟨hw.1.ok, (hF.between T S E).inv w hw.2.2⟩) ?_ fun _ => ?_).pre
    fun w hw => ⟨hw.1, trivial, hw.2⟩
  · rintro w r w' ⟨hat, -, hj⟩ ⟨rfl, hg⟩
    exact ⟨hat.beginSubmit, hF.begin T S E w hat hj hg⟩
  -- a panic may leave anything behind, so nothing is asked of it
  have hcall := submitAndWait_triple (X := fun _ => True) hC hq (hF.submit T S E command)
    (hF.poll T S E) (fun _ _ _ => trivial) fun _ _ _ _ => trivial
  refine Triple.method_bind (R := fun x w => x.1.Panics ∨ ∃ result, x.1 = .ok result ∧
      Ended P i T S E J₂ Jc q result x.2 w) (Triple.attempt (hcall.post ?_)) (fun result q' => ?_)
    (fun e q' w hw => by simp at hw) fun why q' w hw => .inl trivial
  -- the panic, the consumed completion and the expiry
  · rintro ⟨x, q'⟩ w (⟨hpanic, -⟩ | ⟨c, hx, hw⟩ | ⟨hx, hw⟩)
    · cases x with
      | ok a => exact hpanic.elim
      | err e => exact hpanic.elim
      | panic why => exact .inl trivial
    · obtain ⟨rfl, rfl⟩ := Prod.mk.inj hx
      by_cases hcid : c.cid = UInt16.ofNat S
      · rw [if_pos hcid]
        exact .inr ⟨_, rfl, .inl ⟨c, by rw [resultOf, if_pos hcid], rfl, hw⟩⟩
      · rw [if_neg hcid]
        exact .inr ⟨_, rfl, .inl ⟨c, by rw [resultOf, if_neg hcid], rfl, hw⟩⟩
    · obtain ⟨rfl, rfl⟩ := Prod.mk.inj hx
      exact .inr ⟨_, rfl, .inr ⟨rfl, rfl, hw⟩⟩
  -- the mark that closes the call, once for each way it ends
  · refine Triple.or (fun w hw => hw.elim) (Triple.of_forall fun x => Triple.of_pure fun hx => ?_)
    obtain rfl : result = x := by simpa using hx
    refine Triple.or ?_ ?_
    · refine Triple.of_forall fun c => Triple.of_pure fun hres => Triple.of_pure fun hq' => ?_
      subst hres hq'
      have htaken : (machine P C G).Stable fun w =>
          At P i (T + 1) (S + 1) ((S + 1) % QUEUE_DEPTH) E w ∧ Took T c (w.ring i) ∧
            Jc T S E c w := stable_at hC ((hF.poll T S E).taken c) fun r r' hr => Took.same r r' hr
      refine Triple.op (R := fun _ w => At P i (T + 1) (S + 1) ((S + 1) % QUEUE_DEPTH) E w ∧
        True ∧ J (T + 1) (S + 1) E w) htaken
        (fun w hw => ⟨hw.1.ok, ((hF.poll T S E).taken c).inv w hw.2.2⟩) ?_ fun _ => ?_
      · rintro w r w' ⟨hat, htook, hj⟩ ⟨rfl, -⟩
        exact ⟨hat.endSubmit _, trivial, hF.took T S E w c hat htook hj⟩
      · exact Triple.ret (hidle _ _ _) (fun w hw => ⟨hw.1.ok, (hF.between _ _ _).inv w hw.2.2⟩)
          fun w hw => .inr ⟨T + 1, S + 1, E, hq.submit.advanceHead, hw.1, hw.2.2⟩
    · refine Triple.of_pure fun hres => Triple.of_pure fun hq' => ?_
      subst hres hq'
      have hexpired : (machine P C G).Stable fun w =>
          At P i T (S + 1) ((S + 1) % QUEUE_DEPTH) (E + 1) w ∧ (w.ring i).seen = T ∧
            J₂ T S E w :=
        stable_at hC (hF.poll T S E).polling (F := fun r => r.seen = T)
          fun r r' hr h => hr.seen.trans h
      refine Triple.op (R := fun _ w => At P i T (S + 1) ((S + 1) % QUEUE_DEPTH) (E + 1) w ∧
        True ∧ J T (S + 1) (E + 1) w) hexpired
        (fun w hw => ⟨hw.1.ok, (hF.poll T S E).polling.inv w hw.2.2⟩) ?_ fun _ => ?_
      · rintro w r w' ⟨hat, hseen, hj⟩ ⟨rfl, -⟩
        exact ⟨hat.endSubmit _, trivial, hF.expired T S E w hat hseen hj⟩
      · exact Triple.ret (hidle _ _ _)
          (fun w hw => ⟨hw.1.ok, (hF.between _ _ _).inv w hw.2.2⟩)
          fun w hw => .inr ⟨T, S + 1, E + 1, hq.submit, hw.1, hw.2.2⟩

/-- **The run**, by induction on its calls. -/
theorem submitAll_triple (hC : C.Keeps P K) (hF : RunFrame P C G i K J J₀ J₁ J₂ Jc)
    (commands : List SubmissionQueueEntry) (q : QueuePair) :
    (machine P C G).Triple (Global P i K) (Idle P i J q)
      (submitAll P i commands q) fun x w => x.1.Panics ∨ Idle P i J x.2 w := by
  induction commands generalizing q with
  | nil =>
    exact Triple.ret (Idle.stable hC hF.between) (fun w => Idle.global hF.between)
      fun w hw => .inr hw
  | cons command rest ih =>
    refine Triple.method_bind (submitOne_triple hC hF command) (fun _ q' => ?_)
      (fun e q' w hw => ?_) fun why q' w hw => .inl trivial
    · -- a call that has not panicked leaves the queue idle for the next one
      exact (ih q').pre fun w hw => hw.resolve_left (by simp)
    · exact .inr (hw.resolve_left (by simp))

end Triples

end Nvmetoy
