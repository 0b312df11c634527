import Nvmetoy.Opening

/-!
# Commands that are served

What the driver keeps is no use if nothing ever succeeds. Here the controller does what it may: it
fetches the command it was rung for, moves all of its data, and completes it.

* `InFlight.served` — from wherever it has come with a command.
* `submitAndWait_served` — a submission that ends with this completion.
* `Answers` — a method that can end well, from where its triple begins. The methods that `open`
  consists of do so (`openDriver_answers`), on a controller that reports what they ask for.
* `lifetime_reaches`, `callAll_reaches`, `callOne_reaches` — runs of calls, put together.
-/

namespace Nvmetoy

open Framework Machine NvmeUserspaceDriver

variable {P : Platform} {N : Namespace} {i j : QueueId} {w w' w'' : World} {τ : Task}
  {b₀ : Mem} {call : Option Call} {d t : NvmeUserspaceDriver} {e : SubmissionQueueEntry}
  {payload : List UInt8} {G : Op → World → Prop}

/-! ### The controller -/

/-- The controller has worked, and has not completed anything. -/
structure Works (P : Platform) (N : Namespace) (w w' : World) : Prop where
  steps : Relation.ReflTransGen (EnvStep P (servingController N)) w w'
  posted : ∀ i, (w'.ring i).posted = (w.ring i).posted
  cqHead : ∀ i, (w'.ring i).cqHead = (w.ring i).cqHead

theorem Works.refl (P : Platform) (N : Namespace) (w : World) : Works P N w w :=
  ⟨.refl, fun _ => rfl, fun _ => rfl⟩

theorem Works.trans (h : Works P N w w') (h' : Works P N w' w'') : Works P N w w'' where
  steps := h.steps.trans h'.steps
  posted := fun i => (h'.posted i).trans (h.posted i)
  cqHead := fun i => (h'.cqHead i).trans (h.cqHead i)

/-- Any number of steps. -/
theorem InFlight.steps (h : InFlight P N τ w) (hrec : Recorded w)
    (halign : P.base.val.toNat % PAGE_SIZE = 0)
    (hsteps : Relation.ReflTransGen (EnvStep P (servingController N)) w w') :
    InFlight P N τ w' ∧ Recorded w' := by
  induction hsteps with
  | refl => exact ⟨h, hrec⟩
  | tail _ henv ih => exact ih.1.step ih.2 halign henv

/-- The controller does not disable itself. -/
theorem enabled_steps (hsteps : Relation.ReflTransGen (EnvStep P (servingController N)) w w') :
    w'.enabled = w.enabled := by
  induction hsteps with
  | refl => rfl
  | tail _ henv ih => exact henv.history.2.2.2.trans ih

/-- A command that was rung for waits in its slot, until it is fetched. -/
theorem InFlight.waits (h : InFlight P N τ w) (hlive : (w.ring τ.queue).live = [])
    (hposted : (w.ring τ.queue).posted.length = τ.number) : Stage P τ w none := by
  obtain ⟨status, hstage, -⟩ := h.under
  cases hstage with
  | waiting hhead htail hlive hposted hsqe hissuer =>
    exact .waiting hhead htail hlive hposted hsqe hissuer
  | inHand _ _ hone =>
    rw [hlive] at hone
    cases hone
  | done _ _ hnext => omega

/-- The command is in hand, and not executed yet. -/
def InHand (τ : Task) (w : World) : Prop := (w.ring τ.queue).live = [⟨τ.number, τ.entry, none⟩]

/-- A submitted command can be fetched. -/
theorem Stage.fetched (h : Stage P τ w none) (henabled : w.enabled = true) :
    ∃ w', Works P N w w' ∧ InHand τ w' ∧ w' = { w with ring := w'.ring } := by
  cases h with
  | inHand _ _ hlive => exact ⟨w, .refl P N w, hlive, rfl⟩
  | waiting hhead htail hlive hposted hsqe hissuer =>
    have hpending : (w.ring τ.queue).sqHead ≠ (w.ring τ.queue).sqTail := by
      rw [hhead, htail]
      unfold QUEUE_DEPTH
      omega
    -- the controller fetches the entry that it has been told of
    refine ⟨_, ⟨.single (.fetch τ.queue hpending henabled), World.setRing_field Ring.posted rfl,
      World.setRing_field Ring.cqHead rfl⟩, ?_, rfl⟩
    rw [InHand, World.setRing_ring_self]
    simp only [Ring.fetch, hhead, hlive, hsqe, hissuer, List.nil_append]

/-- The rest of its data moves in one piece. -/
theorem InFlight.executed (h : InFlight P N τ w) (halign : P.base.val.toNat % PAGE_SIZE = 0)
    (hlive : InHand τ w) (henabled : w.enabled = true) :
    ∃ w', Works P N w w' ∧ InHand τ w' ∧ (τ.moved w').length = τ.length N := by
  have halone : (w.ring τ.queue).live = [] ++ ⟨τ.number, τ.entry, none⟩ :: [] := hlive
  obtain ⟨-, -, -, -, -, -, -, hmoving⟩ := h.inHand halone
  have hle := hmoving.length_le
  cases hdir : τ.direction with
  | none =>
    refine ⟨w, .refl P N w, hlive, ?_⟩
    rw [hmoving.still hdir, Task.length, N.length_none τ.queue hdir]
    rfl
  | toHost =>
    -- what is left of the transfer is given in one piece
    have hwalk := (hmoving.listed (by rw [hdir]; simp)).walk_eq halign le_rfl
    refine ⟨_, ⟨.single (.transfer ⟨τ.queue, [], _, [], hlive, rfl,
      .give PRP_LIST_CAPACITY (τ.length N) _ hdir hwalk⟩ henabled), fun _ => rfl, fun _ => rfl⟩,
      hlive, ?_⟩
    have hlen : (((N.supplies τ.queue τ.entry w.disk).drop (τ.moved w).length).take
        (τ.length N)).length = τ.length N - (τ.moved w).length := by
      rw [List.length_take, List.length_drop, Namespace.length_supplies]
      exact Nat.min_eq_right (Nat.sub_le _ _)
    calc (Task.moved τ _).length
      _ = (τ.moved w ++ ((N.supplies τ.queue τ.entry w.disk).drop (τ.moved w).length).take
          (τ.length N)).length := congrArg List.length moved_transferred
      _ = τ.length N := by
        rw [List.length_append, hlen]
        omega
  | fromHost =>
    have hwalk := (hmoving.listed (by rw [hdir]; simp)).walk_eq halign le_rfl
    -- and likewise what is left to take
    have hroom : (τ.moved w).length + (τ.length N - (τ.moved w).length) ≤ τ.length N := by omega
    refine ⟨_, ⟨.single (.transfer ⟨τ.queue, [], _, [], hlive, rfl,
      .take PRP_LIST_CAPACITY (τ.length N - (τ.moved w).length) _ hdir hwalk hroom⟩ henabled),
      fun _ => rfl, fun _ => rfl⟩, hlive, ?_⟩
    calc (Task.moved τ _).length
      _ = (τ.moved w ++ Prp.gather PAGE_SIZE w.mem _ (τ.moved w).length
          (τ.length N - (τ.moved w).length)).length := congrArg List.length moved_transferred
      _ = τ.length N := by
        rw [List.length_append, Prp.length_gather]
        omega

/-- **A command is served**: fetched, executed, and completed with success. -/
theorem InFlight.served (h : InFlight P N τ w) (hrec : Recorded w)
    (halign : P.base.val.toNat % PAGE_SIZE = 0) (hstage : Stage P τ w none)
    (henabled : w.enabled = true) (hposted : (w.ring τ.queue).posted.length = τ.number)
    (hroom : ((w.ring τ.queue).posted.length + 1) % QUEUE_DEPTH ≠ (w.ring τ.queue).cqHead) :
    ∃ w' c, Relation.ReflTransGen (EnvStep P (servingController N)) w w' ∧
      (w'.ring τ.queue).posted = (w.ring τ.queue).posted ++ [(c, τ.number)] ∧
        c.cid = .ofNat τ.number ∧ c.isSuccess = true := by
  -- the command is fetched, and its data moved
  obtain ⟨w₁, hfetch, hlive₁, -⟩ := hstage.fetched (N := N) henabled
  obtain ⟨h₁, hrec₁⟩ := h.steps hrec halign hfetch.steps
  obtain ⟨w₂, hexec, hlive₂, hmoved⟩ := h₁.executed halign hlive₁
    ((enabled_steps hfetch.steps).trans henabled)
  have hworks := hfetch.trans hexec
  have henabled₂ : w₂.enabled = true := (enabled_steps hworks.steps).trans henabled
  have hposted₂ : (w₂.ring τ.queue).posted = (w.ring τ.queue).posted := hworks.posted _
  -- the status is set
  let executed : Ring := { w₂.ring τ.queue with
    live := [] ++ [{ (⟨τ.number, τ.entry, none⟩ : FetchedCommand) with status := some 0 }] }
  have hfinish : EnvStep P (servingController N) w₂ (w₂.setRing τ.queue executed) :=
    .transfer ⟨τ.queue, [], _, [], hlive₂, rfl, .finish 0 (fun _ => hmoved)
      fun hno => absurd (by decide) hno⟩ henabled₂
  have hring : (w₂.setRing τ.queue executed).ring τ.queue = executed :=
    World.setRing_ring_self _
  -- and the completion is posted
  let c := CompletionQueueEntry.tagged (.ofNat τ.number) (PhaseRing.phaseOf QUEUE_DEPTH τ.number)
  have hstatus : c.status >>> 1 = 0 := by
    change (if PhaseRing.phaseOf QUEUE_DEPTH τ.number then (1 : UInt16) else 0) >>> 1 = 0
    split <;> rfl
  have hroom₃ : (((w₂.setRing τ.queue executed).ring τ.queue).posted.length + 1) % QUEUE_DEPTH ≠
      ((w₂.setRing τ.queue executed).ring τ.queue).cqHead := by
    rw [hring]
    change ((w₂.ring τ.queue).posted.length + 1) % QUEUE_DEPTH ≠ (w₂.ring τ.queue).cqHead
    rw [hposted₂, hworks.cqHead]
    exact hroom
  have hphase : c.phase = PhaseRing.phaseOf QUEUE_DEPTH
      ((w₂.setRing τ.queue executed).ring τ.queue).posted.length := by
    rw [hring]
    change c.phase = PhaseRing.phaseOf QUEUE_DEPTH (w₂.ring τ.queue).posted.length
    rw [hposted₂, hposted]
    exact CompletionQueueEntry.phase_tagged _ _
  -- it reports the one command in hand, with success
  have hmay : Reports ((w₂.setRing τ.queue executed).ring τ.queue) c τ.number [] := by
    rw [hring]
    exact ⟨[], _, [], rfl, rfl, rfl, h.cid.symm, congrArg some hstatus.symm⟩
  have hpost := EnvStep.post (P := P) (C := servingController N) τ.queue hroom₃ hphase hmay
    henabled₂
  refine ⟨_, c, (hworks.steps.tail hfinish).tail hpost, ?_, rfl, ?_⟩
  · change ((World.setRing _ τ.queue _).ring τ.queue).posted = _
    rw [World.setRing_ring_self, hring]
    exact congrArg (· ++ _) hposted₂
  · rw [isSuccess_iff, hstatus]
    exact ⟨rfl, rfl⟩

/-! ### The driver -/

/-- While one task is all there is, whatever the controller does keeps it so, and no call expires by
it. -/
theorem SingleTask.steps {explains : Prop} (h : SingleTask P N explains b₀ w)
    (halign : P.base.val.toNat % PAGE_SIZE = 0)
    (hsteps : Relation.ReflTransGen (EnvStep P (servingController N)) w w') :
    SingleTask P N explains b₀ w' ∧ ∀ i, (w'.ring i).expired = (w.ring i).expired := by
  induction hsteps with
  | refl => exact ⟨h, fun _ => rfl⟩
  | tail _ henv ih =>
    exact ⟨ih.1.step halign henv, fun i =>
      ((henv.onRings ih.1 halign i).later.expired).trans (ih.2 i)⟩

/-- The indices of the driver outlast the controller's steps. -/
theorem At.steps {explains : Prop} {T S tail E : Nat} (h : At P i T S tail E w)
    (hsingle : SingleTask P N explains b₀ w) (halign : P.base.val.toNat % PAGE_SIZE = 0)
    (hsteps : Relation.ReflTransGen (EnvStep P (servingController N)) w w') :
    At P i T S tail E w' := by
  induction hsteps with
  | refl => exact h
  | tail hsteps henv ih => exact ih.step (henv.onRings (hsingle.steps halign hsteps).1 halign i)

/-- The controller is enabled, and has answered everything in time. -/
structure Answering (w : World) : Prop where
  enabled : w.enabled = true
  inTime : ∀ i, (w.ring i).expired = 0

/-- The driver has rung for the command, and every command before it was answered in time. -/
structure Dispatched (P : Platform) (N : Namespace) (b₀ : Mem) (τ : Task) (w : World) : Prop where
  singleTask : SingleTask P N False b₀ w
  inFlight : InFlight P N τ w
  stage : Stage P τ w none
  ring : At P τ.queue τ.number (τ.number + 1) ((τ.number + 1) % QUEUE_DEPTH) 0 w
  live : (w.ring τ.queue).live = []
  posted : (w.ring τ.queue).posted.length = τ.number

/-- The first half of a submission. -/
theorem BeforeCommand.issue {command : SubmissionQueueEntry}
    (h : BeforeCommand P N True b₀ call t w)
    (hlaid : MemoryReady P N i command payload w) (hanswering : Answering w)
    (hcall : i = .io → ∃ c, call = some c ∧ Orders c i command payload) :
    ∃ S, Driven (t.queue i) i S S ∧
      Dispatched P N b₀ ⟨i, S, { command with cid := .ofNat S }, payload, w.disk⟩
        (w.issue P i S command) := by
  obtain ⟨hdrained, -⟩ := h.blocks trivial
  obtain ⟨T, S, E, hS, hq, hat⟩ := h.rest i
  -- nothing has expired so far, so the counters of submitted and taken agree
  obtain rfl : E = 0 := hat.expired.symm.trans (hanswering.inTime i)
  obtain rfl : S = T := hS
  have hslot : S % QUEUE_DEPTH < QUEUE_DEPTH := Nat.mod_lt _ (by decide)
  have hprepared : Prepared P N True b₀ i { command with cid := .ofNat S } payload w :=
    ⟨h.atMostOneLeft, hlaid.1.cid _, .inl hdrained, h.blocks⟩
  -- the store and the doorbell, as one step each of what the controller may see
  have hwritten := hprepared.store h.singleTask.recorded hdrained hat.submitted rfl fun hio => by
    subst hio
    rw [h.current]
    exact hcall rfl
  have hinFlight := hwritten.ringTail (hat.storeSqe hslot).tail
  have hring : (w.issue P i S command).ring i = _ := issue_ring
  have hlive : ((w.issue P i S command).ring i).live = [] := by
    rw [hring]
    exact (hdrained i).live
  have hposted : ((w.issue P i S command).ring i).posted.length = S := by
    rw [hring]
    exact (hdrained i).all.trans hat.submitted
  have hrec : Recorded (w.issue P i S command) :=
    (h.singleTask.store hdrained).recorded.setRing rfl rfl
  exact ⟨S, hq, ⟨hrec, .inr ⟨_, hinFlight, fun h => h.elim⟩, fun h => h.elim⟩, hinFlight,
    hinFlight.waits hlive hposted, (hat.storeSqe hslot).ringTail _, hlive, hposted⟩

/-- The driver may put what it likes before a controller that has completed everything, and do
otherwise what puts nothing there. -/
structure AllowsDrained (G : Op → World → Prop) : Prop where
  allowsNonFills : AllowsNonFills G
  drained : ∀ o w, (∀ i, Drained (w.ring i)) → G o w

/-- Where no command is waiting, any operation at all is allowed. -/
theorem allowsDrained_always : AllowsDrained Always := ⟨fun _ _ _ => trivial, fun _ _ _ => trivial⟩

theorem allowsDrained_unshared : AllowsDrained Unshared :=
  ⟨fun _ _ ho hfills => absurd hfills ho, fun _ _ hdrained _ i => (hdrained i).toEmpty⟩

/-- **A submission that succeeds.** -/
theorem submitAndWait_served {command : SubmissionQueueEntry} (hG : AllowsDrained G)
    (halign : P.base.val.toNat % PAGE_SIZE = 0) (hbar : P.bar.Covers i.number P.stride)
    (hbefore : BeforeCommand P N True b₀ call t w) (hlaid : MemoryReady P N i command payload w)
    (hanswering : Answering w) (hcall : i = .io → ∃ c, call = some c ∧ Orders c i command payload) :
    ∃ c q' w', (machine P (servingController N) G).Reaches
        (QueuePair.submitAndWait P.bar P.region P.stride command (t.queue i), w)
        (.pure (.ok c, q'), w') ∧ c.isSuccess = true ∧ Answering w' := by
  obtain ⟨S, hq, hdispatched⟩ := hbefore.issue hlaid hanswering hcall
  obtain ⟨hsingle, hinFlight, hstage, hat, -, hposted⟩ := hdispatched
  dsimp only at hat hposted
  -- the controller serves it
  obtain ⟨w₂, c, henvs, hposted₂, hcid, hok⟩ := hinFlight.served hsingle.recorded halign hstage
    hanswering.enabled hposted (by
      dsimp only
      rw [hat.ok.head, hat.taken, hposted]
      unfold QUEUE_DEPTH
      omega)
  dsimp only at hposted₂
  have hat₂ := hat.steps hsingle halign henvs
  have hnext : ((w₂.ring i).posted.map Prod.fst)[S]? = some c := by
    have hlen : (((w.issue P i S command).ring i).posted.map Prod.fst).length = S := by
      rw [List.length_map, hposted]
    rw [hposted₂, List.map_append, List.getElem?_append_right hlen.le, hlen, Nat.sub_self]
    rfl
  -- and the driver takes the completion
  obtain ⟨w₃, hpolls, -, -, hexpired, hpoll⟩ := poll_takes (C := servingController N) POLL_LIMIT
    (.ofNat S) hG.allowsNonFills hbar hq.submit hat₂.ok hat₂.taken hnext
  rw [if_pos hcid] at hpoll
  -- put together: the submission, the controller's steps, and the polls
  have hsubmit : (machine P (servingController N) G).Reaches
      (QueuePair.submit P.bar P.region P.stride command (t.queue i), w) _ :=
    submit_reaches hG.allowsNonFills hbar hq (hG.drained _ _ (hbefore.blocks trivial).1)
  refine ⟨c, _, _, ((Reaches.bind hsubmit).trans (Reaches.envs henvs)).trans hpoll, hok, ?_, ?_⟩
  · exact hpolls.enabled.trans ((enabled_steps henvs).trans hanswering.enabled)
  · intro j
    have hsteps := (hsingle.steps halign henvs).2 j
    by_cases hj : j = i
    · subst hj
      rw [World.setRing_ring_self]
      exact hexpired.trans hat₂.expired
    · rw [World.setRing_ring_of_ne hj, hpolls.other j hj, hsteps, issue_ring_of_ne hj]
      exact hanswering.inTime j

/-! ### Runs that are in time -/

/-- A submission that has timed out stays so. -/
theorem act_expired {o : Op} {r : Res o} (h : act P o w r w') (j : QueueId) :
    (w.ring j).expired ≤ (w'.ring j).expired := by
  -- only a poll can add to the count
  cases o
  case writeSqe offset entry =>
    obtain rfl := h
    rw [World.storeSqe]
    dsimp only
    split
    · exact le_rfl
    · exact le_rfl
  case readCqe offset =>
    obtain ⟨-, rfl⟩ := h
    rw [World.pollCqe]
    dsimp only
    split_ifs
    · rw [Ring.poll]
      dsimp only
      split_ifs <;> omega
    · exact le_rfl
  -- a register, a mark and an allocation keep the count of either ring
  case write32 offset value =>
    obtain rfl := h
    unfold World.writeRegister World.writeConfiguration
    split_ifs
    all_goals first
      | exact (World.setRing_field Ring.expired (by rfl) j).ge
      | exact le_rfl
  case mark m =>
    obtain rfl := h
    unfold World.mark
    split
    · exact (World.setRing_field Ring.expired (by rfl) j).ge
    · exact (World.setRing_field Ring.expired (by rfl) j).ge
    · exact le_rfl
    · split <;> exact le_rfl
  case allocHuge =>
    cases r with
    | ok a =>
      obtain ⟨-, rfl⟩ := h
      exact le_rfl
    | error e =>
      obtain rfl := h
      exact le_rfl
  all_goals first
    | (obtain rfl := h; exact le_rfl)
    | (obtain ⟨-, rfl⟩ := h; exact le_rfl)

/-- It is the driver that gives up, not the controller. -/
theorem EnvStep.expired (h : EnvStep P (servingController N) w w') (j : QueueId) :
    (w'.ring j).expired = (w.ring j).expired := by
  cases h with
  | fetch => exact World.setRing_field Ring.expired (by rfl) j
  | post => exact World.setRing_field Ring.expired (by rfl) j
  | transfer h =>
    obtain ⟨i, before, command, after, -, -, hexec⟩ := h
    cases hexec with
    | give => rfl
    | take => rfl
    | finish => exact World.setRing_field Ring.expired (by rfl) j

/-- Commands that have expired stay expired. -/
theorem reaches_expired {α : Type} {c c' : Config Op Res World α}
    (h : (machine P (servingController N) G).Reaches c c') (j : QueueId) :
    (c.2.ring j).expired ≤ (c'.2.ring j).expired := by
  induction h with
  | refl => exact le_rfl
  | tail _ hstep ih =>
    cases hstep with
    | act h => exact ih.trans (act_expired h.1 j)
    | env h => exact ih.trans (EnvStep.expired h j).ge

/-- **A run at whose end nothing has timed out** was in time throughout. -/
theorem reaches_inTime {α : Type} {c c' : Config Op Res World α}
    (h : (machine P (servingController N) G).Reaches c c')
    (hend : ∀ i, (c'.2.ring i).expired = 0) :
    (machine P (servingController N) InTime).Reaches c c' := by
  -- what has expired stays so, and at the end nothing has
  refine Reaches.throughout (E := fun w : World => ∀ i, (w.ring i).expired = 0) h (fun b hb i => ?_)
    (fun _ _ _ _ htime hact => ⟨hact.1, htime⟩) fun _ _ => id
  exact Nat.le_zero.mp ((reaches_expired hb i).trans (hend i).le)

/-! ### Methods that succeed -/

/-- From wherever `R` holds, while the controller answers in time, the method can end with a value
of `φ`. -/
def Answers {α : Type} (P : Platform) (N : Namespace) (G : Op → World → Prop)
    (R : World → Prop)
    (p : Prog Op Res (Outcome IoError α × NvmeUserspaceDriver)) (φ : α → Prop) : Prop :=
  ∀ w, R w → Answering w → ∃ a t w', (machine P (servingController N) G).Reaches (p, w)
    (.pure (.ok a, t), w') ∧ φ a ∧ Answering w'

section Rules

variable {α β : Type} {R R' : World → Prop} {Q : α → NvmeUserspaceDriver → World → Prop}
  {φ : α → Prop} {ψ : β → Prop} {m : DriverMethod α} {f : α → DriverMethod β}

theorem Answers.pre {p : Prog Op Res (Outcome IoError α × NvmeUserspaceDriver)}
    (h : Answers P N G R p φ) (hR : ∀ w, R' w → R w) : Answers P N G R' p φ :=
  fun w hw hanswering => h w (hR w hw) hanswering

theorem Answers.ok {a : α} (ha : φ a) :
    Answers P N G R ((Pure.pure a : DriverMethod α) t) φ :=
  fun w _ hanswering => ⟨a, t, w, .refl, ha, hanswering⟩

/-- Sequencing: the second half begins where every run of the first half that is in time ends. -/
theorem Answers.bind (hm : Answers P N G R (m t) φ)
    (htriple : CallTriple P N True b₀ InTime call d R (m t) Q)
    (hf : ∀ a t', φ a → SameButQueues d t' → Answers P N G (Q a t') (f a t') ψ) :
    Answers P N G R ((m >>= f) t) ψ := by
  intro w hw hanswering
  obtain ⟨a, t₁, w₁, hreach, ha, hanswering₁⟩ := hm w hw hanswering
  obtain ⟨hqueues, hQ⟩ :=
    (htriple w hw _ (reaches_inTime hreach hanswering₁.inTime)).2 _ rfl
  obtain ⟨b, t₂, w₂, hrest, hb, hanswering₂⟩ := hf a t₁ ha hqueues w₁ hQ hanswering₁
  exact ⟨b, t₂, w₂, Reaches.bind_ok hreach hrest, hb, hanswering₂⟩

end Rules

section Methods

variable (hG : AllowsDrained G) (halign : P.base.val.toNat % PAGE_SIZE = 0)
  (hbar : ∀ i, P.bar.Covers (QueueId.number i) P.stride)
include hG halign hbar

/-- Some schedule completes an admin command with success. -/
theorem answers_submitAdmin {command : SubmissionQueueEntry} (hd : BuiltFor P t) :
    Answers P N G
      (fun w => BeforeCommand P N True b₀ call t w ∧ MemoryReady P N .admin command payload w)
      (submitAdmin command t) fun c => c.isSuccess = true := by
  rintro w ⟨hbefore, hlaid⟩ hanswering
  obtain ⟨c, q, w', hreach, hok, hanswering'⟩ := submitAndWait_served (i := .admin) hG halign
    (hbar .admin) hbefore hlaid hanswering fun h => by cases h
  rw [submitAdmin, Method.get_bind, hd.bar, hd.region, hd.stride]
  exact ⟨c, _, w', Reaches.bind hreach, hok, hanswering'⟩

theorem answers_submitIo {command : SubmissionQueueEntry} (hd : BuiltFor P t) {k : Call}
    (horders : Orders k .io command payload) :
    Answers P N G
      (fun w => BeforeCommand P N True b₀ (some k) t w ∧ MemoryReady P N .io command payload w)
      (submitIo command t) fun c => c.isSuccess = true := by
  rintro w ⟨hbefore, hlaid⟩ hanswering
  obtain ⟨c, q, w', hreach, hok, hanswering'⟩ := submitAndWait_served (i := .io) hG
    halign (hbar .io) hbefore hlaid hanswering fun _ => ⟨k, rfl, horders⟩
  rw [submitIo, Method.get_bind, hd.bar, hd.region, hd.stride]
  exact ⟨c, _, w', Reaches.bind hreach, hok, hanswering'⟩

omit hG halign hbar in
/-- After a success the check has nothing to object to. -/
theorem answers_checkCompletion {c : CompletionQueueEntry} {what : String} {R : World → Prop}
    (hok : c.isSuccess = true) :
    Answers P N G R (checkCompletion c what t) fun _ => True := by
  rw [checkCompletion, if_pos hok]
  exact .ok trivial

omit hG halign hbar in
/-- A copy within the region has a result. -/
theorem readBytes_reaches (hG : AllowsNonFills G) {dma : DmaRegion} {len : Nat}
    (hdma : dma.length = HUGE_PAGE_SIZE) (hlen : len ≤ MAX_TRANSFER_BYTES) (w : World) :
    (machine P (servingController N) G).Reaches (dma.readBytes DATA_OFFSET len t, w)
      (.pure (.ok (w.mem.read (World.address P DATA_OFFSET) len), t), w) := by
  rw [DmaRegion.readBytes, payload_ok hdma hlen, Method.lift_ok_bind]
  exact Reaches.call_bind ⟨w.mem.read (World.address P DATA_OFFSET) len, Mem.length_read⟩
    ⟨⟨rfl, rfl⟩, hG _ _ id⟩ .refl

/-- Identify can end well. -/
theorem answers_identify {«structure» : IdentifyStructure} {nsid : UInt32} (hd : BuiltFor P t)
    (hcall : ∀ c, call = some c → ¬ c.Accepted N.blockSize) :
    Answers P N G (BeforeCommand P N True b₀ call t) (identify «structure» nsid t)
      fun _ => True := by
  have hreg := inTime_regime P N
  -- Identify takes no payload, so that its page is ready
  have hlaid : ∀ w, BeforeCommand P N True b₀ call t w → BeforeCommand P N True b₀ call t w ∧
      MemoryReady P N .admin (nvmeIdentify «structure» nsid (t.dataPagePhysicalAddress 0)) [] w :=
    fun w hw => ⟨hw, identify_loaded hd _, .inr (identify_loaded hd)⟩
  rw [identify, Method.get_bind]
  refine Answers.bind ((answers_submitAdmin hG halign hbar hd).pre hlaid)
    (Triple.pre (callTriple_submitAdmin halign hreg (.refl t) hd) hlaid) fun c t₁ hok ht₁ => ?_
  refine Answers.bind (answers_checkCompletion hok) (callTriple_checkCompletion (.refl t₁)
    fun c hc haccepted => absurd haccepted (hcall c hc)) fun _ t₂ _ _ => ?_
  exact fun w _ hanswering =>
    ⟨_, t₂, w, readBytes_reaches hG.allowsNonFills hd.length (by decide) w, trivial, hanswering⟩

/-- The namespaces whose controller reports the entry sizes that the driver uses. -/
def Namespace.Sized (N : Namespace) : Prop :=
  ∀ data, Identified N .controller 0 data →
    ∃ controller, IdentifyController.readFromPrefix data = some controller ∧
      controller.sqes = 0x66 ∧ controller.cqes = 0x44

theorem answers_checkQueueEntrySizes (hsized : N.Sized) (hd : BuiltFor P t) :
    Answers P N G (BeforeCommand P N True b₀ none t) (checkQueueEntrySizes t) fun _ => True := by
  refine Answers.bind (answers_identify hG halign hbar hd fun c hc => by cases hc)
    (callTriple_identify halign (inTime_regime P N) (.refl t) hd fun c hc => by cases hc)
    fun data t₁ _ _ => ?_
  rintro w ⟨hdata, -⟩ hanswering
  obtain ⟨controller, hread, hsqes, hcqes⟩ := hsized data hdata
  rw [hread]
  simp only [hsqes, hcqes]
  exact ⟨(), t₁, w, .refl, trivial, hanswering⟩

theorem answers_createIoQueues (hd : BuiltFor P t) :
    Answers P N G (BeforeCommand P N True b₀ none t) (createIoQueues t) fun _ => True := by
  have hreg := inTime_regime P N
  have hcompletion := createIoCompletionQueue_direction IO_QUEUE_ID (UInt16.ofNat QUEUE_DEPTH)
    t.ioCompletionQueuePhysicalAddress
  have hsubmission := createIoSubmissionQueue_direction IO_QUEUE_ID (UInt16.ofNat QUEUE_DEPTH)
    IO_QUEUE_ID t.ioSubmissionQueuePhysicalAddress
  -- the commands move no data, so nothing is to be ready in memory
  have hbare {t : NvmeUserspaceDriver} (hd : BuiltFor P t) {command : SubmissionQueueEntry}
      (hdir : QueueId.admin.direction command = .none) :
      Answers P N G (BeforeCommand P N True b₀ none t) (submitAdmin command t)
        fun c => c.isSuccess = true :=
    (answers_submitAdmin hG halign hbar hd).pre fun w hw =>
      ⟨hw, bare_loaded hdir _, .inr (bare_loaded hdir)⟩
  rw [createIoQueues, Method.get_bind]
  refine Answers.bind (hbare hd hcompletion) (callTriple_bare halign hreg (.refl t) hd hcompletion)
    fun c t₁ hok ht₁ => ?_
  refine Answers.bind (answers_checkCompletion hok) (callTriple_confirm (.refl t₁) hcompletion)
    fun _ t₂ _ ht₂ => ?_
  have hd₂ := ht₂.builtFor (ht₁.builtFor hd)
  refine Answers.bind (hbare hd₂ hsubmission)
    (callTriple_bare halign hreg (.refl t₂) hd₂ hsubmission) fun c t₃ hok ht₃ => ?_
  exact answers_checkCompletion hok

/-- The driver can take a size from what the controller reports. -/
def Namespace.Sizable (p : Profile) (N : Namespace) (nsid : UInt32) : Prop :=
  ∀ data, Identified N .namespace nsid data → ∃ size, blockSizeOf p data = .ok size

theorem answers_namespaceBlockSize {p : Profile} (hd : BuiltFor P t)
    (hnone : t.blockSizes t.nsid = none) (hsizable : N.Sizable p t.nsid) :
    Answers P N G (BeforeCommand P N True b₀ none t) (namespaceBlockSize p t.nsid t)
      fun _ => True := by
  rw [namespaceBlockSize_eq hnone]
  refine Answers.bind (answers_identify hG halign hbar hd fun c hc => by cases hc)
    (callTriple_identify halign (inTime_regime P N) (.refl t) hd fun c hc => by cases hc)
    fun data t₁ _ _ => ?_
  rintro w ⟨hdata, -⟩ hanswering
  obtain ⟨size, hsize⟩ := hsizable data hdata
  rw [hsize]
  exact ⟨size, cacheSize t₁ t.nsid size, w, .refl, trivial, hanswering⟩

/-- The bring-up, once the controller is enabled. -/
theorem bringUp_answers {p : Profile} (hsized : N.Sized) (hd : BuiltFor P t)
    (hnone : t.blockSizes t.nsid = none) (hsizable : N.Sizable p t.nsid) {w' : World}
    (hreset : (machine P (servingController N) G).Reaches (resetAndEnable t, w)
      (.pure (.ok (), t), w')) (hbeforeCommands : BeforeCommands P t w) (hunused : Unused b₀ w)
    (hanswering : Answering w') :
    ∃ d' w'', (machine P (servingController N) G).Reaches (bringUp p t, w)
      (.pure (.ok (), d'), w'') ∧ Answering w'' := by
  have hreg := inTime_regime P N
  have htriple : (machine P (servingController N) InTime).Triple (SingleTask P N True b₀)
      (fun w => BeforeCommands P t w ∧ Unused b₀ w) (resetAndEnable t) _ := resetAndEnable_triple
  -- the run given up to the reset satisfies what the reset promises of every run
  obtain ⟨-, hbeforeCommands', hunused'⟩ := (htriple w ⟨hbeforeCommands, hunused⟩ _
    (reaches_inTime hreset hanswering.inTime)).2 _ rfl
  -- the three calls that follow are answered in turn
  have hrest : Answers P N G (BeforeCommand P N True b₀ none t) ((do
      checkQueueEntrySizes
      createIoQueues
      let d ← Method.get
      let _ ← namespaceBlockSize p d.nsid : DriverMethod Unit) t) fun _ => True := by
    refine Answers.bind (answers_checkQueueEntrySizes hG halign hbar hsized hd)
      (callTriple_checkQueueEntrySizes halign hreg hd) fun _ t₁ _ ht₁ => ?_
    have hd₁ := ht₁.builtFor hd
    refine Answers.bind (answers_createIoQueues hG halign hbar hd₁)
      (callTriple_createIoQueues halign hreg (.refl t₁) hd₁) fun _ t₂ _ ht₂ => ?_
    obtain ⟨hsizes, hnsid⟩ := (ht₁.trans ht₂).sizes
    intro w₂ hw₂ hanswering₂
    obtain ⟨size, t₃, w₃, hreach, -, hanswering₃⟩ := answers_namespaceBlockSize (p := p) hG halign
      hbar (ht₂.builtFor hd₁) (by rw [hsizes, hnsid, hnone]) (by rwa [hnsid]) w₂ hw₂ hanswering₂
    exact ⟨(), t₃, w₃, Reaches.bind_ok .refl (Reaches.bind_ok hreach .refl), trivial, hanswering₃⟩
  obtain ⟨_, d', w'', hreach, -, hanswering''⟩ := hrest w' (hunused'.beforeCommand hbeforeCommands')
    hanswering
  exact ⟨d', w'', Reaches.bind_ok hreset hreach, hanswering''⟩

end Methods

/-- The entries of a transfer of one page. -/
theorem dataPointers_page {p : Profile} {length : Nat} (hone : transferPages length ≤ 1) :
    dataPointers p length t = .pure (.ok (t.dataPagePhysicalAddress 0, 0), t) := by
  rw [dataPointers, Method.get_bind]
  exact congrFun (if_pos hone) t

/-! ### An `open` that succeeds -/

theorem twoPages_aligned : Platform.twoPages.base.val.toNat % PAGE_SIZE = 0 := by decide

/-- The zeroed world has nothing to undo. -/
theorem unused_zeroed : Unused World.zeroed.disk World.zeroed where
  drained := fun _ => ⟨⟨rfl, rfl⟩, rfl⟩
  posted := fun _ => rfl
  transfers := rfl
  calls := rfl
  current := rfl
  disk := rfl

/-- **`open`**, on a controller that reports what the driver asks for. -/
theorem openDriver_answers (hG : AllowsDrained G) {p : Profile} {nsid : UInt32} (bdf : Str)
    (hsized : N.Sized) (hsizable : N.Sizable p nsid) :
    ∃ d w, (machine .twoPages (servingController N) G).Reaches
        ((openDriver p bdf nsid : Method Op Res Unit IoError _) (), World.zeroed)
        (.pure (.ok d, ()), w) ∧
      Answering w ∧ Opens .twoPages N True World.zeroed.disk p nsid d w := by
  have hbeforeOpen : BeforeOpen World.zeroed := ⟨fun _ => rfl, rfl⟩
  have hmapped : Mapped .twoPages (World.zeroed.allocate .twoPages) := hbeforeOpen.allocate
  -- the run: up to the reset, the bring-up, and what follows
  obtain ⟨w₁, hreset, -, hring, henabled⟩ := resetAndEnable_reaches (P := .twoPages)
    (C := servingController N) (d := .fresh Platform.twoPages.bar Platform.twoPages.region
      Platform.twoPages.stride nsid) hG.allowsNonFills rfl (w := World.zeroed.allocate .twoPages)
    fun i => (hmapped.fresh i).ring
  have hanswering : Answering w₁ := ⟨henabled, fun i => by
    rw [hring i]
    rfl⟩
  obtain ⟨d, w, hbring, hanswering'⟩ := bringUp_answers (p := p) (t := .fresh Platform.twoPages.bar
      Platform.twoPages.region Platform.twoPages.stride nsid) hG twoPages_aligned
    Platform.twoPages_covers hsized ⟨rfl, rfl, rfl⟩ rfl hsizable hreset
    (hmapped.beforeCommands nsid) unused_zeroed.allocate hanswering
  have hopen := openDriver_reaches_ok hG.allowsNonFills bdf hbring
  -- that the driver it ends with is good is what the triple says of every such run
  have hopens := openDriver_opens (P := .twoPages) (N := N) (p := p) (s := ()) twoPages_aligned
    (inTime_regime _ N) bdf nsid World.zeroed ⟨hbeforeOpen, unused_zeroed⟩ _
    (reaches_inTime hopen hanswering'.inTime)
  exact ⟨d, w, hopen, hanswering', hopens.2 _ rfl⟩

/-- The calls on the driver that was opened. -/
theorem lifetime_reaches {C : Behaviour} {p : Profile} {bdf : Str} {nsid : UInt32}
    {calls : List Call} {rest : Prog Op Res (Outcome IoError Unit × NvmeUserspaceDriver)}
    (hopen : (machine P C G).Reaches
      ((openDriver p bdf nsid : Method Op Res Unit IoError _) (), w) (.pure (.ok d, ()), w'))
    (hcalls : (machine P C G).Reaches (callAll p calls d, w') (rest, w'')) :
    ∃ q, (machine P C G).Reaches (lifetime p bdf nsid calls (), w) (q, w'') :=
  ⟨_, Reaches.bind_ok hopen (Reaches.bind (Reaches.bind (Reaches.bind hcalls)))⟩

/-- A call, from its beginning. -/
theorem callAll_reaches (hG : AllowsNonFills G) {C : Behaviour} {p : Profile} {k : Call}
    {calls : List Call} {rest : Prog Op Res (Outcome IoError (List UInt8) × NvmeUserspaceDriver)}
    (hcall : (machine P C G).Reaches (perform p k d, w.mark (.beginCall k)) (rest, w')) :
    ∃ q, (machine P C G).Reaches (callAll p (k :: calls) d, w) (q, w') :=
  ⟨_, Reaches.bind (Reaches.call_bind () ⟨rfl, hG _ _ id⟩ (Reaches.bind (Reaches.bind hcall)))⟩

/-- A call that has ended. -/
theorem callOne_reaches (hG : AllowsNonFills G) {C : Behaviour} {p : Profile} {k : Call}
    {result : Except IoError (List UInt8)}
    (hcall : (machine P C G).Reaches (perform p k d, w.mark (.beginCall k))
      (.pure (.ofExcept result, t), w')) :
    (machine P C G).Reaches (callOne p k d, w)
      (.pure (.ok (), t), w'.mark (.endCall result)) :=
  Reaches.call_bind () ⟨rfl, hG _ _ id⟩ (Reaches.bind_ok (Reaches.attempt hcall)
    (Reaches.act ⟨rfl, hG _ _ id⟩ .refl))

/-- A namespace whose controller reports `data` as its format. -/
def Namespace.answering (blockSize : Nat) (data : List UInt8) : Namespace where
  blockSize := blockSize
  identify := fun e x => (if e.cdw10 = 1 then controllerData else data).getD x 0

/-- Memory that holds a list is read as that list. -/
theorem read_getD (l : List UInt8) : Mem.read (fun x => l.getD x 0) 0 l.length = l := by
  refine List.ext_getElem Mem.length_read fun k _ hk => ?_
  rw [Mem.getElem_read, Nat.zero_add, List.getD_eq_getElem?_getD, List.getElem?_eq_getElem hk]
  rfl

section Answering

variable {blockSize : Nat} {data : List UInt8} (hlen : data.length = IDENTIFY_SIZE)

/-- The namespace of the witnesses answers Identify as it should. -/
theorem answering_controller {given : List UInt8} {nsid : UInt32}
    (h : Identified (.answering blockSize data) .controller nsid given) :
    given = controllerData := by
  obtain ⟨prp1, cid, hgiven⟩ := h
  have hcns : (nvmeIdentify .controller nsid prp1).cdw10 = 1 := rfl
  have hcontroller : controllerData.length = IDENTIFY_SIZE := length_identifyData _
  simp only [Namespace.answering, if_pos hcns] at hgiven
  rw [hgiven, ← hcontroller, read_getD]

include hlen

theorem answering_namespace {given : List UInt8} {nsid : UInt32}
    (h : Identified (.answering blockSize data) .namespace nsid given) : given = data := by
  obtain ⟨prp1, cid, hgiven⟩ := h
  have hcns : ¬ (nvmeIdentify .namespace nsid prp1).cdw10 = 1 := by
    change ¬ (0 : UInt32) = 1
    decide
  simp only [Namespace.answering, if_neg hcns] at hgiven
  rw [hgiven, ← hlen, read_getD]

end Answering

theorem answering_sized {blockSize : Nat} {data : List UInt8} :
    (Namespace.answering blockSize data).Sized := fun given h => by
  rw [answering_controller h]
  exact read_controllerData

end Nvmetoy
