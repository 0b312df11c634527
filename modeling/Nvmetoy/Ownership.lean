import Nvmetoy.Flight
import Nvmetoy.Release

/-!
# Whose bytes the data area holds

All calls of the driver share one data area and one page for the list of entries, and a call that
times out leaves its command with the controller. What is kept is therefore said of the runs in
which the driver puts nothing there while the controller has a command.

* `Unshared`, `InTime` — two such runs: the driver is asked to wait, or is never made to.
* `Regime` — what the proofs need of either: where the driver writes, the controller has completed
  everything.
* `OnlyRead` — steps of the driver that the controller does not see, and what they keep.
* `SingleTask` along a submission, from the entry in its slot to the completion that was taken.
-/

namespace Nvmetoy

open Framework Machine NvmeUserspaceDriver

variable {P : Platform} {N : Namespace} {i j : QueueId} {w w' : World} {r r' : Ring}
  {τ : Task} {explains : Prop} {b₀ : Mem} {q : QueuePair} {G : Op → World → Prop}

/-! ### Between two submissions -/

/-- Each submission of the queue took a completion or has timed out. -/
def AtRest (P : Platform) (i : QueueId) (q : QueuePair) (w : World) : Prop :=
  ∃ T S E, S = T + E ∧ Driven q i T S ∧ At P i T S (S % QUEUE_DEPTH) E w

/-- The controller leaves a queue at rest. -/
theorem AtRest.step {C : Behaviour} (h : AtRest P i q w) (hstep : RingStep P C i w w') :
    AtRest P i q w' := by
  obtain ⟨T, S, E, hS, hq, hat⟩ := h
  exact ⟨T, S, E, hS, hq, hat.step hstep⟩

theorem AtRest.congr (h : AtRest P i q w) (hring : w'.ring i = w.ring i)
    (hcqe : ∀ s, s < QUEUE_DEPTH → w'.cqe P i s = w.cqe P i s) : AtRest P i q w' := by
  obtain ⟨T, S, E, hS, hq, hat⟩ := h
  exact ⟨T, S, E, hS, hq, hat.congr hring hcqe⟩

/-- The controller has completed all commands, or has the last one. -/
def AtMostOneLeft (P : Platform) (N : Namespace) (w : World) : Prop :=
  (∀ i, Drained (w.ring i)) ∨ ∃ τ, InFlight P N τ w

/-- A controller that has nothing of the task has completed it. -/
theorem InFlight.drained (h : InFlight P N τ w) (hempty : Empty (w.ring τ.queue)) (i : QueueId) :
    Drained (w.ring i) := by
  by_cases hi : i = τ.queue
  · subst hi
    obtain ⟨status, hstage, -⟩ := h.under
    cases hstage with
    | waiting hhead htail =>
      -- its command is still in the slot
      have hne := hempty.head
      rw [hhead, htail] at hne
      unfold QUEUE_DEPTH at hne
      omega
    | inHand _ _ hlive =>
      rw [hempty.live] at hlive
      cases hlive
    | done c _ hposted _ => exact ⟨hempty, by rw [hposted, h.submitted]⟩
  · exact h.others i hi

/-- A task of which a completion was posted for the driver's last command is done. -/
theorem InFlight.empty (h : InFlight P N τ w)
    (hposted : (w.ring τ.queue).submitted ≤ (w.ring τ.queue).posted.length) :
    Empty (w.ring τ.queue) := by
  obtain ⟨status, hstage, -⟩ := h.under
  have hsubmitted := h.submitted
  cases hstage with
  | waiting _ _ _ hnot => omega
  | inHand _ _ _ hnot => omega
  | done c hempty => exact hempty

/-- The commands before it have been completed. -/
theorem InFlight.number_le (h : InFlight P N τ w) : τ.number ≤ (w.ring τ.queue).posted.length := by
  obtain ⟨status, hstage, -⟩ := h.under
  cases hstage with
  | waiting _ _ _ hposted => exact hposted.ge
  | inHand _ _ _ hposted => exact hposted.ge
  | done c _ hposted => omega

/-- What is there to take is all there is, when nothing has timed out. -/
theorem AtMostOneLeft.drained (h : AtMostOneLeft P N w)
    (hposted : ∀ i, (w.ring i).submitted ≤ (w.ring i).posted.length) (i : QueueId) :
    Drained (w.ring i) := by
  rcases h with h | ⟨τ, hinFlight⟩
  · exact h i
  · exact hinFlight.drained (hinFlight.empty (hposted _)) i

/-! ### Who may touch the data area -/

/-- The driver only does so while the controller holds none of its commands. -/
def Unshared (o : Op) (w : World) : Prop := Fills o → ∀ i, Empty (w.ring i)

/-- Every submission has been answered in time. -/
def InTime (_ : Op) (w : World) : Prop := ∀ i, (w.ring i).expired = 0

/-- The runs considered: where the driver writes, the controller has completed everything; and
where the calls are to be explained, nothing has timed out. -/
structure Regime (P : Platform) (N : Namespace) (explains : Prop) (G : Op → World → Prop) :
    Prop where
  clear : ∀ o w, G o w → Fills o → AtMostOneLeft P N w → (∀ i, ∃ q, AtRest P i q w) →
    ∀ i, Drained (w.ring i)
  inTime : explains → ∀ o w, G o w → ∀ i, (w.ring i).expired = 0

/-- In this regime no late command meets the data of the next one. -/
theorem unshared_regime (P : Platform) (N : Namespace) : Regime P N False Unshared where
  clear := fun o w hG haccess hleft _ i => by
    rcases hleft with h | ⟨τ, hinFlight⟩
    · exact h i
    · exact hinFlight.drained (hG haccess _) i
  inTime := fun h => h.elim

theorem inTime_regime (P : Platform) (N : Namespace) : Regime P N True InTime where
  clear := fun o w hG _ hleft hrest => hleft.drained fun i => by
    obtain ⟨q, T, S, E, hS, -, hat⟩ := hrest i
    have hle := hat.ok.le
    have hE := hG i
    rw [hat.expired] at hE
    rw [hat.taken] at hle
    rw [hat.submitted]
    omega
  inTime := fun _ _ _ hG => hG

/-! ### Rings that the controller sees alike -/

/-- The rings differ in the driver's history alone. -/
structure SameButHistory (r r' : Ring) : Prop where
  sqHead : r'.sqHead = r.sqHead
  sqTail : r'.sqTail = r.sqTail
  live : r'.live = r.live
  posted : r'.posted = r.posted
  submitted : r'.submitted = r.submitted
  issuer : r'.issuer = r.issuer

theorem SameButHistory.refl (r : Ring) : SameButHistory r r := ⟨rfl, rfl, rfl, rfl, rfl, rfl⟩

theorem SameButHistory.empty (h : SameButHistory r r') (he : Empty r) : Empty r' :=
  he.congr h.sqHead h.sqTail h.live

theorem SameButHistory.drained (h : SameButHistory r r') (hd : Drained r) : Drained r' :=
  hd.congr h.sqHead h.sqTail h.live h.posted h.submitted

/-- The driver has only looked. -/
structure OnlyRead (w w' : World) : Prop where
  ring : ∀ i, SameButHistory (w.ring i) (w'.ring i)
  mem : w'.mem = w.mem
  disk : w'.disk = w.disk
  transfers : w'.transfers = w.transfers
  issuedBy : w'.issuedBy = w.issuedBy

/-- An operation that only reads changes no stage of a task. -/
theorem Stage.onlyRead {status : Option UInt16} (h : Stage P τ w status) (hl : OnlyRead w w') :
    Stage P τ w' status := by
  have hr := hl.ring τ.queue
  -- each stage is seen in the indices and the memory, which a read leaves alone
  cases h with
  | waiting hhead htail hlive hposted hsqe hissuer =>
    refine .waiting (hr.sqHead ▸ hhead) (hr.sqTail ▸ htail) (hr.live ▸ hlive)
      (hr.posted ▸ hposted) ?_ (hr.issuer ▸ hissuer)
    rw [World.sqe, hl.mem]
    exact hsqe
  | inHand _ hhead hlive hposted =>
    exact .inHand _ (by rw [hr.sqHead, hr.sqTail, hhead]) (hr.live ▸ hlive) (hr.posted ▸ hposted)
  | done c hempty hposted hlast =>
    exact .done c (hr.empty hempty) (hr.posted ▸ hposted) (hr.posted ▸ hlast)

theorem InFlight.onlyRead (h : InFlight P N τ w) (hl : OnlyRead w w') : InFlight P N τ w' := by
  obtain ⟨status, hstage, hmoving⟩ := h.under
  exact
    { asked := fun hio => hl.issuedBy ▸ h.asked hio
      cid := h.cid
      submitted := (hl.ring _).submitted.trans h.submitted
      others := fun j hj => (hl.ring j).drained (h.others j hj)
      under := ⟨status, hstage.onlyRead hl,
        hmoving.congr (fun _ _ => by rw [hl.mem]) hl.disk hl.transfers⟩ }

theorem AtMostOneLeft.onlyRead (h : AtMostOneLeft P N w) (hl : OnlyRead w w') :
    AtMostOneLeft P N w' :=
  h.imp (fun h i => (hl.ring i).drained (h i)) fun ⟨τ, h⟩ => ⟨τ, h.onlyRead hl⟩

theorem Recorded.onlyRead (h : Recorded w) (hl : OnlyRead w w') (hcalls : w'.calls = w.calls) :
    Recorded w' :=
  h.congr hcalls (fun _ _ => by rw [hl.issuedBy]) hl.transfers (fun i => (hl.ring i).posted)
    fun i => by rw [(hl.ring i).live]

theorem Expected.onlyRead {B : Nat} (h : Expected B b₀ τ w) (hl : OnlyRead w w')
    (hcalls : w'.calls = w.calls) (hcurrent : w'.current = w.current) : Expected B b₀ τ w' :=
  ⟨hcalls ▸ h.blocks, fun hdir => by rw [hcurrent, hl.issuedBy, h.caller hdir]⟩

/-- So the one task goes on. -/
theorem SingleTask.onlyRead (h : SingleTask P N explains b₀ w) (hl : OnlyRead w w')
    (hcalls : w'.calls = w.calls)
    (hcurrent : w'.current = w.current) : SingleTask P N explains b₀ w' where
  recorded := h.recorded.onlyRead hl hcalls
  flight := by
    -- with no command under way, and with the one that is
    rcases h.flight with ⟨hempty, hexplained⟩ | ⟨τ, hinFlight, hexpected⟩
    · refine .inl ⟨fun i => (hl.ring i).empty (hempty i), fun hex => ?_⟩
      rw [Explained, hcalls, hcurrent, hl.disk]
      exact hexplained hex
    · exact .inr ⟨τ, hinFlight.onlyRead hl, fun hex => (hexpected hex).onlyRead hl hcalls hcurrent⟩
  told := fun hex record hrecord => by
    refine (h.told hex record (hcalls ▸ hrecord)).congr (fun _ _ => by rw [hl.issuedBy]) ?_
    simp only [(hl.ring .io).posted, List.prefix_rfl]

/-! ### One submission -/

variable {S T E : Nat} {e : SubmissionQueueEntry} {payload : List UInt8} {call : Option Call}
  {queues : QueueId → QueuePair}

/-- The memory is what a command on queue `i` needs. -/
structure Loaded (P : Platform) (N : Namespace) (i : QueueId) (e : SubmissionQueueEntry)
    (payload : List UInt8) (m : Mem) : Prop where
  listed : i.direction e ≠ .none → Listed P (N.length i e) e m
  payload : i.direction e = .fromHost → payload.length = N.length i e ∧
    m.read (World.address P DATA_OFFSET) payload.length = payload

/-- It is, and nothing but the driver can change that. -/
structure Prepared (P : Platform) (N : Namespace) (explains : Prop) (b₀ : Mem) (i : QueueId)
    (e : SubmissionQueueEntry) (payload : List UInt8) (w : World) : Prop where
  atMostOneLeft : AtMostOneLeft P N w
  loaded : Loaded P N i e payload w.mem
  still : (∀ j, Drained (w.ring j)) ∨ ∀ m, Loaded P N i e payload m
  blocks : explains → (∀ j, Drained (w.ring j)) ∧ BlockRun N.blockSize b₀ w.calls w.disk

/-- The command is written, and not rung for. -/
structure Written (P : Platform) (N : Namespace) (τ : Task) (w : World) : Prop where
  asked : τ.queue = .io → ∃ call, w.issuedBy τ.number = some call ∧
    Orders call τ.queue τ.entry τ.payload
  cid : τ.entry.cid = .ofNat τ.number
  submitted : (w.ring τ.queue).submitted = τ.number + 1
  others : ∀ j, j ≠ τ.queue → Drained (w.ring j)
  empty : Empty (w.ring τ.queue)
  posted : (w.ring τ.queue).posted.length = τ.number
  sqe : w.sqe P τ.queue (τ.number % QUEUE_DEPTH) = τ.entry
  issuer : (w.ring τ.queue).issuer (τ.number % QUEUE_DEPTH) = τ.number
  moving : Moving P N τ none w

/-- What a submission on queue `i` leaves alone: the other queue, and the call in progress. -/
structure Aside (P : Platform) (i : QueueId) (queues : QueueId → QueuePair) (call : Option Call)
    (w : World) : Prop where
  others : ∀ j, j ≠ i → AtRest P j (queues j) w
  current : w.current = call

/-- A controller that has nothing does nothing. -/
theorem not_env_of_drained (h : ∀ i, Drained (w.ring i)) :
    ¬ EnvStep P (servingController N) w w' :=
  not_env_of_empty fun i => (h i).toEmpty

/-- What was left behind may end. -/
theorem AtMostOneLeft.step (h : AtMostOneLeft P N w) (hrec : Recorded w)
    (halign : P.base.val.toNat % PAGE_SIZE = 0) (henv : EnvStep P (servingController N) w w') :
    AtMostOneLeft P N w' := by
  rcases h with h | ⟨τ, hinFlight⟩
  · exact absurd henv (not_env_of_drained h)
  · exact .inr ⟨τ, (hinFlight.step hrec halign henv).1⟩

theorem Prepared.step (h : Prepared P N explains b₀ i e payload w) (hrec : Recorded w)
    (halign : P.base.val.toNat % PAGE_SIZE = 0) (henv : EnvStep P (servingController N) w w') :
    Prepared P N explains b₀ i e payload w' := by
  refine ⟨h.atMostOneLeft.step hrec halign henv, ?_, ?_, fun hex =>
    absurd henv (not_env_of_drained (h.blocks hex).1)⟩
  all_goals
    rcases h.still with hdrained | hany
    · exact absurd henv (not_env_of_drained hdrained)
  · exact hany _
  · exact .inr hany

theorem Aside.step (h : Aside P i queues call w) (hsingle : SingleTask P N explains b₀ w)
    (halign : P.base.val.toNat % PAGE_SIZE = 0) (henv : EnvStep P (servingController N) w w') :
    Aside P i queues call w' := by
  obtain ⟨-, hcurrent, -, -⟩ := henv.history
  exact ⟨fun j hj => (h.others j hj).step (henv.onRings hsingle halign j),
    hcurrent.trans h.current⟩

/-- The driver writes the command into its slot. -/
theorem Prepared.store (h : Prepared P N explains b₀ i e payload w) (hrec : Recorded w)
    (hdrained : ∀ j, Drained (w.ring j)) (hS : (w.ring i).submitted = S)
    (hcid : e.cid = .ofNat S)
    (hcall : i = .io → ∃ c, w.current = some c ∧ Orders c i e payload) :
    Written P N ⟨i, S, e, payload, w.disk⟩
      (w.storeSqe P (i.submissionOffset + 64 * (S % QUEUE_DEPTH)) e) := by
  have hslot : S % QUEUE_DEPTH < QUEUE_DEPTH := Nat.mod_lt _ (by decide)
  have hring : (w.storeSqe P (i.submissionOffset + 64 * (S % QUEUE_DEPTH)) e).ring i = _ :=
    storeSqe_ring hslot
  have hlen : e.encode.length = 64 := e.length_encode
  have happart := (QueueId.slots_apart i i hslot hslot).1
  have hposted : (w.ring i).posted.length = S := (hdrained i).all.trans hS
  -- the slots lie below the list and the data
  have hmem (x : Nat) (hx : World.address P PRP_LIST_OFFSET ≤ x) :
      (w.storeSqe P (i.submissionOffset + 64 * (S % QUEUE_DEPTH)) e).mem x = w.mem x := by
    refine Mem.write_of_ge ?_
    simp only [World.address, hlen] at hx ⊢
    omega
  have hdata (n : Nat) : (w.storeSqe P (i.submissionOffset + 64 * (S % QUEUE_DEPTH)) e).mem.read
      (World.address P DATA_OFFSET) n = w.mem.read (World.address P DATA_OFFSET) n := by
    refine Mem.read_congr fun x hx _ => hmem x ?_
    simp only [World.address, PRP_LIST_OFFSET, DATA_OFFSET] at *
    omega
  -- no earlier command has this number
  have hmoved : w.moved i S = [] := by
    refine moved_eq_nil fun t ht hqueue hnumber => ?_
    have hlt := hrec.numbers t ht
    rw [hqueue, (hdrained i).live, List.length_nil] at hlt
    omega
  have hmoved' : Task.moved ⟨i, S, e, payload, w.disk⟩
      (w.storeSqe P (i.submissionOffset + 64 * (S % QUEUE_DEPTH)) e) = [] := hmoved
  refine ⟨fun hio => ?_, hcid, ?_, fun j hj => ?_, ?_, ?_, ?_, ?_, ?_⟩
  · -- the call that issues it is recorded with its number
    obtain ⟨c, hc, horders⟩ := hcall hio
    refine ⟨c, ?_, horders⟩
    obtain rfl : i = .io := hio
    have hsome : (QueueId.io.sqSlot
        (QueueId.io.submissionOffset + 64 * (S % QUEUE_DEPTH))).isSome = true := by
      rw [QueueId.sqSlot_self hslot]
      rfl
    rw [← hc]
    exact if_pos ⟨hS.symm, hsome⟩
  · rw [hring]
    exact congrArg (· + 1) hS
  · rw [storeSqe_ring_of_ne hslot hj]
    exact hdrained j
  · rw [hring]
    exact (hdrained i).toEmpty.congr rfl rfl rfl
  · rw [hring]
    exact hposted
  · -- what is in the slot is the command
    have hread : (w.storeSqe P (i.submissionOffset + 64 * (S % QUEUE_DEPTH)) e).mem.read
        (World.address P (i.submissionOffset + 64 * (S % QUEUE_DEPTH))) 64 = e.encode := by
      rw [← hlen]
      exact Mem.read_write_self
    change SubmissionQueueEntry.decode _ = e
    rw [hread, SubmissionQueueEntry.decode_encode]
  · rw [hring]
    exact (if_pos rfl).trans hS
  · -- nothing of it has moved yet
    refine ⟨fun hdir => (h.loaded.listed hdir).congr fun x hx _ => hmem x hx, fun hdir => ?_,
      fun hdir => ?_, fun _ => rfl, fun _ => hmoved', fun s hs => (by cases hs),
      fun s hs => (by cases hs)⟩
    · obtain ⟨hlength, hread⟩ := h.loaded.payload hdir
      refine ⟨hlength, (hdata _).trans hread, ?_, ?_⟩
      · rw [hmoved']
        exact List.nil_prefix
      · rw [hmoved', Mem.write_nil]
        rfl
    · rw [hmoved']
      exact ⟨List.nil_prefix, rfl⟩

/-- The driver rings for it. -/
theorem Written.ringTail (h : Written P N τ w)
    (htail : (w.ring τ.queue).sqTail = τ.number % QUEUE_DEPTH) :
    InFlight P N τ
      (w.setRing τ.queue ((w.ring τ.queue).ringTail ((τ.number + 1) % QUEUE_DEPTH))) := by
  have hring : (w.setRing τ.queue ((w.ring τ.queue).ringTail
      ((τ.number + 1) % QUEUE_DEPTH))).ring τ.queue = _ := World.setRing_ring_self _
  -- the doorbell moves one ring only: what the other ring and the memory say carries over
  refine ⟨h.asked, h.cid, ?_, fun j hj => ?_, none, .waiting ?_ ?_ ?_ ?_ h.sqe ?_,
    h.moving.congr (fun _ _ => rfl) rfl rfl⟩
  · rw [hring]
    exact h.submitted
  · rw [World.setRing_ring_of_ne hj]
    exact h.others j hj
  · rw [hring]
    exact h.empty.head.trans htail
  · rw [hring]
    rfl
  · rw [hring]
    exact h.empty.live
  · rw [hring]
    exact h.posted
  · rw [hring]
    exact h.issuer

/-! ### The assertions of a submission -/

/-- Before the command is written. -/
def Staged (P : Platform) (N : Namespace) (explains : Prop) (b₀ : Mem) (i : QueueId)
    (queues : QueueId → QueuePair) (call : Option Call) (e : SubmissionQueueEntry)
    (payload : List UInt8) (w : World) : Prop :=
  SingleTask P N explains b₀ w ∧ Aside P i queues call w ∧ Prepared P N explains b₀ i e payload w

/-- The identifier is no part of what the pages hold. -/
theorem Loaded.cid {m : Mem} (h : Loaded P N i e payload m) (cid : UInt16) :
    Loaded P N i { e with cid := cid } payload m := by
  cases i <;> exact ⟨fun hdir => (h.listed hdir).cid cid, h.payload⟩

/-- The driver puts an identifier into the command. -/
theorem Staged.cid (h : Staged P N explains b₀ i queues call e payload w) (cid : UInt16) :
    Staged P N explains b₀ i queues call { e with cid := cid } payload w := by
  obtain ⟨hsingle, haside, hprepared⟩ := h
  exact ⟨hsingle, haside, hprepared.atMostOneLeft, hprepared.loaded.cid cid,
    hprepared.still.imp_right fun hany m => (hany m).cid cid, hprepared.blocks⟩

/-- Until the doorbell. -/
def Wrote (P : Platform) (N : Namespace) (explains : Prop) (b₀ : Mem) (i : QueueId)
    (queues : QueueId → QueuePair) (call : Option Call) (S : Nat) (e : SubmissionQueueEntry)
    (payload : List UInt8) (w : World) : Prop :=
  SingleTask P N explains b₀ w ∧ Aside P i queues call w ∧ (i = .io → w.issuedBy S = call) ∧
    ∃ disk, Written P N ⟨i, S, e, payload, disk⟩ w ∧
      (explains → Expected N.blockSize b₀ ⟨i, S, e, payload, disk⟩ w)

/-- After the doorbell. -/
def Sent (P : Platform) (N : Namespace) (explains : Prop) (b₀ : Mem) (i : QueueId)
    (queues : QueueId → QueuePair) (call : Option Call) (S : Nat) (e : SubmissionQueueEntry)
    (payload : List UInt8) (w : World) : Prop :=
  SingleTask P N explains b₀ w ∧ Aside P i queues call w ∧ (i = .io → w.issuedBy S = call) ∧
    ∃ disk, InFlight P N ⟨i, S, e, payload, disk⟩ w ∧
      (explains → Expected N.blockSize b₀ ⟨i, S, e, payload, disk⟩ w)

/-- After a completion has been taken. -/
def Received (P : Platform) (N : Namespace) (explains : Prop) (b₀ : Mem) (i : QueueId)
    (queues : QueueId → QueuePair) (call : Option Call) (S : Nat) (e : SubmissionQueueEntry)
    (payload : List UInt8) (T : Nat) (c : CompletionQueueEntry) (w : World) : Prop :=
  Sent P N explains b₀ i queues call S e payload w ∧ (w.ring i).posted[T]? = some (c, T)

section Frames

variable (halign : P.base.val.toNat % PAGE_SIZE = 0)
include halign

/-- What a call relies on, before the entry is stored. -/
theorem staged_carried : Carried P (servingController N) i (SingleTask P N explains b₀)
    (Staged P N explains b₀ i queues call e payload) where
  inv := fun w h => h.1
  step := fun w w' _ h henv => by
    obtain ⟨hsingle, haside, hprepared⟩ := h
    exact ⟨hsingle.step halign henv, haside.step hsingle halign henv,
      hprepared.step hsingle.recorded halign henv⟩

omit halign in
theorem wrote_carried : Carried P (servingController N) i (SingleTask P N explains b₀)
    (Wrote P N explains b₀ i queues call S e payload) where
  inv := fun w h => h.1
  step := fun w w' _ h henv => by
    obtain ⟨-, -, -, disk, hwritten, -⟩ := h
    -- nothing has been rung for
    refine absurd henv (not_env_of_empty fun j => ?_)
    by_cases hj : j = i
    · exact hj ▸ hwritten.empty
    · exact (hwritten.others j hj).toEmpty

theorem sent_carried : Carried P (servingController N) i (SingleTask P N explains b₀)
    (Sent P N explains b₀ i queues call S e payload) where
  inv := fun w h => h.1
  step := fun w w' _ h henv => by
    obtain ⟨hsingle, haside, hissued, disk, hinFlight, hexpected⟩ := h
    obtain ⟨-, -, hsame, -⟩ := henv.history
    exact ⟨hsingle.step halign henv, haside.step hsingle halign henv, hsame ▸ hissued, disk,
      (hinFlight.step hsingle.recorded halign henv).1, fun hex => (hexpected hex).step henv⟩

theorem received_carried {c : CompletionQueueEntry} :
    Carried P (servingController N) i (SingleTask P N explains b₀)
      (Received P N explains b₀ i queues call S e payload T c) where
  inv := fun w h => h.1.1
  step := fun w w' hok h henv => by
    obtain ⟨more, hmore⟩ := (henv.onRings h.1.1 halign i).later.posted
    refine ⟨(sent_carried halign).step w w' hok h.1 henv, ?_⟩
    rw [← hmore, List.getElem?_append_left (List.getElem?_eq_some_iff.mp h.2).1]
    exact h.2

end Frames

/-- A write into a slot leaves what was completed as it is. -/
theorem SingleTask.store (h : SingleTask P N explains b₀ w) (hdrained : ∀ j, Drained (w.ring j)) :
    SingleTask P N explains b₀ (w.storeSqe P (i.submissionOffset + 64 * (S % QUEUE_DEPTH)) e) := by
  have hslot : S % QUEUE_DEPTH < QUEUE_DEPTH := Nat.mod_lt _ (by decide)
  have hring := storeSqe_ring (P := P) (w := w) (i := i) (e := e) hslot
  have hother (j : QueueId) (hj : j ≠ i) := storeSqe_ring_of_ne (P := P) (w := w) (e := e) hslot hj
  have hposted := World.ring_field Ring.posted hother (hring ▸ rfl)
  have hlive := World.ring_field Ring.live hother (hring ▸ rfl)
  -- the commands that were completed are earlier ones
  have hissued (k : Nat) (hk : k < (w.ring .io).posted.length) :
      (w.storeSqe P (i.submissionOffset + 64 * (S % QUEUE_DEPTH)) e).issuedBy k =
        w.issuedBy k := by
    refine if_neg ?_
    rintro ⟨rfl, -⟩
    exact absurd (hdrained .io).all hk.ne'
  refine ⟨h.recorded.congr rfl hissued rfl hposted fun j => by rw [hlive], .inl ⟨fun j => ?_,
    fun hex => h.explained hex⟩, fun hex record hrecord => ?_⟩
  · exact World.ring_rel (R := fun r r' => Empty r → Empty r') (fun _ => id) hother
      (fun hempty => hring ▸ hempty.congr rfl rfl rfl) j (hdrained j).toEmpty
  · exact (h.told hex record hrecord).congr hissued (by simp only [hposted, List.prefix_rfl])

/-- A change of a ring that the history does not see. -/
theorem Recorded.setRing (h : Recorded w) (hposted : r.posted = (w.ring i).posted)
    (hlive : r.live = (w.ring i).live) : Recorded (w.setRing i r) := by
  have hnumbers (j : QueueId) := World.setRing_field (fun r => r.live.length)
    (congrArg List.length hlive) j
  exact h.congr rfl (fun _ _ => rfl) rfl (World.setRing_field Ring.posted hposted) fun j =>
    (hnumbers j).ge

/-- Every queue is at rest while one of them is about to be used. -/
theorem Aside.rest (h : Aside P i queues call w) (hown : AtRest P i q w) (j : QueueId) :
    ∃ q, AtRest P j q w := by
  by_cases hj : j = i
  · exact hj ▸ ⟨q, hown⟩
  · exact ⟨queues j, h.others j hj⟩

/-- What the driver has only looked at. -/
theorem Sent.onlyRead (h : Sent P N explains b₀ i queues call S e payload w) (hl : OnlyRead w w')
    (hcalls : w'.calls = w.calls) (hcurrent : w'.current = w.current)
    (hothers : ∀ j, j ≠ i → w'.ring j = w.ring j) :
    Sent P N explains b₀ i queues call S e payload w' := by
  obtain ⟨hsingle, haside, hissued, disk, hinFlight, hexpected⟩ := h
  refine ⟨hsingle.onlyRead hl hcalls hcurrent, ⟨fun j hj => ?_, hcurrent.trans haside.current⟩,
    hl.issuedBy ▸ hissued, disk, hinFlight.onlyRead hl,
    fun hex => (hexpected hex).onlyRead hl hcalls hcurrent⟩
  exact (haside.others j hj).congr (hothers j hj) fun s _ => by rw [World.cqe, hl.mem]; rfl

/-- A change of the driver's own history of one ring. -/
theorem onlyRead_setRing (h : SameButHistory (w.ring i) r) : OnlyRead w (w.setRing i r) where
  ring := World.setRing_rel SameButHistory.refl h
  mem := rfl
  disk := rfl
  transfers := rfl
  issuedBy := rfl

section Frames

variable (halign : P.base.val.toNat % PAGE_SIZE = 0) (hreg : Regime P N explains G)
include halign hreg

/-- What is carried through the first half of a submission. -/
theorem sent_submit (hS : S = T + E) (hq : Driven q i T S) (hcid : e.cid = .ofNat S)
    (hcall : i = .io → ∃ c, call = some c ∧ Orders c i e payload) :
    SubmitFrame P (servingController N) G i T S E e (SingleTask P N explains b₀)
      (Staged P N explains b₀ i queues call e payload)
      (Wrote P N explains b₀ i queues call S e payload)
      (Sent P N explains b₀ i queues call S e payload) where
  before := staged_carried halign
  written := wrote_carried
  after := sent_carried halign
  store := fun w hat hstaged hG => by
    obtain ⟨hsingle, haside, hprepared⟩ := hstaged
    have hslot : S % QUEUE_DEPTH < QUEUE_DEPTH := Nat.mod_lt _ (by decide)
    -- the regime clears the queues before an entry is stored
    have hdrained := hreg.clear _ w hG trivial hprepared.atMostOneLeft
      (haside.rest ⟨T, S, E, hS, hq, hat⟩)
    have hwritten := hprepared.store hsingle.recorded hdrained hat.submitted hcid
      (haside.current ▸ hcall)
    -- the call in progress is the one that issues it
    have hissued (hio : i = .io) : (w.storeSqe P (i.submissionOffset + 64 * (S % QUEUE_DEPTH))
        e).issuedBy S = w.current := by
      subst hio
      have hsome : (QueueId.io.sqSlot
          (QueueId.io.submissionOffset + 64 * (S % QUEUE_DEPTH))).isSome = true := by
        rw [QueueId.sqSlot_self hslot]
        rfl
      exact if_pos ⟨hat.submitted.symm, hsome⟩
    refine ⟨hsingle.store hdrained, ⟨fun j hj => ?_, haside.current⟩,
      fun hio => (hissued hio).trans haside.current, w.disk, hwritten,
      fun hex => ⟨(hprepared.blocks hex).2, fun hdir => (hissued (Task.queue_io hdir)).symm⟩⟩
    exact (haside.others j hj).congr (storeSqe_ring_of_ne hslot hj)
      fun s hs => storeSqe_cqe hslot hs
  ring := fun w hat hwrote => by
    obtain ⟨hsingle, haside, hissued, disk, hwritten, hexpected⟩ := hwrote
    have hinFlight := hwritten.ringTail hat.tail
    have hothers (j : QueueId) (hj : j ≠ i) :
        (w.setRing i ((w.ring i).ringTail ((S + 1) % QUEUE_DEPTH))).ring j = w.ring j :=
      World.setRing_ring_of_ne hj
    have hposted := World.setRing_field (w := w) (i := i) Ring.posted
      (r := (w.ring i).ringTail ((S + 1) % QUEUE_DEPTH)) rfl
    -- the doorbell touches no block
    have hexpected' (hex : explains) : Expected N.blockSize b₀ ⟨i, S, e, payload, disk⟩
        (w.setRing i ((w.ring i).ringTail ((S + 1) % QUEUE_DEPTH))) :=
      ⟨(hexpected hex).blocks, (hexpected hex).caller⟩
    refine ⟨⟨hsingle.recorded.setRing rfl rfl, .inr ⟨_, hinFlight, hexpected'⟩,
      fun hex record hrecord => ?_⟩,
      ⟨fun j hj => ?_, haside.current⟩, hissued, disk, hinFlight, hexpected'⟩
    · exact (hsingle.told hex record hrecord).congr (fun _ _ => rfl)
        (by simp only [hposted, List.prefix_rfl])
    · exact (haside.others j hj).congr (hothers j hj) fun _ _ => rfl

omit hreg in
/-- What is carried through the second half. -/
theorem sent_poll : PollFrame P (servingController N) i T (S + 1) ((S + 1) % QUEUE_DEPTH)
    (SingleTask P N explains b₀) (Sent P N explains b₀ i queues call S e payload)
    (Received P N explains b₀ i queues call S e payload T) where
  polling := sent_carried halign
  taken := fun _ => received_carried halign
  poll := fun w c E hat h => by
    have hslot : T % QUEUE_DEPTH < QUEUE_DEPTH := Nat.mod_lt _ (by decide)
    have hothers (j : QueueId) (hj : j ≠ i) := pollCqe_ring_of_ne (w := w) (c := c) hslot hj
    have hring := pollCqe_ring (w := w) (i := i) (c := c) hslot
    -- a poll changes nothing but its own history
    have hsame := World.ring_rel SameButHistory.refl hothers
      (hring ▸ ⟨rfl, rfl, rfl, rfl, rfl, rfl⟩)
    exact h.onlyRead ⟨hsame, rfl, rfl, rfl, rfl⟩ rfl rfl hothers
  consume := fun w E hat h hposted => by
    refine ⟨h.onlyRead (onlyRead_setRing ⟨rfl, rfl, rfl, rfl, rfl, rfl⟩) rfl rfl
      fun j hj => World.setRing_ring_of_ne hj, ?_⟩
    rw [List.getElem?_map, Option.map_eq_some_iff] at hposted
    obtain ⟨⟨c, k⟩, hget, hc⟩ := hposted
    -- completions come in the order of the commands, so the one consumed is the `T`-th
    obtain ⟨rfl, -⟩ := h.1.recorded.filed i T c k hget
    rw [World.setRing_ring_self, ← hc]
    exact hget

omit halign hreg in
/-- How a submission ends that does not panic: with the completion of its own command, or after
one has timed out. -/
theorem polled_sent {x : Outcome IoError CompletionQueueEntry × QueuePair} (hS : S = T + E)
    (hq : Driven q i T S)
    (h : Polled P i T (S + 1) ((S + 1) % QUEUE_DEPTH) E q.takeCid.advanceTail (UInt16.ofNat S)
      (Sent P N explains b₀ i queues call S e payload)
      (Received P N explains b₀ i queues call S e payload T) x w) :
    AtRest P i x.2 w ∧ Sent P N explains b₀ i queues call S e payload w ∧
      ((∃ c, x.1 = .ok c ∧ (w.ring i).posted[S]? = some (c, S)) ∨
        ∃ error, x.1 = .err error ∧ (w.ring i).expired ≠ 0) := by
  rcases h with ⟨c, rfl, hat, -, hsent, hposted⟩ | ⟨rfl, hat, -, hsent⟩
  · refine ⟨⟨T + 1, S + 1, E, by omega, hq.submit.advanceHead, hat⟩, hsent, ?_⟩
    obtain ⟨hsingle, -, -, disk, hinFlight, -⟩ := hsent
    obtain ⟨-, hcid⟩ := hsingle.recorded.filed i T c T hposted
    -- the driver is at most a ring behind, so that the identifier names the command
    have hroom := hat.ok.room
    have hle : S ≤ (w.ring i).posted.length := hinFlight.number_le
    rw [hat.taken] at hroom
    have hsame : c.cid = UInt16.ofNat S ↔ T = S := by
      rw [hcid, ← UInt16.toNat_inj, UInt16.toNat_ofNat', UInt16.toNat_ofNat']
      unfold QUEUE_DEPTH at hroom
      omega
    by_cases hTS : T = S
    · subst hTS
      exact .inl ⟨c, by rw [if_pos (hsame.mpr rfl)], hposted⟩
    · -- a mismatch means that a completion before it was given up
      refine .inr ⟨_, by rw [if_neg fun h => hTS (hsame.mp h)], ?_⟩
      rw [hat.expired]
      omega
  · exact ⟨⟨T, S + 1, E + 1, by omega, hq.submit, hat⟩, hsent,
      .inr ⟨_, rfl, by rw [hat.expired]; omega⟩⟩

/-- **One submission.** -/
theorem submitAndWait_sent {command : SubmissionQueueEntry} (hqueue : queues i = q)
    (hcall : i = .io → ∃ c, call = some c ∧ Orders c i command payload) :
    (machine P (servingController N) G).Triple (SingleTask P N explains b₀)
      (fun w => AtRest P i q w ∧ Staged P N explains b₀ i queues call command payload w)
      (QueuePair.submitAndWait P.bar P.region P.stride command q) fun x w =>
        (x.1.Panics ∧ SingleTask P N explains b₀ w) ∨ AtRest P i x.2 w ∧ ∃ S,
          Sent P N explains b₀ i queues call S { command with cid := .ofNat S } payload w ∧
            ((∃ c, x.1 = .ok c ∧ (w.ring i).posted[S]? = some (c, S)) ∨
              ∃ error, x.1 = .err error ∧ (w.ring i).expired ≠ 0) := by
  rintro w ⟨⟨T, S, E, hS, hq, hat⟩, hstaged⟩
  have hcall' : i = .io → ∃ c, call = some c ∧
      Orders c i { command with cid := UInt16.ofNat S } payload := fun hio => by
    subst hio
    exact hcall rfl
  -- the identifier is the number of the command, as far as it goes
  have hframe : SubmitFrame P (servingController N) G i T S E { command with cid := .ofNat S }
      (SingleTask P N explains b₀) (Staged P N explains b₀ i queues call _ payload)
      (Wrote P N explains b₀ i queues call S _ payload)
      (Sent P N explains b₀ i queues call S _ payload) :=
    sent_submit halign hreg hS hq rfl hcall'
  have htriple := submitAndWait_triple (G := G) (X := SingleTask P N explains b₀)
    (SingleTask.keeps halign) hq hframe (sent_poll halign) (fun w _ h => h.1) fun w _ _ h => h.1
  refine (htriple.invariant fun w h => h.2).post (fun x w' h => ?_) w ⟨hat, hstaged.cid _⟩
  rcases h with hpanic | hpolled
  · exact .inl hpanic
  · obtain ⟨hrest, hsent, hend⟩ := polled_sent hS hq hpolled
    exact .inr ⟨hrest, S, hsent, hend⟩

end Frames

end Nvmetoy
