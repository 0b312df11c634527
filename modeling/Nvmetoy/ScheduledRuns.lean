import Nvmetoy.Responses
import Nvmetoy.Submissions

/-!
# Runs that keep to a schedule

Runs of `submit_and_wait` that are written down: what the driver has done to the world when a
call is on its way (`World.issue`), what the controller does meanwhile, and how the poll loop
then ends.

* `submit_reaches`, `poll_expires`, `poll_takes` — the two halves of a call, played, whatever is
  asked of the writes that fill the region (`AllowsNonFills`).
* `submitOne_reaches` — one call, with the controller's steps between its two halves.
* `AtLedger` — what is known of a queue between two calls of such a run, and `Submitting` within
  one.
* `AllTaken` — the two sides agree. A call keeps it whether it times out (`AllTaken.expires`) or is
  answered (`AllTaken.answered`), and so does any number of calls (`AllTaken.answers`).
-/

namespace Nvmetoy

open Framework Machine NvmeUserspaceDriver

variable {P : Platform} {C : Behaviour} {G : Op → World → Prop} {i : QueueId} {q : QueuePair}
  {T S E n : Nat} {w w' w₁ w₂ : World} {command : SubmissionQueueEntry} {cid : UInt16}

/-- The operation puts data, list entries or a command where the controller reads them. -/
def Fills : Op → Prop
  | .writeSqe _ _ | .writeU64 _ _ | .writeBytes _ _ => True
  | _ => False

/-- Nothing else is forbidden than such operations. -/
def AllowsNonFills (G : Op → World → Prop) : Prop := ∀ o w, ¬ Fills o → G o w

/-- Nothing is forbidden but the writing of some commands. -/
def AllowsNonSqes (G : Op → World → Prop) : Prop :=
  ∀ o w, (∀ offset entry, o ≠ .writeSqe offset entry) → G o w

theorem AllowsNonSqes.allowsNonFills (hG : AllowsNonSqes G) : AllowsNonFills G :=
  fun o w ho => hG o w fun _ _ hwrite => ho (hwrite ▸ trivial)

/-- Anything at all is allowed. -/
theorem allowsNonSqes_always : AllowsNonSqes Always := fun _ _ _ => trivial

/-! ### The two halves of a call -/

/-- The world after the driver has put its `S`-th command in its slot and has rung for it. -/
def World.issue (P : Platform) (i : QueueId) (S : Nat) (command : SubmissionQueueEntry)
    (w : World) : World :=
  let stored := w.storeSqe P (i.submissionOffset + 64 * (S % QUEUE_DEPTH))
    { command with cid := .ofNat S }
  stored.setRing i ((stored.ring i).ringTail ((S + 1) % QUEUE_DEPTH))

/-- A submission has one outcome. -/
theorem submit_reaches (hG : AllowsNonFills G) (hbar : P.bar.Covers i.number P.stride)
    (hq : Driven q i T S) (hwrite : G (.writeSqe (i.submissionOffset + 64 * (S % QUEUE_DEPTH))
      { command with cid := .ofNat S }) w) :
    (machine P C G).Reaches (QueuePair.submit P.bar P.region P.stride command q, w)
      (.pure (.ok (.ofNat S), q.takeCid.advanceTail), w.issue P i S command) := by
  have htail : (UInt32.ofNat ((S + 1) % QUEUE_DEPTH)).toNat = (S + 1) % QUEUE_DEPTH :=
    UInt32.toNat_ofNat_of_lt' (Nat.lt_trans (Nat.mod_lt _ (by decide)) (by decide))
  simp only [QueuePair.submit, DmaRegion.writeSqe, DmaRegion.readSqe,
    hq.placed.sqe_ok i.rings, NvmeBar.ringSubmissionDoorbell, NvmeBar.write32,
    Method.bind_assoc, Method.get_bind, Method.set_bind, Method.lift_ok_bind]
  -- the entry is written, read back and announced, and nothing else happens in between
  refine Reaches.call_bind () ⟨rfl, ?_⟩ (Reaches.call_bind _ ⟨⟨rfl, rfl⟩, hG _ _ id⟩ ?_)
  · rw [hq.sqeOffset, hq.cid]
    exact hwrite
  rw [Method.set_bind, hq.id, hbar.submission, Method.lift_ok_bind]
  refine Reaches.call_bind () ⟨rfl, hG _ _ id⟩ ?_
  rw [hq.sqeOffset, hq.cid, hq.submit.tail, World.writeRegister_submission, htail]
  exact .refl

/-- What idle polling leaves as it was. -/
structure Polls (i : QueueId) (w w' : World) : Prop where
  rest : w' = { w with ring := w'.ring }
  other : ∀ j, j ≠ i → w'.ring j = w.ring j
  ring : w'.ring i = { w.ring i with
    polled := (w'.ring i).polled
    polls := (w'.ring i).polls
    seen := (w'.ring i).seen
    expired := (w'.ring i).expired }

/-- Polls in vain leave the memory as it is. -/
theorem Polls.mem (h : Polls i w w') : w'.mem = w.mem := by rw [h.rest]

theorem Polls.enabled (h : Polls i w w') : w'.enabled = w.enabled := by rw [h.rest]

theorem Polls.refl (i : QueueId) (w : World) : Polls i w w := ⟨rfl, fun _ _ => rfl, rfl⟩

theorem Polls.trans (h : Polls i w w₁) (h' : Polls i w₁ w₂) : Polls i w w₂ where
  rest := by
    rw [h'.rest, h.rest]
  other := fun j hj => (h'.other j hj).trans (h.other j hj)
  ring := by
    rw [h'.ring, h.ring]

/-- One poll. -/
theorem pollCqe_polls {s : Nat} (hs : s < QUEUE_DEPTH) (c : CompletionQueueEntry) :
    Polls i w (w.pollCqe (i.completionOffset + 16 * s) c) where
  rest := rfl
  other := fun _ hj => pollCqe_ring_of_ne hs hj
  ring := by
    rw [pollCqe_ring hs]
    rfl

/-- The ring stays as the protocol has it. -/
theorem RingOk.polls (h : RingOk P i w) (hw : Polls i w w') : RingOk P i w' := by
  refine h.kept ?_ ?_ ?_ fun s _ => ?_
  · rw [hw.ring]
  · rw [hw.ring]
  · rw [hw.ring]
  · rw [World.cqe, hw.mem]
    rfl

/-- With nothing to take, the poll loop gives up. -/
theorem poll_expires (n : Nat) (cid : UInt16) (hG : AllowsNonFills G) (hq : Driven q i T S)
    (hok : RingOk P i w) (htaken : (w.ring i).taken.length = T)
    (hposted : (w.ring i).posted.length = T) :
    ∃ w', Polls i w w' ∧
      (machine P C G).Reaches (QueuePair.pollCompletion P.bar P.region P.stride cid n q, w)
        (.pure (.err .pollTimeout, q), w') := by
  have hslot : T % QUEUE_DEPTH < QUEUE_DEPTH := Nat.mod_lt _ (by decide)
  -- by induction on the polls that are left, each of which finds what the one before did
  induction n generalizing w with
  | zero => exact ⟨w, .refl i w, .refl⟩
  | succ n ih =>
    have hpoll := pollCqe_polls (w := w) (i := i) hslot (w.cqe P i (T % QUEUE_DEPTH))
    have hring : (w.pollCqe (i.completionOffset + 16 * (T % QUEUE_DEPTH))
        (w.cqe P i (T % QUEUE_DEPTH))).ring i = _ := pollCqe_ring hslot
    obtain ⟨w', hw', hreach⟩ := ih (hok.polls hpoll) (by rw [hring]; exact htaken)
      (by rw [hring]; exact hposted)
    refine ⟨w', hpoll.trans hw', ?_⟩
    simp only [QueuePair.pollCompletion, DmaRegion.readCqe, hq.placed.cqe_ok i.rings,
      Method.get_bind, Method.lift_ok_bind]
    refine Reaches.call_bind (w.cqe P i (T % QUEUE_DEPTH)) ⟨⟨?_, rfl⟩, hG _ _ id⟩ ?_
    · rw [hq.cqeOffset]
      rfl
    -- the tag in the slot is the one of the lap before
    · have hstale : (w.cqe P i (T % QUEUE_DEPTH)).phase ≠ q.completionPhase := by
        rw [hq.phase]
        intro hphase
        exact absurd ((hok.fresh_iff htaken).mp hphase) (by omega)
      rw [if_neg (by simpa using hstale), hq.cqeOffset]
      exact hreach

/-- With a completion to take, the first poll takes it. -/
theorem poll_takes (n : Nat) (cid : UInt16) (hG : AllowsNonFills G)
    (hbar : P.bar.Covers i.number P.stride) (hq : Driven q i T S) (hok : RingOk P i w)
    (htaken : (w.ring i).taken.length = T)
    {c : CompletionQueueEntry} (hc : ((w.ring i).posted.map Prod.fst)[T]? = some c) :
    ∃ w', Polls i w w' ∧ (w'.ring i).polled = c ∧ (w'.ring i).seen = (w.ring i).posted.length ∧
      (w'.ring i).expired = (w.ring i).expired ∧ (machine P C G).Reaches
        (QueuePair.pollCompletion P.bar P.region P.stride cid (n + 1) q, w)
        (.pure (if c.cid = cid then .ok c else .err (.cidMismatch c.cid cid), q.advanceHead),
          w'.setRing i ((w'.ring i).ringHead ((T + 1) % QUEUE_DEPTH))) := by
  have hslot : T % QUEUE_DEPTH < QUEUE_DEPTH := Nat.mod_lt _ (by decide)
  have hhead : (UInt32.ofNat ((T + 1) % QUEUE_DEPTH)).toNat = (T + 1) % QUEUE_DEPTH :=
    UInt32.toNat_ofNat_of_lt' (Nat.lt_trans (Nat.mod_lt _ (by decide)) (by decide))
  have hlt : T < (w.ring i).posted.length := by
    simpa using (List.getElem?_eq_some_iff.mp hc).1
  obtain rfl : w.cqe P i (T % QUEUE_DEPTH) = c := by
    rw [hok.next htaken hlt] at hc
    exact Option.some.inj hc
  -- the entry at `T` is posted, so its phase is the one the driver looks for
  have hphase := (hok.fresh_iff htaken).mpr hlt
  have hring : (w.pollCqe (i.completionOffset + 16 * (T % QUEUE_DEPTH))
      (w.cqe P i (T % QUEUE_DEPTH))).ring i = _ := pollCqe_ring hslot
  refine ⟨_, pollCqe_polls hslot (w.cqe P i (T % QUEUE_DEPTH)), ?_, ?_, ?_, ?_⟩
  · rw [hring]
    rfl
  · rw [hring]
    rfl
  · rw [hring]
    exact if_neg fun h => by omega
  simp only [QueuePair.pollCompletion, DmaRegion.readCqe, hq.placed.cqe_ok i.rings,
    Method.get_bind, Method.lift_ok_bind]
  -- the poll reads it
  refine Reaches.call_bind (w.cqe P i (T % QUEUE_DEPTH)) ⟨⟨?_, rfl⟩, hG _ _ id⟩ ?_
  · rw [hq.cqeOffset]
    rfl
  rw [if_pos (by simpa [hq.phase] using hphase), hq.cqeOffset]
  simp only [QueuePair.consume, Method.get_bind, Method.set_bind, NvmeBar.ringCompletionDoorbell,
    NvmeBar.write32, Method.bind_assoc, hq.id, hbar.completion, Method.lift_ok_bind]
  -- and the head doorbell takes it
  refine Reaches.call_bind () ⟨rfl, hG _ _ id⟩ ?_
  rw [hq.id, hq.advanceHead.head, World.writeRegister_completion, hhead]
  by_cases hcid : (w.cqe P i (T % QUEUE_DEPTH)).cid = cid
  · rw [if_pos hcid, if_neg (by simpa using hcid)]
    exact .refl
  · rw [if_neg hcid, if_pos hcid]
    exact .refl

/-! ### One call -/

/-- The driver compares the identifiers, and nothing else. -/
theorem ofExcept_resultOf (cid : UInt16) (c : CompletionQueueEntry) :
    Outcome.ofExcept (resultOf cid c) =
      if c.cid = cid then .ok c else .err (.cidMismatch c.cid cid) := by
  unfold resultOf
  split <;> rfl

/-- A call whose two halves end as they are said to. -/
theorem submitOne_reaches {x : Except IoError CompletionQueueEntry} {q' : QueuePair}
    (hG : AllowsNonSqes G) (hbar : P.bar.Covers i.number P.stride) (hq : Driven q i T S)
    (hwrite : G (.writeSqe (i.submissionOffset + 64 * (S % QUEUE_DEPTH))
      { command with cid := .ofNat S }) (w.mark (.beginSubmit i)))
    (henv : Relation.ReflTransGen (EnvStep P C)
      ((w.mark (.beginSubmit i)).issue P i S command) w₁)
    (hpoll : (machine P C G).Reaches (QueuePair.pollCompletion P.bar P.region P.stride
      (.ofNat S) (POLL_LIMIT + 1) q.takeCid.advanceTail, w₁)
      (.pure (.ofExcept x, q'), w₂)) :
    (machine P C G).Reaches (submitOne P i command q, w)
      (.pure (.ok (), q'), w₂.mark (.endSubmit i x)) := by
  -- the controller acts between the doorbell and the first poll
  have hcall : (machine P C G).Reaches
      (QueuePair.submitAndWait P.bar P.region P.stride command q, w.mark (.beginSubmit i))
      (.pure (.ofExcept x, q'), w₂) :=
    ((Reaches.bind (submit_reaches hG.allowsNonFills hbar hq hwrite)).trans
      (Reaches.envs henv)).trans hpoll
  refine Reaches.call_bind () ⟨rfl, hG _ _ (by simp)⟩
    ((Reaches.bind (Reaches.attempt hcall)).trans ?_)
  exact Reaches.act ⟨rfl, hG _ _ (by simp)⟩ .refl

/-! ### Between two calls -/

/-- How far a queue has come, in a run that is written down. -/
structure Ledger where
  taken : Nat
  submitted : Nat
  fetched : Nat
  posted : List (CompletionQueueEntry × Nat)
  live : List FetchedCommand
  records : List SubmitRecord

/-- The queue stands where the ledger says. -/
structure AtLedger (P : Platform) (i : QueueId) (l : Ledger) (w : World) : Prop where
  ok : RingOk P i w
  taken : (w.ring i).taken.length = l.taken
  posted : (w.ring i).posted = l.posted
  submitted : (w.ring i).submitted = l.submitted
  tail : (w.ring i).sqTail = l.submitted % QUEUE_DEPTH
  head : (w.ring i).sqHead = l.fetched % QUEUE_DEPTH
  fetches : (w.ring i).fetches = l.fetched
  live : (w.ring i).live = l.live
  records : (w.ring i).records = l.records
  enabled : w.enabled = true

/-- It stands there in the call that has submitted command `S`. -/
structure Submitting (P : Platform) (i : QueueId) (S : Nat) (l : Ledger) (w : World) : Prop
    extends AtLedger P i l w where
  cid : (w.ring i).cid = .ofNat S
  begun : (w.ring i).begun = l.taken

variable {l : Ledger}

/-- A ledger before the first call. -/
def Ledger.blank : Ledger := ⟨0, 0, 0, [], [], []⟩

/-- A fresh ring has an empty ledger. -/
theorem Fresh.atLedger (h : Fresh P i w) (henabled : w.enabled = true) :
    AtLedger P i .blank w := by
  refine ⟨h.at.ok, ?_, ?_, ?_, ?_, ?_, ?_, ?_, ?_, henabled⟩
  all_goals
    rw [h.ring]
    rfl

/-- A command is read back as it was written. -/
theorem storeSqe_decode {offset : Nat} {e : SubmissionQueueEntry} :
    .decode ((w.storeSqe P offset e).mem.read (World.address P offset) 64) = e := by
  have hlen : e.encode.length = 64 := e.length_encode
  rw [World.storeSqe, ← hlen, Mem.read_write_self, SubmissionQueueEntry.decode_encode]

theorem issue_ring : (w.issue P i S command).ring i =
    ((w.ring i).store (S % QUEUE_DEPTH) (.ofNat S)).ringTail ((S + 1) % QUEUE_DEPTH) := by
  rw [World.issue, World.setRing_ring_self, storeSqe_ring (Nat.mod_lt _ (by decide))]

theorem issue_ring_of_ne {j : QueueId} (h : j ≠ i) :
    (w.issue P i S command).ring j = w.ring j := by
  rw [World.issue, World.setRing_ring_of_ne h, storeSqe_ring_of_ne (Nat.mod_lt _ (by decide)) h]

/-- The driver submits. -/
theorem AtLedger.issue (h : AtLedger P i l w) (command : SubmissionQueueEntry) :
    Submitting P i l.submitted { l with submitted := l.submitted + 1 }
      ((w.mark (.beginSubmit i)).issue P i l.submitted command) := by
  have hslot : l.submitted % QUEUE_DEPTH < QUEUE_DEPTH := Nat.mod_lt _ (by decide)
  have hring : ((w.mark (.beginSubmit i)).issue P i l.submitted command).ring i =
      (((w.ring i).beginSubmit).store (l.submitted % QUEUE_DEPTH) (.ofNat l.submitted)).ringTail
        ((l.submitted + 1) % QUEUE_DEPTH) := by
    rw [issue_ring, World.mark, World.setRing_ring_self]
  have hat : At P i l.taken l.submitted (l.submitted % QUEUE_DEPTH) (w.ring i).expired w :=
    ⟨h.ok, h.taken, h.submitted, h.tail, rfl⟩
  -- the store and the doorbell touch the tail, the counters and the identifier of the slot
  refine ⟨⟨((hat.beginSubmit.storeSqe hslot).ringTail _).ok, ?_, ?_, ?_, ?_, ?_, ?_, ?_, ?_, ?_⟩,
    ?_, ?_⟩
  all_goals try rw [hring]
  · -- every column of the ledger but the one for submissions
    exact h.taken
  · exact h.posted
  · exact congrArg (· + 1) h.submitted
  · rfl
  · exact h.head
  · exact h.fetches
  · exact h.live
  · exact h.records
  · exact h.enabled
  · rfl
  · exact h.taken

/-- The controller fetches what has just been submitted, when it had nothing else to fetch. -/
theorem AtLedger.fetch (h : AtLedger P i l w) (hfetched : l.fetched = l.submitted)
    (command : SubmissionQueueEntry) :
    ∃ w', EnvStep P C ((w.mark (.beginSubmit i)).issue P i l.submitted command) w' ∧
      Submitting P i l.submitted { l with
        submitted := l.submitted + 1
        fetched := l.submitted + 1
        live := l.live ++ [⟨l.submitted, { command with cid := .ofNat l.submitted }, none⟩] }
        w' := by
  have hissue := h.issue command
  set w₁ := (w.mark (.beginSubmit i)).issue P i l.submitted command with hw₁
  have hslot : l.submitted % QUEUE_DEPTH < QUEUE_DEPTH := Nat.mod_lt _ (by decide)
  have hhead : (w₁.ring i).sqHead = l.submitted % QUEUE_DEPTH := hfetched ▸ hissue.head
  have htail : (w₁.ring i).sqTail = (l.submitted + 1) % QUEUE_DEPTH := hissue.tail
  -- the controller had fetched all there was, so the ring holds the one entry just issued
  have hpending : (w₁.ring i).sqHead ≠ (w₁.ring i).sqTail := by
    rw [hhead, htail]
    unfold QUEUE_DEPTH
    omega
  -- which decodes to the command under its own identifier
  have hentry : w₁.sqe P i (l.submitted % QUEUE_DEPTH) =
      { command with cid := .ofNat l.submitted } := by
    rw [World.sqe, hw₁]
    exact storeSqe_decode
  have hissuer : (w₁.ring i).issuer (l.submitted % QUEUE_DEPTH) = l.submitted := by
    rw [hw₁, issue_ring, World.mark, World.setRing_ring_self]
    exact (if_pos rfl).trans h.submitted
  -- so one more command is in hand, with that number
  have hring : (w₁.setRing i ((w₁.ring i).fetch (w₁.sqe P i (w₁.ring i).sqHead))).ring i =
      (w₁.ring i).fetch { command with cid := .ofNat l.submitted } := by
    rw [World.setRing_ring_self, hhead, hentry]
  refine ⟨_, .fetch i hpending hissue.enabled, ⟨⟨?_, ?_, ?_, ?_, ?_, ?_, ?_, ?_, ?_, ?_⟩, ?_, ?_⟩⟩
  all_goals try rw [hring]
  · have hstep : RingStep P C i w₁
        (w₁.setRing i ((w₁.ring i).fetch (w₁.sqe P i (w₁.ring i).sqHead))) :=
      .fetch hpending (World.setRing_ring_self _) (fun _ _ => rfl) fun _ _ => rfl
    exact hissue.ok.step hstep
  · exact hissue.taken
  · exact hissue.posted
  · exact hissue.submitted
  · exact hissue.tail
  · change ((w₁.ring i).sqHead + 1) % QUEUE_DEPTH = _
    rw [hhead, PhaseRing.succ_mod]
  · exact congrArg (· + 1) (hfetched ▸ hissue.fetches)
  · change (w₁.ring i).live ++ [⟨(w₁.ring i).issuer (w₁.ring i).sqHead, _, none⟩] = _
    rw [hhead, hissuer, hissue.live]
  · exact hissue.records
  · exact hissue.enabled
  · exact hissue.cid
  · exact hissue.begun

/-- A completion for identifier `cid`, successful, on the lap of tag `phase`. -/
def CompletionQueueEntry.tagged (cid : UInt16) (phase : Bool) : CompletionQueueEntry where
  result := 0
  reserved := 0
  sqHead := 0
  sqId := 0
  cid := cid
  status := if phase then 1 else 0

/-- A completion made up for the examples has the phase it was given. -/
theorem CompletionQueueEntry.phase_tagged (cid : UInt16) (phase : Bool) :
    (tagged cid phase).phase = phase := by
  cases phase <;> simp [tagged, CompletionQueueEntry.phase]

/-- The completion the controller posts next for the command with identifier `cid`. -/
def Ledger.reply (l : Ledger) (cid : UInt16) : CompletionQueueEntry :=
  .tagged cid (PhaseRing.phaseOf QUEUE_DEPTH l.posted.length)

/-- The controller posts a completion. -/
theorem Submitting.post (h : Submitting P i S l w) (cid : UInt16) (k : Nat)
    (live : List FetchedCommand)
    (hC : C.Keeps P fun _ => True) (hroom : l.posted.length + 1 < l.taken + QUEUE_DEPTH)
    (hmay : C.mayPost (w.ring i) (l.reply cid) k live) :
    ∃ w', EnvStep P C w w' ∧
      Submitting P i S { l with posted := l.posted ++ [(l.reply cid, k)], live := live } w' := by
  have hle := h.ok.le
  rw [h.taken, h.posted] at hle
  -- there is room when fewer than a ring of entries await the driver
  have hfull : ((w.ring i).posted.length + 1) % QUEUE_DEPTH ≠ (w.ring i).cqHead := by
    rw [h.ok.head, h.taken, h.posted]
    intro heq
    have hdvd : QUEUE_DEPTH ∣ l.posted.length + 1 - l.taken :=
      (Nat.modEq_iff_dvd' (by omega)).mp heq.symm
    have := Nat.le_of_dvd (by omega) hdvd
    omega
  -- the phase is that of the lap, so the driver will take it
  have hphase : (l.reply cid).phase = PhaseRing.phaseOf QUEUE_DEPTH (w.ring i).posted.length := by
    rw [Ledger.reply, CompletionQueueEntry.phase_tagged, h.posted]
  have hstep : EnvStep P C w _ := .post i hfull hphase hmay h.enabled
  refine ⟨_, hstep, ⟨⟨h.ok.step (hstep.ringStep hC trivial i), ?_, ?_, ?_, ?_, ?_, ?_, ?_, ?_, ?_⟩,
    ?_, ?_⟩⟩
  all_goals try simp only [World.setRing, if_true, Ring.post]
  · exact h.taken
  · rw [h.posted]
  · exact h.submitted
  · exact h.tail
  · exact h.head
  · exact h.fetches
  · exact h.records
  · exact h.enabled
  · exact h.cid
  · exact h.begun

/-! ### The end of a call -/

/-- A queue as the poll loop has left it. -/
theorem Submitting.polls (h : Submitting P i S l w) (hw : Polls i w w') :
    Submitting P i S l w' := by
  refine ⟨⟨h.ok.polls hw, ?_, ?_, ?_, ?_, ?_, ?_, ?_, ?_, hw.enabled.trans h.enabled⟩, ?_, ?_⟩
  all_goals rw [hw.ring]
  · exact h.taken
  · exact h.posted
  · exact h.submitted
  · exact h.tail
  · exact h.head
  · exact h.fetches
  · exact h.live
  · exact h.records
  · exact h.cid
  · exact h.begun

/-- The record of the call is added. -/
theorem AtLedger.endSubmit (h : AtLedger P i l w) (hS : l.submitted = S + 1)
    (hcid : (w.ring i).cid = .ofNat S) {before seen : Nat} (hbegun : (w.ring i).begun = before)
    (hseen : (w.ring i).seen = seen) (result : Except IoError CompletionQueueEntry) :
    AtLedger P i { l with records := l.records ++ [⟨S, .ofNat S, before, seen, result⟩] }
      (w.mark (.endSubmit i result)) := by
  have hat : At P i l.taken l.submitted (w.ring i).sqTail (w.ring i).expired w :=
    ⟨h.ok, h.taken, h.submitted, rfl, rfl⟩
  refine ⟨(hat.endSubmit result).ok, ?_, ?_, ?_, ?_, ?_, ?_, ?_, ?_, h.enabled⟩
  all_goals rw [World.mark, World.setRing_ring_self]
  · exact h.taken
  · exact h.posted
  · exact h.submitted
  · exact h.tail
  · exact h.head
  · exact h.fetches
  · exact h.live
  · rw [Ring.endSubmit, h.records, h.submitted, hS, hcid, hbegun, hseen, Nat.add_sub_cancel]

/-- A completion is taken. -/
theorem AtLedger.ringHead (h : AtLedger P i l w)
    (hc : ((w.ring i).posted.map Prod.fst)[l.taken]? = some (w.ring i).polled) :
    AtLedger P i { l with taken := l.taken + 1 }
      (w.setRing i ((w.ring i).ringHead ((l.taken + 1) % QUEUE_DEPTH))) := by
  have hat : At P i l.taken l.submitted (w.ring i).sqTail (w.ring i).expired w :=
    ⟨h.ok, h.taken, h.submitted, rfl, rfl⟩
  have hafter := hat.ringHead hc
  -- the head is one further, and the ledger has one taken more
  refine ⟨hafter.ok, hafter.taken, ?_, ?_, ?_, ?_, ?_, ?_, ?_, h.enabled⟩
  all_goals rw [World.setRing_ring_self]
  · exact h.posted
  · exact h.submitted
  · exact h.tail
  · exact h.head
  · exact h.fetches
  · exact h.live
  · exact h.records

section Ends

variable (hG : AllowsNonSqes G) (hbar : P.bar.Covers i.number P.stride) (hq : Driven q i T S)
  (hwrite : G (.writeSqe (i.submissionOffset + 64 * (S % QUEUE_DEPTH))
    { command with cid := .ofNat S }) (w.mark (.beginSubmit i)))
  (henv : Relation.ReflTransGen (EnvStep P C)
    ((w.mark (.beginSubmit i)).issue P i S command) w₁)

include hG hbar hq hwrite henv

/-- **A call that finds nothing.** -/
theorem Submitting.expires (h : Submitting P i S l w₁) (hT : l.taken = T) (hS : l.submitted = S + 1)
    (hnone : l.posted.length = l.taken) :
    ∃ w' seen, (machine P C G).Reaches (submitOne P i command q, w)
        (.pure (.ok (), q.takeCid.advanceTail), w') ∧
      AtLedger P i { l with
        records := l.records ++ [⟨S, .ofNat S, l.taken, seen, .error .pollTimeout⟩] } w' := by
  subst hT
  have hposted : (w₁.ring i).posted.length = l.taken := by rw [h.posted, hnone]
  -- there is nothing to take, so every poll is in vain
  obtain ⟨w₂, hpolls, hreach⟩ := poll_expires (C := C) (POLL_LIMIT + 1)
    (.ofNat S) hG.allowsNonFills hq.submit h.ok h.taken hposted
  have hafter := h.polls hpolls
  exact ⟨_, _, submitOne_reaches (x := .error .pollTimeout) hG hbar hq hwrite henv hreach,
    hafter.toAtLedger.endSubmit hS hafter.cid hafter.begun rfl _⟩

/-- **A call that finds a completion**, its own or another. -/
theorem Submitting.takes (h : Submitting P i S l w₁) (hT : l.taken = T) (hS : l.submitted = S + 1)
    {c : CompletionQueueEntry} (hc : (l.posted.map Prod.fst)[l.taken]? = some c) :
    ∃ w', (machine P C G).Reaches (submitOne P i command q, w)
        (.pure (.ok (), q.takeCid.advanceTail.advanceHead), w') ∧
      AtLedger P i { l with
        taken := l.taken + 1
        records := l.records ++
          [⟨S, .ofNat S, l.taken, l.posted.length, resultOf (.ofNat S) c⟩] } w' := by
  subst hT
  obtain ⟨w₂, hpolls, hpolled, hseen, -, hreach⟩ := poll_takes (C := C) POLL_LIMIT
    (.ofNat S) hG.allowsNonFills hbar hq.submit h.ok h.taken (h.posted.symm ▸ hc)
  have hafter := h.polls hpolls
  have htook := hafter.toAtLedger.ringHead (by rw [hafter.posted, hc, hpolled])
  refine ⟨_, submitOne_reaches (x := resultOf (.ofNat S) c) hG hbar hq hwrite henv
    (by rw [ofExcept_resultOf]; exact hreach), ?_⟩
  -- the call is filed with what the completion says
  refine htook.endSubmit hS ?_ ?_ ?_ _
  all_goals rw [World.setRing_ring_self]
  · exact hafter.cid
  · exact hafter.begun
  · rw [Ring.ringHead, hseen, h.posted]

end Ends

/-! ### Any number of calls -/

/-- A call, and the calls after it. -/
theorem submitAll_cons_reaches (rest : List SubmissionQueueEntry) {q' : QueuePair}
    {c : Config Op Res World (Outcome IoError Unit × QueuePair)}
    (h : (machine P C G).Reaches (submitOne P i command q, w) (.pure (.ok (), q'), w'))
    (hrest : (machine P C G).Reaches (submitAll P i rest q', w') c) :
    (machine P C G).Reaches (submitAll P i (command :: rest) q, w) c :=
  (Reaches.bind h).trans hrest

/-- Runs of calls are put together. -/
theorem submitAll_append_reaches {commands rest : List SubmissionQueueEntry} {q' : QueuePair}
    {c : Config Op Res World (Outcome IoError Unit × QueuePair)}
    (h : (machine P C G).Reaches (submitAll P i commands q, w) (.pure (.ok (), q'), w'))
    (hrest : (machine P C G).Reaches (submitAll P i rest q', w') c) :
    (machine P C G).Reaches (submitAll P i (commands ++ rest) q, w) c := by
  -- the calls of two lists are those of the one and then those of the other
  have happend : submitAll P i (commands ++ rest) =
      submitAll P i commands >>= fun _ => submitAll P i rest := by
    clear h
    induction commands with
    | nil => rfl
    | cons command commands ih =>
      rw [List.cons_append, submitAll, submitAll, Method.bind_assoc, ih]
  rw [happend]
  exact (Reaches.bind h).trans hrest

/-- Nothing is left of the calls before but what is in hand: all the commands were fetched, and
all the completions taken. -/
structure AllTaken (P : Platform) (i : QueueId) (l : Ledger) (q : QueuePair) (w : World) : Prop
    extends AtLedger P i l w where
  driven : Driven q i l.taken l.submitted
  fetched : l.fetched = l.submitted
  drained : l.posted.length = l.taken
  recorded : l.records.length = l.submitted

/-- At the start everything has been taken. -/
theorem Fresh.allTaken (h : Fresh P i w) (henabled : w.enabled = true) :
    AllTaken P i .blank i.queuePair w :=
  ⟨h.atLedger henabled, .queuePair i, rfl, rfl, rfl⟩

/-- The ledger after one more call that was fetched and has timed out. -/
def Ledger.expire (l : Ledger) (command : SubmissionQueueEntry) (seen : Nat) : Ledger :=
  { l with
    submitted := l.submitted + 1
    fetched := l.submitted + 1
    live := l.live ++ [⟨l.submitted, { command with cid := .ofNat l.submitted }, none⟩]
    records := l.records ++
      [⟨l.submitted, .ofNat l.submitted, l.taken, seen, .error .pollTimeout⟩] }

/-- The ledger after one more call that was answered at once. -/
def Ledger.answer (l : Ledger) : Ledger :=
  let cid := UInt16.ofNat l.submitted
  { l with
    taken := l.taken + 1
    submitted := l.submitted + 1
    fetched := l.submitted + 1
    posted := l.posted ++ [(l.reply cid, l.submitted)]
    records := l.records ++
      [⟨l.submitted, cid, l.taken, l.posted.length + 1, resultOf cid (l.reply cid)⟩] }

/-- The controller may answer the commands it has fetched. -/
structure Behaviour.Answers (P : Platform) (C : Behaviour) : Prop where
  keeps : C.Keeps P fun _ => True
  may : ∀ r c k live, Discharges r c k live → C.mayPost r c k live

/-- Both controllers may answer what they hold. -/
theorem answeringController_answers : (answeringController P).Answers P :=
  ⟨answeringController_keeps _, fun _ _ _ _ h => h⟩

theorem anyController_answers : (anyController P).Answers P :=
  ⟨anyController_keeps _, fun _ _ _ _ _ => trivial⟩

section Controllers

variable (command) (hG : AllowsNonSqes G) (hbar : P.bar.Covers i.number P.stride)
  (hwrite : G (.writeSqe (i.submissionOffset + 64 * (l.submitted % QUEUE_DEPTH))
    { command with cid := .ofNat l.submitted }) (w.mark (.beginSubmit i)))

include hG hbar hwrite

/-- A call that is not answered. -/
theorem AllTaken.expires (h : AllTaken P i l q w) :
    ∃ q' w' seen, (machine P C G).Reaches (submitOne P i command q, w)
        (.pure (.ok (), q'), w') ∧ AllTaken P i (l.expire command seen) q' w' := by
  obtain ⟨w₁, hfetch, hunder⟩ := h.toAtLedger.fetch (C := C) h.fetched command
  obtain ⟨w', seen, hreach, hsingle⟩ := hunder.expires hG hbar h.driven hwrite
    (.single hfetch) rfl rfl h.drained
  refine ⟨_, w', seen, hreach, hsingle, h.driven.submit, rfl, h.drained, ?_⟩
  simp [Ledger.expire, h.recorded]

theorem AllTaken.answered (hC : C.Answers P) (h : AllTaken P i l q w) :
    ∃ q' w', (machine P C G).Reaches (submitOne P i command q, w)
        (.pure (.ok (), q'), w') ∧ AllTaken P i l.answer q' w' := by
  obtain ⟨w₁, hfetch, hunder⟩ := h.toAtLedger.fetch (C := C) h.fetched command
  have hdrained := h.drained
  obtain ⟨w₂, hpost, hunder⟩ := hunder.post (.ofNat l.submitted) l.submitted l.live hC.keeps
    (by simp [hdrained, QUEUE_DEPTH])
    (hC.may _ _ _ _ ⟨l.live, _, [], hunder.live, by simp, rfl, rfl⟩)
  -- everything before was taken, so the reply is the next completion
  have hnext : ((l.posted ++
      [(l.reply (.ofNat l.submitted), l.submitted)]).map Prod.fst)[l.taken]? =
      some (l.reply (.ofNat l.submitted)) := by
    rw [← hdrained]
    simp
  obtain ⟨w', hreach, hsingle⟩ := hunder.takes hG hbar h.driven hwrite
    (.tail (.single hfetch) hpost) rfl rfl hnext
  refine ⟨_, w', hreach, ?_, h.driven.submit.advanceHead, rfl, ?_, ?_⟩
  · simpa [Ledger.answer, Ledger.reply] using hsingle
  · simp [Ledger.answer, hdrained]
  · simp [Ledger.answer, h.recorded]

end Controllers

/-- **Any number of calls**, each of them answered at once. -/
theorem AllTaken.answers (command : SubmissionQueueEntry) (hC : C.Answers P)
    (hbar : P.bar.Covers i.number P.stride) (n : Nat)
    (h : AllTaken P i l q w) :
    ∃ q' w' l', (machine P C Always).Reaches
        (submitAll P i (List.replicate n command) q, w) (.pure (.ok (), q'), w') ∧
      AllTaken P i l' q' w' ∧ l'.submitted = l.submitted + n ∧ l'.live = l.live := by
  induction n generalizing l q w with
  | zero => exact ⟨q, w, l, .refl, h, rfl, rfl⟩
  | succ n ih =>
    -- the controller answers one command, and then the others
    obtain ⟨q₁, w₁, hreach, h₁⟩ := h.answered command allowsNonSqes_always hbar trivial hC
    obtain ⟨q', w', l', hrest, h', hsubmitted, hlive⟩ := ih h₁
    refine ⟨q', w', l', submitAll_cons_reaches _ hreach hrest, h', ?_, hlive⟩
    rw [hsubmitted]
    change l.submitted + 1 + n = l.submitted + (n + 1)
    omega

/-! ### A machine to run on -/

theorem zero_fits : (0 : UInt64).toNat + HUGE_PAGE_SIZE ≤ U64_SIZE := by decide

theorem four_pos : 0 < 4 := by decide

/-- The hugepage lies at bus address 0, and the BAR has two pages. -/
def Platform.twoPages : Platform := ⟨⟨0, zero_fits⟩, 8192, 4, four_pos⟩

theorem Platform.twoPages_covers (i : QueueId) :
    twoPages.bar.Covers i.number twoPages.stride := by
  cases i with
  | admin => exact covers_twoPages.1
  | io => exact covers_twoPages.2

/-- An enabled controller before its first command, over zeroed memory. -/
def World.zeroed : World where
  mem := fun _ => 0
  ring := fun _ => .fresh
  enabled := true
  disk := fun _ => 0
  released := none
  current := none
  calls := []
  issuedBy := fun _ => none
  transfers := []

theorem World.fresh_zeroed (P : Platform) (i : QueueId) : Fresh P i .zeroed where
  ring := rfl
  zeroed := fun s _ => by
    rw [Mem.read, World.zeroed, List.map_const', List.length_range]

end Nvmetoy
