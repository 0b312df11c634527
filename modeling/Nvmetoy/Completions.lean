import Nvmetoy.ScheduledRuns

/-!
# Which completion a call takes

The controller here may post any completion at any time (`anyController`), as long as it
follows the completion ring: consecutive slots, phase tags that flip on each wrap, and never
into a full ring.

* `Journal` — the records of the calls of a run: the `k`-th call carried identifier `k`, and
  it has taken the completion after those that the calls before it have taken, or none was
  posted.
* `completions_in_order` — what the calls take is a prefix of what was posted.
* `takes_oldest` — a call ends with the oldest completion that is left, whether it is its own
  or not; every call that has timed out leaves the later ones one completion behind.
-/

namespace Nvmetoy

open Framework Machine NvmeUserspaceDriver

namespace SubmitRecord

/-- The call has taken a completion. -/
def took (record : SubmitRecord) : Bool :=
  match record.result with
  | .error .pollTimeout => false
  | _ => true

/-- The record tells what the call has found, among the completions that were taken. -/
def Told (record : SubmitRecord) (taken : List CompletionQueueEntry) : Prop :=
  (∃ c, taken[record.before]? = some c ∧ record.before < record.seen ∧
      record.result = resultOf record.cid c) ∨
    record.result = .error .pollTimeout ∧ record.seen = record.before

variable {record : SubmitRecord}

/-- A call that was given a completion has taken one. -/
theorem took_of_resultOf {cid : UInt16} {c : CompletionQueueEntry}
    (h : record.result = resultOf cid c) : record.took = true := by
  unfold took
  rw [h]
  unfold resultOf
  by_cases hcid : c.cid = cid
  · rw [if_pos hcid]
  · rw [if_neg hcid]

theorem took_of_timeout (h : record.result = .error .pollTimeout) : record.took = false := by
  unfold took
  rw [h]

/-- What was told stays told, as more completions are taken. -/
theorem Told.mono {taken more : List CompletionQueueEntry} (h : record.Told taken) :
    record.Told (taken ++ more) := by
  rcases h with ⟨c, hc, h⟩ | h
  · refine .inl ⟨c, ?_, h⟩
    rw [List.getElem?_append_left (List.getElem?_eq_some_iff.mp hc).1]
    exact hc
  · exact .inr h

/-- The record is the `k`-th of its ring. -/
structure Entered (record : SubmitRecord) (k : Nat) (r : Ring) : Prop where
  number : record.number = k
  cid : record.cid = .ofNat k
  before : record.before = (r.records.take k).countP took
  told : record.Told r.taken

end SubmitRecord

/-- The records of a ring, in order. -/
def Journal (r : Ring) : Prop :=
  ∀ (k : Nat) (record : SubmitRecord), r.records[k]? = some record → record.Entered k r

/-- Between two calls: `S` have ended, and `T` of them have taken a completion. -/
structure Closed (T S : Nat) (r : Ring) : Prop where
  journal : Journal r
  length : r.records.length = S
  took : r.records.countP SubmitRecord.took = T

/-- In a call that has begun. -/
structure Opened (T S : Nat) (r : Ring) : Prop extends Closed T S r where
  begun : r.begun = T

/-- In a call whose command has been written. -/
structure Issued (T S : Nat) (r : Ring) : Prop extends Opened T S r where
  cid : r.cid = .ofNat S

section Steps

variable {r r' : Ring} {T S : Nat}

/-- Only the records and what was taken count. -/
theorem Journal.congr (h : Journal r) (hrecords : r'.records = r.records)
    (htaken : r'.taken = r.taken) : Journal r' := by
  intro k record hk
  rw [hrecords] at hk
  obtain ⟨hnumber, hcid, hbefore, htold⟩ := h k record hk
  exact ⟨hnumber, hcid, hrecords ▸ hbefore, htaken ▸ htold⟩

theorem Closed.congr (h : Closed T S r) (hrecords : r'.records = r.records)
    (htaken : r'.taken = r.taken) : Closed T S r' :=
  ⟨h.journal.congr hrecords htaken, hrecords ▸ h.length, hrecords ▸ h.took⟩

/-- Between the calls the controller changes neither the records nor what was taken. -/
theorem Closed.later (hr : r.Later r') (h : Closed T S r) : Closed T S r' :=
  h.congr hr.records hr.taken

theorem Opened.later (hr : r.Later r') (h : Opened T S r) : Opened T S r' :=
  ⟨h.toClosed.later hr, hr.begun.trans h.begun⟩

theorem Issued.later (hr : r.Later r') (h : Issued T S r) : Issued T S r' :=
  ⟨h.toOpened.later hr, hr.cid.trans h.cid⟩

/-- Taking a completion changes no record. -/
theorem Issued.ringHead (h : Issued T S r) (head : Nat) : Issued T S (r.ringHead head) where
  journal := fun k record hk =>
    let ⟨hnumber, hcid, hbefore, htold⟩ := h.journal k record hk
    ⟨hnumber, hcid, hbefore, htold.mono⟩
  length := h.length
  took := h.took
  begun := h.begun
  cid := h.cid

/-- **The end of a call** adds its record. -/
theorem Issued.endSubmit (h : Issued T S r)
    (result : Except IoError CompletionQueueEntry) (hsubmitted : r.submitted = S + 1)
    (htold : (⟨S, .ofNat S, T, r.seen, result⟩ : SubmitRecord).Told r.taken) :
    Closed (if (⟨S, .ofNat S, T, r.seen, result⟩ : SubmitRecord).took then T + 1 else T) (S + 1)
      (r.endSubmit result) := by
  have hrecords : (r.endSubmit result).records =
      r.records ++ [(⟨S, .ofNat S, T, r.seen, result⟩ : SubmitRecord)] := by
    -- the record of this call is the last
    rw [Ring.endSubmit, hsubmitted, h.cid, h.begun, Nat.add_sub_cancel]
  refine ⟨fun k record hk => ?_, ?_, ?_⟩
  · rw [hrecords] at hk
    -- the records before this call, its own, and none after
    rcases Nat.lt_trichotomy k S with hlt | rfl | hgt
    · rw [List.getElem?_append_left (h.length.symm ▸ hlt)] at hk
      obtain ⟨hnumber, hcid, hbefore, hold⟩ := h.journal k record hk
      refine ⟨hnumber, hcid, ?_, hold⟩
      rw [hrecords, List.take_append_of_le_length (h.length.symm ▸ hlt.le)]
      exact hbefore
    · -- this call
      rw [← h.length, List.getElem?_concat_length] at hk
      obtain rfl := Option.some.inj hk
      refine ⟨h.length, by rw [h.length], ?_, ?_⟩
      · rw [hrecords, List.take_append_of_le_length h.length.ge, ← h.length, List.take_length]
        exact h.took.symm
      · rw [h.length]
        exact htold
    · rw [List.getElem?_eq_none (by simp [h.length]; omega)] at hk
      cases hk
  · rw [hrecords, List.length_append, h.length, List.length_singleton]
  · rw [hrecords, List.countP_append, h.took, List.countP_singleton]
    split <;> rfl

end Steps

/-! ### The run -/

section Run

variable {P : Platform} {i : QueueId} {C : Behaviour} {w w₀ : World}

/-- Assertions on what the driver has done to a ring are carried along. -/
theorem carried_of_later {K : World → Prop} {F : Ring → Prop} (hC : C.Keeps P K)
    (hK : ∀ w, F (w.ring i) → K w) (hF : ∀ r r', Ring.Later r r' → F r → F r') :
    Carried P C i K fun w => F (w.ring i) :=
  ⟨fun w hw => hK w hw, fun w _ _ hw henv =>
    hF _ _ (henv.ringStep hC (hK w hw) i).later hw⟩

/-- The journal of a queue is carried through every run. -/
theorem journal_frame (P : Platform) (i : QueueId) :
    RunFrame P (anyController P) Always i (fun w => Journal (w.ring i))
      (fun T S _ w => Closed T S (w.ring i)) (fun T S _ w => Opened T S (w.ring i))
      (fun T S _ w => Issued T S (w.ring i)) (fun T S _ w => Issued T S (w.ring i))
      (fun T S _ _ w => Issued T S (w.ring i)) := by
  have hC := anyController_keeps (P := P) fun w => Journal (w.ring i)
  have hissued (T S : Nat) := carried_of_later (F := Issued T S) hC (fun w h => h.journal)
    fun r r' => Issued.later
  refine ⟨fun T S E => ?_, fun T S E w hat hj _ => ?_, fun T S E command => ?_,
    fun T S E => ?_, fun T S E w c hat htook hj => ?_, fun T S E w hat hseen hj => ?_⟩
  -- between two calls, and at the beginning of one
  · exact carried_of_later (F := Closed T S) hC (fun w h => h.journal) fun r r' => Closed.later
  · rw [World.mark, World.setRing_ring_self]
    exact ⟨hj.congr rfl rfl, hat.taken⟩
  -- the submission
  · have hslot : S % QUEUE_DEPTH < QUEUE_DEPTH := Nat.mod_lt _ (by decide)
    refine ⟨?_, hissued T S, hissued T S, fun w hat hj _ => ?_, fun w hat hj => ?_⟩
    · exact carried_of_later (F := Opened T S) hC (fun w h => h.journal) fun r r' => Opened.later
    · rw [storeSqe_ring hslot]
      exact ⟨⟨hj.toClosed.congr rfl rfl, hj.begun⟩, rfl⟩
    · rw [World.setRing_ring_self]
      exact ⟨⟨hj.toClosed.congr rfl rfl, hj.begun⟩, hj.cid⟩
  -- the poll loop
  · have hslot : T % QUEUE_DEPTH < QUEUE_DEPTH := Nat.mod_lt _ (by decide)
    refine ⟨hissued T S, fun c => hissued T S, fun w c E hat hj => ?_, fun w E hat hj _ => ?_⟩
    · rw [pollCqe_ring hslot]
      exact ⟨⟨hj.toClosed.congr rfl rfl, hj.begun⟩, hj.cid⟩
    · rw [World.setRing_ring_self]
      exact hj.ringHead _
  -- the call has ended, with a completion or without
  · have hend := hj.endSubmit (resultOf (.ofNat S) c) hat.submitted
      (.inl ⟨c, htook.1, htook.2, rfl⟩)
    rw [SubmitRecord.took_of_resultOf rfl] at hend
    rw [World.mark, World.setRing_ring_self]
    exact hend
  · have hend := hj.endSubmit (.error .pollTimeout) hat.submitted (.inr ⟨rfl, hseen⟩)
    rw [SubmitRecord.took_of_timeout rfl] at hend
    rw [World.mark, World.setRing_ring_self]
    exact hend

/-- What holds in every world a run reaches. -/
theorem submitAll_journal (h : Fresh P i w₀) {commands : List SubmissionQueueEntry}
    {c : Config Op Res World (Outcome IoError Unit × QueuePair)}
    (hc : (machine P (anyController P) Always).Reaches
      (submitAll P i commands i.queuePair, w₀) c) :
    RingOk P i c.2 ∧ Journal (c.2.ring i) := by
  have hclosed : Closed 0 0 (w₀.ring i) := by
    rw [h.ring]
    exact ⟨fun k record hk => by simp [Ring.fresh] at hk, rfl, rfl⟩
  exact (submitAll_triple (anyController_keeps _) (journal_frame P i) commands i.queuePair w₀
    ⟨0, 0, 0, .queuePair i, h.at, hclosed⟩ c hc).1

/-- **Exactly once, in order.** In every world that a run can reach, the completions that were
taken are the first of those that were posted, in order; and each call that has ended has
taken the next one, or, if there was none at its last poll, has timed out. -/
theorem completions_in_order (P : Platform) (i : QueueId) (w₀ : World) (h : Fresh P i w₀)
    (commands : List SubmissionQueueEntry)
    (c : Config Op Res World (Outcome IoError Unit × QueuePair))
    (hc : (machine P (anyController P) Always).Reaches
      (submitAll P i commands i.queuePair, w₀) c) :
    (c.2.ring i).taken <+: (c.2.ring i).posted.map Prod.fst ∧
      ∀ (k : Nat) (record : SubmitRecord), (c.2.ring i).records[k]? = some record →
        record.before = ((c.2.ring i).records.take k).countP SubmitRecord.took ∧
          record.Told (c.2.ring i).taken := by
  obtain ⟨hok, hjournal⟩ := submitAll_journal h hc
  refine ⟨?_, fun k record hk => ⟨(hjournal k record hk).before, (hjournal k record hk).told⟩⟩
  -- what was taken is as much of the posted completions as there are takers
  rw [hok.taken]
  exact List.take_prefix _ _

/-- One command, answered. -/
theorem completions_in_order_one : ∃ c : Config Op Res World (Outcome IoError Unit × QueuePair),
    (machine .twoPages (anyController .twoPages) Always).Reaches
        (submitAll .twoPages .io [nvmeRead 1 0 0 0 0] QueueId.io.queuePair, World.zeroed) c ∧
      (c.2.ring .io).taken <+: (c.2.ring .io).posted.map Prod.fst ∧
      ∃ record, (c.2.ring .io).records = [record] ∧ record.before = 0 ∧
        record.Told (c.2.ring .io).taken := by
  have hfresh := World.fresh_zeroed .twoPages .io
  obtain ⟨q', w', hreach, hallTaken⟩ := (hfresh.allTaken rfl).answered (nvmeRead 1 0 0 0 0)
    allowsNonSqes_always (Platform.twoPages_covers .io) trivial anyController_answers
  have hall := submitAll_cons_reaches [] hreach .refl
  obtain ⟨hfirst, htold⟩ := completions_in_order .twoPages .io .zeroed hfresh _ _ hall
  have hrecords := hallTaken.records
  refine ⟨_, hall, hfirst, _, hrecords, rfl, (htold 0 _ ?_).2⟩
  rw [hrecords]
  rfl

/-- What the first calls have not taken, they have timed out on. -/
theorem countP_took (records : List SubmitRecord) :
    records.countP SubmitRecord.took + records.countP (fun record => !record.took) =
      records.length := by
  rw [List.length_eq_countP_add_countP SubmitRecord.took]
  congr 2
  funext record
  cases record.took <;> rfl

/-- The completion that a call has taken is one of those posted. -/
theorem SubmitRecord.Told.posted {record : SubmitRecord} (hok : RingOk P i w)
    (htold : record.Told (w.ring i).taken) (htook : record.result ≠ .error .pollTimeout) :
    ∃ oldest, ((w.ring i).posted.map Prod.fst)[record.before]? = some oldest ∧
      record.result = resultOf record.cid oldest := by
  rcases htold with ⟨oldest, htaken, -, hresult⟩ | ⟨htimeout, -⟩
  · -- the completions taken are the first of those posted
    rw [hok.taken, List.getElem?_take] at htaken
    split at htaken
    · exact ⟨oldest, htaken, hresult⟩
    · cases htaken
  · exact absurd htimeout htook

/-- **The oldest completion.** The call after `k` others is one completion behind for each of
them that has timed out. Unless it times out too, it ends as the oldest completion has it that
those have left. If the one with its own identifier has been posted in time, it does not time out,
and it is answered with that one exactly when nothing stale stands before it. -/
theorem takes_oldest (P : Platform) (i : QueueId) (w₀ : World) (h : Fresh P i w₀)
    (commands : List SubmissionQueueEntry)
    (c : Config Op Res World (Outcome IoError Unit × QueuePair))
    (hc : (machine P (anyController P) Always).Reaches
      (submitAll P i commands i.queuePair, w₀) c) (k : Nat) (record : SubmitRecord)
    (hrecord : (c.2.ring i).records[k]? = some record) :
    record.before + ((c.2.ring i).records.take k).countP (fun r => !r.took) = k ∧
      (record.result ≠ .error .pollTimeout →
        ∃ oldest, ((c.2.ring i).posted.map Prod.fst)[record.before]? = some oldest ∧
          record.result = resultOf record.cid oldest) ∧
      ∀ (j : Nat) (own : CompletionQueueEntry),
        ((c.2.ring i).posted.map Prod.fst)[j]? = some own → own.cid = record.cid →
        record.before ≤ j → j < record.seen →
          ∃ oldest, ((c.2.ring i).posted.map Prod.fst)[record.before]? = some oldest ∧
            record.result = resultOf record.cid oldest ∧
            (j = record.before → record.result = .ok own) := by
  obtain ⟨hok, hjournal⟩ := submitAll_journal h hc
  obtain ⟨-, -, hbefore, htold⟩ := hjournal k record hrecord
  refine ⟨?_, htold.posted hok, fun j own hj hcid hle hseen => ?_⟩
  · have hk : k < (c.2.ring i).records.length := (List.getElem?_eq_some_iff.mp hrecord).1
    -- of the calls so far, those that took a completion and those that did not
    rw [hbefore, countP_took, List.length_take]
    omega
  · have htook : record.result ≠ .error .pollTimeout := by
      rcases htold with ⟨oldest, -, -, hresult⟩ | ⟨-, hnone⟩
      · intro htimeout
        exact absurd (SubmitRecord.took_of_resultOf hresult)
          (by rw [SubmitRecord.took_of_timeout htimeout]; decide)
      · -- it has seen more than was taken
        omega
    obtain ⟨oldest, hposted, hresult⟩ := htold.posted hok htook
    refine ⟨oldest, hposted, hresult, fun heq => ?_⟩
    -- the oldest is its own
    rw [heq, hposted] at hj
    obtain rfl := Option.some.inj hj
    rw [hresult, resultOf, if_pos hcid]

/-- Two calls: the first one times out, and both completions are there when the second one
polls. -/
theorem late_run (hC : C.Answers .twoPages) (command : SubmissionQueueEntry) :
    ∃ (c : Config Op Res World (Outcome IoError Unit × QueuePair)) (record : SubmitRecord)
      (late own : CompletionQueueEntry),
      (machine .twoPages C Always).Reaches (submitAll .twoPages .io [command, command]
        QueueId.io.queuePair, World.zeroed) c ∧
      (c.2.ring .io).records[1]? = some record ∧ record.number = 1 ∧ record.cid = 1 ∧
      record.before = 0 ∧ record.seen = 2 ∧ late.cid = 0 ∧ own.cid = 1 ∧
      (c.2.ring .io).posted = [(late, 0), (own, 1)] ∧ record.result = resultOf 1 late := by
  have hbar := Platform.twoPages_covers .io
  -- the first call finds nothing
  obtain ⟨q₁, w₁, seen, hfirst, h₁⟩ := ((World.fresh_zeroed .twoPages .io).allTaken rfl).expires
    (C := C) command allowsNonSqes_always hbar trivial
  obtain ⟨w₂, hfetch, hunder⟩ := h₁.toAtLedger.fetch (C := C) h₁.fetched command
  -- both completions are posted while the second polls, the late one first
  obtain ⟨w₃, hlate, hunder⟩ := hunder.post 0 0 _ hC.keeps
    (show 0 + 1 < 0 + QUEUE_DEPTH by decide)
    (hC.may _ _ _ _ ⟨[], _, _, hunder.live, rfl, rfl, rfl⟩)
  obtain ⟨w₄, hown, hunder⟩ := hunder.post 1 1 _ hC.keeps
    (show 1 + 1 < 0 + QUEUE_DEPTH by decide)
    (hC.may _ _ _ _ ⟨[], _, _, hunder.live, rfl, rfl, rfl⟩)
  obtain ⟨w₅, hsecond, h₅⟩ := hunder.takes allowsNonSqes_always hbar h₁.driven trivial
    (.tail (.tail (.single hfetch) hlate) hown) rfl rfl rfl
  refine ⟨_, ⟨1, 1, 0, 2, _⟩, _, _, submitAll_cons_reaches _ hfirst
    (submitAll_cons_reaches [] hsecond .refl), ?_, rfl, rfl, rfl, rfl, rfl, rfl, h₅.posted, rfl⟩
  rw [h₅.records]
  rfl

/-- The completion of the second call is posted in time, and the call fails with the one that
was left by the first. -/
theorem late_completion_lost : ∃ (c : Config Op Res World (Outcome IoError Unit × QueuePair))
    (record : SubmitRecord) (late own : CompletionQueueEntry),
    (machine .twoPages (answeringController .twoPages) Always).Reaches
        (submitAll .twoPages .io [nvmeRead 1 0 0 0 0, nvmeRead 1 0 0 0 0] QueueId.io.queuePair,
          World.zeroed) c ∧
      (c.2.ring .io).records[1]? = some record ∧
      (c.2.ring .io).posted = [(late, 0), (own, record.number)] ∧ own.cid = record.cid ∧
      record.before ≤ 1 ∧ 1 < record.seen ∧
      record.result = .error (.cidMismatch late.cid record.cid) := by
  -- the first call times out, and its completion is posted afterwards
  obtain ⟨c, record, late, own, hreach, hrecord, hnumber, hcid, hbefore, hseen, hlate, hown,
    hposted, hresult⟩ := late_run (C := answeringController .twoPages) answeringController_answers
      (nvmeRead 1 0 0 0 0)
  refine ⟨c, record, late, own, hreach, hrecord, ?_, ?_, ?_, ?_, ?_⟩
  · rw [hnumber, hposted]
  · rw [hown, hcid]
  · omega
  · omega
  · rw [hresult, hlate, hcid, resultOf, hlate]
    rfl

/-- The second call is one behind, and ends as the first one's completion has it. -/
theorem takes_oldest_late : ∃ (c : Config Op Res World (Outcome IoError Unit × QueuePair))
    (record : SubmitRecord) (late : CompletionQueueEntry),
    record.before + ((c.2.ring .io).records.take 1).countP (fun r => !r.took) = 1 ∧
      record.before = 0 ∧ late.cid = 0 ∧ record.result = resultOf 1 late := by
  obtain ⟨c, record, late, own, hreach, hrecord, hnumber, hcid, hbefore, hseen, hlate, hown,
    hposted, hresult⟩ := late_run (C := anyController .twoPages) anyController_answers
      (nvmeRead 1 0 0 0 0)
  obtain ⟨hbehind, -, htakes⟩ :=
    takes_oldest .twoPages .io .zeroed (World.fresh_zeroed _ _) _ c hreach 1
    record hrecord
  obtain ⟨oldest, holdest, hres, -⟩ := htakes 1 own (by rw [hposted]; rfl) (by rw [hown, hcid])
    (by omega) (by omega)
  -- the oldest completion is the late one
  rw [hposted, hbefore] at holdest
  obtain rfl := Option.some.inj holdest
  exact ⟨c, record, late, hbehind, hbefore, hlate, hcid ▸ hres⟩

end Run

end Nvmetoy
