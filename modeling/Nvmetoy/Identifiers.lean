import Nvmetoy.Completions

/-!
# Whose completion a call returns

A call tells its own completion by the command identifier alone, a 16-bit counter that comes
round after 65536 commands, and takes completions in the order they are posted. The controller
here answers every command it has fetched, with the command's own identifier, as late as it
likes and in any order (`answeringController`).

* `Outstanding` — an identifier is in use: a command that carries it waits in the submission
  ring, is in the controller's hands, or has its completion posted and not taken. No step of
  the controller brings one into use (`Outstanding.step`).
* `answered_by_own_command` — where no command is written under an identifier in use
  (`FreshCid`), every call that returns `Ok` returns the completion of its own command. The
  invariant is that during a call nothing in use carries its identifier but its own command
  (`sole_carried`).
* `answered_by_first_command` — otherwise it may not: the first command, completed 65536
  commands late, answers for the one that has its identifier.
-/

namespace Nvmetoy

open Framework Machine NvmeUserspaceDriver

variable {P : Platform} {C : Behaviour} {i : QueueId} {w w' w₀ : World} {cid : UInt16}
  {n T S E : Nat}

/-- The slot holds a command that was rung for and has not been fetched. -/
def Ring.Pending (r : Ring) (s : Nat) : Prop :=
  (s + QUEUE_DEPTH - r.sqHead) % QUEUE_DEPTH < (r.sqTail + QUEUE_DEPTH - r.sqHead) % QUEUE_DEPTH

/-- Command `n` carries the identifier, and is not done with. -/
inductive Outstanding (P : Platform) (i : QueueId) (w : World) (cid : UInt16) (n : Nat) : Prop where
  | pending (s : Nat) (hs : s < QUEUE_DEPTH) (h : (w.ring i).Pending s)
      (hcid : (w.sqe P i s).cid = cid) (hissuer : (w.ring i).issuer s = n)
  | live (command : FetchedCommand) (h : command ∈ (w.ring i).live)
      (hcid : command.entry.cid = cid) (hnumber : command.number = n)
  | posted (j : Nat) (c : CompletionQueueEntry) (h : (w.ring i).posted[j]? = some (c, n))
      (hj : (w.ring i).taken.length ≤ j) (hcid : c.cid = cid)

/-- No command is written under an identifier in use. -/
def FreshCid (P : Platform) (i : QueueId) : Op → World → Prop
  | .writeSqe _ entry, w => ∀ m, ¬ Outstanding P i w entry.cid m
  | _, _ => True

section Pending

variable {r : Ring} {s : Nat}

/-- What a fetch leaves to fetch. -/
theorem Ring.Pending.of_fetch {entry : SubmissionQueueEntry} (hhead : r.sqHead < QUEUE_DEPTH)
    (htail : r.sqTail < QUEUE_DEPTH) (hne : r.sqHead ≠ r.sqTail) (hs : s < QUEUE_DEPTH)
    (h : (r.fetch entry).Pending s) : r.Pending s := by
  unfold Pending fetch QUEUE_DEPTH at *
  dsimp only at h
  omega

/-- What a fetch takes was there to fetch. -/
theorem Ring.pending_head (hhead : r.sqHead < QUEUE_DEPTH) (htail : r.sqTail < QUEUE_DEPTH)
    (hne : r.sqHead ≠ r.sqTail) : r.Pending r.sqHead := by
  unfold Pending QUEUE_DEPTH at *
  omega

/-- Ringing adds the slot at the tail. -/
theorem Ring.Pending.of_ringTail {t : Nat} (hhead : r.sqHead < QUEUE_DEPTH)
    (htail : r.sqTail = t % QUEUE_DEPTH) (hs : s < QUEUE_DEPTH)
    (h : (r.ringTail ((t + 1) % QUEUE_DEPTH)).Pending s) :
    r.Pending s ∨ s = t % QUEUE_DEPTH := by
  unfold Pending ringTail QUEUE_DEPTH at *
  dsimp only at h
  omega

/-- The slot at the tail is free. -/
theorem Ring.not_pending_tail : ¬ r.Pending r.sqTail := by
  unfold Pending QUEUE_DEPTH at *
  omega

end Pending

/-- The controller brings no identifier into use. -/
theorem Outstanding.step (h : Outstanding P i w' cid n) (hindex : Indexed (w.ring i))
    (hstep : RingStep P (answeringController P) i w w') : Outstanding P i w cid n := by
  cases hstep with
  | keep hkeep =>
    have hrest := hkeep.ring.rest
    cases h with
    | pending s hs h hcid hissuer =>
      rw [hkeep.sqe s hs] at hcid
      rw [hrest] at h hissuer
      exact .pending s hs h hcid hissuer
    | live command h hcid hnumber =>
      -- only the status of a command may be another
      have hmem : (command.number, command.entry) ∈
          (w'.ring i).live.map fun c => (c.number, c.entry) := List.mem_map_of_mem h
      rw [hkeep.ring.live] at hmem
      obtain ⟨command', h', heq⟩ := List.mem_map.mp hmem
      obtain ⟨hnumber', hentry⟩ := Prod.mk.inj heq
      exact .live command' h' (hentry ▸ hcid) (hnumber'.trans hnumber)
    | posted j c h hj hcid =>
      rw [hrest] at h hj
      exact .posted j c h hj hcid
  | fetch hpending hring hsqe hcqe =>
    cases h with
    | pending s hs h hcid hissuer =>
      rw [hring] at h hissuer
      rw [hsqe s hs] at hcid
      exact .pending s hs (h.of_fetch hindex.head hindex.tail hpending hs) hcid hissuer
    | live command h hcid hnumber =>
      rw [hring] at h
      rcases List.mem_append.mp h with h | h
      · exact .live command h hcid hnumber
      -- the command that was fetched had been waiting
      · obtain rfl := List.mem_singleton.mp h
        exact .pending _ hindex.head (Ring.pending_head hindex.head hindex.tail hpending) hcid
          hnumber
    | posted j c h hj hcid =>
      rw [hring] at h hj
      exact .posted j c h hj hcid
  -- completing a command takes it from those in hand to the completions
  | post c k live hroom hphase hmay hring hsqe hnew hcqe =>
    obtain ⟨before, command, after, hlive, rfl, rfl, hcommand⟩ := hmay
    cases h with
    | pending s hs h hcid hissuer =>
      rw [hring] at h hissuer
      rw [hsqe s hs] at hcid
      exact .pending s hs h hcid hissuer
    | live command' h hcid hnumber =>
      rw [hring] at h
      refine .live command' ?_ hcid hnumber
      rw [hlive]
      rcases List.mem_append.mp h with h | h
      · exact List.mem_append_left _ h
      · exact List.mem_append_right _ (List.mem_cons_of_mem _ h)
    | posted j c' h hj hcid =>
      rw [hring] at h hj
      rcases Nat.lt_or_ge j (w.ring i).posted.length with hlt | hge
      · rw [Ring.post, List.getElem?_append_left hlt] at h
        exact .posted j c' h hj hcid
      -- the completion that was posted is for a command that was in hand
      · rw [Ring.post, List.getElem?_append_right hge] at h
        obtain ⟨_, heq⟩ := List.getElem?_eq_some_iff.mp h
        rw [List.getElem_singleton] at heq
        obtain ⟨rfl, hnumber⟩ := Prod.mk.inj heq
        exact .live command (by rw [hlive]; simp) (hcommand ▸ hcid) hnumber

/-! ### What the driver does -/

/-- The driver brings no identifier into use by taking completions. -/
theorem Outstanding.congr (h : Outstanding P i w' cid n)
    (hsqe : ∀ s, s < QUEUE_DEPTH → w'.sqe P i s = w.sqe P i s)
    (hhead : (w'.ring i).sqHead = (w.ring i).sqHead)
    (htail : (w'.ring i).sqTail = (w.ring i).sqTail)
    (hissuer : (w'.ring i).issuer = (w.ring i).issuer) (hlive : (w'.ring i).live = (w.ring i).live)
    (hposted : (w'.ring i).posted = (w.ring i).posted)
    (htaken : (w.ring i).taken.length ≤ (w'.ring i).taken.length) : Outstanding P i w cid n := by
  -- where the command is found: in a slot, with the controller, or among the completions
  cases h with
  | pending s hs h hcid heq =>
    unfold Ring.Pending at h
    rw [hhead, htail] at h
    rw [hsqe s hs] at hcid
    exact .pending s hs h hcid (hissuer ▸ heq)
  | live command h hcid hnumber => exact .live command (hlive ▸ h) hcid hnumber
  | posted j c h hj hcid => exact .posted j c (hposted ▸ h) (htaken.trans hj) hcid

/-- A store leaves every other slot as it was. -/
theorem storeSqe_sqe_of_ne {s k : Nat} {entry : SubmissionQueueEntry} (hne : k ≠ s) :
    (w.storeSqe P (i.submissionOffset + 64 * s) entry).sqe P i k = w.sqe P i k := by
  refine World.sqe_congr fun x hx hlt => Mem.write_of_outside ?_
  have hlen : entry.encode.length = 64 := entry.length_encode
  simp only [World.address, hlen] at hx hlt ⊢
  omega

/-- A command that is written at the tail is not in use before it is rung for. -/
theorem Outstanding.of_storeSqe {entry : SubmissionQueueEntry}
    (htail : (w.ring i).sqTail = S % QUEUE_DEPTH)
    (h : Outstanding P i (w.storeSqe P (i.submissionOffset + 64 * (S % QUEUE_DEPTH)) entry) cid n) :
    Outstanding P i w cid n := by
  have hslot : S % QUEUE_DEPTH < QUEUE_DEPTH := Nat.mod_lt _ (by decide)
  have hring : (w.storeSqe P (i.submissionOffset + 64 * (S % QUEUE_DEPTH)) entry).ring i = _ :=
    storeSqe_ring hslot
  cases h with
  | pending s hs h hcid hissuer =>
    rw [hring] at h hissuer
    have hpending : (w.ring i).Pending s := h
    -- the slot that is written is the one at the tail, where nothing waits
    have hne : s ≠ S % QUEUE_DEPTH := by
      rintro rfl
      rw [← htail] at hpending
      exact Ring.not_pending_tail hpending
    rw [storeSqe_sqe_of_ne hne] at hcid
    rw [Ring.store] at hissuer
    dsimp only at hissuer
    rw [if_neg hne] at hissuer
    exact .pending s hs hpending hcid hissuer
  | live command h hcid hnumber =>
    rw [hring] at h
    exact .live command h hcid hnumber
  | posted j c h hj hcid =>
    rw [hring] at h hj
    exact .posted j c h hj hcid

/-- Ringing for a command brings its identifier into use, for it alone. -/
theorem Outstanding.of_ringTail (hindex : Indexed (w.ring i))
    (htail : (w.ring i).sqTail = S % QUEUE_DEPTH)
    (h : Outstanding P i (w.setRing i ((w.ring i).ringTail ((S + 1) % QUEUE_DEPTH))) cid n) :
    Outstanding P i w cid n ∨ n = (w.ring i).issuer (S % QUEUE_DEPTH) := by
  cases h with
  | pending s hs h hcid hissuer =>
    rw [World.setRing_ring_self] at h hissuer
    -- the slot was waiting before, or is the one that the doorbell hands over
    rcases h.of_ringTail hindex.head htail hs with h | rfl
    · exact .inl (.pending s hs h hcid hissuer)
    · exact .inr hissuer.symm
  | live command h hcid hnumber =>
    rw [World.setRing_ring_self] at h
    exact .inl (.live command h hcid hnumber)
  | posted j c h hj hcid =>
    rw [World.setRing_ring_self] at h hj
    exact .inl (.posted j c h hj hcid)

/-! ### The run -/

/-- Every call that has returned `Ok` returned the completion of its own command. -/
def Attributed (r : Ring) : Prop :=
  ∀ record ∈ r.records, ∀ c, record.result = .ok c →
    r.posted[record.before]? = some (c, record.number)

/-- What is said of each call stays true as completions are added. -/
theorem Attributed.later {r r' : Ring} (hr : r.Later r') (h : Attributed r) : Attributed r' := by
  intro record hmem c hc
  rw [hr.records] at hmem
  have hposted := h record hmem c hc
  obtain ⟨more, hmore⟩ := hr.posted
  rw [← hmore, List.getElem?_append_left (List.getElem?_eq_some_iff.mp hposted).1]
  exact hposted

/-- What holds of a ring throughout. -/
structure Owned (r : Ring) : Prop where
  attributed : Attributed r
  indexed : Indexed r

theorem Owned.step (h : Owned (w.ring i)) (hstep : RingStep P C i w w') : Owned (w'.ring i) :=
  ⟨h.attributed.later hstep.later, h.indexed.step hstep⟩

theorem Owned.congr {r r' : Ring} (h : Owned r) (hrecords : r'.records = r.records)
    (hposted : r'.posted = r.posted) (hindexed : Indexed r') : Owned r' where
  attributed := fun record hmem c hc => by
    rw [hposted]
    exact h.attributed record (hrecords ▸ hmem) c hc
  indexed := hindexed

/-- So the owners are carried through a call. -/
theorem owned_carried {F : Ring → Prop} (hF : ∀ r r', Ring.Later r r' → F r → F r') :
    Carried P (answeringController P) i (fun w => Attributed (w.ring i))
      fun w => F (w.ring i) ∧ Owned (w.ring i) where
  inv := fun _ h => h.2.attributed
  step := fun _ _ _ h henv =>
    have hstep := henv.ringStep (answeringController_keeps fun _ => True) trivial i
    ⟨hF _ _ hstep.later h.1, h.2.step hstep⟩

/-- A property of what is in use is carried along, as the controller brings nothing into use. -/
theorem sole_carried {F : Ring → Prop} (hF : ∀ r r', Ring.Later r r' → F r → F r')
    (cid : UInt16) (φ : Nat → Prop) :
    Carried P (answeringController P) i (fun w => Attributed (w.ring i))
      fun w => (F (w.ring i) ∧ Owned (w.ring i)) ∧ ∀ m, Outstanding P i w cid m → φ m where
  inv := fun _ h => h.1.2.attributed
  step := fun w w' hok h henv =>
    ⟨(owned_carried hF).step w w' hok h.1 henv, fun m hm => h.2 m (hm.step h.1.2.indexed
      (henv.ringStep (answeringController_keeps fun _ => True) trivial i))⟩

/-- The call that ends has its own completion, if it has one. -/
theorem Attributed.endSubmit {r : Ring} (h : Attributed r) (hissued : Issued T S r)
    (hsubmitted : r.submitted = S + 1) {result : Except IoError CompletionQueueEntry}
    (hresult : ∀ c, result = .ok c → r.posted[T]? = some (c, S)) :
    Attributed (r.endSubmit result) := by
  intro record hmem c hc
  rw [Ring.endSubmit] at hmem
  rcases List.mem_append.mp hmem with hmem | hmem
  · exact h record hmem c hc
  · obtain rfl := List.mem_singleton.mp hmem
    dsimp only at hc ⊢
    rw [hissued.begun, hsubmitted, Nat.add_sub_cancel]
    exact hresult c hc

/-- What is carried through a run: before the command of a call is written its identifier is
not in use, and then by that command alone. -/
theorem owned_frame (P : Platform) (i : QueueId) :
    RunFrame P (answeringController P) (FreshCid P i) i (fun w => Attributed (w.ring i))
      (fun T S _ w => Closed T S (w.ring i) ∧ Owned (w.ring i))
      (fun T S _ w => Opened T S (w.ring i) ∧ Owned (w.ring i))
      (fun T S _ w => ((Issued T S (w.ring i) ∧ (w.ring i).issuer (S % QUEUE_DEPTH) = S) ∧
        Owned (w.ring i)) ∧ ∀ m, Outstanding P i w (.ofNat S) m → False)
      (fun T S _ w => (Issued T S (w.ring i) ∧ Owned (w.ring i)) ∧
        ∀ m, Outstanding P i w (.ofNat S) m → m = S)
      (fun T S _ c w => (Issued T S (w.ring i) ∧
        (c.cid = .ofNat S → (w.ring i).posted[T]? = some (c, S))) ∧ Owned (w.ring i)) := by
  refine ⟨fun T S E => ?_, fun T S E w hat hj _ => ?_, fun T S E command => ?_,
    fun T S E => ?_, fun T S E w c hat htook hj => ?_, fun T S E w hat hseen hj => ?_⟩
  · -- between two calls, and at the beginning of one
    exact owned_carried fun r r' => Closed.later
  · rw [World.mark, World.setRing_ring_self]
    exact ⟨⟨hj.1.congr rfl rfl, hat.taken⟩,
      hj.2.congr rfl rfl ⟨hj.2.indexed.head, hj.2.indexed.tail⟩⟩
  · have hslot : S % QUEUE_DEPTH < QUEUE_DEPTH := Nat.mod_lt _ (by decide)
    refine ⟨owned_carried fun r r' => Opened.later,
      sole_carried (F := fun r => Issued T S r ∧ r.issuer (S % QUEUE_DEPTH) = S)
        (fun r r' hr h => ⟨h.1.later hr, hr.issuer ▸ h.2⟩) _ _,
      sole_carried (fun r r' => Issued.later) _ _, fun w hat hj hfree => ?_, fun w hat hj => ?_⟩
    -- the identifier is not in use, and writing does not bring it into use
    · refine ⟨?_, fun m hm => hfree m (hm.of_storeSqe hat.tail)⟩
      rw [storeSqe_ring hslot]
      exact ⟨⟨⟨⟨hj.1.toClosed.congr rfl rfl, hj.1.begun⟩, rfl⟩, (if_pos rfl).trans hat.submitted⟩,
        hj.2.congr rfl rfl ⟨hj.2.indexed.head, hj.2.indexed.tail⟩⟩
    -- ringing does, for this command
    · refine ⟨?_, fun m hm => ?_⟩
      · rw [World.setRing_ring_self]
        exact ⟨⟨⟨hj.1.1.1.toClosed.congr rfl rfl, hj.1.1.1.begun⟩, hj.1.1.1.cid⟩,
          hj.1.2.attributed, hj.1.2.indexed.head, Nat.mod_lt _ (by decide)⟩
      · rcases hm.of_ringTail hj.1.2.indexed hat.tail with hm | hm
        · exact (hj.2 m hm).elim
        · exact hm.trans hj.1.1.2
  · have hslot : T % QUEUE_DEPTH < QUEUE_DEPTH := Nat.mod_lt _ (by decide)
    -- while the call waits, its identifier is in use once
    refine ⟨sole_carried (fun r r' => Issued.later) _ _, fun c => owned_carried
      (F := fun r => Issued T S r ∧ (c.cid = .ofNat S → r.posted[T]? = some (c, S))) ?_,
      fun w c E hat hj => ?_, fun w E hat hj hnext => ?_⟩
    · rintro r r' hr ⟨hissued, hown⟩
      refine ⟨hissued.later hr, fun hcid => ?_⟩
      obtain ⟨more, hmore⟩ := hr.posted
      rw [← hmore, List.getElem?_append_left (List.getElem?_eq_some_iff.mp (hown hcid)).1]
      exact hown hcid
    · have hring : (w.pollCqe (i.completionOffset + 16 * (T % QUEUE_DEPTH)) c).ring i = _ :=
        pollCqe_ring hslot
      refine ⟨?_, fun m hm => hj.2 m (hm.congr (fun _ _ => rfl) ?_ ?_ ?_ ?_ ?_ ?_)⟩
      all_goals rw [hring]
      · exact ⟨⟨⟨hj.1.1.toClosed.congr rfl rfl, hj.1.1.begun⟩, hj.1.1.cid⟩,
          hj.1.2.congr rfl rfl ⟨hj.1.2.indexed.head, hj.1.2.indexed.tail⟩⟩
      all_goals rfl
    -- the completion taken was in use: its command is the only one of its identifier
    · rw [World.setRing_ring_self]
      refine ⟨⟨hj.1.1.ringHead _, fun hcid => ?_⟩,
        hj.1.2.congr rfl rfl ⟨hj.1.2.indexed.head, hj.1.2.indexed.tail⟩⟩
      rw [List.getElem?_map] at hnext
      obtain ⟨⟨c, m⟩, hposted, hc⟩ := Option.map_eq_some_iff.mp hnext
      obtain rfl : c = (w.ring i).polled := hc
      have hm : m = S := hj.2 m (.posted T _ hposted hat.taken.le hcid)
      rw [Ring.ringHead, hposted, hm]
  · -- the call ends with the completion,
    have hend := hj.1.1.endSubmit (resultOf (.ofNat S) c) hat.submitted
      (.inl ⟨c, htook.1, htook.2, rfl⟩)
    rw [SubmitRecord.took_of_resultOf rfl] at hend
    rw [World.mark, World.setRing_ring_self]
    refine ⟨hend, hj.2.attributed.endSubmit hj.1.1 hat.submitted fun c' hc' => ?_,
      hj.2.indexed.head, hj.2.indexed.tail⟩
    unfold resultOf at hc'
    split at hc'
    · next hcid =>
      obtain rfl := Except.ok.inj hc'
      exact hj.1.2 hcid
    · cases hc'
  · -- or with a timeout
    have hend := hj.1.1.endSubmit (.error .pollTimeout) hat.submitted (.inr ⟨rfl, hseen⟩)
    rw [SubmitRecord.took_of_timeout rfl] at hend
    rw [World.mark, World.setRing_ring_self]
    exact ⟨hend, hj.1.2.attributed.endSubmit hj.1.1 hat.submitted fun c hc => (by cases hc),
      hj.1.2.indexed.head, hj.1.2.indexed.tail⟩

/-- **A completion belongs to its call**, in every run in which no command is written under an
identifier in use: each call that has returned `Ok` returned the completion that the
controller posted for its own command. -/
theorem answered_by_own_command (P : Platform) (i : QueueId) (w₀ : World) (h : Fresh P i w₀)
    (commands : List SubmissionQueueEntry)
    (c : Config Op Res World (Outcome IoError Unit × QueuePair))
    (hc : (machine P (answeringController P) (FreshCid P i)).Reaches
      (submitAll P i commands i.queuePair, w₀) c) (record : SubmitRecord)
    (hrecord : record ∈ (c.2.ring i).records) (completion : CompletionQueueEntry)
    (hok : record.result = .ok completion) :
    (c.2.ring i).posted[record.before]? = some (completion, record.number) := by
  have hclosed : Closed 0 0 (w₀.ring i) ∧ Owned (w₀.ring i) := by
    rw [h.ring]
    exact ⟨⟨fun k record hk => by simp [Ring.fresh] at hk, rfl, rfl⟩,
      fun record hmem => by simp [Ring.fresh] at hmem, by decide, by decide⟩
  -- each record keeps its owner, by the run of the calls
  have hrun := (submitAll_triple (answeringController_keeps _) (owned_frame P i) commands
    i.queuePair w₀ ⟨0, 0, 0, .queuePair i, h.at, hclosed⟩ c hc).1
  exact hrun.2 record hrecord completion hok

/-! ### Two runs -/

/-- On a fresh ring nothing is outstanding. -/
theorem Fresh.not_outstanding (h : Fresh P i w) (m : Nat) : ¬ Outstanding P i w cid m := by
  intro hout
  -- a fresh ring has no slot to fetch, nothing live and nothing posted
  cases hout with
  | pending s _ h' =>
    rw [h.ring] at h'
    unfold Ring.Pending at h'
    simp [Ring.fresh] at h'
  | live command h' =>
    rw [h.ring] at h'
    cases h'
  | posted j c h' =>
    rw [h.ring] at h'
    simp [Ring.fresh] at h'

/-- One command, answered. -/
theorem answered_by_own_command_one :
    ∃ (c : Config Op Res World (Outcome IoError Unit × QueuePair)) (record : SubmitRecord)
      (completion : CompletionQueueEntry),
      (machine .twoPages (answeringController .twoPages) (FreshCid .twoPages .io)).Reaches
        (submitAll .twoPages .io [nvmeRead 1 0 0 0 0] QueueId.io.queuePair, World.zeroed) c ∧
      (c.2.ring .io).records = [record] ∧ record.result = .ok completion ∧
      (c.2.ring .io).posted[record.before]? = some (completion, record.number) := by
  have hfresh := World.fresh_zeroed .twoPages .io
  -- only the writing of a command is restricted, and here nothing is in use
  have hnonSqes : AllowsNonSqes (FreshCid .twoPages .io) := by
    intro o w ho
    cases o
    case writeSqe offset entry => exact absurd rfl (ho offset entry)
    all_goals trivial
  have hmarked : Fresh .twoPages .io (World.zeroed.mark (.beginSubmit .io)) :=
    ⟨rfl, hfresh.zeroed⟩
  obtain ⟨q', w', hreach, hallTaken⟩ := (hfresh.allTaken rfl).answered (nvmeRead 1 0 0 0 0)
    hnonSqes (Platform.twoPages_covers .io) hmarked.not_outstanding
    answeringController_answers
  have hall := submitAll_cons_reaches [] hreach .refl
  have hrecords := hallTaken.records
  refine ⟨_, _, _, hall, hrecords, rfl, ?_⟩
  refine answered_by_own_command .twoPages .io .zeroed hfresh _ _ hall _ ?_ _ rfl
  rw [hrecords]
  exact List.mem_singleton_self _

/-- The first call times out, 65535 others are answered, and then the completion of the first
command is posted: the next call, whose command has the same identifier, returns it. -/
theorem answered_by_first_command :
    ∃ (c : Config Op Res World (Outcome IoError Unit × QueuePair)) (record : SubmitRecord)
      (completion : CompletionQueueEntry),
      (machine .twoPages (answeringController .twoPages) Always).Reaches
        (submitAll .twoPages .io (nvmeRead 1 0 0 0 0 ::
          (List.replicate 65535 (nvmeRead 1 0 0 0 0) ++ [nvmeRead 1 0 0 0 0]))
          QueueId.io.queuePair, World.zeroed) c ∧
      record ∈ (c.2.ring .io).records ∧ record.number = 65536 ∧
      record.result = .ok completion ∧
      (c.2.ring .io).posted[record.before]? = some (completion, 0) := by
  have hbar := Platform.twoPages_covers .io
  -- the first call times out; its command stays in hand
  obtain ⟨q₁, w₁, seen, hfirst, h₁⟩ := ((World.fresh_zeroed .twoPages .io).allTaken rfl).expires
    (C := answeringController .twoPages) (nvmeRead 1 0 0 0 0) allowsNonSqes_always hbar trivial
  -- the calls after it are answered, until the identifiers wrap around
  obtain ⟨q₂, w₂, l, hothers, h₂, hsubmitted, hlive⟩ := h₁.answers (nvmeRead 1 0 0 0 0)
    answeringController_answers hbar 65535
  have hone : (Ledger.blank.expire (nvmeRead 1 0 0 0 0) seen).submitted = 1 := rfl
  have hS : l.submitted = 65536 := by rw [hsubmitted, hone]
  have hdrained := h₂.drained
  -- the last call has the identifier of the first
  obtain ⟨w₃, hfetch, hunder⟩ := h₂.toAtLedger.fetch (C := answeringController .twoPages)
    h₂.fetched (nvmeRead 1 0 0 0 0)
  -- the completion is for the first command, which is still in hand
  obtain ⟨w₄, hpost, hunder⟩ := hunder.post 0 0 _ (answeringController_keeps _)
    (show l.posted.length + 1 < l.taken + QUEUE_DEPTH by rw [hdrained, QUEUE_DEPTH]; omega)
    ⟨[], _, _, hunder.live.trans (by rw [hlive]; rfl), rfl, rfl, rfl⟩
  have hnext : ((l.posted ++ [(l.reply 0, 0)]).map Prod.fst)[l.taken]? = some (l.reply 0) := by
    rw [← hdrained]
    simp
  obtain ⟨w₅, hlast, h₅⟩ := hunder.takes allowsNonSqes_always hbar h₂.driven trivial
    (.tail (.single hfetch) hpost) rfl rfl hnext
  have hall := submitAll_cons_reaches _ hfirst
    (submitAll_append_reaches hothers (submitAll_cons_reaches [] hlast .refl))
  refine ⟨_, ⟨l.submitted, .ofNat l.submitted, l.taken, (l.posted ++ [(l.reply 0, 0)]).length,
    resultOf (.ofNat l.submitted) (l.reply 0)⟩, l.reply 0, hall, ?_, hS, ?_, ?_⟩
  · rw [h₅.records]
    exact List.mem_append_right _ (List.mem_singleton_self _)
  · have hwrap : UInt16.ofNat 65536 = 0 := by decide
    have hcid : (l.reply 0).cid = UInt16.ofNat l.submitted := by
      rw [hS, hwrap]
      rfl
    exact if_pos hcid
  · rw [h₅.posted]
    change (l.posted ++ [(l.reply 0, 0)])[l.taken]? = _
    rw [← hdrained, List.getElem?_concat_length]

end Nvmetoy
