import Nvmetoy.BlockDevice

/-!
# One data area for all calls

A call that times out leaves its command with the controller, and the next call puts its own bytes
where that command finds its data. If the driver only does so once the controller has completed
everything, each command has moved the bytes of its own call, whenever it is executed and whichever
calls fail (`undisturbed_of_unshared`). Nothing in the driver sees to that: in `writes_late` a write
stores the payload of the next one.
-/

namespace Nvmetoy

open Framework Machine NvmeUserspaceDriver

variable {P : Platform} {N : Namespace} {i : QueueId} {w w' : World} {τ : Task}
  {explains : Prop} {b₀ : Mem} {nsid : UInt32} {p : Profile}

/-- **What is claimed of a run**: no command has moved bytes of another call. Each write command
has stored the beginning of the payload of its own call, and all of it once it is reported
successful; and each read that returned `Ok` returned what its own command moved. -/
structure Undisturbed (w : World) : Prop where
  stored : ∀ k, Stored w k
  answered : ∀ record ∈ w.calls, Answered w record

/-- What a write command in flight has stored. -/
theorem InFlight.begun (h : InFlight P N τ w) (hio : τ.queue = .io) {slba : UInt64}
    {payload : List UInt8} (hissued : w.issuedBy τ.number = some (.write slba payload)) :
    w.moved .io τ.number <+: payload := by
  obtain ⟨call, hcall, horders⟩ := h.asked hio
  obtain rfl : call = .write slba payload := Option.some.inj (hcall.symm.trans hissued)
  obtain ⟨hdir, rfl, -⟩ := horders
  obtain ⟨status, -, hmoving⟩ := h.under
  obtain ⟨-, -, hbegins, -⟩ := hmoving.taken hdir
  exact hio ▸ hbegins

/-- A command that was not completed has moved nothing, or is the one in flight. -/
theorem SingleTask.unposted (h : SingleTask P N explains b₀ w) {k : Nat}
    (hk : (w.ring .io).posted.length ≤ k) :
    w.moved .io k = [] ∨ ∃ τ, InFlight P N τ w ∧ τ.queue = .io ∧ τ.number = k := by
  by_cases hmoved : ∃ t ∈ w.transfers, t.queue = .io ∧ t.number = k
  · obtain ⟨t, ht, hqueue, hnumber⟩ := hmoved
    have hlt := h.recorded.numbers t ht
    rw [hqueue, hnumber] at hlt
    -- so that the controller has it in hand
    have hlive : (w.ring .io).live ≠ [] := by
      intro hnil
      rw [hnil, List.length_nil] at hlt
      omega
    rcases h.flight with ⟨hempty, -⟩ | ⟨τ, hinFlight, -⟩
    · exact absurd (hempty .io).live hlive
    · obtain ⟨command, rest, hcons⟩ := List.exists_cons_of_ne_nil hlive
      rw [← List.nil_append (command :: rest)] at hcons
      obtain ⟨hio, -, rfl, -, -, -, hposted, -⟩ := hinFlight.inHand hcons
      rw [hcons, List.nil_append, List.length_singleton] at hlt
      exact .inr ⟨τ, hinFlight, hio.symm, by omega⟩
  · exact .inl (moved_eq_nil fun t ht hqueue hnumber => hmoved ⟨t, ht, hqueue, hnumber⟩)

/-- What a run keeps says so. -/
theorem SingleTask.undisturbed (h : SingleTask P N explains b₀ w) : Undisturbed w where
  stored := fun k => by
    rcases Nat.lt_or_ge k (w.ring .io).posted.length with hlt | hge
    · exact h.recorded.stored k hlt
    · intro slba payload hissued
      refine ⟨?_, fun c hc => ?_⟩
      · rcases h.unposted hge with hnil | ⟨τ, hinFlight, hio, rfl⟩
        · rw [hnil]
          exact List.nil_prefix
        · exact hinFlight.begun hio hissued
      · exact absurd (List.getElem?_eq_some_iff.mp hc).1 (Nat.not_lt.mpr hge)
  answered := h.recorded.answered

/-! ### A write that is executed late -/

section Late

variable {d : NvmeUserspaceDriver} {data payload : List UInt8}

/-- Idle polling only looks. -/
theorem Polls.onlyRead (h : Polls i w w') : OnlyRead w w' where
  ring := World.ring_rel SameButHistory.refl h.other
    (by rw [h.ring]; exact ⟨rfl, rfl, rfl, rfl, rfl, rfl⟩)
  mem := h.mem
  disk := by rw [h.rest]
  transfers := by rw [h.rest]
  issuedBy := by rw [h.rest]

/-- A command in its slot is not changed by what is written into the data area. -/
theorem Stage.fill {status : Option UInt16} (h : Stage P τ w status) (data : List UInt8) :
    Stage P τ { w with mem := w.mem.write (World.address P DATA_OFFSET) data } status := by
  cases h with
  | waiting hhead htail hlive hposted hsqe hissuer =>
    have hslot : τ.number % QUEUE_DEPTH < QUEUE_DEPTH := Nat.mod_lt _ (by decide)
    have happart := (QueueId.slots_apart τ.queue τ.queue hslot hslot).1
    refine .waiting hhead htail hlive hposted ((World.sqe_congr fun x _ hlt => ?_).trans hsqe)
      hissuer
    -- the data area lies behind the rings, so that the waiting entry is the same
    refine Mem.write_of_lt ?_
    simp only [World.address, PRP_LIST_OFFSET, DATA_OFFSET] at *
    omega
  | inHand _ hhead hlive hposted => exact .inHand _ hhead hlive hposted
  | done c hempty hposted hlast => exact .done c hempty hposted hlast

/-- The controller takes what lies in the data area. -/
theorem Stage.stores (h : Stage P τ w none) (halign : P.base.val.toNat % PAGE_SIZE = 0)
    (henabled : w.enabled = true) (hdir : τ.direction = .fromHost)
    (hlisted : ∀ m, Listed P (τ.length N) τ.entry m) (hmoved : τ.moved w = []) :
    ∃ w', Relation.ReflTransGen (EnvStep P (servingController N)) w w' ∧
      w'.issuedBy = w.issuedBy ∧
      τ.moved w' = w.mem.read (World.address P DATA_OFFSET) (τ.length N) := by
  obtain ⟨w₁, hworks, hlive, hrest⟩ := h.fetched (N := N) henabled
  -- fetching moves no data
  have hmoved₁ : τ.moved w₁ = [] := by
    rw [← hmoved]
    exact moved_congr (by rw [hrest]) _ _
  have hwalk := (hlisted w₁.mem).walk_eq halign le_rfl
  have hroom : (τ.moved w₁).length + τ.length N ≤ τ.length N := by
    rw [hmoved₁]
    exact (Nat.zero_add _).le
  -- one transfer takes the whole length, from the data area as it stands now
  have htake : EnvStep P (servingController N) w₁ _ := .transfer ⟨τ.queue, [], _, [], hlive, rfl,
    .take PRP_LIST_CAPACITY (τ.length N) _ hdir hwalk hroom⟩
    ((enabled_steps hworks.steps).trans henabled)
  refine ⟨_, hworks.steps.tail htake, ?_, ?_⟩
  · have hissued : w₁.issuedBy = w.issuedBy := by rw [hrest]
    exact hissued
  · calc Task.moved τ _
      _ = τ.moved w₁ ++ Prp.gather PAGE_SIZE w₁.mem _ (τ.moved w₁).length (τ.length N) :=
        moved_transferred
      _ = w₁.mem.read (World.address P DATA_OFFSET) (τ.length N) := by
        rw [hmoved₁, List.length_nil, (hlisted w₁.mem).gather halign hwalk (Nat.zero_add _).le]
        rfl
      _ = w.mem.read (World.address P DATA_OFFSET) (τ.length N) := by rw [hrest]

/-- The write whose submission has timed out is still in its slot. -/
structure Abandoned (P : Platform) (N : Namespace) (payload : List UInt8) (τ : Task) (w : World) :
    Prop where
  queue : τ.queue = .io
  stage : Stage P τ w none
  asked : ∃ slba, w.issuedBy τ.number = some (.write slba payload)
  direction : τ.direction = .fromHost
  length : τ.length N = 512
  listed : ∀ m, Listed P (τ.length N) τ.entry m
  moved : τ.moved w = []
  enabled : w.enabled = true

/-- The abandoned command stays where it is while the driver only reads. -/
theorem Abandoned.onlyRead (h : Abandoned P N payload τ w) (hl : OnlyRead w w')
    (henabled : w'.enabled = w.enabled) : Abandoned P N payload τ w' :=
  ⟨h.queue, h.stage.onlyRead hl, by rw [hl.issuedBy]; exact h.asked, h.direction, h.length,
    h.listed, (moved_congr hl.transfers _ _).trans h.moved, henabled.trans h.enabled⟩

theorem Abandoned.fill (h : Abandoned P N payload τ w) (data : List UInt8) :
    Abandoned P N payload τ { w with mem := w.mem.write (World.address P DATA_OFFSET) data } :=
  ⟨h.queue, h.stage.fill data, h.asked, h.direction, h.length, h.listed, h.moved, h.enabled⟩

theorem Abandoned.beginCall (h : Abandoned P N payload τ w) (k : Call) :
    Abandoned P N payload τ (w.mark (.beginCall k)) :=
  h.onlyRead ⟨fun _ => .refl _, rfl, rfl, rfl, rfl⟩ rfl

theorem Abandoned.endCall (h : Abandoned P N payload τ w)
    (result : Except IoError (List UInt8)) :
    Abandoned P N payload τ (w.mark (.endCall result)) := by
  cases hcurrent : w.current with
  | none =>
    rw [World.mark, hcurrent]
    exact h
  | some k =>
    rw [World.mark, hcurrent]
    exact h.onlyRead ⟨fun _ => .refl _, rfl, rfl, rfl, rfl⟩ rfl

/-- A submission on the I/O queue that times out, on a controller that has not fetched the
command. -/
theorem submitIo_expires {k : Call} {command : SubmissionQueueEntry}
    (hbar : ∀ i, P.bar.Covers (QueueId.number i) P.stride) (hd : BuiltFor P d)
    (hbefore : BeforeCommand P N True b₀ (some k) d w)
    (hlaid : MemoryReady P N .io command payload w)
    (hanswering : Answering w) (horders : Orders k .io command payload)
    (hdir : QueueId.io.direction command = .fromHost) (hlength : N.length .io command = 512)
    (hlisted : ∀ m, Listed P (N.length .io command) command m) :
    ∃ q τ w', (machine P (servingController N) Always).Reaches (submitIo command d, w)
        (.pure (.err .pollTimeout, { d with ioQueue := q }), w') ∧ Abandoned P N payload τ w' := by
  obtain ⟨S, hq, hdispatched⟩ := hbefore.issue hlaid hanswering fun _ => ⟨k, rfl, horders⟩
  obtain ⟨hsingle, hinFlight, hstage, hat, hlive, hposted⟩ := hdispatched
  -- the controller does nothing while the driver polls
  obtain ⟨w', hpolls, hpoll⟩ := poll_expires (C := servingController N) (POLL_LIMIT + 1)
    (.ofNat S) allowsDrained_always.allowsNonFills hq.submit hat.ok hat.taken hposted
  have hsubmit : (machine P (servingController N) Always).Reaches
      (QueuePair.submit P.bar P.region P.stride command (d.queue .io), w) _ :=
    submit_reaches allowsDrained_always.allowsNonFills (hbar .io) hq trivial
  have hwait : (machine P (servingController N) Always).Reaches
      (QueuePair.submitAndWait P.bar P.region P.stride command (d.queue .io), w) _ :=
    Reaches.bind_ok hsubmit hpoll
  obtain ⟨call, hcall, hasked⟩ := hinFlight.asked rfl
  obtain ⟨slba, rfl, -⟩ := hasked.write hdir
  -- no command before it has this number
  have hmoved : Task.moved ⟨.io, S, { command with cid := .ofNat S }, payload, w.disk⟩
      (w.issue P .io S command) = [] := by
    refine moved_eq_nil fun t ht hqueue hnumber => ?_
    have hlt := hsingle.recorded.numbers t ht
    rw [hqueue, hnumber, hlive, hposted] at hlt
    exact absurd hlt (Nat.lt_irrefl S)
  have habandoned : Abandoned P N payload
      ⟨.io, S, { command with cid := .ofNat S }, payload, w.disk⟩ (w.issue P .io S command) :=
    ⟨rfl, hstage, ⟨slba, hcall⟩, hdir, hlength, fun m => (hlisted m).cid _, hmoved,
      hanswering.enabled⟩
  refine ⟨(d.queue .io).takeCid.advanceTail, _, w', ?_, habandoned.onlyRead hpolls.onlyRead
    hpolls.enabled⟩
  have hmethod : submitIo command d = Method.onField ioQueue (fun d q => { d with ioQueue := q })
      (QueuePair.submitAndWait P.bar P.region P.stride command) d := by
    rw [submitIo, Method.get_bind, hd.bar, hd.region, hd.stride]
  rw [hmethod]
  exact Reaches.bind hwait

/-- A write of one block, which the controller does not complete while it is polled for. -/
theorem write_expires (hbar : ∀ i, P.bar.Covers (QueueId.number i) P.stride) (hd : BuiltFor P d)
    (hsize : d.blockSizes d.nsid = some 512) (hblock : N.blockSize = 512)
    (hlen : data.length = 512) (hbefore : BeforeCommand P N True b₀ none d w)
    (hanswering : Answering w) :
    ∃ q τ w', (machine P (servingController N) Always).Reaches
        (callOne p (.write 0 data) d, w) (.pure (.ok (), { d with ioQueue := q }), w') ∧
      Abandoned P N data τ w' := by
  -- its payload, in the data area
  have hbegun := hbefore.beginCall (.write 0 data)
  obtain ⟨hfilled, hlaid⟩ := hbegun.fillBlock hd hblock hlen
  -- and its command
  obtain ⟨q, τ, w', hsubmit, habandoned⟩ := submitIo_expires hbar hd hfilled hlaid
    ⟨hanswering.enabled, hanswering.inTime⟩ (blockWrite_orders d 0 data) (nvmeWrite_direction ..)
    (blockWrite_length d 0 hblock) (blockWrite_listed hd 0 hblock)
  have hwrite := (write_reaches (N := N) (p := p) hd hsize hlen 0 _).trans
    (Reaches.bind_err (f := fun completion => checkCompletion completion "Write") hsubmit)
  have hperform : (machine P (servingController N) Always).Reaches
      (perform p (.write 0 data) d, w.mark (.beginCall (.write 0 data))) _ :=
    Reaches.bind_err hwrite
  have hcall : (machine P (servingController N) Always).Reaches (callOne p (.write 0 data) d, w)
      (.pure (.ok (), { d with ioQueue := q }), w'.mark (.endCall (.error .pollTimeout))) :=
    callOne_reaches allowsDrained_always.allowsNonFills hperform
  exact ⟨q, τ, _, hcall, habandoned.endCall _⟩

/-- **A write that is executed late.** The first call times out; the second puts its payload into
the data area, and then the controller executes the first one's command. -/
theorem writes_late {first second : List UInt8} (hlen : data.length = IDENTIFY_SIZE)
    (hsize : blockSizeOf p data = .ok 512) (hfirst : first.length = 512)
    (hsecond : second.length = 512) :
    ∃ c number slba, (machine .twoPages (servingController (.answering 512 data)) Always).Reaches
        (lifetime p [] 1 [.write 0 first, .write 0 second] (), World.zeroed) c ∧
      c.2.issuedBy number = some (.write slba first) ∧ c.2.moved .io number = second := by
  obtain ⟨d, w, hopen, hanswering, hd, hknown, hbefore⟩ := opens_512 (p := p) allowsDrained_always
    512 hlen hsize
  obtain ⟨q, τ, w', hexpires, habandoned⟩ := write_expires (p := p) Platform.twoPages_covers hd
    hknown rfl hfirst hbefore hanswering
  have hd' : BuiltFor .twoPages { d with ioQueue := q } := ⟨hd.bar, hd.region, hd.stride⟩
  -- the second write, up to its command
  have hperform : (machine .twoPages (servingController (.answering 512 data)) Always).Reaches
      (perform p (.write 0 second) { d with ioQueue := q },
        w'.mark (.beginCall (.write 0 second))) _ :=
    Reaches.bind (write_reaches hd' hknown hsecond 0 _)
  obtain ⟨rest, hcalls⟩ : ∃ rest, (machine .twoPages (servingController (.answering 512 data))
      Always).Reaches (callAll p [.write 0 second] { d with ioQueue := q }, w') _ :=
    callAll_reaches allowsDrained_always.allowsNonFills hperform
  have hall : (machine .twoPages (servingController (.answering 512 data)) Always).Reaches
      (callAll p [.write 0 first, .write 0 second] d, w) _ := Reaches.bind_ok hexpires hcalls
  obtain ⟨life, hlife⟩ := lifetime_reaches hopen hall
  -- and then the controller takes the data area
  have hleft := (habandoned.beginCall (.write 0 second)).fill second
  obtain ⟨w'', henvs, hissued, hmoved⟩ := hleft.stage.stores twoPages_aligned hleft.enabled
    hleft.direction hleft.listed hleft.moved
  obtain ⟨slba, hasked⟩ := hleft.asked
  refine ⟨_, τ.number, slba, hlife.trans (Reaches.envs henvs), hissued ▸ hasked, ?_⟩
  have hpayload (m : Mem) : (m.write (World.address .twoPages DATA_OFFSET) second).read
      (World.address .twoPages DATA_OFFSET) 512 = second := by
    rw [← hsecond]
    exact Mem.read_write_self
  rw [hleft.length] at hmoved
  dsimp only at hmoved
  rw [hpayload] at hmoved
  rwa [← hleft.queue]

end Late

/-! ### The runs that keep apart -/

/-- **Ownership.** In a run in which the driver puts nothing into the region while the controller
has a command, no command moves bytes of another call. -/
theorem undisturbed_of_unshared (P : Platform) (N : Namespace) (p : Profile) (bdf : Str)
    (nsid : UInt32) (calls : List Call) (w₀ : World)
    (halign : P.base.val.toNat % PAGE_SIZE = 0) (hformat : N.Formatted nsid)
    (hplain : N.Plain p nsid) (hfits : ∀ k ∈ calls, k.Fits p N.blockSize) (hstart : NeverUsed w₀)
    (c : Config Op Res World (Outcome IoError Unit × Unit))
    (hc : (machine P (servingController N) Unshared).Reaches
      (lifetime p bdf nsid calls (), w₀) c) : Undisturbed c.2 := by
  have hlife : (machine P (servingController N) Unshared).Triple (SingleTask P N False w₀.disk) _
      (lifetime p bdf nsid calls ()) _ := lifetime_triple halign (unshared_regime P N) bdf nsid
    (fun data size hdata hsize => hformat.learns hplain hdata hsize) hformat.pos hfits
  exact (hlife w₀ ⟨hstart.toBeforeOpen, hstart.unused⟩ c hc).1.undisturbed

/-- A read of one block. -/
theorem undisturbed_of_unshared_read : ∃ c earlier number bytes,
    (machine .twoPages (servingController .ofSectors) Unshared).Reaches
      (lifetime .release [] 1 [.read 0 1] (), World.zeroed) c ∧
    c.2.calls = earlier ++ [⟨.read 0 1, number, .ok bytes⟩] ∧ Undisturbed c.2 := by
  obtain ⟨c, earlier, number, bytes, hreach, -, hcalls, -⟩ := reads_512 (p := .release)
    allowsDrained_unshared 512 (length_namespaceData 9) ofSectors_size (by decide)
  -- one block of 512 bytes does not wrap
  have hfits : ∀ k ∈ [Call.read 0 1], k.Fits .release 512 := by
    intro k hk
    obtain rfl := List.mem_singleton.mp hk
    exact fun _ => .inl (by decide)
  exact ⟨c, earlier, number, bytes, hreach, hcalls, undisturbed_of_unshared .twoPages .ofSectors
    .release [] 1 [.read 0 1] .zeroed twoPages_aligned ofSectors_formatted ofSectors_plain hfits
    ⟨⟨fun _ => rfl, rfl⟩, rfl, rfl, rfl⟩ c hreach⟩

/-- Writes that time out do not keep apart: what the first leaves on the disk is what the second
was called with. -/
theorem not_undisturbed : ¬ ∀ (P : Platform) (N : Namespace) (p : Profile) (bdf : Str)
    (nsid : UInt32) (calls : List Call) (w₀ : World), P.base.val.toNat % PAGE_SIZE = 0 →
    N.Formatted nsid → N.Plain p nsid → (∀ k ∈ calls, k.Fits p N.blockSize) → NeverUsed w₀ →
    ∀ c : Config Op Res World (Outcome IoError Unit × Unit),
      (machine P (servingController N) Always).Reaches (lifetime p bdf nsid calls (), w₀) c →
      Undisturbed c.2 := by
  intro h
  have hone : (List.replicate 512 (1 : UInt8)).length = 512 := List.length_replicate
  have htwo : (List.replicate 512 (2 : UInt8)).length = 512 := List.length_replicate
  obtain ⟨c, number, slba, hreach, hissued, hmoved⟩ := writes_late (p := .release)
    (length_namespaceData 9) ofSectors_size hone htwo
  -- both calls are within the bounds of the code
  have hfits : ∀ k ∈ [Call.write 0 (List.replicate 512 1), .write 0 (List.replicate 512 2)],
      k.Fits .release 512 := by
    refine Unwrapped.fits (N := .ofSectors) (fun slba blockCount hmem => ?_) le_rfl
    rcases List.mem_pair.mp hmem with hread | hread <;> cases hread
  have hundisturbed := h .twoPages .ofSectors .release [] 1 _ .zeroed twoPages_aligned
    ofSectors_formatted ofSectors_plain hfits ⟨⟨fun _ => rfl, rfl⟩, rfl, rfl, rfl⟩ c hreach
  obtain ⟨hbegins, -⟩ := hundisturbed.stored number slba _ hissued
  rw [hmoved] at hbegins
  -- both payloads have one block, so a beginning of the first is all of it
  have hsame := hbegins.eq_of_length (htwo.trans hone.symm)
  exact absurd (List.replicate_inj.mp hsame).2 (by simp)

end Nvmetoy
