import Nvmetoy.BlockDevice
import Nvmetoy.Intact

/-!
# A driver's life, on a controller that takes its time

`Opening` follows `open` and the calls on a controller that answers in time. Here the controller
answers when it likes. `open` then returns a driver all the same only if every one of its commands
was answered (`bringUp_anyTime`): a command of `open` is written while nothing is in flight, and
when it has not been answered, `open` fails. The calls may well go on after one of them has given
up, so all that is left to say of them is that they are harmless (`Intact`).

* `openDriver_anyTime`, `unharmed_callAll`, `unharmed_lifetime` — the parts of a life, and the
  whole.
* `lifetime_spares` — the disk has changed where the calls write, and the memory of the host in the
  hugepage, and nowhere else.
-/

namespace Nvmetoy

open Framework Machine NvmeUserspaceDriver

variable {P : Platform} {N : Namespace} {may : Nat → Prop} {b₀ : Mem} {i : QueueId}
  {d t : NvmeUserspaceDriver} {p : Profile} {nsid : UInt32} {σ α β : Type} {s : σ}

/-! ### A command writes first -/

section Leading

/-- The method puts nothing into memory. -/
abbrev Unfilling (m : Method Op Res σ IoError α) : Prop := Method.Only (fun o => ¬ Fills o) m

theorem unfilling_write32 (bar : NvmeBar) (offset : Nat) (value : UInt32) :
    Unfilling (bar.write32 offset value : Method Op Res σ IoError Unit) :=
  (Method.Stays.lift _).bind fun _ => .call id

theorem unfilling_pollCompletion (bar : NvmeBar) (dma : DmaRegion) (stride : Nat) (cid : UInt16)
    (polls : Nat) : Unfilling (QueuePair.pollCompletion bar dma stride cid polls) := by
  induction polls with
  | zero => exact .fail _
  | succ polls ih =>
    refine Method.Stays.get_bind fun q _ => Method.Stays.bind ?_ fun completion => ?_
    · exact (Method.Stays.lift _).bind fun _ => .call id
    refine Method.Stays.ite (fun _ => ?_) fun _ => ih
    refine Method.Stays.get_bind fun q _ =>
      .set_bind trivial ((unfilling_write32 _ _ _).bind fun _ => ?_)
    exact Method.Stays.ite (fun _ => .fail _) fun _ => .pure _

/-- The entry is written first, and nothing after it. -/
theorem submitAndWait_leads (bar : NvmeBar) (dma : DmaRegion) (stride : Nat)
    (command : SubmissionQueueEntry) (q : QueuePair) :
    (QueuePair.submitAndWait bar dma stride command q).Leads Fills := by
  refine Method.leads_bind ?_ fun cid => unfilling_pollCompletion bar dma stride cid _
  rw [QueuePair.submit, Method.get_bind, Method.set_bind]
  refine Method.leads_bind ?_ fun _ => ?_
  · -- the first operation is the entry; a check that fails stops before it
    rw [DmaRegion.writeSqe]
    cases hcheck : dma.checkTyped q.sqeOffset SubmissionQueueEntry.SIZE
        SubmissionQueueEntry.ALIGN with
    | ok _ => exact fun r => trivial
    | err e => trivial
    | panic why => trivial
  · refine Method.Stays.bind ((Method.Stays.lift _).bind fun _ => .call id) fun _ => ?_
    exact Method.Stays.set_bind trivial ((unfilling_write32 _ _ _).bind fun _ => .pure _)

/-- A command that is refused, or times out, has placed no payload. -/
theorem submitAdmin_leads (command : SubmissionQueueEntry) (t : NvmeUserspaceDriver) :
    (submitAdmin command t).Leads Fills := by
  rw [submitAdmin, Method.get_bind]
  exact (submitAndWait_leads ..).bind fun _ => trivial

/-- Neither has Identify. -/
theorem identify_leads («structure» : IdentifyStructure) (nsid : UInt32)
    (t : NvmeUserspaceDriver) : (identify «structure» nsid t).Leads Fills := by
  rw [identify, Method.get_bind]
  refine Method.leads_bind (submitAdmin_leads _ _) fun c => Method.Stays.bind ?_ fun _ => ?_
  · exact Method.Stays.ite (fun _ => .pure _) fun _ => .fail _
  · exact (Method.Stays.lift _).bind fun _ => (Method.Stays.call id).bind fun _ => .pure _

end Leading

/-! ### `open` -/

/-- The driver between two commands of `open`: nothing is in flight. -/
def DrainedBetween (P : Platform) (N : Namespace) (b₀ : Mem) (d : NvmeUserspaceDriver) (w : World) :
    Prop :=
  BeforeCommand P N False b₀ none d w ∧ ∀ i, Drained (w.ring i)

/-- What is written first is written while nothing is in flight, so nothing more has to be asked of
the schedule. -/
theorem CallTriple.anyTime {call : Option Call} {R : World → Prop}
    {m : Prog Op Res (Outcome IoError α × NvmeUserspaceDriver)}
    {Q : α → NvmeUserspaceDriver → World → Prop}
    (h : CallTriple P N False b₀ Unshared call d R m Q) (hm : m.Leads Fills)
    (hR : ∀ w, R w → ∀ i, Drained (w.ring i)) : CallTriple P N False b₀ Always call d R m Q := by
  refine Triple.leads h hm (stable_of_drained hR) ?_ ?_ fun _ _ henv => henv
  · intro o w r w' hw hact
    exact ⟨hact.1, fun _ i => (hR w hw i).toEmpty⟩
  · intro o w r w' ho hact
    exact ⟨hact.1, fun hfills => absurd hfills ho⟩

section BringUp

variable (halign : P.base.val.toNat % PAGE_SIZE = 0)

/-- Late answers to the commands before are accounted for. -/
theorem drainedBetween_stable :
    (machine P (servingController N) Always).Stable (DrainedBetween P N b₀ d) :=
  stable_of_drained fun _ hw => hw.2

theorem DrainedBetween.afterError {error : IoError} {w : World} (h : DrainedBetween P N b₀ d w) :
    AfterError P N False b₀ none error d w :=
  BeforeCommand.afterError h.1 fun c hc => by cases hc

/-- Nothing is sent. -/
theorem anyTime_checkEntrySize {what : String} {supported required : UInt8}
    (ht : SameButQueues d t) : CallTriple P N False b₀ Always none d (DrainedBetween P N b₀ t)
      (checkEntrySize what supported required t) fun _ t' w => DrainedBetween P N b₀ t' w := by
  unfold checkEntrySize
  split
  · exact .ok ht drainedBetween_stable (fun w hw => hw.1.singleTask) fun w hw => hw
  · exact .fail ht drainedBetween_stable fun w hw => hw.afterError

include halign

/-- What Identify returns is the structure it asked for, however late other answers are. -/
theorem anyTime_identify {«structure» : IdentifyStructure} (ht : SameButQueues d t)
    (hd : BuiltFor P t) :
    CallTriple P N False b₀ Always none d (DrainedBetween P N b₀ t) (identify «structure» nsid t)
      fun bytes t' w => Identified N «structure» nsid bytes ∧ DrainedBetween P N b₀ t' w := by
  have htriple : CallTriple P N False b₀ _ none d (BeforeCommand P N False b₀ none t)
      (identify «structure» nsid t) _ :=
    callTriple_identify halign (unshared_regime P N) ht hd fun c hc => by cases hc
  exact CallTriple.anyTime (htriple.pre fun w hw => hw.1) (identify_leads _ _ _) fun w hw => hw.2

/-- The check of the entry sizes may come at any time. -/
theorem anyTime_checkQueueEntrySizes (hd : BuiltFor P d) :
    CallTriple P N False b₀ Always none d (DrainedBetween P N b₀ d) (checkQueueEntrySizes d)
      fun _ t w => DrainedBetween P N b₀ t w := by
  refine CallTriple.bind (anyTime_identify halign (.refl d) hd) fun data t ht => ?_
  refine Triple.of_pure fun _ => ?_
  cases IdentifyController.readFromPrefix data with
  | none => exact CallTriple.fail ht drainedBetween_stable fun w hw => hw.afterError
  | some controller =>
    exact CallTriple.bind (anyTime_checkEntrySize ht) fun _ t' ht' => anyTime_checkEntrySize ht'

/-- A command that moves no data, and its check. -/
theorem anyTime_bare {command : SubmissionQueueEntry} {what : String} (ht : SameButQueues d t)
    (hd : BuiltFor P t) (hdir : QueueId.admin.direction command = .none) :
    CallTriple P N False b₀ Always none d (DrainedBetween P N b₀ t)
      ((submitAdmin command >>= fun c => checkCompletion c what) t)
      fun _ t' w => DrainedBetween P N b₀ t' w := by
  have htriple : CallTriple P N False b₀ _ none d _ (submitAdmin command t) _ :=
    callTriple_bare halign (unshared_regime P N) ht hd hdir
  refine CallTriple.bind (CallTriple.anyTime (htriple.pre fun w hw => hw.1) (submitAdmin_leads _ _)
    fun w hw => hw.2) fun c t' ht' => ?_
  refine CallTriple.post (callTriple_checkCompletion ht' fun c hc => by cases hc) ?_
  rintro - t'' w - ⟨-, hcommand⟩
  exact ⟨hcommand.beforeCommand (by rw [hdir]; simp), hcommand.drained⟩

theorem anyTime_createIoQueues (ht : SameButQueues d t) (hd : BuiltFor P d) :
    CallTriple P N False b₀ Always none d (DrainedBetween P N b₀ t) (createIoQueues t)
      fun _ t' w => DrainedBetween P N b₀ t' w := by
  have hcompletion := createIoCompletionQueue_direction IO_QUEUE_ID (UInt16.ofNat QUEUE_DEPTH)
    t.ioCompletionQueuePhysicalAddress
  have hsubmission := createIoSubmissionQueue_direction IO_QUEUE_ID (UInt16.ofNat QUEUE_DEPTH)
    IO_QUEUE_ID t.ioSubmissionQueuePhysicalAddress
  -- the source, as two commands that move nothing
  have hsame : createIoQueues t = ((submitAdmin (nvmeCreateIoCompletionQueue IO_QUEUE_ID
        (UInt16.ofNat QUEUE_DEPTH) t.ioCompletionQueuePhysicalAddress) >>= fun c =>
      checkCompletion c "Create I/O Completion Queue") >>= fun _ =>
      submitAdmin (nvmeCreateIoSubmissionQueue IO_QUEUE_ID (UInt16.ofNat QUEUE_DEPTH) IO_QUEUE_ID
        t.ioSubmissionQueuePhysicalAddress) >>= fun c =>
      checkCompletion c "Create I/O Submission Queue") t := by
    rw [Method.bind_assoc]
    rfl
  rw [hsame]
  refine CallTriple.bind (anyTime_bare halign ht (ht.builtFor hd) hcompletion) fun _ t' ht' => ?_
  exact anyTime_bare halign ht' (ht'.builtFor hd) hsubmission

omit halign in
theorem namespaceBlockSize_leads (hnone : d.blockSizes d.nsid = none) :
    (namespaceBlockSize p d.nsid d).Leads Fills := by
  rw [namespaceBlockSize_eq hnone]
  refine Method.leads_bind (identify_leads _ _ _) fun data => ?_
  exact (Method.Stays.lift _).bind fun size =>
    .get_bind fun d _ => .set_bind trivial (.pure size)

/-- **Bring-up.** It ends with a driver that has learnt its block size from the controller, or
without one. -/
theorem bringUp_anyTime (hd : BuiltFor P d) (hnone : d.blockSizes d.nsid = none) :
    (machine P (servingController N) Always).Triple (SingleTask P N False b₀)
      (fun w => BeforeCommands P d w ∧ Unused b₀ w) (bringUp p d) fun x w =>
        match x.1 with
        | .ok _ => Opens P N False b₀ p d.nsid x.2 w
        | _ => SingleTask P N False b₀ w := by
  refine Triple.method_bind resetAndEnable_triple (fun _ t => Triple.of_pure fun hsame => ?_)
    (fun error t w hw => hw.2.2.singleTask) fun why t w hw => hw.2.2.singleTask
  -- the reset leaves the driver as it was; from here on the queues are drained between the parts
  obtain rfl : t = d := hsame
  refine Triple.pre (P := DrainedBetween P N b₀ t) ?_ fun w hw =>
    ⟨hw.2.beforeCommand hw.1, hw.2.drained⟩
  refine Triple.method_bind (anyTime_checkQueueEntrySizes halign hd)
    (fun _ t₁ => Triple.of_pure fun ht₁ => ?_) (fun error t w hw => hw.2.singleTask)
    fun why t w hw => hw
  refine Triple.method_bind (anyTime_createIoQueues halign ht₁ hd)
    (fun _ t₂ => Triple.of_pure fun ht₂ => ?_) (fun error t w hw => hw.2.singleTask)
    fun why t w hw => hw
  rw [Method.get_bind]
  obtain ⟨hsizes, hnsid⟩ := ht₂.sizes
  have hnone₂ : t₂.blockSizes t₂.nsid = none := by rw [hsizes, hnsid, hnone]
  -- the last command is written in the same way
  have hlast : (machine P (servingController N) Unshared).Triple (SingleTask P N False b₀) _
      (namespaceBlockSize p t₂.nsid t₂) _ :=
    namespaceBlockSize_triple halign (unshared_regime P N) (ht₂.builtFor hd) hnone₂
  have hanyTime : (machine P (servingController N) Always).Triple (SingleTask P N False b₀)
      (DrainedBetween P N b₀ t₂) (namespaceBlockSize p t₂.nsid t₂) _ :=
    (hlast.pre fun w hw => hw.1).leads (namespaceBlockSize_leads hnone₂) drainedBetween_stable
      (fun o w r w' hw hact => ⟨hact.1, fun _ i => (hw.2 i).toEmpty⟩)
      (fun o w r w' ho hact => ⟨hact.1, fun hfills => absurd hfills ho⟩) fun _ _ henv => henv
  refine Triple.method_bind hanyTime (fun _ t₃ => ?_) (fun error t w hw => hw)
    fun why t w hw => hw
  refine Triple.ret (fun w w' hw henv => ⟨hw.1, hw.2.1, hw.2.2.step halign henv⟩)
    (fun w hw => hw.2.2.singleTask) fun w hw => ?_
  exact hnsid ▸ hw

end BringUp

/-! ### The life -/

variable {w₀ w : World}

/-- Since `w₀`, only blocks that may be written have changed, and of the memory only the
hugepage. -/
structure Spared (P : Platform) (N : Namespace) (may : Nat → Prop) (w₀ w : World) : Prop where
  disk : ∀ x, ¬ may (x / N.blockSize) → w.disk x = w₀.disk x
  beyond : ∀ x, Beyond P x → w.mem x = w₀.mem x

theorem Unharmed.spared (h : Unharmed P N may w₀ w) : Spared P N may w₀ w := by
  obtain ⟨n, hn⟩ := h
  exact ⟨hn.disk, hn.beyond⟩

/-- The unmapping writes no block. -/
theorem Unharmed.release (h : Unharmed P N may w₀ w) :
    Unharmed P N may w₀ w.release := by
  obtain ⟨n, hn⟩ := h
  exact ⟨n, hn.onRings rfl rfl fun i => .inl ⟨rfl, rfl⟩⟩

/-- A zeroed entry: a Flush, or its like on the admin queue. -/
theorem direction_decode_zeros (i : QueueId) :
    i.direction (.decode (List.replicate 64 0)) = .none := by
  cases i with
  | admin => rfl
  | io => rfl

/-- Before the hugepage is mapped. -/
structure BeforeMapping (w₀ w : World) : Prop extends BeforeOpen w, Unused w₀.disk w where
  mem : w.mem = w₀.mem

theorem BeforeMapping.spared (h : BeforeMapping w₀ w) : Spared P N may w₀ w :=
  ⟨fun x _ => congrFun h.disk x, fun x _ => congrFun h.mem x⟩

/-- The operating system's answers write no block. -/
theorem OnHost.beforeMapping {o : Op} {r : Res o} {w' : World} (ho : OnHost o)
    (h : BeforeMapping w₀ w) (hact : act P o w r w') : BeforeMapping w₀ w' := by
  refine ⟨ho.beforeOpen h.toBeforeOpen hact, (OnHost.offCommands ho).unused h.toUnused hact, ?_⟩
  rw [← h.mem]
  cases o <;> first | exact ho.elim | exact congrArg World.mem hact

/-- The region, newly mapped, has no entry that moves anything. -/
theorem BeforeMapping.intact (h : BeforeMapping w₀ w) : Intact P N may w₀ 0 (w.allocate P) where
  le := Nat.zero_le _
  entered := fun k hk => absurd hk (Nat.not_lt_zero k)
  slots := fun i s hs => by
    refine MovesInside.bare ?_
    -- a hugepage is zeroed when it is allocated, so no slot names a transfer
    have hzeros : (w.allocate P).mem.read (World.address P (i.submissionOffset + 64 * s)) 64 =
        List.replicate 64 0 := by
      have happart := (QueueId.slots_apart i i hs hs).1
      have hlist : PRP_LIST_OFFSET ≤ HUGE_PAGE_SIZE := by decide
      have hlen : (List.replicate HUGE_PAGE_SIZE (0 : UInt8)).length = HUGE_PAGE_SIZE :=
        List.length_replicate
      refine List.ext_getElem (by simp [Mem.read]) fun k hk _ => ?_
      have hk' : k < 64 := by simpa [Mem.read] using hk
      have hslot : World.address P (i.submissionOffset + 64 * s) + k =
          World.address P 0 + (i.submissionOffset + 64 * s + k) := by
        simp only [World.address]
        omega
      rw [Mem.getElem_read, hslot]
      change w.mem.write (World.address P 0) (List.replicate HUGE_PAGE_SIZE 0) _ = _
      rw [Mem.write_inside (by rw [hlen]; omega), List.getElem_replicate, List.getElem_replicate]
    -- an entry of zeros moves nothing
    rw [World.sqe, hzeros]
    exact direction_decode_zeros i
  live := fun i command hcommand => by
    change command ∈ (w.ring i).live at hcommand
    rw [h.ring i] at hcommand
    cases hcommand
  head := fun i => by
    change (w.ring i).sqHead < QUEUE_DEPTH
    rw [h.ring i]
    decide
  disk := fun x _ => congrFun h.disk x
  beyond := fun x hx => by
    refine (Mem.write_of_outside ?_).trans (congrFun h.mem x)
    rw [List.length_replicate]
    simpa only [Beyond, World.address, Nat.add_zero] using hx

/-- Before and after a driver. -/
def BeforeOrUnharmed (P : Platform) (N : Namespace) (may : Nat → Prop) (w₀ w : World) : Prop :=
  BeforeMapping w₀ w ∨ Unharmed P N may w₀ w

theorem BeforeOrUnharmed.spared (h : BeforeOrUnharmed P N may w₀ w) : Spared P N may w₀ w :=
  h.elim (fun h => h.spared) fun h => h.spared

section Life

variable (halign : P.base.val.toNat % PAGE_SIZE = 0)
include halign

/-- And the controller, answering late, changes nothing else. -/
theorem beforeOrUnharmed_stable :
    (machine P (servingController N) Always).Stable (BeforeOrUnharmed P N may w₀) := by
  rintro w w' (hw | hw) henv
  · exact absurd henv (not_env_of_drained hw.drained)
  · exact .inr (unharmed_stable halign w w' hw henv)

/-- The frame of `openDriver`, with answers at any time. -/
theorem openFrame_anyTime : OpenFrame P (servingController N) Always (Spared P N may w₀)
    (BeforeMapping w₀) (fun w => (FreshMapped P w ∧ Unused w₀.disk w) ∧ Intact P N may w₀ 0 w)
    (Unharmed P N may w₀) (BeforeOrUnharmed P N may w₀) where
  before := stable_of_drained fun _ hw => hw.drained
  mapped := stable_of_drained fun _ hw => hw.1.2.drained
  safeToUnmap := unharmed_stable halign
  ended := beforeOrUnharmed_stable halign
  host := fun _ _ _ _ ho hw hact => OnHost.beforeMapping ho hw hact
  allocate := fun _ hw =>
    ⟨⟨fun nsid => hw.toBeforeOpen.allocate.beforeCommands nsid, hw.toUnused.allocate⟩, hw.intact⟩
  refused := fun _ hw => .inl hw
  close := fun _ hw => ⟨0, hw.2⟩
  release := fun _ hw => .inr hw.release
  safeToUnmapInv := fun _ hw => hw.spared
  endedInv := fun _ hw => hw.spared

omit halign in
/-- The commands of `open` give into the data area, or move nothing. -/
theorem allowsBringUp_movesInside (hd : BuiltFor P d) :
    AllowsBringUp d (MovesInside P N may 0) where
  identify := fun _ _ cid => (movesInside_identify hd).cid cid
  completionQueue := fun cid =>
    (MovesInside.bare (createIoCompletionQueue_direction _ _ _)).cid cid
  submissionQueue := fun cid =>
    (MovesInside.bare (createIoSubmissionQueue_direction _ _ _ _)).cid cid

/-- What the driver is like between two calls. -/
def ReadyFor (P : Platform) (N : Namespace) (d : NvmeUserspaceDriver) : Prop :=
  BuiltFor P d ∧ d.Ready N.blockSize

omit halign in
theorem ReadyFor.kept (h : ReadyFor P N d) (hk : d.Kept t) : ReadyFor P N t := by
  refine ⟨?_, hk.ready h.2⟩
  obtain ⟨_, _, rfl, -⟩ := hk
  exact ⟨h.1.bar, h.1.region, h.1.stride⟩

/-- **`open`**, answered in time or not. -/
theorem openDriver_anyTime (bdf : Str) (nsid : UInt32)
    (hlearn : ∀ data size, Identified N .namespace nsid data → blockSizeOf p data = .ok size →
      size = N.blockSize) :
    (machine P (servingController N) Always).Triple (Spared P N may w₀) (BeforeMapping w₀)
      ((openDriver p bdf nsid : Method Op Res σ IoError _) s)
      (Ends (fun d w => ReadyFor P N d ∧ Unharmed P N may w₀ w) (BeforeOrUnharmed P N may w₀)) := by
  -- as far as the frame of `open` goes
  have hopen : (machine P (servingController N) Always).Triple (Spared P N may w₀)
      (BeforeMapping w₀) ((openDriver p bdf nsid : Method Op Res σ IoError _) s)
      (Ends (fun d w => (Learnt P N p d ∧ d.nsid = nsid) ∧ Unharmed P N may w₀ w)
        (BeforeOrUnharmed P N may w₀)) := by
    refine (openFrame_anyTime halign).openDriver bdf fun _ => ?_
    have hd : BuiltFor P (.fresh P.bar P.region P.stride nsid) := ⟨rfl, rfl, rfl⟩
    have hfresh : (NvmeUserspaceDriver.fresh P.bar P.region P.stride nsid).Shaped :=
      ⟨rfl, .new _ _ _, .new _ _ _⟩
    -- what it learns, and what it leaves alone
    have hlearns : (machine P (servingController N) Always).Triple (SingleTask P N False w₀.disk)
        (fun w => FreshMapped P w ∧ Unused w₀.disk w)
        (bringUp p (.fresh P.bar P.region P.stride nsid)) _ :=
      (bringUp_anyTime halign hd rfl).pre fun w hw => ⟨hw.1 nsid, hw.2⟩
    have hspares : (machine P (servingController N) Always).Triple (Unharmed P N may w₀)
        (Intact P N may w₀ 0) (bringUp p (.fresh P.bar P.region P.stride nsid)) _ :=
      intact_of_sat halign
        ((bringUp_ofBringUp (p := p) (allowsBringUp_movesInside (N := N) hd) hfresh).mono
          (fun _ h => h.harmless) fun _ => id)
    refine ((hlearns.and hspares).invariant fun w hw => hw.2.spared).post ?_
    rintro ⟨x, t⟩ w ⟨hx, -, hw⟩
    cases x with
    | ok _ => exact ⟨⟨hx.1, hx.2.1⟩, _, hw⟩
    | err e => exact ⟨_, hw⟩
    | panic why => exact ⟨_, hw⟩
  refine (hopen.returns (sat_openDriver (R := Prog.Any))).post ?_
  rintro ⟨x, t⟩ w ⟨hready, hx⟩
  cases x with
  | err e => exact hx
  | panic why => exact hx
  | ok d =>
    -- the size that it has learnt is the length of a block
    obtain ⟨⟨hlearnt, hd⟩, hw⟩ := hx
    obtain ⟨hnsid, B, hB⟩ := hready d rfl
    obtain ⟨data, size, hdata, hsize, hknown⟩ := hlearnt.known
    obtain rfl : B = size := Option.some.inj (hB.cached.symm.trans hknown)
    obtain rfl := hlearn data B (hnsid ▸ hdata) hsize
    exact ⟨⟨hlearnt.builtFor, hB⟩, hw⟩

/-- What owns a driver, and drops it in the end. -/
theorem unharmed_owning {m : DriverMethod Unit}
    (hm : (machine P (servingController N) Always).Triple (Unharmed P N may w₀)
      (Unharmed P N may w₀) (m d) fun _ => Unharmed P N may w₀) :
    (machine P (servingController N) Always).Triple (Spared P N may w₀) (Unharmed P N may w₀)
      ((do
        let _ ← Method.unwinding drop (Method.owning d m)
        drop : Method Op Res σ IoError Unit) s) fun _ => BeforeOrUnharmed P N may w₀ := by
  have hdrop (t : σ) : (machine P (servingController N) Always).Triple (Spared P N may w₀)
      (Unharmed P N may w₀) ((drop : Method Op Res σ IoError Unit) t)
      fun _ => BeforeOrUnharmed P N may w₀ := (openFrame_anyTime halign).drop
  -- also while the calls are made, only what may change has changed
  have hspared := hm.invariant fun w hw => hw.spared
  exact Triple.method_bind (R := Ends (fun _ => Unharmed P N may w₀) (BeforeOrUnharmed P N may w₀))
    (Triple.unwinding (R := fun _ => Unharmed P N may w₀)
      (Triple.owning (hspared.post fun _ _ hw => hw)) (fun _ _ _ => id) (fun _ _ => hdrop _)
      fun _ _ => hdrop _)
    (fun _ _ => hdrop _) (fun _ _ _ => id) fun _ _ _ => id

/-- **The calls**, by induction. -/
theorem unharmed_callAll {calls : List Call} (hd : ReadyFor P N d)
    (hreads : Unwrapped p N.blockSize calls) (hcalls : ∀ k ∈ calls, k.Within p N.blockSize may) :
    (machine P (servingController N) Always).Triple (Unharmed P N may w₀)
      (Unharmed P N may w₀) (callAll p calls d) fun _ => Unharmed P N may w₀ := by
  have hstable : (machine P (servingController N) Always).Stable (Unharmed P N may w₀) :=
    unharmed_stable halign
  induction calls generalizing d with
  | nil => exact Triple.ret hstable (fun _ => id) fun _ => id
  | cons k rest ih =>
    obtain ⟨hwithin, hrest⟩ := List.forall_mem_cons.mp hcalls
    have hfits (slba : UInt64) (blockCount : UInt16) (hk : k = .read slba blockCount) :
        k.Fits p N.blockSize := hk ▸ hreads slba blockCount (hk ▸ List.mem_cons_self)
    have hreads' : Unwrapped p N.blockSize rest :=
      fun slba blockCount hk => hreads slba blockCount (List.mem_cons_of_mem _ hk)
    -- the marks of a call touch nothing
    have hmark (m : Mark) : ∀ w r w', Unharmed P N may w₀ w →
        (machine P (servingController N) Always).act (.mark m) w r w' →
        Unharmed P N may w₀ w' := by
      rintro w r w' ⟨n, hw⟩ hact
      exact ⟨n, Harmless.intact (o := .mark m) trivial hw hact.1⟩
    rw [callAll, callOne, Method.bind_assoc]
    refine Triple.call_bind (R := fun _ => Unharmed P N may w₀) hstable (fun _ => id)
      (hmark _) fun _ => ?_
    rw [Method.bind_assoc]
    -- the call, whose error goes no further
    refine Triple.method_bind (R := fun x w => d.Kept x.2 ∧ Unharmed P N may w₀ w)
      (Triple.attempt ((intact_perform halign hd.1 hd.2 hfits hwithin).post ?_))
      (fun result t => ?_) (fun _ _ _ hw => hw.2) fun _ _ _ hw => hw.2
    · rintro ⟨x, t⟩ w hw
      cases x <;> exact hw
    refine Triple.of_pure fun hk => Triple.call_bind (R := fun _ => Unharmed P N may w₀) hstable
      (fun _ => id) (hmark _) fun _ => ih (hd.kept hk) hreads' hrest

/-- A driver's life, with its `open`, its calls and its drop. -/
theorem unharmed_lifetime {calls : List Call} (bdf : Str) (nsid : UInt32)
    (hlearn : ∀ data size, Identified N .namespace nsid data → blockSizeOf p data = .ok size →
      size = N.blockSize)
    (hreads : Unwrapped p N.blockSize calls) (hcalls : ∀ k ∈ calls, k.Within p N.blockSize may) :
    (machine P (servingController N) Always).Triple (Spared P N may w₀) (BeforeMapping w₀)
      (lifetime p bdf nsid calls ()) fun _ => BeforeOrUnharmed P N may w₀ := by
  refine Triple.method_bind (openDriver_anyTime halign bdf nsid hlearn)
    (fun d t => Triple.of_pure fun hd => ?_) (fun _ _ _ => id) fun _ _ _ => id
  exact unharmed_owning halign (unharmed_callAll halign hd hreads hcalls)

end Life

/-- Blocks that are no longer than any device has give lengths that are exact. -/
theorem Call.fits_read {B : Nat} (hblock : B ≤ 2 ^ 48) (slba : UInt64) (blockCount : UInt16) :
    (Call.read slba blockCount).Fits p B := by
  intro _
  have hlt := UInt16.toNat_lt blockCount
  refine .inl ?_
  calc B * blockCount.toNat
    _ ≤ 2 ^ 48 * blockCount.toNat := Nat.mul_le_mul_right _ hblock
    _ < 2 ^ 48 * 2 ^ 16 := (Nat.mul_lt_mul_left (by decide)).mpr hlt
    _ = U64_SIZE := rfl

/-- And so do those that are no shorter. -/
theorem Call.fits_of_block {B : Nat} (hdisk : 512 ≤ B) (hblock : B ≤ 2 ^ 48) (k : Call) :
    k.Fits p B := by
  cases k with
  | identifyController => trivial
  | read slba blockCount => exact Call.fits_read hblock slba blockCount
  | write slba data =>
    intro hmax
    calc data.length / B
      _ ≤ MAX_TRANSFER_BYTES / 512 := Nat.div_le_div hmax hdisk (by decide)
      _ ≤ 2 ^ 16 := by decide

/-- The blocks that the call writes: those of a payload that is accepted and sent. -/
def Call.Writes (p : Profile) (B : Nat) : Call → Nat → Prop
  | write slba data, b => Accepts B data ∧ ¬ CutsToZero p B data.length ∧ slba.toNat ≤ b ∧
      b < slba.toNat + sentBlocks B data.length
  | _, _ => False

/-- Every call writes what one of the calls writes. -/
theorem Call.within_writes {B : Nat} {calls : List Call} {k : Call} (hk : k ∈ calls) :
    k.Within p B fun b => ∃ k ∈ calls, k.Writes p B b := by
  cases k with
  | write slba data =>
    intro haccepts hcut l hl
    exact ⟨_, hk, haccepts, hcut, Nat.le_add_right _ _, Nat.add_lt_add_left hl _⟩
  | read slba blockCount => trivial
  | identifyController => trivial

/-- **Nothing else is harmed.** Over a driver's life, from `open` over any calls to the drop, on a
controller that fetches, executes and completes its commands whenever it likes, so that any call
may time out and any command outlive it: the disk changes in the blocks of the payloads that the
calls were given alone, and the memory of the host in the hugepage alone. Of a hugepage that was
unmapped under a command, nothing is said, since it may then be another's. -/
theorem lifetime_spares (P : Platform) (N : Namespace) (p : Profile) (bdf : Str) (nsid : UInt32)
    (calls : List Call) (w₀ : World) (halign : P.base.val.toNat % PAGE_SIZE = 0)
    (hformat : N.Formatted nsid) (hplain : N.Plain p nsid)
    (hreads : Unwrapped p N.blockSize calls) (hstart : NeverUsed w₀)
    (c : Config Op Res World (Outcome IoError Unit × Unit))
    (hc : (machine P (servingController N) Always).Reaches
      (lifetime p bdf nsid calls (), w₀) c) :
    (∀ n, c.2.released = some n → n = 0) →
      (∀ x, (∀ k ∈ calls, ¬ k.Writes p N.blockSize (x / N.blockSize)) →
        c.2.disk x = w₀.disk x) ∧
      ∀ x, Beyond P x → c.2.mem x = w₀.mem x := by
  intro _
  -- what may change is what one of the calls writes
  have hwithin : ∀ k ∈ calls, k.Within p N.blockSize fun b =>
      ∃ k ∈ calls, k.Writes p N.blockSize b := fun k hk => Call.within_writes hk
  have hlearn (data : List UInt8) (size : Nat) (hdata : Identified N .namespace nsid data)
      (hsize : blockSizeOf p data = .ok size) : size = N.blockSize :=
    hformat.learns hplain hdata hsize
  have hspared := (unharmed_lifetime halign bdf nsid hlearn hreads hwithin w₀
    ⟨hstart.toBeforeOpen, hstart.unused, rfl⟩ c hc).1
  -- a byte that no call writes is not among what may change
  refine ⟨fun x hx => hspared.disk x ?_, hspared.beyond⟩
  rintro ⟨k, hk, hwrites⟩
  exact hx k hk hwrites

/-- A read of one block. -/
theorem lifetime_spares_read : ∃ c earlier number bytes,
    (machine .twoPages (servingController .ofSectors) Always).Reaches
      (lifetime .release [] 1 [.read 0 1] (), World.zeroed) c ∧
    c.2.calls = earlier ++ [⟨.read 0 1, number, .ok bytes⟩] ∧
    ((∀ n, c.2.released = some n → n = 0) →
      (∀ x, (∀ k ∈ [Call.read 0 1], ¬ k.Writes .release 512 (x / 512)) →
        c.2.disk x = World.zeroed.disk x) ∧
      ∀ x, Beyond .twoPages x → c.2.mem x = World.zeroed.mem x) := by
  obtain ⟨c, earlier, number, bytes, hrun, -, hcalls, -⟩ := reads_512 (p := .release)
    allowsDrained_always 512 (length_namespaceData 9) ofSectors_size (by decide)
  -- one block of 512 bytes does not wrap
  have hreads : Unwrapped .release 512 [.read 0 1] := by
    intro slba blockCount hmem
    obtain ⟨rfl, rfl⟩ := Call.read.inj (List.mem_singleton.mp hmem)
    exact fun _ => .inl (by decide)
  exact ⟨c, earlier, number, bytes, hrun, hcalls, lifetime_spares .twoPages .ofSectors .release []
    1 [.read 0 1] .zeroed twoPages_aligned ofSectors_formatted ofSectors_plain hreads
    ⟨⟨fun _ => rfl, rfl⟩, rfl, rfl, rfl⟩ c hrun⟩

end Nvmetoy
