import Nvmetoy.CallTriples
import Nvmetoy.BlockSize

/-!
# A driver's life, on a controller that executes its commands

`open` leads from a controller that was never used to a driver that knows the length of a block
(`openDriver_opens`), and any number of calls lead on from there. `lifetime_triple` is what is kept
throughout, up to the drop.
-/

namespace Nvmetoy

open Framework Machine NvmeUserspaceDriver

variable {P : Platform} {N : Namespace} {i : QueueId} {w w' : World}
  {explains : Prop} {b₀ : Mem} {G : Op → World → Prop} {d t : NvmeUserspaceDriver}
  {nsid : UInt32} {p : Profile}

/-! ### Before the first command -/

/-- No command has been written, and no call made. -/
structure Unused (b₀ : Mem) (w : World) : Prop where
  drained : ∀ i, Drained (w.ring i)
  posted : ∀ i, (w.ring i).posted = []
  transfers : w.transfers = []
  calls : w.calls = []
  current : w.current = none
  disk : w.disk = b₀

/-- Where nothing is under way, there is one task at most. -/
theorem Unused.singleTask (h : Unused b₀ w) : SingleTask P N explains b₀ w where
  recorded := by
    -- no completion was posted, nothing moved, nothing issued and no call made
    refine ⟨fun i j c k hj => ?_, fun t ht => ?_, fun k hk => ?_, fun record hrecord => ?_⟩
    · rw [h.posted i] at hj
      simp at hj
    · rw [h.transfers] at ht
      cases ht
    · rw [h.posted .io] at hk
      exact absurd hk (Nat.not_lt_zero k)
    · rw [h.calls] at hrecord
      cases hrecord
  flight := .inl ⟨fun i => (h.drained i).toEmpty, fun _ => ⟨b₀, h.calls ▸ .nil, by
    rw [h.current, h.disk]
    exact Underneath.refl _ _ _⟩⟩
  told := fun _ record hrecord => by
    rw [h.calls] at hrecord
    cases hrecord

/-- The driver that `open` constructs, before its first command. -/
theorem Unused.beforeCommand (h : Unused b₀ w) (hd : BeforeCommands P d w) :
    BeforeCommand P N explains b₀ none d w where
  singleTask := h.singleTask
  atMostOneLeft := .inl h.drained
  rest := fun i => ⟨0, 0, 0, rfl, hd.driven i, hd.at_zero i⟩
  current := h.current
  blocks := fun _ => ⟨h.drained, by rw [h.calls, h.disk]; exact .nil⟩

/-- The operations of `open` beside its commands. -/
def OffCommands : Op → Prop
  | .readDriverLink _ | .configOpen _ | .configSeek _ | .configRead _ | .configWrite _
  | .mapBar _ _ | .allocHuge | .read64 _ | .unmapBar | .unmapDma => True
  | o => Configures o

theorem Configures.offCommands {o : Op} (h : Configures o) : OffCommands o := by
  cases o <;> first | exact h | trivial

theorem OnHost.offCommands {o : Op} (h : OnHost o) : OffCommands o := by
  cases o <;> trivial

/-- A controller that was never used is disabled, or enabled. -/
theorem Unused.writeConfiguration (h : Unused b₀ w) (value : UInt32) :
    Unused b₀ (w.writeConfiguration value) := by
  unfold World.writeConfiguration
  split
  · refine ⟨fun i => ⟨⟨rfl, rfl⟩, (h.drained i).all⟩, h.posted, h.transfers, h.calls, h.current,
      h.disk⟩
  · exact ⟨h.drained, h.posted, h.transfers, h.calls, h.current, h.disk⟩

/-- And what is unused stays unused. -/
theorem OffCommands.unused {o : Op} {r : Res o} (ho : OffCommands o) (h : Unused b₀ w)
    (hact : act P o w r w') : Unused b₀ w' := by
  -- the history and the rings are as they were, but for a reset
  have hsame {v : World} (hring : v.ring = w.ring) (htransfers : v.transfers = w.transfers)
      (hcalls : v.calls = w.calls) (hcurrent : v.current = w.current) (hdisk : v.disk = w.disk) :
      Unused b₀ v := ⟨hring ▸ h.drained, hring ▸ h.posted, htransfers.trans h.transfers,
    hcalls.trans h.calls, hcurrent.trans h.current, hdisk.trans h.disk⟩
  cases o
  -- a register that is no doorbell
  case write32 offset value =>
    obtain rfl := hact
    rw [writeRegister_low ho]
    split
    · exact h.writeConfiguration value
    · exact h
  case mapBar =>
    obtain ⟨-, rfl⟩ := hact
    exact h
  case read64 =>
    obtain ⟨-, rfl⟩ := hact
    exact h
  case allocHuge =>
    cases r with
    | ok a =>
      obtain ⟨-, rfl⟩ := hact
      exact hsame rfl rfl rfl rfl rfl
    | error e =>
      obtain rfl := hact
      exact h
  case unmapDma =>
    obtain rfl := hact
    exact hsame rfl rfl rfl rfl rfl
  -- the others change nothing, or are commands
  all_goals first
    | exact ho.elim
    | (obtain rfl := hact; exact h)

/-- The hugepage is mapped. -/
theorem Unused.allocate (h : Unused b₀ w) : Unused b₀ (w.allocate P) :=
  OffCommands.unused (P := P) (o := .allocHuge) (r := .ok P.base) trivial h ⟨rfl, rfl⟩

/-! ### The commands of `open` -/

/-- The driver knows the block size that the data of an Identify gave. -/
structure Learnt (P : Platform) (N : Namespace) (p : Profile) (d : NvmeUserspaceDriver) :
    Prop where
  builtFor : BuiltFor P d
  known : ∃ data size, Identified N .namespace d.nsid data ∧ blockSizeOf p data = .ok size ∧
    d.blockSizes d.nsid = some size

section Commands

variable (halign : P.base.val.toNat % PAGE_SIZE = 0) (hreg : Regime P N explains G)
include halign

/-- A check that the driver makes on its own. -/
theorem callTriple_ite {c : Prop} [Decidable c] {error : IoError} (ht : SameButQueues d t) :
    CallTriple P N explains b₀ G none d (BeforeCommand P N explains b₀ none t)
      ((if c then pure () else Method.fail error : DriverMethod Unit) t) fun _ t' w =>
        BeforeCommand P N explains b₀ none t' w := by
  by_cases hc : c
  · rw [if_pos hc]
    exact .ok ht (beforeCommand_stable halign) (fun w hw => hw.singleTask) fun w hw => hw
  · rw [if_neg hc]
    exact .fail ht (beforeCommand_stable halign) fun w hw => hw.afterError fun c hc => by cases hc

include hreg

/-- The check of the entry sizes, as a step of the bring-up. -/
theorem callTriple_checkQueueEntrySizes (hd : BuiltFor P d) :
    CallTriple P N explains b₀ G none d (BeforeCommand P N explains b₀ none d)
      (checkQueueEntrySizes d) fun _ t w => BeforeCommand P N explains b₀ none t w := by
  refine CallTriple.bind (callTriple_identify halign hreg (.refl d) hd fun c hc => by cases hc)
    fun data t ht => ?_
  refine Triple.of_pure fun _ => Triple.pre (P := BeforeCommand P N explains b₀ none t) ?_
    fun w h => h.1
  cases IdentifyController.readFromPrefix data with
  | none =>
    exact CallTriple.fail ht (beforeCommand_stable halign) fun w hw =>
      hw.afterError fun c hc => by cases hc
  | some controller =>
    exact CallTriple.bind (callTriple_ite halign ht) fun _ t' ht' => callTriple_ite halign ht'

omit halign hreg in
/-- A command that moves no data. -/
theorem bare_loaded {i : QueueId} {command : SubmissionQueueEntry}
    (hdir : i.direction command = .none) (m : Mem) : Loaded P N i command [] m :=
  ⟨fun h => absurd hdir h, fun h => by rw [hdir] at h; cases h⟩

theorem callTriple_bare {command : SubmissionQueueEntry} (ht : SameButQueues d t)
    (hd : BuiltFor P t) (hdir : QueueId.admin.direction command = .none) :
    CallTriple P N explains b₀ G none d (BeforeCommand P N explains b₀ none t)
      (submitAdmin command t) (CommandCompleted P N explains b₀ none .admin command []) :=
  Triple.pre (callTriple_submitAdmin halign hreg ht hd) fun _ hw =>
    ⟨hw, bare_loaded hdir _, .inr (bare_loaded hdir)⟩

omit halign hreg in
theorem callTriple_confirm {command : SubmissionQueueEntry} {c : CompletionQueueEntry}
    {what : String} (ht : SameButQueues d t) (hdir : QueueId.admin.direction command = .none) :
    CallTriple P N explains b₀ G none d
      (CommandCompleted P N explains b₀ none .admin command [] c t)
      (checkCompletion c what t) fun _ t' w => BeforeCommand P N explains b₀ none t' w := by
  refine CallTriple.post (callTriple_checkCompletion ht fun c hc => by cases hc) ?_
  rintro - t' w - ⟨-, hcommand⟩
  exact hcommand.beforeCommand (by rw [hdir]; simp)

omit halign hreg in
theorem createIoCompletionQueue_direction (id size : UInt16) (address : UInt64) :
    QueueId.admin.direction (nvmeCreateIoCompletionQueue id size address) = .none := by
  have hopcode : ¬ AdminOpcode.createIoCompletionQueue.toUInt8 = AdminOpcode.identify.toUInt8 := by
    decide
  rw [QueueId.direction]
  exact if_neg hopcode

omit halign hreg in
theorem createIoSubmissionQueue_direction (id size completionId : UInt16) (address : UInt64) :
    QueueId.admin.direction (nvmeCreateIoSubmissionQueue id size completionId address) =
      .none := by
  have hopcode : ¬ AdminOpcode.createIoSubmissionQueue.toUInt8 = AdminOpcode.identify.toUInt8 := by
    decide
  rw [QueueId.direction]
  exact if_neg hopcode

theorem callTriple_createIoQueues (ht : SameButQueues d t) (hd : BuiltFor P d) :
    CallTriple P N explains b₀ G none d (BeforeCommand P N explains b₀ none t) (createIoQueues t)
      fun _ t' w => BeforeCommand P N explains b₀ none t' w := by
  have hcompletion := createIoCompletionQueue_direction IO_QUEUE_ID (UInt16.ofNat QUEUE_DEPTH)
    t.ioCompletionQueuePhysicalAddress
  have hsubmission := createIoSubmissionQueue_direction IO_QUEUE_ID (UInt16.ofNat QUEUE_DEPTH)
    IO_QUEUE_ID t.ioSubmissionQueuePhysicalAddress
  -- the two commands move no data, so they need no more than a command before
  rw [createIoQueues, Method.get_bind]
  refine CallTriple.bind (callTriple_bare halign hreg ht (ht.builtFor hd) hcompletion)
    fun c t₁ ht₁ => ?_
  refine CallTriple.bind (callTriple_confirm ht₁ hcompletion) fun _ t₂ ht₂ => ?_
  refine CallTriple.bind (callTriple_bare halign hreg ht₂ (ht₂.builtFor hd) hsubmission)
    fun c t₃ ht₃ => ?_
  exact callTriple_confirm ht₃ hsubmission

/-- How a part of `open` ends: with a driver that has learnt a block size, or without a driver. -/
def Opens (P : Platform) (N : Namespace) (explains : Prop) (b₀ : Mem) (p : Profile) (nsid : UInt32)
    (d : NvmeUserspaceDriver) (w : World) : Prop :=
  Learnt P N p d ∧ d.nsid = nsid ∧ BeforeCommand P N explains b₀ none d w

/-- The block size is learnt. -/
theorem namespaceBlockSize_triple (hd : BuiltFor P d) (hnone : d.blockSizes d.nsid = none) :
    (machine P (servingController N) G).Triple (SingleTask P N explains b₀)
      (BeforeCommand P N explains b₀ none d) (namespaceBlockSize p d.nsid d) fun x w =>
        match x.1 with
        | .ok _ => Opens P N explains b₀ p d.nsid x.2 w
        | _ => SingleTask P N explains b₀ w := by
  rw [namespaceBlockSize_eq hnone]
  refine Triple.method_bind (callTriple_identify halign hreg (.refl d) hd fun c hc => by cases hc)
    (fun data t => Triple.of_pure fun ht => Triple.of_pure fun hdata => ?_)
    (fun error t w hw => hw.2.singleTask) fun why t w hw => hw
  have hpre : ∀ w, (BeforeCommand P N explains b₀ none t w ∧ ∀ i, Drained (w.ring i)) →
      BeforeCommand P N explains b₀ none t w := fun w hw => hw.1
  -- the size the report encodes: a refused encoding fails the call before the cache is touched
  refine Triple.pre (Triple.lift_bind (beforeCommand_stable halign) (fun w hw => hw.singleTask)
    (fun size hsize => ?_) (fun error w _ hw => hw.singleTask) fun why w _ hw => hw.singleTask) hpre
  rw [Method.get_bind]
  obtain ⟨-, hnsid⟩ := ht.sizes
  have hkept := ht.builtFor hd
  -- the cache now answers for this namespace with the size just read
  refine Triple.ret (beforeCommand_stable halign) (fun w hw => hw.singleTask) fun w hw =>
    ⟨⟨⟨hkept.bar, hkept.region, hkept.stride⟩, data, size, ?_, hsize, ?_⟩, hnsid, ?_⟩
  · exact hnsid.symm ▸ hdata
  · change (if t.nsid = d.nsid then some size else t.blockSizes t.nsid) = some size
    rw [if_pos hnsid]
  · exact ⟨⟨hw.singleTask, hw.atMostOneLeft, fun i => by cases i <;> exact hw.rest _, hw.current⟩,
      hw.blocks⟩

omit halign hreg in
/-- The controller is enabled. -/
theorem resetAndEnable_triple :
    (machine P (servingController N) G).Triple (SingleTask P N explains b₀)
      (fun w => BeforeCommands P d w ∧ Unused b₀ w) (resetAndEnable d) fun x w =>
        x.2 = d ∧ BeforeCommands P d w ∧ Unused b₀ w := by
  have hkeep (o : Op) (w : World) (r : Res o) (w' : World) (ho : Configures o)
      (hw : BeforeCommands P d w ∧ Unused b₀ w)
      (h : (machine P (servingController N) G).act o w r w') :
      BeforeCommands P d w' ∧ Unused b₀ w' :=
    ⟨ho.beforeCommands hw.1 h.1, (Configures.offCommands ho).unused hw.2 h.1⟩
  exact Triple.of_sat (sat_resetAndEnable (R := Prog.Any))
    (stable_of_drained fun w hw => hw.2.drained) (fun w hw => hw.2.singleTask)
    (fun _ _ _ _ _ _ => trivial) hkeep

/-- From the constructed driver to the one that `open` returns. -/
theorem bringUp_opens (hd : BuiltFor P d) (hnone : d.blockSizes d.nsid = none) :
    (machine P (servingController N) G).Triple (SingleTask P N explains b₀)
      (fun w => BeforeCommands P d w ∧ Unused b₀ w) (bringUp p d) fun x w =>
        match x.1 with
        | .ok _ => Opens P N explains b₀ p d.nsid x.2 w
        | _ => SingleTask P N explains b₀ w := by
  refine Triple.method_bind resetAndEnable_triple (fun _ t => Triple.of_pure fun hsame => ?_)
    (fun error t w hw => hw.2.2.singleTask) fun why t w hw => hw.2.2.singleTask
  obtain rfl : t = d := hsame
  -- a controller enabled afresh has both rings empty and nothing posted
  refine Triple.pre (P := BeforeCommand P N explains b₀ none t) ?_ fun w hw =>
    hw.2.beforeCommand hw.1
  refine Triple.method_bind (callTriple_checkQueueEntrySizes halign hreg hd)
    (fun _ t₁ => Triple.of_pure fun ht₁ => ?_) (fun error t w hw => hw.2.singleTask)
    fun why t w hw => hw
  refine Triple.method_bind (callTriple_createIoQueues halign hreg ht₁ hd)
    (fun _ t₂ => Triple.of_pure fun ht₂ => ?_) (fun error t w hw => hw.2.singleTask)
    fun why t w hw => hw
  -- none of the calls before this one touched the cache, so the report is really asked for
  rw [Method.get_bind]
  obtain ⟨hsizes, hnsid⟩ := ht₂.sizes
  refine Triple.method_bind (namespaceBlockSize_triple halign hreg (ht₂.builtFor hd)
    (by rw [hsizes, hnsid, hnone])) (fun _ t₃ => ?_) (fun error t w hw => hw)
    fun why t w hw => hw
  refine Triple.ret (fun w w' hw henv => ⟨hw.1, hw.2.1, hw.2.2.step halign henv⟩)
    (fun w hw => hw.2.2.singleTask) fun w hw => ?_
  exact hnsid ▸ hw

end Commands

/-! ### `open`, the calls and the drop -/

/-- The region is given up, in any state. -/
theorem SingleTask.unmap (h : SingleTask P N explains b₀ w) :
    SingleTask P N explains b₀ w.release :=
  h.onlyRead ⟨fun _ => .refl _, rfl, rfl, rfl, rfl⟩ rfl rfl

section Life

variable (halign : P.base.val.toNat % PAGE_SIZE = 0) (hreg : Regime P N explains G)
include halign

variable {σ : Type} {s : σ}

theorem singleTask_stable :
    (machine P (servingController N) G).Stable (SingleTask P N explains b₀) :=
  fun _ _ h henv => h.step halign henv

/-- The frame of `openDriver` in front of a controller that serves. -/
theorem openFrame_serving : OpenFrame P (servingController N) G (SingleTask P N explains b₀)
    (fun w => BeforeOpen w ∧ Unused b₀ w) (fun w => FreshMapped P w ∧ Unused b₀ w)
    (SingleTask P N explains b₀) (SingleTask P N explains b₀) where
  before := stable_of_drained fun _ hw => hw.2.drained
  mapped := stable_of_drained fun _ hw => hw.2.drained
  safeToUnmap := singleTask_stable halign
  ended := singleTask_stable halign
  host := fun _ _ _ _ ho hw hact =>
    ⟨ho.beforeOpen hw.1 hact, (OnHost.offCommands ho).unused hw.2 hact⟩
  allocate := fun _ hw => ⟨fun nsid => hw.1.allocate.beforeCommands nsid, hw.2.allocate⟩
  refused := fun _ hw => hw.2.singleTask
  close := fun _ hw => hw.2.singleTask
  release := fun _ hw => hw.unmap
  safeToUnmapInv := fun _ => id
  endedInv := fun _ => id

include hreg

/-- **`open`.** -/
theorem openDriver_opens (bdf : Str) (nsid : UInt32) :
    (machine P (servingController N) G).Triple (SingleTask P N explains b₀)
      (fun w => BeforeOpen w ∧ Unused b₀ w)
      ((openDriver p bdf nsid : Method Op Res σ IoError _) s)
      (Ends (Opens P N explains b₀ p nsid) (SingleTask P N explains b₀)) := by
  -- the frame is what `open` does around the bring-up
  refine (openFrame_serving halign).openDriver bdf fun _ =>
    ((bringUp_opens (p := p) halign hreg ⟨rfl, rfl, rfl⟩ rfl).pre
      fun w hw => ⟨hw.1 nsid, hw.2⟩).post ?_
  rintro ⟨x, d⟩ w hw
  cases x with
  | ok _ => exact hw
  | err e => exact hw
  | panic why => exact hw

/-- **A driver's life**, from `open` to the drop. -/
theorem lifetime_triple {calls : List Call} (bdf : Str) (nsid : UInt32)
    (hlearn : ∀ data size, Identified N .namespace nsid data → blockSizeOf p data = .ok size →
      size = N.blockSize) (hpos : 0 < N.blockSize)
    (hfits : ∀ k ∈ calls, k.Fits p N.blockSize) :
    (machine P (servingController N) G).Triple (SingleTask P N explains b₀)
      (fun w => BeforeOpen w ∧ Unused b₀ w) (lifetime p bdf nsid calls ())
      fun _ => SingleTask P N explains b₀ := by
  -- the drop may come at any end
  have hdrop (t : Unit) : (machine P (servingController N) G).Triple (SingleTask P N explains b₀)
      (SingleTask P N explains b₀) ((drop : Method Op Res Unit IoError Unit) t) fun _ =>
        SingleTask P N explains b₀ :=
    (openFrame_serving halign).drop
  refine Triple.method_bind (openDriver_opens halign hreg bdf nsid) (fun d t => ?_)
    (fun _ _ _ => id) fun _ _ _ => id
  refine Triple.method_bind (R := fun _ => SingleTask P N explains b₀)
    (Triple.unwinding (R := fun _ => SingleTask P N explains b₀)
      (Triple.owning ?_) (fun _ _ _ => id) (fun _ _ => hdrop _) fun _ _ => hdrop _)
    (fun _ _ => hdrop _) (fun _ _ _ => id) fun _ _ _ => id
  -- the calls, with the size that was learnt
  refine Triple.of_pure fun hlearnt => Triple.of_pure fun hnsid => ?_
  obtain ⟨data, size, hdata, hsize, hknown⟩ := hlearnt.known
  obtain rfl := hlearn data size (hnsid ▸ hdata) hsize
  refine (callAll_triple halign hreg hlearnt.builtFor hknown hpos hfits).post ?_
  rintro ⟨x, d'⟩ w hw
  cases x with
  | ok _ => exact hw.2.singleTask
  | err e => exact hw
  | panic why => exact hw

end Life

end Nvmetoy
