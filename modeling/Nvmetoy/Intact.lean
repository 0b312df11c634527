import Nvmetoy.Framework.Refine
import Nvmetoy.Footprint
import Nvmetoy.Opening

/-!
# What a late command can still do

Nothing is asked here of the time in which the controller answers: a command may be fetched,
executed and completed long after its call has given up, when its slot, the list and the data area
are already used for the next ones. What it moves may then be wrong (`Undisturbed` says when it
is not), but not where: whatever entry the controller finds in a slot, and whenever it looks at the
list, the data area is all of the memory it is led to, and the blocks it writes are those named by
an entry that a call has put there.

* `MovesInside` — an entry that is harmless on any memory whose list has been entered so far. The
  first entries of the list, once entered, are never changed, since every call that writes them
  writes the same (`EntriesWritten`).
* `Intact` — every entry in a slot or in hand moves its data inside, the disk has not changed
  outside the blocks that may be written, and the memory of the host not outside the hugepage. It is
  kept by the controller (`Intact.step`) and by the driver (`Harmless.intact`).
* `intact_perform` — the calls.
-/

namespace Nvmetoy

open Framework Machine NvmeUserspaceDriver

variable {P : Platform} {N : Namespace} {may : Nat → Prop} {w₀ : World} {i j : QueueId} {n n' : Nat}
  {w w' : World} {e : SubmissionQueueEntry} {m : Mem}

/-! ### Entries -/

theorem EntriesWritten.mono (h : EntriesWritten P n' m) (hle : n ≤ n') : EntriesWritten P n m :=
  fun k hk => h k (Nat.lt_of_lt_of_le hk hle)

/-- What the controller may do with the entry, however late it comes to it: what it gives goes
into the data area, and what it takes goes to blocks that may be written. -/
structure MovesInside (P : Platform) (N : Namespace) (may : Nat → Prop) (n : Nat) (i : QueueId)
    (e : SubmissionQueueEntry) : Prop where
  listed : i.direction e = .toHost → ∀ m, EntriesWritten P n m → Listed P (N.length i e) e m
  within : i.direction e = .fromHost → ∀ k, k < e.blockCount → may (e.slba + k)

theorem MovesInside.mono (h : MovesInside P N may n i e) (hle : n ≤ n') :
    MovesInside P N may n' i e :=
  ⟨fun hdir m hm => h.listed hdir m (hm.mono hle), h.within⟩

theorem MovesInside.cid (h : MovesInside P N may n i e) (cid : UInt16) :
    MovesInside P N may n i { e with cid := cid } where
  listed := fun hdir m hm => by
    rw [Namespace.length_cid]
    exact (h.listed (by rwa [QueueId.direction_cid] at hdir) m hm).cid cid
  within := fun hdir => h.within (by rwa [QueueId.direction_cid] at hdir)

/-- An entry that moves nothing. -/
theorem MovesInside.bare (h : i.direction e = .none) : MovesInside P N may n i e where
  listed := fun hdir => by
    rw [h] at hdir
    cases hdir
  within := fun hdir => by
    rw [h] at hdir
    cases hdir

/-- The byte is not of the hugepage. -/
def Beyond (P : Platform) (x : Nat) : Prop :=
  x < World.address P 0 ∨ World.address P HUGE_PAGE_SIZE ≤ x

/-- Every command moves its data inside, and the world has changed where it may alone, since
`w₀`. -/
structure Intact (P : Platform) (N : Namespace) (may : Nat → Prop) (w₀ : World) (n : Nat)
    (w : World) : Prop where
  le : n ≤ PRP_LIST_CAPACITY
  entered : EntriesWritten P n w.mem
  slots : ∀ i s, s < QUEUE_DEPTH → MovesInside P N may n i (w.sqe P i s)
  live : ∀ i, ∀ command ∈ (w.ring i).live, MovesInside P N may n i command.entry
  head : ∀ i, (w.ring i).sqHead < QUEUE_DEPTH
  disk : ∀ x, ¬ may (x / N.blockSize) → w.disk x = w₀.disk x
  beyond : ∀ x, Beyond P x → w.mem x = w₀.mem x

/-- The page of the list is as it was. -/
theorem EntriesWritten.congr (h : EntriesWritten P n m) (hle : n ≤ PRP_LIST_CAPACITY) {m' : Mem}
    (hm : ∀ x, World.address P PRP_LIST_OFFSET ≤ x → x < World.address P DATA_OFFSET →
      m' x = m x) : EntriesWritten P n m' := by
  intro k hk
  rw [← h k hk]
  refine Prp.entry_congr fun x hx hlt => hm x ?_ ?_
  · simp only [prpEntryAddress, World.address] at hx ⊢
    omega
  · simp only [prpEntryAddress, World.address, PRP_LIST_OFFSET, PRP_LIST_CAPACITY,
      DATA_OFFSET] at hlt hle ⊢
    omega

theorem Intact.contained (h : Intact P N may w₀ n w) : Contained P N w :=
  fun i command hc hdir => (h.live i command hc).listed hdir w.mem h.entered

/-- A change that leaves the slots and the list alone, and brings no new command. -/
theorem Intact.frame (h : Intact P N may w₀ n w)
    (hsqe : ∀ i s, s < QUEUE_DEPTH → w'.sqe P i s = w.sqe P i s)
    (hlist : ∀ x, World.address P PRP_LIST_OFFSET ≤ x → x < World.address P DATA_OFFSET →
      w'.mem x = w.mem x)
    (hlive : ∀ i, ∀ command ∈ (w'.ring i).live, ∃ c ∈ (w.ring i).live, c.entry = command.entry)
    (hhead : ∀ i, (w'.ring i).sqHead < QUEUE_DEPTH)
    (hdisk : ∀ x, ¬ may (x / N.blockSize) → w'.disk x = w.disk x)
    (hbeyond : ∀ x, Beyond P x → w'.mem x = w.mem x) :
    Intact P N may w₀ n w' where
  le := h.le
  entered := h.entered.congr h.le hlist
  slots := fun i s hs => by
    rw [hsqe i s hs]
    exact h.slots i s hs
  live := fun i command hcommand => by
    obtain ⟨c, hc, hentry⟩ := hlive i command hcommand
    exact hentry ▸ h.live i c hc
  head := hhead
  disk := fun x hx => (hdisk x hx).trans (h.disk x hx)
  beyond := fun x hx => (hbeyond x hx).trans (h.beyond x hx)

/-! ### The controller -/

/-- The controller writes completions and the data area. -/
theorem EnvStep.mem_eq (halign : P.base.val.toNat % PAGE_SIZE = 0) (h : Contained P N w)
    (henv : EnvStep P (servingController N) w w') {x : Nat}
    (hrings : x < World.address P 0 ∨ World.address P PRP_LIST_OFFSET ≤ x)
    (hdata : x < World.address P DATA_OFFSET ∨ World.address P HUGE_PAGE_SIZE ≤ x) :
    w'.mem x = w.mem x := by
  cases henv with
  | fetch => rfl
  | @post i c k live =>
    -- a completion goes into a ring, below the list
    have hslot : (w.ring i).posted.length % QUEUE_DEPTH < QUEUE_DEPTH := Nat.mod_lt _ (by decide)
    have happart := (QueueId.slots_apart i i hslot hslot).2.1
    have hlen : c.encode.length = 16 := c.length_encode
    refine Mem.write_of_outside ?_
    simp only [World.address, hlen] at hrings ⊢
    omega
  | transfer htransfer =>
    obtain ⟨i, before, command, after, hlive, -, hexec⟩ := htransfer
    cases hexec with
    | give fuel n pages hdir hwalk =>
      have hlisted := h i command (by rw [hlive]; simp) hdir
      change Prp.scatter PAGE_SIZE pages w.mem _ _ x = _
      rcases Nat.lt_or_ge (N.length i command.entry) (w.moved i command.number).length with
        hgt | hle
      · -- nothing is left to give
        have hnil : (N.supplies i command.entry w.disk).drop (w.moved i command.number).length =
            [] := List.drop_eq_nil_of_le (by rw [Namespace.length_supplies]; omega)
        rw [hnil, List.take_nil]
        rfl
      -- what is given goes into the data area, which has room for it
      · have hroom := length_piece _ n w.disk hle
        have hmax : DATA_OFFSET + N.length i command.entry ≤ HUGE_PAGE_SIZE :=
          Nat.add_le_add_left hlisted.le DATA_OFFSET
        rw [hlisted.scatter halign hwalk hroom]
        refine Mem.write_of_outside ?_
        simp only [World.address] at hdata ⊢
        omega
    | take => rfl
    | finish => rfl

/-- The page of the list belongs to the driver alone. -/
theorem EnvStep.list_eq (halign : P.base.val.toNat % PAGE_SIZE = 0) (h : Contained P N w)
    (henv : EnvStep P (servingController N) w w') {x : Nat}
    (hx : World.address P PRP_LIST_OFFSET ≤ x) (hlt : x < World.address P DATA_OFFSET) :
    w'.mem x = w.mem x :=
  henv.mem_eq halign h (.inr hx) (.inl hlt)

/-- The hugepage is all that the controller is led to. -/
theorem EnvStep.beyond_eq (halign : P.base.val.toNat % PAGE_SIZE = 0) (h : Contained P N w)
    (henv : EnvStep P (servingController N) w w') {x : Nat} (hx : Beyond P x) :
    w'.mem x = w.mem x := by
  have hlist : World.address P PRP_LIST_OFFSET ≤ World.address P HUGE_PAGE_SIZE :=
    Nat.add_le_add_left (by decide) _
  have hdata : World.address P 0 ≤ World.address P DATA_OFFSET := Nat.add_le_add_left (by decide) _
  exact henv.mem_eq halign h (hx.imp_right hlist.trans) (hx.imp_left (Nat.lt_of_lt_of_le · hdata))

/-- The blocks that a command takes in. -/
theorem MovesInside.disk_eq (h : MovesInside P N may n i e) (hdir : i.direction e = .fromHost)
    {start : Nat} {bytes : List UInt8} (hle : start + bytes.length ≤ N.length i e) {disk : Mem}
    {x : Nat} (hx : ¬ may (x / N.blockSize)) :
    disk.write (N.position e + start) bytes x = disk x := by
  refine Mem.write_of_outside ?_
  by_contra hin
  -- a byte that is written lies in one of the blocks that the entry names
  obtain rfl : i = .io := Task.queue_io (τ := ⟨i, 0, e, [], disk⟩) hdir
  rw [N.length_io (by rw [hdir]; simp)] at hle
  rw [not_or, Nat.not_lt, Nat.not_le, Namespace.position] at hin
  have hpos : e.slba * N.blockSize ≤ x := by omega
  have hend : x < (e.slba + e.blockCount) * N.blockSize := by
    rw [Nat.add_mul]
    omega
  have hsize : 0 < N.blockSize := by
    rcases Nat.eq_zero_or_pos N.blockSize with hzero | hpos
    · rw [hzero, Nat.mul_zero] at hend
      exact absurd hend (Nat.not_lt_zero x)
    · exact hpos
  have hlow : e.slba ≤ x / N.blockSize := (Nat.le_div_iff_mul_le hsize).mpr hpos
  have hhigh : x / N.blockSize < e.slba + e.blockCount := (Nat.div_lt_iff_lt_mul hsize).mpr hend
  have hmay := h.within hdir (x / N.blockSize - e.slba) (by omega)
  rw [Nat.add_sub_cancel' hlow] at hmay
  exact hx hmay

/-- **The controller keeps it**, whichever command it looks at, and whenever. -/
theorem Intact.step (h : Intact P N may w₀ n w) (halign : P.base.val.toNat % PAGE_SIZE = 0)
    (henv : EnvStep P (servingController N) w w') : Intact P N may w₀ n w' := by
  have hring (i : QueueId) := henv.ringStep (servingController_keeps halign) h.contained i
  -- the controller writes no slot of a submission ring
  have hsqe (i : QueueId) (s : Nat) (hs : s < QUEUE_DEPTH) : w'.sqe P i s = w.sqe P i s := by
    cases hring i with
    | keep hkeep => exact hkeep.sqe s hs
    | fetch _ _ hsqe => exact hsqe s hs
    | post _ _ _ _ _ _ _ hsqe => exact hsqe s hs
  have hentered := h.entered.congr h.le fun x hx hlt => henv.list_eq halign h.contained hx hlt
  refine ⟨h.le, hentered, fun i s hs => ?_, fun i command hcommand => ?_, fun i => ?_,
    fun x hx => ?_, fun x hx => (henv.beyond_eq halign h.contained hx).trans (h.beyond x hx)⟩
  · rw [hsqe i s hs]
    exact h.slots i s hs
  · cases hring i with
    | keep hkeep =>
      have hmem : (command.number, command.entry) ∈
          (w'.ring i).live.map fun c => (c.number, c.entry) := List.mem_map_of_mem hcommand
      rw [hkeep.ring.live] at hmem
      obtain ⟨c, hc, hsame⟩ := List.mem_map.mp hmem
      exact (Prod.mk.inj hsame).2 ▸ h.live i c hc
    | fetch _ hfetch =>
      -- a command that is fetched was in its slot
      rw [hfetch] at hcommand
      rcases List.mem_append.mp hcommand with hold | hnew
      · exact h.live i command hold
      · obtain rfl := List.mem_singleton.mp hnew
        exact h.slots i _ (h.head i)
    -- completing one leaves the others
    | post c k live _ _ hmay hpost =>
      obtain ⟨before, done, after, hlive, hrest, -⟩ := hmay
      rw [hpost] at hcommand
      change command ∈ live at hcommand
      refine h.live i command ?_
      rw [hlive]
      rw [hrest] at hcommand
      rcases List.mem_append.mp hcommand with hin | hin
      · exact List.mem_append_left _ hin
      · exact List.mem_append_right _ (List.mem_cons_of_mem _ hin)
  · cases hring i with
    | keep hkeep =>
      rw [hkeep.ring.rest]
      exact h.head i
    | fetch _ hfetch =>
      rw [hfetch]
      exact Nat.mod_lt _ (by decide)
    | post _ _ _ _ _ _ hpost =>
      rw [hpost]
      exact h.head i
  · -- the disk is written by a transfer alone, inside the blocks of a command
    refine Eq.trans ?_ (h.disk x hx)
    cases henv with
    | fetch => rfl
    | post => rfl
    | transfer htransfer =>
      obtain ⟨i, before, command, after, hlive, -, hexec⟩ := htransfer
      have hinside := h.live i command (by rw [hlive]; simp)
      cases hexec with
      | give => rfl
      | take fuel n pages hdir hwalk hn =>
        exact hinside.disk_eq hdir (by rwa [Prp.length_gather]) hx
      | finish => rfl

theorem intact_stable (halign : P.base.val.toNat % PAGE_SIZE = 0) {G : Op → World → Prop} :
    (machine P (servingController N) G).Stable (Intact P N may w₀ n) :=
  fun _ _ h henv => h.step halign henv

/-! ### The driver -/

/-- What the driver may do at any time, with `n` entries in the list. -/
def Harmless (P : Platform) (N : Namespace) (may : Nat → Prop) (n : Nat) : Op → Prop
  | .writeSqe offset entry =>
    ∃ i s, s < QUEUE_DEPTH ∧ offset = QueueId.submissionOffset i + 64 * s ∧
      MovesInside P N may n i entry
  | .writeBytes offset source => DATA_OFFSET ≤ offset ∧ offset + source.length ≤ HUGE_PAGE_SIZE
  | .writeU64 _ _ | .allocHuge => False
  | _ => True

theorem OfCommand.harmless {o : Op} (h : OfCommand (MovesInside P N may n) o) :
    Harmless P N may n o := by
  cases o <;> first | exact h | trivial

theorem OfBringUp.harmless {o : Op} (h : OfBringUp (MovesInside P N may n) o) :
    Harmless P N may n o := by
  cases o <;> first | exact h | trivial

/-- The submission slots lie apart. -/
theorem QueueId.submissions_apart {s t : Nat} (hs : s < QUEUE_DEPTH) (ht : t < QUEUE_DEPTH)
    (h : ¬ (j = i ∧ t = s)) :
    i.submissionOffset + 64 * s + 64 ≤ j.submissionOffset + 64 * t ∨
      j.submissionOffset + 64 * t + 64 ≤ i.submissionOffset + 64 * s := by
  unfold QUEUE_DEPTH at hs ht
  cases i <;> cases j <;>
    simp_all only [QueueId.submissionOffset, ADMIN_SUBMISSION_QUEUE_OFFSET,
      IO_SUBMISSION_QUEUE_OFFSET, reduceCtorEq, false_and, true_and] <;> omega

/-- The memory of a slot, after a command was stored in one. -/
theorem sqe_storeSqe {s t : Nat} (hs : s < QUEUE_DEPTH) (ht : t < QUEUE_DEPTH) :
    (w.storeSqe P (i.submissionOffset + 64 * s) e).sqe P j t =
      if j = i ∧ t = s then e else w.sqe P j t := by
  have hlen : e.encode.length = 64 := e.length_encode
  split
  · next hsame =>
    obtain ⟨rfl, rfl⟩ := hsame
    have hread : (w.storeSqe P (j.submissionOffset + 64 * t) e).mem.read
        (World.address P (j.submissionOffset + 64 * t)) 64 = e.encode := by
      rw [← hlen]
      exact Mem.read_write_self
    rw [World.sqe, hread, SubmissionQueueEntry.decode_encode]
  · -- two slots have no byte in common
    next hother =>
    refine World.sqe_congr fun x hx hlt => Mem.write_of_outside ?_
    have happart := QueueId.submissions_apart hs ht hother
    simp only [World.address, hlen] at hx hlt ⊢
    omega

/-- A change of the rings that brings no command. -/
theorem Intact.onRings (h : Intact P N may w₀ n w) (hmem : w'.mem = w.mem)
    (hdisk : w'.disk = w.disk)
    (hring : ∀ i, (w'.ring i).live = (w.ring i).live ∧ (w'.ring i).sqHead = (w.ring i).sqHead ∨
      (w'.ring i).live = [] ∧ (w'.ring i).sqHead = 0) : Intact P N may w₀ n w' := by
  refine h.frame (fun i s _ => World.sqe_congr fun x _ _ => congrFun hmem x)
    (fun x _ _ => congrFun hmem x) (fun i command hcommand => ?_) (fun i => ?_)
    (fun x _ => congrFun hdisk x) fun x _ => congrFun hmem x
  · -- a reset leaves no command in hand
    rcases hring i with ⟨hlive, -⟩ | ⟨hlive, -⟩
    · exact ⟨command, hlive ▸ hcommand, rfl⟩
    · rw [hlive] at hcommand
      cases hcommand
  · rcases hring i with ⟨-, hhead⟩ | ⟨-, hhead⟩
    · exact hhead ▸ h.head i
    · rw [hhead]
      decide

/-- A register write rings a doorbell, or resets the controller, or does nothing. -/
theorem Intact.writeRegister (h : Intact P N may w₀ n w) (offset : Nat) (value : UInt32) :
    Intact P N may w₀ n (w.writeRegister P offset value) := by
  have hsame (i : QueueId) (r : Ring) (hlive : r.live = (w.ring i).live)
      (hhead : r.sqHead = (w.ring i).sqHead) : Intact P N may w₀ n (w.setRing i r) :=
    h.onRings rfl rfl fun j => .inl ⟨World.setRing_field Ring.live hlive j,
      World.setRing_field Ring.sqHead hhead j⟩
  unfold World.writeRegister
  -- a doorbell changes one index, and CC may reset the rings
  split_ifs
  · exact hsame .admin _ rfl rfl
  · exact hsame .admin _ rfl rfl
  · exact hsame .io _ rfl rfl
  · exact hsame .io _ rfl rfl
  · unfold World.writeConfiguration
    split
    · exact h.onRings rfl rfl fun i => .inr ⟨rfl, rfl⟩
    · exact h.onRings rfl rfl fun i => .inl ⟨rfl, rfl⟩
  · exact h

/-- **The driver keeps it.** -/
theorem Harmless.intact {o : Op} {r : Res o} (ho : Harmless P N may n o)
    (h : Intact P N may w₀ n w) (hact : act P o w r w') : Intact P N may w₀ n w' := by
  have hkeep {v : World} (hmem : v.mem = w.mem) (hdisk : v.disk = w.disk)
      (hring : ∀ i, (v.ring i).live = (w.ring i).live ∧ (v.ring i).sqHead = (w.ring i).sqHead) :
      Intact P N may w₀ n v := h.onRings hmem hdisk fun i => .inl (hring i)
  cases o with
  | writeSqe offset entry =>
    obtain ⟨i, s, hs, rfl, hinside⟩ := ho
    obtain rfl := hact
    have hlen : entry.encode.length = 64 := entry.length_encode
    have happart := (QueueId.slots_apart i i hs hs).1
    -- storing changes no head, and none of the commands in hand
    have hring (j : QueueId) : ((w.storeSqe P (i.submissionOffset + 64 * s) entry).ring j).live =
          (w.ring j).live ∧ ((w.storeSqe P (i.submissionOffset + 64 * s) entry).ring j).sqHead =
          (w.ring j).sqHead := by
      by_cases hj : j = i
      · subst hj
        rw [storeSqe_ring hs]
        exact ⟨rfl, rfl⟩
      · rw [storeSqe_ring_of_ne hs hj]
        exact ⟨rfl, rfl⟩
    have hlist : PRP_LIST_OFFSET ≤ HUGE_PAGE_SIZE := by decide
    refine ⟨h.le, h.entered.congr h.le fun x hx _ => Mem.write_of_ge ?_, fun j t ht => ?_,
      fun j => ?_, fun j => ?_, h.disk,
      fun x hx => (Mem.write_of_outside ?_).trans (h.beyond x hx)⟩
    · simp only [World.address, hlen] at hx ⊢
      omega
    · -- the slot that was written is the one that was asked about
      rw [sqe_storeSqe hs ht]
      split
      · next hsame => exact hsame.1 ▸ hinside
      · exact h.slots j t ht
    · rw [(hring j).1]
      exact h.live j
    · rw [(hring j).2]
      exact h.head j
    · simp only [Beyond, World.address, hlen] at hx ⊢
      omega
  | writeBytes offset source =>
    obtain rfl := hact
    -- the data area lies above the rings and the list
    have hbelow (x : Nat) (hx : x < World.address P DATA_OFFSET) :
        (w.mem.write (World.address P offset) source) x = w.mem x := by
      refine Mem.write_of_lt ?_
      have hdata := ho.1
      simp only [World.address] at hx ⊢
      omega
    refine h.frame (fun i s hs => World.sqe_congr fun x _ hlt => hbelow x ?_)
      (fun x _ => hbelow x) (fun i command hcommand => ⟨command, hcommand, rfl⟩) h.head
      (fun _ _ => rfl) fun x hx => Mem.write_of_outside ?_
    · have happart := (QueueId.slots_apart i i hs hs).1
      simp only [World.address, PRP_LIST_OFFSET, DATA_OFFSET] at *
      omega
    · have hroom := ho.2
      simp only [Beyond, World.address] at hx ⊢
      omega
  | readCqe offset =>
    obtain ⟨-, rfl⟩ := hact
    refine hkeep rfl rfl fun i => ?_
    unfold World.pollCqe
    dsimp only
    split
    · exact ⟨rfl, rfl⟩
    · exact ⟨rfl, rfl⟩
  | write32 offset value =>
    obtain rfl := hact
    exact h.writeRegister offset value
  | mark m =>
    obtain rfl := hact
    cases m with
    | beginSubmit i => exact hkeep rfl rfl fun j => ⟨World.setRing_field Ring.live (by rfl) j,
        World.setRing_field Ring.sqHead (by rfl) j⟩
    | endSubmit i result => exact hkeep rfl rfl fun j => ⟨World.setRing_field Ring.live (by rfl) j,
        World.setRing_field Ring.sqHead (by rfl) j⟩
    | beginCall call => exact hkeep rfl rfl fun _ => ⟨rfl, rfl⟩
    | endCall result =>
      unfold World.mark
      dsimp only
      split
      · exact hkeep rfl rfl fun _ => ⟨rfl, rfl⟩
      · exact h
  -- what is left is no memory of the rings, or only read
  | unmapDma =>
    obtain rfl := hact
    exact hkeep rfl rfl fun _ => ⟨rfl, rfl⟩
  | writeU64 => exact ho.elim
  | allocHuge => exact ho.elim
  | readSqe => obtain ⟨-, rfl⟩ := hact; exact h
  | readBytes => obtain ⟨-, rfl⟩ := hact; exact h
  | read64 => obtain ⟨-, rfl⟩ := hact; exact h
  | mapBar => obtain ⟨-, rfl⟩ := hact; exact h
  | _ => obtain rfl := hact; exact h

/-- The worlds in which something may be in flight, but nothing is amiss. -/
def Unharmed (P : Platform) (N : Namespace) (may : Nat → Prop) (w₀ : World) (w : World) : Prop :=
  ∃ n, Intact P N may w₀ n w

/-- One entry of the list: the next one, or one that is there already. -/
theorem Intact.enter (h : Intact P N may w₀ n w) {k : Nat} (hk : k ≤ n)
    (hcapacity : k < PRP_LIST_CAPACITY) {value : UInt64}
    (hvalue : value.toNat = dataPage P.base.val.toNat (k + 1)) :
    Intact P N may w₀ (max n (k + 1)) { w with
      mem := w.mem.write (World.address P (PRP_LIST_OFFSET + k * 8)) (toLe 8 value.toNat) } := by
  have haddress : World.address P (PRP_LIST_OFFSET + k * 8) =
      prpEntryAddress P.base.val.toNat k := by
    simp only [World.address, prpEntryAddress]
    omega
  have hle : n ≤ max n (k + 1) := Nat.le_max_left _ _
  -- the list lies above the slots, and entries do not overlap
  rw [haddress]
  refine ⟨Nat.max_le.mpr ⟨h.le, hcapacity⟩, fun l hl => ?_, fun i s hs => ?_,
    fun i command hcommand => (h.live i command hcommand).mono hle, h.head, h.disk,
    fun x hx => (Mem.write_of_outside ?_).trans (h.beyond x hx)⟩
  · change Prp.entry (w.mem.write _ _) _ = _
    by_cases hsame : l = k
    · subst hsame
      rw [Prp.entry_write (UInt64.toNat_lt _), hvalue]
    -- the other entries are as they were
    · rw [← h.entered l (by omega)]
      refine Prp.entry_congr fun x hx hlt => Mem.write_of_outside ?_
      simp only [prpEntryAddress, length_toLe] at hx hlt ⊢
      omega
  · let v : World :=
      { w with mem := w.mem.write (prpEntryAddress P.base.val.toNat k) (toLe 8 value.toNat) }
    have hslot : v.sqe P i s = w.sqe P i s := by
      refine World.sqe_congr fun x hx hlt => Mem.write_of_lt ?_
      have happart := (QueueId.slots_apart i i hs hs).1
      simp only [prpEntryAddress, World.address] at hlt ⊢
      omega
    change MovesInside P N may _ i (v.sqe P i s)
    rw [hslot]
    exact (h.slots i s hs).mono hle
  · have hpage : PRP_LIST_OFFSET + PRP_LIST_CAPACITY * 8 ≤ HUGE_PAGE_SIZE := by decide
    simp only [Beyond, prpEntryAddress, World.address, length_toLe] at hx ⊢
    omega

/-! ### The calls -/

section Calls

variable {d t : NvmeUserspaceDriver} {p : Profile} {B : Nat}
  (halign : P.base.val.toNat % PAGE_SIZE = 0)
include halign

theorem unharmed_stable :
    (machine P (servingController N) Always).Stable (Unharmed P N may w₀) :=
  Stable.exists fun _ => intact_stable halign

/-- What is harmless with the list as it stands. -/
theorem intact_of_sat {α : Type} {m : Prog Op Res α} {ψ : α → Prop}
    (hm : m.Sat Prog.Any (Harmless P N may n) ψ) :
    (machine P (servingController N) Always).Triple (Unharmed P N may w₀)
      (Intact P N may w₀ n) m fun a w => ψ a ∧ Intact P N may w₀ n w :=
  Triple.of_sat hm (intact_stable halign) (fun _ hw => ⟨n, hw⟩) (fun _ _ _ _ _ _ => trivial)
    fun _ _ _ _ ho hw hact => ho.intact hw hact.1

/-- **The list**, by induction on the entries that are left. -/
theorem intact_writePrpEntries {index count : Nat} (hd : BuiltFor P d)
    (hcount : index + count ≤ PRP_LIST_CAPACITY)
    (hpages : DATA_OFFSET + (index + count) * PAGE_SIZE < HUGE_PAGE_SIZE) (hle : index ≤ n) :
    (machine P (servingController N) Always).Triple (Unharmed P N may w₀)
      (Intact P N may w₀ n) (writePrpEntries index count d) fun x w =>
        x = (.ok (), d) ∧ ∃ n', n ≤ n' ∧ index + count ≤ n' ∧ Intact P N may w₀ n' w := by
  -- by induction on the entries left, of which each extends the list or repeats it
  induction count generalizing index n with
  | zero =>
    exact Triple.ret (intact_stable halign) (fun _ hw => ⟨n, hw⟩) fun _ hw =>
      ⟨rfl, n, le_rfl, hle, hw⟩
  | succ count ih =>
    have hslot := prpEntry_ok hd.length (show index < PRP_LIST_CAPACITY by omega)
    have hin : DATA_OFFSET + (index + 1) * PAGE_SIZE < HUGE_PAGE_SIZE := by
      have : (index + 1) * PAGE_SIZE ≤ (index + (count + 1)) * PAGE_SIZE :=
        Nat.mul_le_mul_right _ (by omega)
      omega
    rw [writePrpEntries, Method.get_bind, DmaRegion.writeU64, hslot, Method.lift_ok_bind]
    refine Triple.call_bind (R := fun _ => Intact P N may w₀ (max n (index + 1)))
      (intact_stable halign) (fun w hw => ⟨n, hw⟩) ?_ fun _ => ?_
    · rintro w r w' hw ⟨rfl, -⟩
      exact hw.enter hle (by omega) (hd.dataPage hin)
    · have hsum : index + 1 + count = index + (count + 1) := by omega
      -- the list is one entry longer, unless it was as long already
      refine (@ih (max n (index + 1)) (index + 1) (by omega) (hsum ▸ hpages)
        (Nat.le_max_right _ _)).post ?_
      rintro x w ⟨hx, n', hn', hentered, hw⟩
      exact ⟨hx, n', (Nat.le_max_left _ _).trans hn', hsum ▸ hentered, hw⟩

/-- **The entries of a transfer** name the data area on every memory whose list is entered as
far as it is now. -/
theorem intact_dataPointers {length : Nat} (hd : BuiltFor P d)
    (hmax : length ≤ MAX_TRANSFER_BYTES) :
    (machine P (servingController N) Always).Triple (Unharmed P N may w₀)
      (Intact P N may w₀ n) (dataPointers p length d) fun x w => ∃ pointers n',
        x = (.ok pointers, d) ∧ (∀ e : SubmissionQueueEntry, e.prp1 = pointers.1 →
          e.prp2 = pointers.2 → ∀ m, EntriesWritten P n' m → Listed P length e m) ∧
        Intact P N may w₀ n' w := by
  have hcapacity : transferPages length - 1 ≤ PRP_LIST_CAPACITY := pageCount_le hmax
  have hfirst := hd.dataPage (show DATA_OFFSET + 0 * PAGE_SIZE < HUGE_PAGE_SIZE by decide)
  have hinv (w : World) (hw : Intact P N may w₀ n w) : Unharmed P N may w₀ w := ⟨n, hw⟩
  rw [dataPointers, Method.get_bind,
    show (length + (PAGE_SIZE - 1)) / PAGE_SIZE = transferPages length from rfl]
  -- one page
  by_cases hone : transferPages length ≤ 1
  · rw [if_pos hone]
    refine Triple.ret (intact_stable halign) hinv fun w hw => ⟨_, n, rfl, ?_, hw⟩
    intro e hprp1 _ m _
    have hpage : length ≤ PAGE_SIZE := by
      unfold transferPages PAGE_SIZE at *
      omega
    exact hd.listed_page hpage hprp1 m
  rw [if_neg hone]
  -- two pages
  by_cases htwo : transferPages length = 2
  · rw [if_pos htwo]
    have hsecond := hd.dataPage (show DATA_OFFSET + 1 * PAGE_SIZE < HUGE_PAGE_SIZE by decide)
    refine Triple.ret (intact_stable halign) hinv fun w hw => ⟨_, n, rfl, ?_, hw⟩
    intro e hprp1 hprp2 m _
    exact ⟨hmax, hprp1 ▸ hfirst, fun _ => hprp2 ▸ hsecond, fun h => by omega, fun h => by omega⟩
  -- more pages, with the list
  rw [if_neg htwo, if_neg fun h => Nat.not_lt.mpr hcapacity h.2]
  have hpages : DATA_OFFSET + (0 + (transferPages length - 1)) * PAGE_SIZE < HUGE_PAGE_SIZE := by
    simp only [transferPages, MAX_TRANSFER_BYTES, HUGE_PAGE_SIZE, DATA_OFFSET, PAGE_SIZE] at hmax ⊢
    omega
  refine Triple.method_bind (intact_writePrpEntries halign hd
    (show 0 + (transferPages length - 1) ≤ PRP_LIST_CAPACITY by omega) hpages (Nat.zero_le n))
    (fun _ t => ?_) (fun e t w hw => by cases hw.1) fun why t w hw => by cases hw.1
  refine Triple.of_pure fun hsame => Triple.of_forall fun n' => Triple.of_pure fun _ =>
    Triple.of_pure fun hentered => ?_
  obtain rfl : t = d := (Prod.mk.inj hsame).2
  refine Triple.ret (intact_stable halign) (fun w hw => ⟨n', hw⟩) fun w hw => ⟨_, n', rfl, ?_, hw⟩
  intro e hprp1 hprp2 m hm
  exact ⟨hmax, hprp1 ▸ hfirst, fun h => absurd h htwo, fun _ => hprp2 ▸ hd.prpList,
    fun _ k hk => hm k (by omega)⟩

/-- A command of a call, once its entry is known to move its data inside. -/
theorem intact_submitIo {command : SubmissionQueueEntry} (ht : t.Shaped)
    (hinside : MovesInside P N may n .io command) :
    (machine P (servingController N) Always).Triple (Unharmed P N may w₀)
      (Intact P N may w₀ n) (submitIo command t) fun x w =>
        t.Kept x.2 ∧ Intact P N may w₀ n w :=
  intact_of_sat halign ((submitIo_ofCommand (.refl ht) fun cid => hinside.cid cid).mono
    (fun _ h => h.harmless) fun _ => id)

/-- What follows the command of a read. -/
theorem intact_harmless {α : Type} {m : Prog Op Res α}
    (hm : m.Sat Prog.Any (fun o => ∀ n, Harmless P N may n o) fun _ => True) :
    (machine P (servingController N) Always).Triple (Unharmed P N may w₀)
      (Unharmed P N may w₀) m fun _ => Unharmed P N may w₀ := by
  refine Triple.of_forall fun n => ?_
  exact (intact_of_sat halign (hm.mono (fun _ h => h n) fun _ => id)).post fun _ _ h => ⟨n, h.2⟩

omit halign in
/-- The end of a read: the data area is copied out. -/
theorem harmless_copy {c : CompletionQueueEntry} {what : String} {total : Nat}
    {dma : DmaRegion} : ((checkCompletion c what >>= fun _ => allocVec total >>= fun _ =>
      dma.readBytes DATA_OFFSET total : DriverMethod (List UInt8)) t).Sat Prog.Any
      (fun o => ∀ n, Harmless P N may n o) fun _ => True := by
  refine Method.sat_bind sat_checkCompletion (fun _ _ _ => ?_) (fun _ _ _ => trivial)
    fun _ _ _ => trivial
  refine Method.sat_bind (χ := fun _ => True) ?_ (fun _ _ _ => ?_) (fun _ _ _ => trivial)
    fun _ _ _ => trivial
  · -- the length has been checked, so that the copy is a read of the data area
    unfold allocVec
    split
    · exact ⟨fun _ => trivial, fun _ _ => trivial⟩
    · trivial
  · rw [DmaRegion.readBytes]
    exact Method.sat_lift (fun _ _ => ⟨fun _ => trivial, fun _ _ => trivial⟩) (fun _ _ => trivial)
      fun _ _ => trivial

/-- A read, of which only the pages of its own range are filled. -/
theorem intact_read {slba : UInt64} {blockCount : UInt16} (hd : BuiltFor P d)
    (hready : d.Ready N.blockSize) (hfits : (Call.read slba blockCount).Fits p N.blockSize) :
    (machine P (servingController N) Always).Triple (Unharmed P N may w₀)
      (Unharmed P N may w₀) (NvmeUserspaceDriver.read p slba blockCount d)
      fun _ => Unharmed P N may w₀ := by
  refine Triple.of_forall fun n => ?_
  have hend {α : Type} (x : Outcome IoError α × NvmeUserspaceDriver) :
      (machine P (servingController N) Always).Triple (Unharmed P N may w₀) (Intact P N may w₀ n)
        (.pure x) fun _ => Unharmed P N may w₀ :=
    Triple.ret (intact_stable halign) (fun _ hw => ⟨n, hw⟩) fun _ hw => ⟨n, hw⟩
  unfold NvmeUserspaceDriver.read
  by_cases hzero : blockCount = 0
  · rw [if_pos hzero]
    exact hend _
  rw [if_neg hzero, Method.get_bind, namespaceBlockSize_bind hready.cached]
  -- a product that does not fit is refused, or wraps around
  cases htotal : (p.mulUsize N.blockSize blockCount.toNat : Outcome IoError Nat) with
  | err e => exact hend _
  | panic why => exact hend _
  | ok total =>
  rw [Method.lift_ok_bind]
  by_cases hmax : MAX_TRANSFER_BYTES < total
  · rw [if_pos hmax]
    exact hend _
  rw [if_neg hmax]
  rw [Nat.not_lt] at hmax
  -- the length that was checked is the length of the transfer
  obtain rfl : total = N.blockSize * blockCount.toNat :=
    (hfits.length htotal).resolve_right fun h => absurd h.1 (Nat.not_lt.mpr hmax)
  refine Triple.method_bind (intact_dataPointers halign hd hmax) (fun pointers t => ?_)
    (fun e t w ⟨_, n', _, _, hw⟩ => ⟨n', hw⟩) fun why t w ⟨_, n', _, _, hw⟩ => ⟨n', hw⟩
  refine Triple.of_forall fun pointers' => Triple.of_forall fun n' => Triple.of_pure fun hx =>
    Triple.of_pure fun hlisted => ?_
  obtain ⟨hpointers, rfl⟩ := Prod.mk.inj hx
  obtain rfl := Outcome.ok.inj hpointers
  -- its pages are the listed ones, and it writes no block
  have hinside : MovesInside P N may n' .io
      (nvmeRead t.nsid slba (blockCount - 1) pointers.1 pointers.2) := by
    have hdir := nvmeRead_direction t.nsid slba (blockCount - 1) pointers.1 pointers.2
    refine ⟨fun _ m hm => ?_, fun hfrom => ?_⟩
    · rw [nvmeRead_length, toNat_sub_one hzero, Nat.mul_comm]
      exact hlisted _ rfl rfl m hm
    · rw [hdir] at hfrom
      cases hfrom
  refine Triple.method_bind (intact_submitIo halign hready.toShaped hinside) (fun c t' => ?_)
    (fun e t w hw => ⟨n', hw.2⟩) fun why t w hw => ⟨n', hw.2⟩
  -- what is left only copies
  exact Triple.pre (intact_harmless halign harmless_copy) fun w hw => ⟨n', hw.2⟩

/-- The blocks that the command of a call writes may be written. -/
def Call.Within (p : Profile) (B : Nat) (may : Nat → Prop) : Call → Prop
  | .write slba data => Accepts B data → ¬ CutsToZero p B data.length →
      ∀ k, k < sentBlocks B data.length → may (slba.toNat + k)
  | _ => True

/-- A write, of which only its own blocks change. -/
theorem intact_write {slba : UInt64} {data : List UInt8} (hd : BuiltFor P d)
    (hready : d.Ready N.blockSize) (hwithin : (Call.write slba data).Within p N.blockSize may) :
    (machine P (servingController N) Always).Triple (Unharmed P N may w₀)
      (Unharmed P N may w₀) (NvmeUserspaceDriver.write p slba data d)
      fun _ => Unharmed P N may w₀ := by
  refine Triple.of_forall fun n => ?_
  have hend {α : Type} (n : Nat) (x : Outcome IoError α × NvmeUserspaceDriver) :
      (machine P (servingController N) Always).Triple (Unharmed P N may w₀) (Intact P N may w₀ n)
        (.pure x) fun _ => Unharmed P N may w₀ :=
    Triple.ret (intact_stable halign) (fun _ hw => ⟨n, hw⟩) fun _ hw => ⟨n, hw⟩
  rw [NvmeUserspaceDriver.write, Method.get_bind, namespaceBlockSize_bind hready.cached]
  obtain ⟨refused, hrefused⟩ := notMultiple_ok data hready.pos
  rw [hrefused, Method.lift_ok_bind]
  cases refused with
  | true => exact hend n _
  | false =>
  obtain ⟨hne, hdvd⟩ := (notMultiple_eq_false hready.pos).mp hrefused
  rw [if_neg (by simp)]
  by_cases hmax : MAX_TRANSFER_BYTES < data.length
  · rw [if_pos hmax]
    exact hend n _
  rw [if_neg hmax]
  rw [Nat.not_lt] at hmax
  have haccepts : Accepts N.blockSize data := ⟨hne, hdvd, hmax⟩
  have hcount : 0 < data.length / N.blockSize :=
    Nat.div_pos (Nat.le_of_dvd (List.length_pos_iff.mpr hne) hdvd) hready.pos
  simp only [divUsize, if_neg hready.pos.ne', Method.lift_ok_bind, DmaRegion.writeBytes,
    payload_ok hd.length hmax, Method.call_bind]
  -- the payload goes into the data area, whoever else may still read there
  refine Triple.op (R := fun _ => Intact P N may w₀ n) (intact_stable halign)
    (fun _ hw => ⟨n, hw⟩) (fun w r w' hw hact => ?_) fun _ => ?_
  · have hharmless : Harmless P N may n (.writeBytes DATA_OFFSET data) :=
      ⟨Nat.le_refl _, Nat.add_le_add_left hmax DATA_OFFSET⟩
    exact hharmless.intact hw hact.1
  refine Triple.method_bind (intact_dataPointers halign hd hmax) (fun pointers t => ?_)
    (fun _ _ _ hw => hw.elim fun _ hw => hw.elim fun n' hw => ⟨n', hw.2.2⟩)
    fun _ _ _ hw => hw.elim fun _ hw => hw.elim fun n' hw => ⟨n', hw.2.2⟩
  refine Triple.of_forall fun pointers' => Triple.of_forall fun n' => Triple.of_pure fun hx =>
    Triple.of_pure fun _ => ?_
  obtain ⟨hpointers, rfl⟩ := Prod.mk.inj hx
  obtain rfl := Outcome.ok.inj hpointers
  -- the count is decremented after the payload is placed
  cases hnlb : (p.decU16 (UInt16.ofNat (data.length / N.blockSize)) : Outcome IoError UInt16) with
  | err e => exact hend n' _
  | panic why => exact hend n' _
  | ok nlb =>
  rw [Method.lift_ok_bind]
  -- in a build that wraps, the count that is cut to zero blocks is excluded
  have hcut : ¬ CutsToZero p N.blockSize data.length := by
    rintro ⟨rfl, hzero⟩
    have hcast : UInt16.ofNat (data.length / N.blockSize) = 0 :=
      UInt16.toNat_inj.mp (by simpa using hzero)
    simp [hcast, Profile.decU16] at hnlb
  -- its blocks are the ones that the call may change
  have hinside : MovesInside P N may n' .io (nvmeWrite t.nsid slba nlb pointers.1 pointers.2) := by
    refine ⟨fun hto => ?_, fun _ k hk => ?_⟩
    · rw [nvmeWrite_direction] at hto
      cases hto
    · have hslba : (nvmeWrite t.nsid slba nlb pointers.1 pointers.2).slba = slba.toNat :=
        nvmeTransfer_slba .write t.nsid slba nlb pointers.1 pointers.2
      have hblocks : (nvmeWrite t.nsid slba nlb pointers.1 pointers.2).blockCount =
          sentBlocks N.blockSize data.length := by
        refine (nvmeTransfer_blockCount .write t.nsid slba nlb pointers.1 pointers.2).trans ?_
        rw [Profile.decU16_ofNat hcount hnlb, sentBlocks]
      rw [hslba]
      exact hwithin haccepts hcut k (hblocks ▸ hk)
  refine Triple.method_bind (intact_submitIo halign hready.toShaped hinside) (fun c t' => ?_)
    (fun e t w hw => ⟨n', hw.2⟩) fun why t w hw => ⟨n', hw.2⟩
  refine Triple.pre (intact_harmless halign ?_) fun w hw => ⟨n', hw.2⟩
  exact sat_checkCompletion.post fun _ _ => trivial

omit halign in
/-- An Identify goes to the first page of the data area. -/
theorem movesInside_identify {«structure» : IdentifyStructure} {nsid : UInt32} (hd : BuiltFor P d) :
    MovesInside P N may n .admin (nvmeIdentify «structure» nsid (d.dataPagePhysicalAddress 0)) := by
  have hdir : QueueId.admin.direction
      (nvmeIdentify «structure» nsid (d.dataPagePhysicalAddress 0)) = .toHost :=
    identify_direction _
  have hpage : IDENTIFY_SIZE ≤ PAGE_SIZE := Nat.le_refl PAGE_SIZE
  have hprp1 (prp1 : UInt64) : (nvmeIdentify «structure» nsid prp1).prp1 = prp1 := rfl
  refine ⟨fun _ m _ => ?_, fun hfrom => ?_⟩
  · rw [N.length_admin (by rw [hdir]; simp)]
    exact hd.listed_page hpage (hprp1 _) m
  · rw [hdir] at hfrom
    cases hfrom

/-- **A call**, answered in time or not. -/
theorem intact_perform {k : Call} (hd : BuiltFor P d) (hready : d.Ready N.blockSize)
    (hfits : ∀ slba blockCount, k = .read slba blockCount → k.Fits p N.blockSize)
    (hwithin : k.Within p N.blockSize may) :
    (machine P (servingController N) Always).Triple (Unharmed P N may w₀)
      (Unharmed P N may w₀) (perform p k d) fun x w =>
        d.Kept x.2 ∧ Unharmed P N may w₀ w := by
  -- what is kept of the driver is a matter of its code alone
  refine Triple.returns ?_ (perform_ofCall hready k)
  cases k with
  | read slba blockCount => exact intact_read halign hd hready (hfits _ _ rfl)
  | write slba data =>
    refine Triple.method_bind (intact_write halign hd hready hwithin) (fun _ t => ?_)
      (fun _ _ _ => id) fun _ _ _ => id
    exact Triple.ret (unharmed_stable halign) (fun _ => id) fun _ => id
  | identifyController =>
    refine Triple.of_forall fun n => ?_
    refine (intact_of_sat halign ((identify_ofCommand (.refl hready.toShaped) fun cid =>
      (movesInside_identify hd).cid cid).mono (fun _ h => h.harmless) fun _ => id)).post ?_
    exact fun _ w hw => ⟨n, hw.2⟩

end Calls

end Nvmetoy
