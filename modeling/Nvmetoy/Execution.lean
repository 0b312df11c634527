import Nvmetoy.DataPointers
import Nvmetoy.Submissions

/-!
# A controller that executes its commands

The controller here fetches the commands it was rung for, moves their data through the PRP
entries, and completes them, each when it likes and in any order. A command moves its data in
pieces of any length, and reads the entries and the memory anew for each.

* `Executes` — what the controller may do with one command in its hands: move the next bytes to
  the host or from it, or set the status. A command that succeeds has moved all of its data, and
  one that is rejected none.
* `Listed` — the entries of a command name the data area. What they name is found there by any
  walk (`Listed.walk`), so that a piece moves as one access to the data area (`Listed.scatter`,
  `Listed.gather`).
* `servingController_keeps` — the rings are safe from a controller whose commands are all listed.
-/

namespace Nvmetoy

open Framework Machine NvmeUserspaceDriver

/-! ### Commands, as the controller reads them -/

/-- Which way a command moves data. -/
inductive Direction where
  | toHost
  | fromHost
  | none
deriving DecidableEq, Repr

/-- What the controller serves: the length of a block, and the data of each Identify. There is one
namespace for the I/O commands, and its identifier is not looked for in them: all commands of the
driver carry the same one. -/
structure Namespace where
  blockSize : Nat
  identify : SubmissionQueueEntry → Mem

/-- The direction of the commands of a queue. -/
def QueueId.direction : QueueId → SubmissionQueueEntry → Direction
  | admin, e => if e.opc = AdminOpcode.identify.toUInt8 then .toHost else .none
  | io, e =>
    if e.opc = IoOpcode.read.toUInt8 then .toHost
    else if e.opc = IoOpcode.write.toUInt8 then .fromHost
    else .none

/-- The identifier has nothing to do with it. -/
@[simp] theorem QueueId.direction_cid (i : QueueId) (e : SubmissionQueueEntry) (cid : UInt16) :
    i.direction { e with cid := cid } = i.direction e := by
  cases i <;> rfl

namespace Namespace

variable (N : Namespace) (i : QueueId) (e : SubmissionQueueEntry)

/-- How many bytes a command moves. -/
def length : Nat :=
  match i, i.direction e with
  | _, .none => 0
  | .admin, _ => IDENTIFY_SIZE
  | .io, _ => e.blockCount * N.blockSize

/-- Where its blocks begin. -/
def position : Nat := e.slba * N.blockSize

/-- The data it gives to the host. -/
def supplies (disk : Mem) : List UInt8 :=
  match i with
  | .admin => (N.identify e).read 0 (N.length i e)
  | .io => disk.read (N.position e) (N.length i e)

variable {e}

/-- An admin command that moves anything moves an Identify structure. -/
theorem length_admin (h : QueueId.admin.direction e ≠ .none) :
    N.length .admin e = IDENTIFY_SIZE := by
  unfold length
  cases hdir : QueueId.admin.direction e with
  | none => exact absurd hdir h
  | toHost => rfl
  | fromHost => rfl

theorem length_io (h : QueueId.io.direction e ≠ .none) :
    N.length .io e = e.blockCount * N.blockSize := by
  unfold length
  cases hdir : QueueId.io.direction e with
  | none => exact absurd hdir h
  | toHost => rfl
  | fromHost => rfl

theorem length_none (h : i.direction e = .none) : N.length i e = 0 := by
  unfold length
  rw [h]

variable (e)

@[simp] theorem length_cid (cid : UInt16) : N.length i { e with cid := cid } = N.length i e := by
  cases i <;> rfl

@[simp] theorem length_supplies (disk : Mem) : (N.supplies i e disk).length = N.length i e := by
  cases i <;> exact Mem.length_read

end Namespace

/-- The status of a completion, without the phase tag, says that the command was successful. -/
def Succeeds (status : UInt16) : Prop :=
  (status &&& 0xFF).toUInt8 = 0 ∧ ((status >>> 8) &&& 0x7).toUInt8 = 0

instance (status : UInt16) : Decidable (Succeeds status) := inferInstanceAs (Decidable (_ ∧ _))

/-- The driver and the namespace agree on what success is. -/
theorem isSuccess_iff (c : CompletionQueueEntry) :
    c.isSuccess = true ↔ Succeeds (c.status >>> 1) := by
  have hshift : c.status >>> 1 >>> 8 = c.status >>> 9 := by
    refine UInt16.toNat_inj.mp ?_
    simp only [UInt16.toNat_shiftRight]
    exact (Nat.shiftRight_add _ 1 8).symm
  simp only [CompletionQueueEntry.isSuccess, CompletionQueueEntry.statusCode,
    CompletionQueueEntry.statusCodeType, Bool.and_eq_true, beq_iff_eq, Succeeds, hshift]

/-! ### The controller -/

/-- The bytes that command `k` of a queue has moved. -/
def World.moved (w : World) (i : QueueId) (k : Nat) : List UInt8 :=
  (w.transfers.filter fun t => decide (t.queue = i ∧ t.number = k)).flatMap Transfer.bytes

/-- The record of one more piece. -/
def World.transferred (w : World) (i : QueueId) (k : Nat) (bytes : List UInt8) : World :=
  { w with transfers := w.transfers ++ [⟨i, k, bytes⟩] }

section Controller

variable (N : Namespace)

/-- What the controller does with a command of queue `i` that it holds. -/
inductive Executes (i : QueueId) (before : List FetchedCommand) (command : FetchedCommand)
    (after : List FetchedCommand) (w : World) : World → Prop where
  | give (fuel n : Nat) (pages : List Nat) (hdir : i.direction command.entry = .toHost)
      (hwalk : Prp.walk PAGE_SIZE w.mem fuel command.entry.prp1.toNat command.entry.prp2.toNat
        (N.length i command.entry) = some pages) :
      Executes i before command after w
        ({ w with
          mem := Prp.scatter PAGE_SIZE pages w.mem (w.moved i command.number).length
            (((N.supplies i command.entry w.disk).drop
              (w.moved i command.number).length).take n) }.transferred i command.number
          (((N.supplies i command.entry w.disk).drop (w.moved i command.number).length).take n))
  | take (fuel n : Nat) (pages : List Nat) (hdir : i.direction command.entry = .fromHost)
      (hwalk : Prp.walk PAGE_SIZE w.mem fuel command.entry.prp1.toNat command.entry.prp2.toNat
        (N.length i command.entry) = some pages)
      (hn : (w.moved i command.number).length + n ≤ N.length i command.entry) :
      Executes i before command after w
        ({ w with
          disk := w.disk.write (N.position command.entry + (w.moved i command.number).length)
            (Prp.gather PAGE_SIZE w.mem pages (w.moved i command.number).length n) }.transferred i
          command.number
          (Prp.gather PAGE_SIZE w.mem pages (w.moved i command.number).length n))
  | finish (status : UInt16)
      (hdone : Succeeds status → (w.moved i command.number).length = N.length i command.entry)
      (hrejected : ¬ Succeeds status → w.moved i command.number = []) :
      Executes i before command after w
        (w.setRing i { w.ring i with
          live := before ++ { command with status := some status } :: after })

/-- A command that has a status is completed with it, under its own identifier. -/
def Reports (r : Ring) (c : CompletionQueueEntry) (k : Nat) (live : List FetchedCommand) : Prop :=
  ∃ before command after, r.live = before ++ command :: after ∧ live = before ++ after ∧
    k = command.number ∧ c.cid = command.entry.cid ∧ command.status = some (c.status >>> 1)

/-- The controller. -/
def servingController : Behaviour where
  mayPost := Reports
  transfer := fun w w' => ∃ i before command after,
    (w.ring i).live = before ++ command :: after ∧ command.status = none ∧
      Executes N i before command after w w'

end Controller

variable {P : Platform} {N : Namespace} {i j : QueueId} {w w' : World} {r r' : Ring}

section Moved

variable {k : Nat} {bytes : List UInt8}

/-- What was moved is part of the record of transfers. -/
theorem moved_congr (h : w'.transfers = w.transfers) (i : QueueId) (k : Nat) :
    w'.moved i k = w.moved i k := by
  rw [World.moved, h]
  rfl

/-- The piece is added to what the command has moved. -/
theorem moved_transferred : (w.transferred i k bytes).moved i k = w.moved i k ++ bytes := by
  simp [World.moved, World.transferred, List.filter_append]

/-- A transfer of one command moves nothing of another. -/
theorem moved_transferred_of_ne {k' : Nat} (h : ¬ (i = j ∧ k = k')) :
    (w.transferred i k bytes).moved j k' = w.moved j k' := by
  have hskip : ([⟨i, k, bytes⟩] : List Transfer).filter
      (fun t => decide (t.queue = j ∧ t.number = k')) = [] := by
    simpa using h
  rw [World.moved, World.transferred, List.filter_append, hskip, List.append_nil]
  rfl

/-- A command that has not moved anything. -/
theorem moved_eq_nil (h : ∀ t ∈ w.transfers, t.queue = i → t.number ≠ k) : w.moved i k = [] := by
  have hnone : w.transfers.filter (fun t => decide (t.queue = i ∧ t.number = k)) = [] :=
    List.filter_eq_nil_iff.mpr fun t ht => by simpa using h t ht
  rw [World.moved, hnone]
  rfl

end Moved

/-! ### The entries of a command -/

/-- The entries of a transfer of `length` bytes name the pages of the data area in memory `m`. -/
structure Listed (P : Platform) (length : Nat) (e : SubmissionQueueEntry) (m : Mem) : Prop where
  le : length ≤ MAX_TRANSFER_BYTES
  first : e.prp1.toNat = dataPage P.base.val.toNat 0
  second : transferPages length = 2 → e.prp2.toNat = dataPage P.base.val.toNat 1
  list : 2 < transferPages length → e.prp2.toNat = prpEntryAddress P.base.val.toNat 0
  entries : 2 < transferPages length → ∀ k, k < transferPages length - 1 →
    Prp.entry m (prpEntryAddress P.base.val.toNat k) = dataPage P.base.val.toNat (k + 1)

variable {length : Nat} {e : SubmissionQueueEntry} {m m' : Mem}

/-- They only depend on the page of the list. -/
theorem Listed.congr (h : Listed P length e m)
    (hm : ∀ x, World.address P PRP_LIST_OFFSET ≤ x → x < World.address P DATA_OFFSET →
      m' x = m x) : Listed P length e m' where
  le := h.le
  first := h.first
  second := h.second
  list := h.list
  entries := fun hlong k hk => by
    have hcapacity : transferPages length - 1 ≤ PRP_LIST_CAPACITY := pageCount_le h.le
    rw [← h.entries hlong k hk]
    -- the entries that are read lie in the page of the list
    refine Prp.entry_congr fun x hx hlt => hm x ?_ ?_
    all_goals
      simp only [prpEntryAddress, World.address, PRP_LIST_OFFSET, PRP_LIST_CAPACITY,
        DATA_OFFSET] at *
      omega

/-- The identifier of a command is none of them. -/
theorem Listed.cid (h : Listed P length e m) (cid : UInt16) :
    Listed P length { e with cid := cid } m :=
  ⟨h.le, h.first, h.second, h.list, h.entries⟩

/-- **What the controller finds** in them, if it may read as many slots as a page has. -/
theorem Listed.walk_eq (h : Listed P length e m) (halign : P.base.val.toNat % PAGE_SIZE = 0)
    {fuel : Nat} (hfuel : PRP_LIST_CAPACITY ≤ fuel) :
    Prp.walk PAGE_SIZE m fuel e.prp1.toNat e.prp2.toNat length =
      some ((List.range (transferPages length)).map (dataPage P.base.val.toNat)) := by
  have hcapacity : transferPages length - 1 ≤ PRP_LIST_CAPACITY := pageCount_le h.le
  -- the first page is whole, so that the count is the driver's
  have hcount : Prp.pageCount PAGE_SIZE (dataPage P.base.val.toNat 0) length =
      transferPages length := by
    have haligned : dataPage P.base.val.toNat 0 % PAGE_SIZE = 0 := by
      simp only [dataPage, DATA_OFFSET, PAGE_SIZE] at halign ⊢
      omega
    rw [Prp.pageCount, haligned, Nat.zero_add, transferPages]
  rw [Prp.walk, h.first, hcount]
  -- no page or one, two, and more with the list
  rcases hn : transferPages length with - | - | - | n
  · rfl
  · rfl
  · rw [h.second hn]
    rfl
  · have hlong : 2 < transferPages length := by omega
    have hlist := @Prp.walkList_eq PAGE_SIZE m (prpEntryAddress P.base.val.toNat 0) (n + 2)
      fuel (fun k => dataPage P.base.val.toNat (k + 1)) (by omega) (fun k hk => ?_) fun k hk => ?_
    · have hrange : (List.range (n + 1 + 1 + 1)).map (dataPage P.base.val.toNat) =
          dataPage P.base.val.toNat 0 ::
            (List.range (n + 2)).map fun k => dataPage P.base.val.toNat (k + 1) := by
        rw [List.range_succ_eq_map, List.map_cons, List.map_map]
        rfl
      simp only [h.list hlong, hlist, Option.map_some, hrange]
    · rw [← h.entries hlong k (by omega)]
      congr 1
    -- the list does not leave its page
    · simp only [prpEntryAddress, PRP_LIST_OFFSET, PAGE_SIZE, PRP_LIST_CAPACITY,
        DATA_OFFSET] at halign hcapacity ⊢
      omega

/-- Whatever it may read, it finds nothing else. -/
theorem Listed.walk (h : Listed P length e m) (halign : P.base.val.toNat % PAGE_SIZE = 0)
    {fuel : Nat} {pages : List Nat}
    (hwalk : Prp.walk PAGE_SIZE m fuel e.prp1.toNat e.prp2.toNat length = some pages) :
    pages = (List.range (transferPages length)).map (dataPage P.base.val.toNat) := by
  have hmono := Prp.walk_mono (Nat.le_add_right fuel PRP_LIST_CAPACITY) hwalk
  rw [h.walk_eq halign (Nat.le_add_left _ _)] at hmono
  exact (Option.some.inj hmono).symm

/-- Each byte of the transfer lies in the data area, at its own offset. -/
theorem Listed.byteAddress (h : Listed P length e m) (halign : P.base.val.toNat % PAGE_SIZE = 0)
    {fuel x : Nat} {pages : List Nat}
    (hwalk : Prp.walk PAGE_SIZE m fuel e.prp1.toNat e.prp2.toNat length = some pages)
    (hx : x < length) :
    Prp.byteAddress PAGE_SIZE pages x = World.address P DATA_OFFSET + x := by
  have haligned : World.address P DATA_OFFSET % PAGE_SIZE = 0 := by
    simp only [World.address, DATA_OFFSET, PAGE_SIZE] at halign ⊢
    omega
  rw [h.walk halign hwalk]
  refine Prp.byteAddress_range haligned ?_
  simp only [transferPages, PAGE_SIZE]
  omega

section Pieces

variable {fuel start : Nat} {pages : List Nat}

/-- A piece for the host. -/
theorem Listed.scatter (h : Listed P length e m) (halign : P.base.val.toNat % PAGE_SIZE = 0)
    (hwalk : Prp.walk PAGE_SIZE m fuel e.prp1.toNat e.prp2.toNat length = some pages)
    {bytes : List UInt8} (hle : start + bytes.length ≤ length) :
    Prp.scatter PAGE_SIZE pages m start bytes =
      m.write (World.address P DATA_OFFSET + start) bytes :=
  Prp.scatter_eq fun k hk => by
    rw [h.byteAddress halign hwalk (show start + k < length by omega), Nat.add_assoc]

/-- A piece from the host. -/
theorem Listed.gather (h : Listed P length e m) (halign : P.base.val.toNat % PAGE_SIZE = 0)
    (hwalk : Prp.walk PAGE_SIZE m fuel e.prp1.toNat e.prp2.toNat length = some pages) {n : Nat}
    (hle : start + n ≤ length) :
    Prp.gather PAGE_SIZE m pages start n = m.read (World.address P DATA_OFFSET + start) n :=
  Prp.gather_eq fun k hk => by
    rw [h.byteAddress halign hwalk (show start + k < length by omega), Nat.add_assoc]

end Pieces

/-! ### The rings are safe -/

/-- What the controller has to give goes into the data area. -/
def Contained (P : Platform) (N : Namespace) (w : World) : Prop :=
  ∀ i, ∀ command ∈ (w.ring i).live, i.direction command.entry = .toHost →
    Listed P (N.length i command.entry) command.entry w.mem

/-- Memory below the data area, and the rings, are as they were. -/
theorem ringKept_of_below (hring : (w.ring i).Same (w'.ring i))
    (hmem : ∀ x, x < World.address P DATA_OFFSET → w'.mem x = w.mem x) : RingKept P i w w' where
  ring := hring
  sqe := fun s hs => World.sqe_congr fun x _ hlt => hmem x <| by
    have happart := (QueueId.slots_apart i i hs hs).1
    simp only [World.address, PRP_LIST_OFFSET, DATA_OFFSET] at *
    omega
  cqe := fun s hs => World.cqe_congr fun x _ hlt => hmem x <| by
    have happart := (QueueId.slots_apart i i hs hs).2.1
    simp only [World.address, PRP_LIST_OFFSET, DATA_OFFSET] at *
    omega

/-- A piece for the host is no longer than what is left to give. -/
theorem length_piece (start n : Nat) (disk : Mem) (h : start ≤ N.length i e) :
    start + (((N.supplies i e disk).drop start).take n).length ≤ N.length i e := by
  rw [List.length_take, List.length_drop, Namespace.length_supplies]
  omega

/-- A controller that serves writes to the data buffer at most, never to the rings or the PRP list.
-/
theorem servingController_keeps (halign : P.base.val.toNat % PAGE_SIZE = 0) :
    (servingController N).Keeps P (Contained P N) := by
  rintro w w' hcontained ⟨i, before, command, after, hlive, hstatus, hexec⟩ j
  cases hexec with
  | give fuel n pages hdir hwalk =>
    have hlisted := hcontained i command (by rw [hlive]; simp) hdir
    refine ringKept_of_below (.refl _) fun x hx => ?_
    rcases Nat.lt_or_ge (N.length i command.entry) (w.moved i command.number).length with hlt | hle
    · -- nothing is left to give
      have hnil : (N.supplies i command.entry w.disk).drop (w.moved i command.number).length = [] :=
        List.drop_eq_nil_of_le (by rw [Namespace.length_supplies]; omega)
      simp only [World.transferred, hnil, List.take_nil, Prp.scatter]
    -- the pages given to are the listed ones, which lie in the data area
    · simp only [World.transferred]
      rw [hlisted.scatter halign hwalk (length_piece _ n _ hle)]
      exact Mem.write_of_lt (by omega)
  | take fuel n pages hdir hwalk hn => exact ringKept_of_below (.refl _) fun _ _ => rfl
  | finish status hdone hrejected =>
    refine ringKept_of_below ?_ fun _ _ => rfl
    exact World.setRing_rel Ring.Same.refl ⟨rfl, by rw [hlive]; simp⟩ j

end Nvmetoy
