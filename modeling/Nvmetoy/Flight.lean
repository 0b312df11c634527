import Nvmetoy.BlockArray
import Nvmetoy.Execution

/-!
# One command at a time

While the controller has one command of the driver's and no other, and the driver leaves the data
area alone, what moves is that command's data.

* `Task` — a command that was submitted, with the bytes that were left in the data area for it and
  the namespace as it was.
* `Stage` — where the command is: in its slot, in the controller's hands, or completed.
* `Moving` — what it has moved: the beginning of what it is to move, all of it once it has
  succeeded, and nothing if it is rejected.
* `InFlight.step` — no step of the controller ends this.
* `Recorded` — the history: each write call has had moved the beginning of its payload, all of it
  once its command is reported successful, and each read that returned `Ok` returned what its own
  command moved.
* `SingleTask.step` — both together, at every step of a run, and where calls are to be explained
  also `SingleTask.explained`.
-/

namespace Nvmetoy

open Framework Machine NvmeUserspaceDriver

variable {P : Platform} {N : Namespace} {i j : QueueId} {w w' : World} {r r' : Ring}

/-! ### Rings -/

/-- The controller has nothing of a ring. -/
structure Empty (r : Ring) : Prop where
  head : r.sqHead = r.sqTail
  live : r.live = []

/-- It has completed every command that was written. -/
structure Drained (r : Ring) : Prop extends Empty r where
  all : r.posted.length = r.submitted

/-- The completions were posted in the order of the commands, under their identifiers. -/
def Filed (r : Ring) : Prop :=
  ∀ (j : Nat) (c : CompletionQueueEntry) (k : Nat), r.posted[j]? = some (c, k) →
    k = j ∧ c.cid = .ofNat j

theorem Empty.congr (h : Empty r) (hhead : r'.sqHead = r.sqHead) (htail : r'.sqTail = r.sqTail)
    (hlive : r'.live = r.live) : Empty r' :=
  ⟨by rw [hhead, htail, h.head], by rw [hlive, h.live]⟩

theorem Drained.congr (h : Drained r) (hhead : r'.sqHead = r.sqHead)
    (htail : r'.sqTail = r.sqTail) (hlive : r'.live = r.live) (hposted : r'.posted = r.posted)
    (hsubmitted : r'.submitted = r.submitted) : Drained r' :=
  ⟨h.toEmpty.congr hhead htail hlive, by rw [hposted, hsubmitted, h.all]⟩

/-- It holds no command. -/
theorem Drained.held (h : Drained r) : r.held = 0 := by
  rw [Ring.held, h.live, h.head, Nat.add_sub_cancel_left]
  rfl

theorem Filed.congr (h : Filed r) (hposted : r'.posted = r.posted) : Filed r' := by
  intro j c k hj
  rw [hposted] at hj
  exact h j c k hj

/-- The next completion, for the next command. -/
theorem Filed.post (h : Filed r) {c : CompletionQueueEntry} {live : List FetchedCommand}
    (hcid : c.cid = .ofNat r.posted.length) : Filed (r.post c r.posted.length live) := by
  intro j c' k hj
  rw [Ring.post] at hj
  -- an earlier completion, or the one that is posted now
  rcases Nat.lt_or_ge j r.posted.length with hlt | hge
  · rw [List.getElem?_append_left hlt] at hj
    exact h j c' k hj
  · rw [List.getElem?_append_right hge] at hj
    obtain ⟨hindex, heq⟩ := List.getElem?_eq_some_iff.mp hj
    rw [List.getElem_singleton] at heq
    obtain ⟨rfl, rfl⟩ := Prod.mk.inj heq
    obtain rfl : j = r.posted.length := by simp at hindex; omega
    exact ⟨rfl, hcid⟩

/-- A controller that has nothing does nothing. -/
theorem not_env_of_empty (h : ∀ i, Empty (w.ring i)) : ¬ EnvStep P (servingController N) w w' := by
  intro henv
  cases henv with
  | fetch i hpending => exact hpending (h i).head
  | post i hroom hphase hmay =>
    obtain ⟨before, command, after, hlive, -⟩ := hmay
    rw [(h i).live] at hlive
    simp at hlive
  | transfer htransfer =>
    obtain ⟨i, before, command, after, hlive, -⟩ := htransfer
    rw [(h i).live] at hlive
    simp at hlive

/-! ### A task -/

/-- A command that was submitted: its number on its queue, the entry, the bytes that were left in
the data area for it, and the namespace as it was then. -/
structure Task where
  queue : QueueId
  number : Nat
  entry : SubmissionQueueEntry
  payload : List UInt8
  disk : Mem

variable {τ : Task} {status : Option UInt16}

/-- Where the command is, with its status once it has one. -/
inductive Stage (P : Platform) (τ : Task) (w : World) : Option UInt16 → Prop where
  | waiting (hhead : (w.ring τ.queue).sqHead = τ.number % QUEUE_DEPTH)
      (htail : (w.ring τ.queue).sqTail = (τ.number + 1) % QUEUE_DEPTH)
      (hlive : (w.ring τ.queue).live = [])
      (hposted : (w.ring τ.queue).posted.length = τ.number)
      (hsqe : w.sqe P τ.queue (τ.number % QUEUE_DEPTH) = τ.entry)
      (hissuer : (w.ring τ.queue).issuer (τ.number % QUEUE_DEPTH) = τ.number) :
      Stage P τ w none
  | inHand (status : Option UInt16) (hhead : (w.ring τ.queue).sqHead = (w.ring τ.queue).sqTail)
      (hlive : (w.ring τ.queue).live = [⟨τ.number, τ.entry, status⟩])
      (hposted : (w.ring τ.queue).posted.length = τ.number) : Stage P τ w status
  | done (c : CompletionQueueEntry) (hempty : Empty (w.ring τ.queue))
      (hposted : (w.ring τ.queue).posted.length = τ.number + 1)
      (hlast : (w.ring τ.queue).posted[τ.number]? = some (c, τ.number)) :
      Stage P τ w (some (c.status >>> 1))

/-- The bytes the command has moved. -/
abbrev Task.moved (τ : Task) (w : World) : List UInt8 := w.moved τ.queue τ.number

/-- Which way it moves them. -/
abbrev Task.direction (τ : Task) : Direction := τ.queue.direction τ.entry

/-- How many it is to move. -/
abbrev Task.length (N : Namespace) (τ : Task) : Nat := N.length τ.queue τ.entry

/-- What the command has moved: the beginning of what it is to move, from the data area to its
blocks or from its data to the data area. -/
structure Moving (P : Platform) (N : Namespace) (τ : Task) (status : Option UInt16)
    (w : World) : Prop where
  listed : τ.direction ≠ .none → Listed P (τ.length N) τ.entry w.mem
  taken : τ.direction = .fromHost → τ.payload.length = τ.length N ∧
    w.mem.read (World.address P DATA_OFFSET) τ.payload.length = τ.payload ∧
    τ.moved w <+: τ.payload ∧ w.disk = τ.disk.write (N.position τ.entry) (τ.moved w)
  given : τ.direction = .toHost → τ.moved w <+: N.supplies τ.queue τ.entry τ.disk ∧
    w.mem.read (World.address P DATA_OFFSET) (τ.moved w).length = τ.moved w
  kept : τ.direction ≠ .fromHost → w.disk = τ.disk
  still : τ.direction = .none → τ.moved w = []
  succeeded : ∀ s, status = some s → Succeeds s → (τ.moved w).length = τ.length N
  rejected : ∀ s, status = some s → ¬ Succeeds s → τ.moved w = []

/-- The command, with the bytes left for it, is what the call asks for. -/
def Orders (call : Call) (i : QueueId) (e : SubmissionQueueEntry) (payload : List UInt8) : Prop :=
  match call with
  | .write slba data => i.direction e = .fromHost ∧ payload = data ∧ e.slba = slba.toNat
  | _ => i.direction e ≠ .fromHost

/-- The controller has the command of the task, or has completed it, and has nothing else. -/
structure InFlight (P : Platform) (N : Namespace) (τ : Task) (w : World) : Prop where
  asked : τ.queue = .io → ∃ call, w.issuedBy τ.number = some call ∧
    Orders call τ.queue τ.entry τ.payload
  cid : τ.entry.cid = .ofNat τ.number
  submitted : (w.ring τ.queue).submitted = τ.number + 1
  others : ∀ j, j ≠ τ.queue → Drained (w.ring j)
  under : ∃ status, Stage P τ w status ∧ Moving P N τ status w

/-- What the step leaves alone. -/
theorem Moving.congr (h : Moving P N τ status w)
    (hmem : ∀ x, World.address P PRP_LIST_OFFSET ≤ x → w'.mem x = w.mem x)
    (hdisk : w'.disk = w.disk) (htransfers : w'.transfers = w.transfers) :
    Moving P N τ status w' := by
  have hmoved : τ.moved w' = τ.moved w := moved_congr htransfers _ _
  -- the data area is above the list
  have hdata (n : Nat) : w'.mem.read (World.address P DATA_OFFSET) n =
      w.mem.read (World.address P DATA_OFFSET) n := by
    refine Mem.read_congr fun x hx _ => hmem x ?_
    simp only [World.address, PRP_LIST_OFFSET, DATA_OFFSET] at *
    omega
  -- the pages, then what was taken, given and kept, then the status
  refine ⟨fun hdir => (h.listed hdir).congr fun x hx _ => hmem x hx, fun hdir => ?_,
    fun hdir => ?_, fun hdir => ?_, fun hdir => ?_, fun s hs hok => ?_, fun s hs hno => ?_⟩
  · rw [hdata, hmoved, hdisk]
    exact h.taken hdir
  · rw [hdata, hmoved]
    exact h.given hdir
  · rw [hdisk]
    exact h.kept hdir
  · rw [hmoved]
    exact h.still hdir
  · rw [hmoved]
    exact h.succeeded s hs hok
  · rw [hmoved]
    exact h.rejected s hs hno

/-- What the command is to move ends where its length says. -/
theorem Moving.length_le (h : Moving P N τ status w) : (τ.moved w).length ≤ τ.length N := by
  cases hdir : τ.direction with
  | toHost =>
    have hle := (h.given hdir).1.length_le
    rwa [Namespace.length_supplies] at hle
  | fromHost =>
    obtain ⟨hlen, -, hbegins, -⟩ := h.taken hdir
    have hle := hbegins.length_le
    rwa [hlen] at hle
  | none =>
    rw [h.still hdir]
    exact Nat.zero_le _

/-! ### The steps of the controller -/

/-- A piece of what the command gives to the host. -/
theorem Moving.give (h : Moving P N τ none w) (halign : P.base.val.toNat % PAGE_SIZE = 0)
    (hdir : τ.direction = .toHost) {fuel n : Nat} {pages : List Nat} {bytes : List UInt8}
    (hwalk : Prp.walk PAGE_SIZE w.mem fuel τ.entry.prp1.toNat τ.entry.prp2.toNat (τ.length N) =
      some pages)
    (hbytes : bytes = ((N.supplies τ.queue τ.entry w.disk).drop (τ.moved w).length).take n) :
    Moving P N τ none
      ({ w with mem := Prp.scatter PAGE_SIZE pages w.mem (τ.moved w).length bytes }.transferred
        τ.queue τ.number bytes) := by
  have hlisted := h.listed (by rw [hdir]; simp)
  obtain ⟨hbegins, hread⟩ := h.given hdir
  have hdisk : w.disk = τ.disk := h.kept (by rw [hdir]; simp)
  rw [hdisk] at hbytes
  have hlen : (τ.moved w).length + bytes.length ≤ τ.length N :=
    hbytes ▸ length_piece _ n _ h.length_le
  -- scattered over the pages is written in one piece
  have hscatter := hlisted.scatter halign hwalk hlen
  have hmoved : τ.moved (({ w with
      mem := Prp.scatter PAGE_SIZE pages w.mem (τ.moved w).length bytes } : World).transferred
        τ.queue τ.number bytes) = τ.moved w ++ bytes := moved_transferred
  refine ⟨fun _ => hlisted.congr fun x _ hx => ?_, fun hfrom => ?_, fun _ => ⟨?_, ?_⟩,
    fun _ => hdisk, fun hnone => ?_, fun s hs => (by cases hs), fun s hs => (by cases hs)⟩
  · -- the list lies below the data area
    simp only [World.transferred, hscatter]
    exact Mem.write_of_lt (by omega)
  · rw [hdir] at hfrom
    cases hfrom
  -- one more piece of the same beginning
  · rw [hmoved, hbytes, List.prefix_iff_eq_take.mp hbegins, List.length_take,
      Nat.min_eq_left hbegins.length_le, ← List.take_add]
    exact List.take_prefix _ _
  · rw [hmoved, List.length_append, Mem.read_add]
    simp only [World.transferred, hscatter]
    rw [Mem.read_write_of_disjoint (by omega), Mem.read_write_self, hread]
  · rw [hdir] at hnone
    cases hnone

/-- A piece of what the command takes from the host. -/
theorem Moving.take (h : Moving P N τ none w) (halign : P.base.val.toNat % PAGE_SIZE = 0)
    (hdir : τ.direction = .fromHost) {fuel n : Nat} {pages : List Nat} {bytes : List UInt8}
    (hwalk : Prp.walk PAGE_SIZE w.mem fuel τ.entry.prp1.toNat τ.entry.prp2.toNat (τ.length N) =
      some pages)
    (hn : (τ.moved w).length + n ≤ τ.length N)
    (hbytes : bytes = Prp.gather PAGE_SIZE w.mem pages (τ.moved w).length n) :
    Moving P N τ none
      ({ w with
        disk := w.disk.write (N.position τ.entry + (τ.moved w).length) bytes }.transferred
        τ.queue τ.number bytes) := by
  have hlisted := h.listed (by rw [hdir]; simp)
  obtain ⟨hlen, hread, hbegins, hdisk⟩ := h.taken hdir
  -- the piece lies in the payload
  have hpiece : bytes = (τ.payload.drop (τ.moved w).length).take n := by
    rw [hbytes, hlisted.gather halign hwalk hn]
    conv_rhs => rw [← hread]
    rw [Mem.read_drop_take (by omega)]
  have hmoved : τ.moved (({ w with
      disk := w.disk.write (N.position τ.entry + (τ.moved w).length) bytes } : World).transferred
        τ.queue τ.number bytes) = τ.moved w ++ bytes := moved_transferred
  refine ⟨fun _ => hlisted, fun _ => ⟨hlen, hread, ?_, ?_⟩, fun hto => ?_, fun hno => ?_,
    fun hnone => ?_, fun s hs => (by cases hs), fun s hs => (by cases hs)⟩
  · rw [hmoved, hpiece, List.prefix_iff_eq_take.mp hbegins, List.length_take,
      Nat.min_eq_left hbegins.length_le, ← List.take_add]
    exact List.take_prefix _ _
  · -- and the disk has one more piece of it
    rw [hmoved, Mem.write_append, ← hdisk]
    rfl
  · rw [hdir] at hto
    cases hto
  · exact absurd hdir hno
  · rw [hdir] at hnone
    cases hnone

/-- The status is set. -/
theorem Moving.finish (h : Moving P N τ none w) {s : UInt16}
    (hdone : Succeeds s → (τ.moved w).length = τ.length N)
    (hrejected : ¬ Succeeds s → τ.moved w = []) (r : Ring) :
    Moving P N τ (some s) (w.setRing i r) where
  listed := h.listed
  taken := h.taken
  given := h.given
  kept := h.kept
  still := h.still
  succeeded := fun s' hs hok => by
    obtain rfl := Option.some.inj hs
    exact hdone hok
  rejected := fun s' hs hno => by
    obtain rfl := Option.some.inj hs
    exact hrejected hno

/-- A ring of which the controller has something is that of the task. -/
theorem InFlight.queue_eq (h : InFlight P N τ w) (hi : ¬ Empty (w.ring i)) : i = τ.queue := by
  by_contra hne
  exact hi (h.others i hne).toEmpty

/-- Only a command that takes data from the host changes the namespace. -/
theorem InFlight.disk_eq (h : InFlight P N τ w) (hdir : τ.direction ≠ .fromHost) :
    w.disk = τ.disk := by
  obtain ⟨status, -, hmoving⟩ := h.under
  exact hmoving.kept hdir

/-- The one command in hand. -/
theorem InFlight.inHand (h : InFlight P N τ w) {before after : List FetchedCommand}
    {command : FetchedCommand} (hlive : (w.ring i).live = before ++ command :: after) :
    i = τ.queue ∧ before = [] ∧ after = [] ∧ command.number = τ.number ∧
      command.entry = τ.entry ∧ (w.ring i).sqHead = (w.ring i).sqTail ∧
      (w.ring i).posted.length = τ.number ∧ Moving P N τ command.status w := by
  obtain rfl : i = τ.queue := h.queue_eq fun hempty => by
    rw [hempty.live] at hlive
    simp at hlive
  obtain ⟨status, hstage, hmoving⟩ := h.under
  cases hstage with
  -- a command in its slot is not in hand
  | waiting _ _ hnone =>
    rw [hnone] at hlive
    simp at hlive
  | inHand _ hhead hone hposted =>
    rw [hone] at hlive
    rcases List.singleton_eq_append_iff.mp hlive with ⟨rfl, hcommand⟩ | ⟨-, hcommand⟩
    · obtain ⟨rfl, rfl⟩ := List.cons.inj hcommand
      exact ⟨rfl, rfl, rfl, rfl, rfl, hhead, hposted, hmoving⟩
    · cases hcommand
  -- nor is one that was completed
  | done c hempty =>
    rw [hempty.live] at hlive
    simp at hlive

/-- A step that leaves the other rings alone. -/
theorem InFlight.next (h : InFlight P N τ w) (hissued : w'.issuedBy = w.issuedBy)
    (hsubmitted : (w'.ring τ.queue).submitted = (w.ring τ.queue).submitted)
    (hothers : ∀ j, j ≠ τ.queue → w'.ring j = w.ring j) {status : Option UInt16}
    (hstage : Stage P τ w' status) (hmoving : Moving P N τ status w') : InFlight P N τ w' where
  asked := fun hio => by
    rw [hissued]
    exact h.asked hio
  cid := h.cid
  submitted := hsubmitted.trans h.submitted
  others := fun j hj => by
    rw [hothers j hj]
    exact h.others j hj
  under := ⟨status, hstage, hmoving⟩

/-- The command is fetched. -/
theorem InFlight.fetch (h : InFlight P N τ w) (hpending : (w.ring i).sqHead ≠ (w.ring i).sqTail) :
    InFlight P N τ (w.setRing i ((w.ring i).fetch (w.sqe P i (w.ring i).sqHead))) := by
  obtain rfl : i = τ.queue := h.queue_eq fun hempty => hpending hempty.head
  obtain ⟨status, hstage, hmoving⟩ := h.under
  have hring : (w.setRing τ.queue ((w.ring τ.queue).fetch
      (w.sqe P τ.queue (w.ring τ.queue).sqHead))).ring τ.queue = _ := World.setRing_ring_self _
  cases hstage with
  | waiting hhead htail hlive hposted hsqe hissuer =>
    refine h.next rfl (by rw [hring]; rfl) (fun j hj => World.setRing_ring_of_ne hj)
      (.inHand none ?_ ?_ ?_) (hmoving.congr (fun _ _ => rfl) rfl rfl)
    · rw [hring]
      simp only [Ring.fetch, hhead, htail]
      exact PhaseRing.succ_mod τ.number
    · rw [hring]
      simp only [Ring.fetch, hhead, hlive, hsqe, hissuer, List.nil_append]
    · rw [hring]
      exact hposted
  -- there is nothing else to fetch
  | inHand _ hhead => exact absurd hhead hpending
  | done c hempty => exact absurd hempty.head hpending

/-- The command is completed. -/
theorem InFlight.post (h : InFlight P N τ w) {c : CompletionQueueEntry} {k a : Nat}
    {live : List FetchedCommand} (hmay : Reports (w.ring i) c k live)
    (ha : a + c.encode.length ≤ World.address P PRP_LIST_OFFSET) :
    InFlight P N τ { w.setRing i ((w.ring i).post c k live) with mem := w.mem.write a c.encode } ∧
      i = τ.queue ∧ k = (w.ring i).posted.length ∧ c.cid = .ofNat (w.ring i).posted.length := by
  obtain ⟨before, command, after, hlive, rfl, rfl, hcid, hstatus⟩ := hmay
  obtain ⟨rfl, rfl, rfl, hnumber, hentry, hhead, hposted, hmoving⟩ := h.inHand hlive
  -- it carries the status and the identifier of the command in hand
  rw [hstatus] at hmoving
  rw [hentry, h.cid] at hcid
  have hring (mem : Mem) : ({ w.setRing τ.queue ((w.ring τ.queue).post c command.number
      ([] ++ [])) with mem := mem } : World).ring τ.queue = _ := World.setRing_ring_self _
  refine ⟨h.next rfl (by rw [hring]; rfl) (fun j hj => World.setRing_ring_of_ne hj)
    (.done c ?_ ?_ ?_) (hmoving.congr (fun x hx => Mem.write_of_ge (by omega)) rfl rfl), rfl,
    ?_, ?_⟩
  · rw [hring]
    exact ⟨hhead, rfl⟩
  · rw [hring]
    simp only [Ring.post, List.length_append, hposted, List.length_singleton]
  · rw [hring]
    simp only [Ring.post]
    rw [← hposted, List.getElem?_concat_length, hnumber, hposted]
  · rw [hnumber, hposted]
  · rw [hcid, hposted]

/-- The command is executed. -/
theorem InFlight.execute (h : InFlight P N τ w) (halign : P.base.val.toNat % PAGE_SIZE = 0)
    {before after : List FetchedCommand} {command : FetchedCommand}
    (hlive : (w.ring i).live = before ++ command :: after) (hstatus : command.status = none)
    (hexec : Executes N i before command after w w') : InFlight P N τ w' := by
  obtain ⟨number, entry, status⟩ := command
  obtain ⟨rfl, rfl, rfl, hnumber, hentry, hhead, hposted, hmoving⟩ := h.inHand hlive
  dsimp only at hnumber hentry hstatus hmoving
  subst hnumber hentry hstatus
  cases hexec with
  -- a piece given, or taken
  | give fuel n pages hdir hwalk =>
    exact h.next rfl rfl (fun _ _ => rfl) (.inHand none hhead hlive hposted)
      (hmoving.give halign hdir hwalk rfl)
  | take fuel n pages hdir hwalk hn =>
    exact h.next rfl rfl (fun _ _ => rfl) (.inHand none hhead hlive hposted)
      (hmoving.take halign hdir hwalk hn rfl)
  -- its status is set, and its data stays
  | finish s hdone hrejected =>
    have hring (r : Ring) : (w.setRing τ.queue r).ring τ.queue = r := World.setRing_ring_self _
    refine h.next rfl (by rw [hring]) (fun j hj => World.setRing_ring_of_ne hj)
      (.inHand (some s) ?_ ?_ ?_) (hmoving.finish hdone hrejected _)
    · rw [hring]
      exact hhead
    · rw [hring]
      rfl
    · rw [hring]
      exact hposted

/-! ### The history -/

/-- What write command `k` has stored is the beginning of the payload of its call, and all of it
when the command was reported successful. -/
def Stored (w : World) (k : Nat) : Prop :=
  ∀ (slba : UInt64) (payload : List UInt8), w.issuedBy k = some (.write slba payload) →
    w.moved .io k <+: payload ∧ ∀ c, (w.ring .io).posted[k]? = some (c, k) →
      c.isSuccess = true → w.moved .io k = payload

/-- A read or write call that returned `Ok`: its command was reported successful, and a read
returned what its command moved. -/
def Answered (w : World) (record : CallRecord) : Prop :=
  ∀ bytes, record.call ≠ .identifyController → record.result = .ok bytes →
    w.issuedBy record.number = some record.call ∧
    (∃ c, (w.ring .io).posted[record.number]? = some (c, record.number) ∧ c.isSuccess = true) ∧
    ∀ slba blockCount, record.call = .read slba blockCount → w.moved .io record.number = bytes

/-- A read or write call that was accepted: its command was completed, and when it was reported
successful the call returned `Ok`. -/
def Told (B : Nat) (w : World) (record : CallRecord) : Prop :=
  record.call.Accepted B → w.issuedBy record.number = some record.call ∧
    ∃ c, (w.ring .io).posted[record.number]? = some (c, record.number) ∧
      (c.isSuccess = true → ∃ bytes, record.result = .ok bytes)

/-- The history is in order. -/
structure Recorded (w : World) : Prop where
  filed : ∀ i, Filed (w.ring i)
  numbers : ∀ t ∈ w.transfers,
    t.number < (w.ring t.queue).posted.length + (w.ring t.queue).live.length
  stored : ∀ k, k < (w.ring .io).posted.length → Stored w k
  answered : ∀ record ∈ w.calls, Answered w record

/-- What was stored depends on the record of one command. -/
theorem Stored.congr {k : Nat} (h : Stored w k) (hissued : w'.issuedBy k = w.issuedBy k)
    (hmoved : w'.moved .io k = w.moved .io k)
    (hposted : (w'.ring .io).posted[k]? = (w.ring .io).posted[k]?) : Stored w' k := by
  intro slba payload hk
  rw [hissued] at hk
  rw [hmoved, hposted]
  exact h slba payload hk

/-- The answer to a call depends on the commands before it. -/
theorem Answered.congr {record : CallRecord} (h : Answered w record)
    (hissued : ∀ k, k < (w.ring .io).posted.length → w'.issuedBy k = w.issuedBy k)
    (hmoved : ∀ k, k < (w.ring .io).posted.length → w'.moved .io k = w.moved .io k)
    (hposted : (w.ring .io).posted <+: (w'.ring .io).posted) : Answered w' record := by
  intro bytes hcall hresult
  obtain ⟨hissuedBy, ⟨c, hc, hok⟩, hread⟩ := h bytes hcall hresult
  have hlt := (List.getElem?_eq_some_iff.mp hc).1
  rw [hissued _ hlt, hmoved _ hlt]
  refine ⟨hissuedBy, ⟨c, ?_, hok⟩, hread⟩
  obtain ⟨more, hmore⟩ := hposted
  rw [← hmore, List.getElem?_append_left hlt]
  exact hc

theorem Told.congr {B : Nat} {record : CallRecord} (h : Told B w record)
    (hissued : ∀ k, k < (w.ring .io).posted.length → w'.issuedBy k = w.issuedBy k)
    (hposted : (w.ring .io).posted <+: (w'.ring .io).posted) : Told B w' record := by
  intro haccepted
  obtain ⟨hissuedBy, c, hc, hok⟩ := h haccepted
  have hlt := (List.getElem?_eq_some_iff.mp hc).1
  refine ⟨(hissued _ hlt).trans hissuedBy, c, ?_, hok⟩
  obtain ⟨more, hmore⟩ := hposted
  rw [← hmore, List.getElem?_append_left hlt]
  exact hc

/-- What was completed stays as it was. -/
theorem Recorded.congr (h : Recorded w) (hcalls : w'.calls = w.calls)
    (hissued : ∀ k, k < (w.ring .io).posted.length → w'.issuedBy k = w.issuedBy k)
    (htransfers : w'.transfers = w.transfers)
    (hposted : ∀ i, (w'.ring i).posted = (w.ring i).posted)
    (hlive : ∀ i, (w.ring i).live.length ≤ (w'.ring i).live.length) : Recorded w' where
  filed := fun i => (h.filed i).congr (hposted i)
  numbers := fun t ht => by
    have hlt := h.numbers t (htransfers ▸ ht)
    have := hlive t.queue
    -- a command is counted among the posted and the live ones
    rw [hposted]
    omega
  stored := fun k hk => by
    rw [hposted] at hk
    exact (h.stored k hk).congr (hissued k hk) (moved_congr htransfers _ _) (by rw [hposted])
  answered := fun record hrecord => (h.answered record (hcalls ▸ hrecord)).congr hissued
    (fun _ _ => moved_congr htransfers _ _) (by simp only [hposted, List.prefix_rfl])

/-- A piece moved by the command in hand. -/
theorem Recorded.transferred (h : Recorded w) {k : Nat} {bytes : List UInt8}
    (hk : k = (w.ring i).posted.length) (hlive : (w.ring i).live.length = 1)
    (hrest : w' = { w with mem := w'.mem, disk := w'.disk }.transferred i k bytes) :
    Recorded w' := by
  have hring : w'.ring = w.ring := by rw [hrest]; rfl
  -- the commands that were completed have moved what they had
  have hmoved (k' : Nat) (hlt : k' < (w.ring .io).posted.length) :
      w'.moved .io k' = w.moved .io k' := by
    rw [hrest]
    refine moved_transferred_of_ne ?_
    rintro ⟨rfl, rfl⟩
    omega
  refine ⟨fun j => ?_, fun t ht => ?_, fun k' hk' => ?_, fun record hrecord => ?_⟩
  · rw [hring]
    exact h.filed j
  · rw [hring]
    rw [hrest] at ht
    rcases List.mem_append.mp ht with ht | ht
    · exact h.numbers t ht
    · obtain rfl := List.mem_singleton.mp ht
      dsimp only
      omega
  · -- and each of the four facts is about those
    rw [hring] at hk'
    exact (h.stored k' hk').congr (by rw [hrest]; rfl) (hmoved k' hk') (by rw [hring])
  · refine (h.answered record (by rw [hrest] at hrecord; exact hrecord)).congr
      (fun _ _ => by rw [hrest]; rfl) hmoved (by simp only [hring, List.prefix_rfl])

/-- The next completion is posted. -/
theorem Recorded.post (h : Recorded w) {c : CompletionQueueEntry} {live : List FetchedCommand}
    (hring : w'.ring i = (w.ring i).post c (w.ring i).posted.length live)
    (hothers : ∀ j, j ≠ i → w'.ring j = w.ring j)
    (hlive : live.length + 1 = (w.ring i).live.length)
    (hcid : c.cid = .ofNat (w.ring i).posted.length)
    (hcalls : w'.calls = w.calls) (hissued : w'.issuedBy = w.issuedBy)
    (htransfers : w'.transfers = w.transfers)
    (hstored : i = .io → Stored w' (w.ring i).posted.length) : Recorded w' := by
  -- on either ring completions are only added
  have hposted (j : QueueId) : (w.ring j).posted <+: (w'.ring j).posted := by
    refine World.ring_rel (R := fun r r' => r.posted <+: r'.posted) (fun r => List.prefix_rfl)
      hothers ?_ j
    rw [hring]
    exact List.prefix_append _ _
  refine ⟨fun j => ?_, fun t ht => ?_, fun k hk => ?_, fun record hrecord => ?_⟩
  · exact World.ring_rel (R := fun r r' => Filed r → Filed r') (fun _ => id) hothers
      (fun hfiled => hring ▸ hfiled.post hcid) j (h.filed j)
  · have hlt := h.numbers t (htransfers ▸ ht)
    -- on the ring of the completion there is one more
    by_cases hij : t.queue = i
    · rw [hij] at hlt ⊢
      rw [hring]
      simp only [Ring.post, List.length_append, List.length_singleton]
      omega
    · rw [hothers _ hij]
      exact hlt
  · by_cases hlt : k < (w.ring .io).posted.length
    · refine (h.stored k hlt).congr (by rw [hissued]) (moved_congr htransfers _ _) ?_
      obtain ⟨more, hmore⟩ := hposted .io
      rw [← hmore, List.getElem?_append_left hlt]
    -- the command that was completed
    · by_cases hij : i = .io
      · subst hij
        rw [hring] at hk
        simp only [Ring.post, List.length_append, List.length_singleton] at hk
        obtain rfl : k = (w.ring .io).posted.length := by omega
        exact hstored rfl
      · rw [hothers _ (Ne.symm hij)] at hk
        exact absurd hk hlt
  · exact (h.answered record (hcalls ▸ hrecord)).congr (fun _ _ => by rw [hissued])
      (fun _ _ => moved_congr htransfers _ _) (hposted .io)

/-- What a write has stored when its completion is posted. -/
theorem InFlight.stored (h : InFlight P N τ w) (hio : τ.queue = .io)
    (hposted : (w.ring τ.queue).posted.length = τ.number + 1) : Stored w τ.number := by
  intro slba payload hissued
  obtain ⟨call, hcall, horders⟩ := h.asked hio
  obtain rfl : call = .write slba payload := Option.some.inj (hcall.symm.trans hissued)
  obtain ⟨hdir, rfl, -⟩ := horders
  obtain ⟨status, hstage, hmoving⟩ := h.under
  obtain ⟨hlen, -, hbegins, -⟩ := hmoving.taken hdir
  refine ⟨hio ▸ hbegins, fun c hc hok => ?_⟩
  cases hstage with
  | waiting _ _ _ hnot => omega
  | inHand _ _ _ hnot => omega
  | done c' hempty _ hlast =>
    rw [← hio, hlast] at hc
    obtain ⟨rfl, -⟩ := Prod.mk.inj (Option.some.inj hc)
    -- success was reported, so all of it was moved, and it is a beginning of the payload
    have hall := hmoving.succeeded _ rfl ((isSuccess_iff _).mp hok)
    rw [← hio]
    exact hbegins.eq_of_length (hall.trans hlen.symm)

/-! ### At every step -/

/-- Where the calls are to be explained: the blocks of the task are those that the calls before it
have made, and a task that writes to them is the call's that is in progress. -/
structure Expected (B : Nat) (b₀ : Mem) (τ : Task) (w : World) : Prop where
  blocks : BlockRun B b₀ w.calls τ.disk
  caller : τ.direction = .fromHost → w.current = w.issuedBy τ.number

/-- The controller has nothing, or has one task in flight. -/
structure SingleTask (P : Platform) (N : Namespace) (explains : Prop) (b₀ : Mem)
    (w : World) : Prop where
  recorded : Recorded w
  flight : ((∀ i, Empty (w.ring i)) ∧ (explains → Explained N.blockSize b₀ w)) ∨
    ∃ τ, InFlight P N τ w ∧ (explains → Expected N.blockSize b₀ τ w)
  told : explains → ∀ record ∈ w.calls, Told N.blockSize w record

variable {explains : Prop} {b₀ : Mem}

/-- What takes data from the host is on the I/O queue. -/
theorem Task.queue_io (h : τ.direction = .fromHost) : τ.queue = .io := by
  cases hqueue : τ.queue with
  | io => rfl
  | admin =>
    -- no admin command takes data here
    have hadmin : (if τ.entry.opc = AdminOpcode.identify.toUInt8 then Direction.toHost
        else Direction.none) = .fromHost := by
      rw [← h, Task.direction, hqueue]
      rfl
    split at hadmin <;> cases hadmin

/-- A call that takes data from the host is a write. -/
theorem Orders.write {call : Call} {e : SubmissionQueueEntry} {payload : List UInt8}
    (h : Orders call i e payload) (hdir : i.direction e = .fromHost) :
    ∃ slba, call = .write slba payload ∧ e.slba = slba.toNat := by
  cases call with
  | write slba data =>
    obtain ⟨-, rfl, hslba⟩ := h
    exact ⟨slba, rfl, hslba⟩
  | identifyController => exact absurd hdir h
  | read slba blockCount => exact absurd hdir h

/-- The namespace under a task: as it was, but for what the call in progress has written. -/
theorem InFlight.explained (h : InFlight P N τ w) (he : Expected N.blockSize b₀ τ w) :
    Explained N.blockSize b₀ w := by
  refine ⟨τ.disk, he.blocks, ?_⟩
  -- only a write may have changed the disk, and no further than what was moved
  by_cases hdir : τ.direction = .fromHost
  · obtain ⟨call, hcall, horders⟩ := h.asked (Task.queue_io hdir)
    obtain ⟨slba, rfl, hslba⟩ := horders.write hdir
    obtain ⟨status, -, hmoving⟩ := h.under
    obtain ⟨-, -, hbegins, hdisk⟩ := hmoving.taken hdir
    rw [he.caller hdir, hcall]
    refine ⟨(τ.moved w).length, ?_⟩
    rw [hdisk, Namespace.position, hslba, ← List.prefix_iff_eq_take.mp hbegins]
  · rw [h.disk_eq hdir]
    exact Underneath.refl _ _ _

/-- **The block array**, at every moment. -/
theorem SingleTask.explained (h : SingleTask P N explains b₀ w) (hex : explains) :
    Explained N.blockSize b₀ w := by
  rcases h.flight with ⟨-, hexplained⟩ | ⟨τ, hinFlight, hexpected⟩
  · exact hexplained hex
  · exact hinFlight.explained (hexpected hex)

/-- What is in hand is listed, so that the rings are safe. -/
theorem SingleTask.contained (h : SingleTask P N explains b₀ w) : Contained P N w := by
  intro i command hmem hdir
  rcases h.flight with ⟨hempty, -⟩ | ⟨τ, hinFlight, -⟩
  · rw [(hempty i).live] at hmem
    cases hmem
  · obtain ⟨before, after, hlive⟩ := List.append_of_mem hmem
    obtain ⟨rfl, -, -, -, hentry, -, -, hmoving⟩ := hinFlight.inHand hlive
    rw [hentry] at hdir ⊢
    exact hmoving.listed (by rw [show τ.direction = _ from hdir]; simp)

/-- The one task is all there is, whatever the controller does. -/
theorem SingleTask.keeps (halign : P.base.val.toNat % PAGE_SIZE = 0) :
    (servingController N).Keeps P (SingleTask P N explains b₀) :=
  fun w w' h ht => servingController_keeps halign w w' h.contained ht

/-- The record of the calls is not the controller's. -/
theorem EnvStep.history (h : EnvStep P (servingController N) w w') :
    w'.calls = w.calls ∧ w'.current = w.current ∧ w'.issuedBy = w.issuedBy ∧
      w'.enabled = w.enabled := by
  cases h with
  | fetch => exact ⟨rfl, rfl, rfl, rfl⟩
  | post => exact ⟨rfl, rfl, rfl, rfl⟩
  | transfer h =>
    obtain ⟨i, before, command, after, -, -, hexec⟩ := h
    cases hexec with
    | give => exact ⟨rfl, rfl, rfl, rfl⟩
    | take => exact ⟨rfl, rfl, rfl, rfl⟩
    | finish => exact ⟨rfl, rfl, rfl, rfl⟩

/-- **No step of the controller ends the flight**, and the history stays in order. -/
theorem InFlight.step (h : InFlight P N τ w) (hrec : Recorded w)
    (halign : P.base.val.toNat % PAGE_SIZE = 0) (henv : EnvStep P (servingController N) w w') :
    InFlight P N τ w' ∧ Recorded w' := by
  cases henv with
  | fetch i hpending henabled =>
    refine ⟨h.fetch hpending, hrec.congr rfl (fun _ _ => rfl) rfl
      (World.setRing_field Ring.posted rfl) ?_⟩
    -- what is in hand has only grown
    refine World.setRing_rel (R := fun r r' => r.live.length ≤ r'.live.length)
      (fun _ => le_rfl) ?_
    simp [Ring.fetch]
  | @post i c k live hroom hphase hmay henabled =>
    have hslot : (w.ring i).posted.length % QUEUE_DEPTH < QUEUE_DEPTH :=
      Nat.mod_lt _ (by decide)
    have happart := (QueueId.slots_apart i i hslot hslot).2.1
    have hlen : c.encode.length = 16 := c.length_encode
    -- a completion lies below the list, so that the transfer does not see it
    obtain ⟨hinFlight, rfl, rfl, hcid⟩ := h.post hmay
      (show World.address P (i.completionOffset + 16 * ((w.ring i).posted.length % QUEUE_DEPTH)) +
        c.encode.length ≤ _ by simp only [World.address, hlen]; omega)
    refine ⟨hinFlight, ?_⟩
    obtain ⟨before, command, after, hlive, rfl, hcommand, -⟩ := hmay
    obtain ⟨-, rfl, rfl, -, -, -, hposted, -⟩ := h.inHand hlive
    have hself := World.setRing_ring_self (w := w) (i := τ.queue)
      ((w.ring τ.queue).post c (w.ring τ.queue).posted.length ([] ++ []))
    -- and the record of the command is complete
    refine hrec.post hself (fun j hj => World.setRing_ring_of_ne hj) (by rw [hlive]; rfl) hcid rfl
      rfl rfl fun hio => ?_
    refine hposted.symm ▸ hinFlight.stored hio ?_
    change (((w.setRing τ.queue _).ring τ.queue).posted).length = _
    rw [hself, Ring.post, List.length_append, hposted, List.length_singleton]
  | transfer htransfer henabled =>
    obtain ⟨i, before, command, after, hlive, hstatus, hexec⟩ := htransfer
    obtain ⟨rfl, rfl, rfl, hnumber, hentry, hhead, hposted, -⟩ := h.inHand hlive
    refine ⟨h.execute halign hlive hstatus hexec, ?_⟩
    have hone : (w.ring τ.queue).live.length = 1 := by rw [hlive]; rfl
    cases hexec with
    | give => exact hrec.transferred (hnumber.trans hposted.symm) hone rfl
    | take => exact hrec.transferred (hnumber.trans hposted.symm) hone rfl
    | finish =>
      refine hrec.congr rfl (fun _ _ => rfl) rfl (World.setRing_field Ring.posted rfl) fun j => ?_
      exact (World.setRing_field (fun r => r.live.length) (by simp [hone]) j).ge

/-- And the disk stays what the task makes of it. -/
theorem Expected.step (h : Expected N.blockSize b₀ τ w)
    (henv : EnvStep P (servingController N) w w') : Expected N.blockSize b₀ τ w' := by
  obtain ⟨hcalls, hcurrent, hissued, -⟩ := henv.history
  refine ⟨hcalls ▸ h.blocks, fun hdir => ?_⟩
  rw [hcurrent, hissued]
  exact h.caller hdir

/-- Seen from a ring, a step of the controller is one of the protocol. -/
theorem EnvStep.onRings (h : EnvStep P (servingController N) w w')
    (hsingle : SingleTask P N explains b₀ w) (halign : P.base.val.toNat % PAGE_SIZE = 0)
    (i : QueueId) :
    RingStep P (servingController N) i w w' :=
  h.ringStep (SingleTask.keeps halign) hsingle i

theorem SingleTask.step (h : SingleTask P N explains b₀ w)
    (halign : P.base.val.toNat % PAGE_SIZE = 0)
    (henv : EnvStep P (servingController N) w w') : SingleTask P N explains b₀ w' := by
  rcases h.flight with ⟨hempty, -⟩ | ⟨τ, hinFlight, hexpected⟩
  · exact absurd henv (not_env_of_empty hempty)
  · obtain ⟨hinFlight', hrecorded⟩ := hinFlight.step h.recorded halign henv
    obtain ⟨hcalls, -, hissued, -⟩ := henv.history
    refine ⟨hrecorded, .inr ⟨τ, hinFlight', fun hex => (hexpected hex).step henv⟩, fun hex => ?_⟩
    intro record hrecord
    exact (h.told hex record (hcalls ▸ hrecord)).congr (fun _ _ => by rw [hissued])
      (henv.onRings h halign .io).later.posted

end Nvmetoy
