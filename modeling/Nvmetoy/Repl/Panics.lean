import Nvmetoy.Repl.Session
import Nvmetoy.Repl.Coverage

/-!
# Which lines can end the process

In a debug build every overflow is a panic, so the lines that are safe there are the lines
on which nothing overflows, nothing is divided by zero and no slice is out of range. A line
is also unsafe when it allocates more than the transfer limit.

* `Safe` — a command that does neither, whatever the driver answers.
* `LineSafe` — the condition on the line, the map and the block size of the namespace.
  It is stated arm by arm (`ReadSafe`, `WriteSafe`, `FillSafe`, `PeekSafe`, `PokeSafe`).
* `safe_runReplLine` — a line is safe exactly when it meets its condition. The commands are
  taken apart by the `safe_…` equivalences, one for each building block.
* `runs_safely_iff` — the same of the driver and its controller.
-/

namespace Nvmetoy

open Framework

namespace Repl

open NvmeUserspaceDriver

/-! ### The banner -/

/-- The blocks of all extents, as an unbounded number. -/
def totalBlocks (blocks : FileBlocks) : Nat :=
  (blocks.extents.map fun e => e.lbaCount.toNat).sum

/-- With overflow checks the sum is exact, or a panic. -/
theorem sumU64_debug (acc : UInt64) (counts : List UInt64) :
    (FileBlocks.sumU64 .debug acc counts : Outcome IoError UInt64) =
      if acc.toNat + (counts.map UInt64.toNat).sum < U64_SIZE
      then .ok (UInt64.ofNat (acc.toNat + (counts.map UInt64.toNat).sum))
      else .panic "arithmetic overflow" := by
  induction counts generalizing acc with
  | nil =>
    -- the accumulator is a `u64` already
    have hacc := acc.toNat_lt
    simp only [List.map_nil, List.sum_nil, Nat.add_zero, UInt64.ofNat_toNat]
    exact (if_pos hacc).symm
  | cons n rest ih =>
    simp only [FileBlocks.sumU64, Profile.addU64, List.map_cons, List.sum_cons, ← Nat.add_assoc]
    by_cases h : acc.toNat + n.toNat < U64_SIZE
    · -- the sum so far fits
      rw [Profile.fit_of_lt h]
      change FileBlocks.sumU64 .debug (UInt64.ofNat (acc.toNat + n.toNat)) rest = _
      rw [ih, UInt64.toNat_ofNat_of_lt' h]
    · -- it does not, and no longer sum can
      rw [Profile.fit_debug_of_ge (Nat.not_lt.mp h), if_neg (by omega)]
      rfl

/-- The total is the number of mapped blocks, where that fits. -/
theorem totalLbas_debug (blocks : FileBlocks) :
    blocks.totalLbas .debug = if totalBlocks blocks < U64_SIZE
      then .ok (UInt64.ofNat (totalBlocks blocks)) else .panic "arithmetic overflow" := by
  have hzero : (0 : UInt64).toNat = 0 := rfl
  rw [FileBlocks.totalLbas, sumU64_debug, hzero, Nat.zero_add, List.map_map]
  rfl

/-! ### Safe commands -/

variable {B : Nat} {R : (o : ReplOp) → ReplRes o → Prop} {blocks : FileBlocks}

/-- The operation is within the transfer limit and does not overflow in the driver. -/
def Permitted (B : Nat) (o : ReplOp) : Prop :=
  (∀ bytes, o = .alloc bytes → bytes ≤ MAX_TRANSFER_BYTES) ∧ ¬ Overflows .debug B o

/-- No panic, and no operation that is not permitted. -/
def Safe {α : Type} (R : (o : ReplOp) → ReplRes o → Prop) (B : Nat) (m : Command α) : Prop :=
  (m ()).Sat R (Permitted B) fun x => ¬ x.1.Panics

/-- The answers `R` lie between those that a ready driver can be brought to give and those
that it can give at all. -/
structure Between (R : (o : ReplOp) → ReplRes o → Prop) (B : Nat) : Prop where
  gives : ∀ o r, Completes .debug B o r → R o r
  given : ∀ o r, R o r → Answers .debug B o r

section Commands

variable {α β : Type}

@[simp] theorem safe_pure (a : α) : Safe R B (pure a : Command α) := fun h => h

@[simp] theorem safe_fail (e : IoError) : Safe R B (Method.fail e : Command α) := fun h => h

/-- A pure computation is safe unless it panics. -/
theorem safe_lift {x : Outcome IoError α} {f : α → Command β} :
    Safe R B (Method.lift x >>= f) ↔ ¬ x.Panics ∧ ∀ a, x = .ok a → Safe R B (f a) := by
  cases x with
  | ok a => simp
  | err e =>
    simp only [Method.lift_err_bind, Outcome.panics_err, not_false_eq_true, reduceCtorEq,
      false_implies, implies_true, and_true, iff_true]
    exact safe_fail e
  | panic why =>
    simp only [Outcome.panics_panic, not_true_eq_false, false_and, iff_false]
    exact fun h => h trivial

/-- An operation is safe where it is permitted, and where every response is followed by something
safe. -/
theorem safe_call {o : ReplOp} {f : ReplRes o → Command β} :
    Safe R B (Method.call o >>= f) ↔ Permitted B o ∧ ∀ r, R o r → Safe R B (f r) := Iff.rfl

/-- A sequence whose second half is always safe is as safe as its first. -/
theorem safe_bind {m : Command α} {f : α → Command β} (hf : ∀ a, Safe R B (f a)) :
    Safe R B (m >>= f) ↔ Safe R B m := by
  rw [Safe, Method.sat_bind_iff]
  refine ⟨fun h => h.post ?_, fun h => h.post ?_⟩
  all_goals
    rintro ⟨x, t⟩ hx
    cases x with
    | ok a => first | exact fun h => h | exact hf a
    | err e => exact hx
    | panic why => exact hx

theorem permitted_println (line : Str) : Permitted B (.println line) :=
  ⟨fun _ h => (nomatch h), fun h => h⟩

/-- A line that is printed does not matter. -/
theorem safe_println_bind (hR : Between R B) {line : Str} {f : Unit → Command β} :
    Safe R B (println line >>= f) ↔ Safe R B (f ()) := by
  rw [println, safe_call]
  exact ⟨fun h => h.2 () (hR.gives _ _ trivial), fun h => ⟨permitted_println line, fun _ _ => h⟩⟩

theorem safe_println {line : Str} : Safe R B (println line) :=
  ⟨permitted_println line, fun _ _ h => h⟩

/-- An allocation is permitted up to the largest transfer. -/
theorem safe_allocVec (hR : Between R B) {bytes : Nat} {f : Unit → Command β} :
    Safe R B (allocVec bytes >>= f) ↔ bytes ≤ MAX_TRANSFER_BYTES ∧ Safe R B (f ()) := by
  unfold allocVec
  split
  · rw [safe_call]
    constructor
    · exact fun h => ⟨h.1.1 _ rfl, h.2 () (hR.gives _ _ trivial)⟩
    · exact fun h => ⟨⟨fun n hn => by cases hn; exact h.1, fun ho => ho⟩, fun _ _ => h.2⟩
  · next hlarge =>
    -- a larger one is a panic of the allocator, so neither side holds
    refine iff_of_false (fun h => (safe_lift.mp h).1 trivial) fun h => hlarge ?_
    exact Nat.lt_of_le_of_lt h.1 (by decide)

/-! ### The two confined calls -/

/-- The walk of `check` computes no end of an extent that is no `u64`. -/
def CheckSafe (blocks : FileBlocks) (deviceLba count : UInt64) : Prop :=
  deviceLba.toNat + count.toNat < U64_SIZE →
    FileBlocks.EndsFit blocks.extents deviceLba.toNat (deviceLba.toNat + count.toNat)

/-- The check is safe where its arithmetic fits. -/
theorem check_not_panics {deviceLba count : UInt64} :
    ¬ (blocks.check .debug deviceLba count).Panics ↔ CheckSafe blocks deviceLba count := by
  rw [FileBlocks.check_debug_panics, CheckSafe]
  tauto

/-- What the driver answers to a read: any bytes, of the right length. -/
theorem answers_read {slba : UInt64} {n : UInt16} {data : List UInt8} (hzero : n ≠ 0)
    (hfits : B * n.toNat < U64_SIZE) :
    Answers .debug B (.read slba n) (.ok data) ↔
      data.length = B * n.toNat ∧ B * n.toNat ≤ MAX_TRANSFER_BYTES := by
  simp only [Answers, Profile.mulUsize, Profile.fit_of_lt hfits, Outcome.ok.injEq]
  constructor
  · exact fun h => ⟨h.2.2.symm, h.2.2 ▸ h.2.1⟩
  · exact fun h => ⟨hzero, h.1 ▸ h.2, h.1.symm⟩

/-- A read panics in the driver where its length overflows; what it returns has the right length and
fits in the buffer. -/
theorem safe_read (hR : Between R B) {slba : UInt64} {n : UInt16} {f : List UInt8 → Command β}
    (hzero : n ≠ 0) :
    Safe R B (Method.call (ReplOp.read slba n) >>= fun answer => question answer >>= f) ↔
      B * n.toNat < U64_SIZE ∧ (B * n.toNat ≤ MAX_TRANSFER_BYTES →
        ∀ data, data.length = B * n.toNat → Safe R B (f data)) := by
  rw [safe_call]
  constructor
  · -- safe means safe for every answer, so in particular for a success
    rintro ⟨hp, h⟩
    have hfits : B * n.toNat < U64_SIZE := Nat.not_le.mp fun hge => hp.2 ⟨rfl, hge⟩
    exact ⟨hfits, fun hmax data hlen =>
      h (.ok data) (hR.gives _ _ (show Answers .debug B (.read slba n) (.ok data) from
        (answers_read hzero hfits).mpr ⟨hlen, hmax⟩))⟩
  · rintro ⟨hfits, h⟩
    refine ⟨⟨fun _ ho => (nomatch ho), fun ho => Nat.not_le.mpr hfits ho.2⟩, fun answer ha => ?_⟩
    -- an error ends the command, and what it returns is known otherwise
    cases answer with
    | error e => exact fun ho => ho
    | ok data =>
      obtain ⟨hlen, hmax⟩ := (answers_read hzero hfits).mp (hR.given _ _ ha)
      exact h hmax data hlen

/-- What a confined read gives: the bytes of that many blocks of the namespace. -/
theorem safe_confinedRead (hR : Between R B) {deviceLba count : UInt64}
    {f : List UInt8 → Command β} :
    Safe R B (confinedRead .debug blocks deviceLba count >>= f) ↔
      CheckSafe blocks deviceLba count ∧ (blocks.check .debug deviceLba count = .ok () →
        (count = 0 → Safe R B (f [])) ∧ (count ≠ 0 → count.toNat < 2 ^ 16 →
          B * count.toNat < U64_SIZE ∧ (B * count.toNat ≤ MAX_TRANSFER_BYTES →
            ∀ data, data.length = B * count.toNat → Safe R B (f data)))) := by
  rw [confinedRead, Method.bind_assoc, safe_lift, check_not_panics]
  refine and_congr_right fun _ => ?_
  have hrest : Safe R B ((if count = 0 then pure []
      else if count.toNat < 2 ^ 16 then do
        question (← Method.call (ReplOp.read deviceLba (UInt16.ofNat count.toNat)))
      else Method.fail .readTooLargeForOneCommand) >>= f) ↔
      (count = 0 → Safe R B (f [])) ∧ (count ≠ 0 → count.toNat < 2 ^ 16 →
        B * count.toNat < U64_SIZE ∧ (B * count.toNat ≤ MAX_TRANSFER_BYTES →
          ∀ data, data.length = B * count.toNat → Safe R B (f data))) := by
    -- the three ways of the source: no read, a read, a refusal
    by_cases hzero : count = 0
    · simp [hzero]
    by_cases hlt : count.toNat < 2 ^ 16
    · have hcast : (UInt16.ofNat count.toNat).toNat = count.toNat :=
        UInt16.toNat_ofNat_of_lt' hlt
      -- the count fits, so the cast keeps it
      have hne : UInt16.ofNat count.toNat ≠ 0 := by
        intro h
        rw [h] at hcast
        exact hzero (UInt64.toNat_inj.mp hcast.symm)
      rw [if_neg hzero, if_pos hlt, Method.bind_assoc, safe_read hR hne, hcast]
      exact ⟨fun h => ⟨fun h' => absurd h' hzero, fun _ _ => h⟩, fun h => h.2 hzero hlt⟩
    · rw [if_neg hzero, if_neg hlt]
      exact iff_of_true (safe_fail _) ⟨fun h => absurd h hzero, fun _ h => absurd h hlt⟩
  exact ⟨fun h hc => hrest.mp (h () hc), fun h _ hc => hrest.mpr (h hc)⟩

/-- The driver counts the payload down to no blocks at all. -/
def CountVanishes (B len : Nat) : Prop :=
  B ∣ len ∧ len ≤ MAX_TRANSFER_BYTES ∧ len / B % 2 ^ 16 = 0

/-- A payload of `len` bytes, counted in blocks of the map and then of the namespace. -/
def PayloadSafe (blocks : FileBlocks) (B : Nat) (deviceLba : UInt64) (len : Nat) : Prop :=
  CheckSafe blocks deviceLba (UInt64.ofNat (len / blockSize blocks)) ∧
    (blocks.check .debug deviceLba (UInt64.ofNat (len / blockSize blocks)) = .ok () →
      ¬ CountVanishes B len)

/-- A write panics in `%` or `/` at a block size of zero, in the check, or in the driver. -/
theorem safe_confinedWrite {deviceLba : UInt64} {data : List UInt8} :
    Safe R B (confinedWrite .debug blocks deviceLba data) ↔
      (data ≠ [] → blockSize blocks ≠ 0 ∧
        (blockSize blocks ∣ data.length → PayloadSafe blocks B deviceLba data.length)) := by
  rw [confinedWrite, safe_lift]
  -- an empty payload is refused first
  by_cases hnil : data = []
  · subst hnil
    refine iff_of_true ⟨fun h => h, fun refused h => ?_⟩ fun h => absurd rfl h
    obtain rfl := Outcome.ok.inj h
    exact safe_fail _
  have hrefused : payloadRefused blocks data =
      (remUsize data.length (blockSize blocks)).bind fun r => .ok (r != 0) :=
    if_neg (by simpa using hnil)
  -- the remainder by zero is a panic
  by_cases hsize : blockSize blocks = 0
  · refine iff_of_false (fun h => h.1 ?_) fun h => (h hnil).1 hsize
    rw [hrefused, remUsize, if_pos hsize]
    trivial
  have hrem : payloadRefused blocks data = .ok (data.length % blockSize blocks != 0) := by
    rw [hrefused, remUsize, if_neg hsize]
    rfl
  have hdiv : (divUsize data.length (blockSize blocks) : Outcome IoError Nat) =
      .ok (data.length / blockSize blocks) := if_neg hsize
  simp only [hrem, Outcome.panics_ok, not_false_eq_true, true_and, Outcome.ok.injEq, forall_eq',
    bne_iff_ne, ne_eq, ← Nat.dvd_iff_mod_eq_zero, ite_not, hnil, hsize, forall_const]
  -- the check is reached only by a payload of whole blocks
  by_cases hdvd : blockSize blocks ∣ data.length
  · rw [if_pos hdvd, hdiv, Method.lift_ok_bind, safe_lift, check_not_panics]
    simp only [hdvd, forall_const, PayloadSafe]
    refine and_congr_right fun _ => ⟨fun h hcheck hvanish => ?_, fun h _ hcheck => ?_⟩
    · exact (h () hcheck).1.2 ⟨⟨hnil, hvanish.1, hvanish.2.1⟩, rfl, hvanish.2.2⟩
    · -- of the driver, only a count that vanishes in the cast is a panic
      refine ⟨⟨fun _ ho => (nomatch ho), fun ho => h hcheck ?_⟩, fun answer _ => ?_⟩
      · exact ⟨ho.1.2.1, ho.1.2.2, ho.2.2⟩
      · cases answer <;> exact fun ho => ho
  · rw [if_neg hdvd]
    exact iff_of_true (safe_fail _) fun h => absurd h hdvd

/-! ### Printing a read -/

/-- The line of block `i` of `total` is not left out. -/
def Printed (total i : Nat) : Prop := ¬ (HEAD + TAIL < total ∧ HEAD ≤ i ∧ i < total - TAIL)

/-- The label of a chunk overflows for those that are printed only. -/
theorem safe_printChunks (hR : Between R B) {deviceLba : UInt64} {total index : Nat}
    {data : List (List UInt8)} (hsize : index + data.length ≤ U64_SIZE) :
    Safe R B (printChunks .debug deviceLba total index data) ↔
      ∀ i, index ≤ i → i < index + data.length → Printed total i →
        deviceLba.toNat + i < U64_SIZE := by
  -- by induction on the chunks, the index of the next one growing
  induction data generalizing index with
  | nil =>
    refine iff_of_true (safe_pure ()) fun i hle hlt => ?_
    simp only [List.length_nil] at hlt
    omega
  | cons block rest ih =>
    simp only [List.length_cons] at hsize ⊢
    have hindex : (UInt64.ofNat index).toNat = index :=
      UInt64.toNat_ofNat_of_lt' (show index < U64_SIZE by omega)
    have hrest := @ih (index + 1) (by omega)
    rw [printChunks]
    split
    · -- the chunks between the first and the last ones are skipped
      next hskip =>
      have hboth : Safe R B (printChunks .debug deviceLba total (index + 1) rest) ↔
          ∀ i, index ≤ i → i < index + (rest.length + 1) → Printed total i →
            deviceLba.toNat + i < U64_SIZE := by
        rw [hrest]
        constructor
        · intro h i hle hlt hp
          rcases Nat.eq_or_lt_of_le hle with rfl | hgt
          · exact absurd hskip hp
          · exact h i hgt (by omega) hp
        · exact fun h i hle hlt hp => h i (by omega) (by omega) hp
      split
      · rw [safe_println_bind hR]
        exact hboth
      · exact hboth
    · next hprint =>
      simp only [safe_lift, safe_println_bind hR, hrest]
      -- the label of a printed chunk is a sum with overflow check
      rw [Profile.addU64, Profile.fit_debug_u64_panics, hindex, Nat.not_le]
      constructor
      · rintro ⟨hfits, h⟩ i hle hlt hp
        rcases Nat.eq_or_lt_of_le hle with rfl | hgt
        · exact hfits
        · exact h _ (by rw [Profile.fit_of_lt hfits]; rfl) i hgt (by omega) hp
      · exact fun h => ⟨h index le_rfl (by omega) hprint,
          fun _ _ i hle hlt hp => h i (by omega) (by omega) hp⟩

/-- The loop prints the last block, so its number is the one that can overflow. -/
theorem safe_printRead (hR : Between R B) {deviceLba : UInt64} {data : List UInt8} {size : Nat}
    (hdata : data.length < U64_SIZE) :
    Safe R B (printRead .debug deviceLba data size) ↔
      size ≠ 0 ∧ deviceLba.toNat + (data.length + (size - 1)) / size ≤ U64_SIZE := by
  rw [printRead, safe_println_bind hR, safe_lift, divCeil_panics]
  refine and_congr_right fun hsize => ?_
  simp only [divCeil_eq_ok, hsize, ne_eq, not_false_eq_true, true_and, forall_eq]
  have hlen := length_chunks hsize data
  -- no more chunks than bytes, so the index of a chunk fits
  have hle : (chunks size data).length ≤ data.length := by
    rw [hlen, Nat.div_le_iff_le_mul_add_pred (Nat.pos_of_ne_zero hsize)]
    exact Nat.add_le_add_right (Nat.le_mul_of_pos_left _ (Nat.pos_of_ne_zero hsize)) _
  rw [← hlen, safe_printChunks hR (by omega)]
  have hlba : deviceLba.toNat < U64_SIZE := deviceLba.toNat_lt
  simp only [Printed, HEAD, TAIL]
  constructor
  · intro h
    -- the last chunk is always printed, and its label is the largest
    by_contra hover
    have := h ((chunks size data).length - 1) (by omega) (by omega) (by omega)
    omega
  · intro h i _ hi _
    omega

/-! ### The commands -/

/-- A read of `count` blocks. The report counts the bytes again, in blocks of the map. -/
structure ReadSafe (blocks : FileBlocks) (B : Nat) (deviceLba count : UInt64) : Prop where
  check : CheckSafe blocks deviceLba count
  none : blocks.check .debug deviceLba count = .ok () → count = 0 → blockSize blocks ≠ 0
  some : blocks.check .debug deviceLba count = .ok () → count ≠ 0 → count.toNat < 2 ^ 16 →
    B * count.toNat < U64_SIZE ∧ (B * count.toNat ≤ MAX_TRANSFER_BYTES →
      blockSize blocks ≠ 0 ∧ deviceLba.toNat +
        (B * count.toNat + (blockSize blocks - 1)) / blockSize blocks ≤ U64_SIZE)

/-- A write of `bytes`, padded to whole blocks of the map. -/
structure WriteSafe (blocks : FileBlocks) (B : Nat) (deviceLba : UInt64) (bytes : List UInt8) :
    Prop where
  size : blockSize blocks ≠ 0
  within : padded (blockSize blocks) bytes.length ≤ MAX_TRANSFER_BYTES
  payload : PayloadSafe blocks B deviceLba (padded (blockSize blocks) bytes.length)

/-- A fill of `count` blocks: the transfer limit is checked first. -/
def FillSafe (blocks : FileBlocks) (B : Nat) (deviceLba count : UInt64) : Prop :=
  count ≠ 0 → blockSize blocks ≠ 0 → count.toNat * blockSize blocks ≤ MAX_TRANSFER_BYTES →
    PayloadSafe blocks B deviceLba (count.toNat * blockSize blocks)

/-- A slice of the block at `deviceLba`: the range is checked against a block of the map,
and cut out of a block of the namespace. -/
def SliceSafe (blocks : FileBlocks) (B : Nat) (deviceLba : UInt64) (offset len : Nat)
    (Rest : Prop) : Prop :=
  rangeRefused blocks offset len = false →
    CheckSafe blocks deviceLba 1 ∧ (blocks.check .debug deviceLba 1 = .ok () →
      B ≤ MAX_TRANSFER_BYTES → offset + len ≤ B ∧ Rest)

/-- Looking at a slice. -/
def PeekSafe (blocks : FileBlocks) (B : Nat) (deviceLba : UInt64) (offset len : Nat) : Prop :=
  SliceSafe blocks B deviceLba offset len True

/-- Replacing a slice: the block goes back, as a payload of `B` bytes. -/
def PokeSafe (blocks : FileBlocks) (B : Nat) (deviceLba : UInt64) (offset : Nat)
    (bytes : List UInt8) : Prop :=
  SliceSafe blocks B deviceLba offset bytes.length
    (blockSize blocks ∣ B → PayloadSafe blocks B deviceLba B)

/-- The two together, which is what `read` runs. -/
theorem safe_confinedRead_printRead (hR : Between R B) {deviceLba count : UInt64} :
    Safe R B (confinedRead .debug blocks deviceLba count >>= fun data =>
      printRead .debug deviceLba data (blockSize blocks)) ↔ ReadSafe blocks B deviceLba count := by
  have hmax : MAX_TRANSFER_BYTES < U64_SIZE := by decide
  have hlba : deviceLba.toNat < U64_SIZE := deviceLba.toNat_lt
  rw [safe_confinedRead hR]
  -- a read of no blocks prints its first line
  have hnone : Safe R B (printRead .debug deviceLba [] (blockSize blocks)) ↔
      blockSize blocks ≠ 0 := by
    rw [safe_printRead hR (by decide)]
    refine and_iff_left_of_imp fun hsize => ?_
    rw [List.length_nil, Nat.zero_add, Nat.div_eq_of_lt (by omega)]
    exact hlba.le
  -- and otherwise the bytes do not matter, only how many there are
  have hsome (len : Nat) (hlen : len ≤ MAX_TRANSFER_BYTES) :
      (∀ data : List UInt8, data.length = len →
        Safe R B (printRead .debug deviceLba data (blockSize blocks))) ↔
      blockSize blocks ≠ 0 ∧ deviceLba.toNat +
        (len + (blockSize blocks - 1)) / blockSize blocks ≤ U64_SIZE := by
    constructor
    · intro h
      have hdata := (safe_printRead hR (by rw [List.length_replicate]; omega)).mp
        -- some answer of that length is possible
        (h (List.replicate len 0) List.length_replicate)
      rwa [List.length_replicate] at hdata
    · rintro h data rfl
      exact (safe_printRead hR (by omega)).mpr h
  constructor
  · rintro ⟨hcheck, h⟩
    refine ⟨hcheck, fun hok hzero => hnone.mp ((h hok).1 hzero), fun hok hne hlt => ?_⟩
    obtain ⟨hfits, hdata⟩ := (h hok).2 hne hlt
    exact ⟨hfits, fun hle => (hsome _ hle).mp (hdata hle)⟩
  · rintro ⟨hcheck, hzero, hpos⟩
    refine ⟨hcheck, fun hok => ⟨fun h => hnone.mpr (hzero hok h), fun hne hlt => ?_⟩⟩
    obtain ⟨hfits, hdata⟩ := hpos hok hne hlt
    exact ⟨hfits, fun hle => (hsome _ hle).mpr (hdata hle)⟩

/-- A payload of whole blocks of the map. -/
theorem safe_payload {deviceLba : UInt64} {data : List UInt8} (hne : data ≠ [])
    (hsize : blockSize blocks ≠ 0) (hdvd : blockSize blocks ∣ data.length) :
    Safe R B (confinedWrite .debug blocks deviceLba data) ↔
      PayloadSafe blocks B deviceLba data.length := by
  rw [safe_confinedWrite]
  exact ⟨fun h => (h hne).2 hdvd, fun h _ => ⟨hsize, fun _ => h⟩⟩

/-- A write of text is padded to whole blocks, allocated and sent. -/
theorem safe_writeBlocks (hR : Between R B) {deviceLba : UInt64} {bytes : List UInt8}
    (hne : bytes ≠ []) :
    Safe R B (writeBlocks .debug blocks deviceLba bytes) ↔
      WriteSafe blocks B deviceLba bytes := by
  have hmax : MAX_TRANSFER_BYTES < U64_SIZE := by decide
  rw [writeBlocks, if_neg (by simpa using hne), safe_lift]
  -- the padding divides by the block size
  by_cases hsize : blockSize blocks = 0
  · refine iff_of_false (fun h => h.1 ?_) fun h => h.size hsize
    rw [paddedLength, divCeil, if_pos hsize]
    trivial
  have hpadded : paddedLength .debug blocks bytes =
      Profile.debug.fit (padded (blockSize blocks) bytes.length) := by
    rw [paddedLength, divCeil, if_neg hsize]
    rfl
  -- the padded length is a product with overflow check
  rcases Nat.lt_or_ge (padded (blockSize blocks) bytes.length) U64_SIZE with hlt | hge
  · have hle := le_padded bytes.length (Nat.pos_of_ne_zero hsize)
    have hpos := List.length_pos_iff.mpr hne
    obtain ⟨buffer, hbuffer⟩ : ∃ buffer, copyInto (List.replicate
        (padded (blockSize blocks) bytes.length) 0) 0 bytes = .ok buffer :=
      ⟨_, if_pos (by simpa using hle)⟩
    have hlen : buffer.length = padded (blockSize blocks) bytes.length := by
      rw [length_copyInto hbuffer, List.length_replicate]
    rw [hpadded, Profile.fit_of_lt hlt]
    simp only [Outcome.panics_ok, not_false_eq_true, true_and, Outcome.ok.injEq, forall_eq',
      safe_allocVec hR, hbuffer, Method.lift_ok_bind]
    rw [safe_payload (List.length_pos_iff.mp (by omega)) hsize (hlen ▸ dvd_padded _ _), hlen]
    exact ⟨fun h => ⟨hsize, h.1, h.2⟩, fun h => ⟨h.within, h.payload⟩⟩
  · refine iff_of_false (fun h => h.1 ?_) fun h => ?_
    · rw [hpadded, Profile.fit_debug_of_ge hge]
      trivial
    · have := h.within
      omega

/-- A fill is bounded before anything is allocated. -/
theorem safe_fill (hR : Between R B) {deviceLba count : UInt64} {byte : UInt8} :
    Safe R B (fill .debug blocks deviceLba byte count) ↔ FillSafe blocks B deviceLba count := by
  rw [fill, FillSafe]
  by_cases hzero : count = 0
  · rw [if_pos hzero]
    exact iff_of_true (safe_fail _) fun h => absurd hzero h
  rw [if_neg hzero]
  -- too large: refused, and nothing is asked of the rest
  cases hbytes : fillBytes blocks count with
  | none =>
    refine iff_of_true (safe_fail _) fun _ _ hle => ?_
    rw [fillBytes_eq_some.mpr ⟨rfl, hle⟩] at hbytes
    cases hbytes
  | some bytes =>
    obtain ⟨rfl, hle⟩ := fillBytes_eq_some.mp hbytes
    rw [safe_allocVec hR, safe_bind fun _ => safe_println]
    by_cases hsize : blockSize blocks = 0
    · -- an empty payload is refused
      refine iff_of_true ⟨hle, safe_confinedWrite.mpr fun hne => ?_⟩ fun _ h => absurd hsize h
      exact absurd (by simp [hsize]) hne
    -- what is left is a payload of whole blocks, one at least
    have hpos : 0 < count.toNat * blockSize blocks := by
      refine Nat.mul_pos (Nat.pos_of_ne_zero fun h => hzero ?_) (Nat.pos_of_ne_zero hsize)
      exact UInt64.toNat_inj.mp h
    have hlen : (List.replicate (count.toNat * blockSize blocks) byte).length =
        count.toNat * blockSize blocks := List.length_replicate
    rw [safe_payload (List.length_pos_iff.mp (by omega)) hsize
      (by rw [hlen]; exact Nat.dvd_mul_left _ _), hlen]
    exact ⟨fun h _ _ _ => h.2, fun h => ⟨hle, h hzero hsize hle⟩⟩

/-- A command that reads one block and cuts a slice out of it, or puts one in. -/
theorem safe_slice (hR : Between R B) (hB : B < U64_SIZE) {deviceLba : UInt64} {offset len : Nat}
    {Rest : Prop} {f : List UInt8 → Command β}
    (hf : rangeRefused blocks offset len = false → ∀ data : List UInt8, data.length = B →
      (Safe R B (f data) ↔ offset + len ≤ B ∧ Rest)) :
    Safe R B (if rangeRefused blocks offset len then
        Method.fail (.rangeNotInBlock offset len (blockSize blocks))
      else confinedRead .debug blocks deviceLba 1 >>= f) ↔
      SliceSafe blocks B deviceLba offset len Rest := by
  rw [SliceSafe]
  cases hrange : rangeRefused blocks offset len with
  | true => exact iff_of_true (safe_fail _) fun h => (nomatch h)
  | false =>
    rw [if_neg (by simp), safe_confinedRead hR]
    -- one block, so that the read itself has no product to overflow
    have hone : B * (1 : UInt64).toNat = B := Nat.mul_one B
    have hlt : (1 : UInt64).toNat < 2 ^ 16 := by decide
    rw [hone]
    simp only [hlt, forall_const]
    constructor
    · rintro ⟨hcheck, h⟩
      refine ⟨hcheck, fun hok hmax => ?_⟩
      -- some answer has the length of a block, and all that do are alike
      have hdata := ((h hok).2 (by decide)).2 hmax (List.replicate B 0) List.length_replicate
      exact (hf hrange _ List.length_replicate).mp hdata
    · rintro ⟨hcheck, hrest⟩
      refine ⟨hcheck, fun hok => ⟨fun h0 => absurd h0 (by decide), fun _ => ⟨hB, ?_⟩⟩⟩
      exact fun hmax data hdata => (hf hrange data hdata).mpr (hrest hok hmax)

/-- A peek reads one block; its slice is checked first. -/
theorem safe_peek (hR : Between R B) (hB : B < U64_SIZE) {deviceLba : UInt64}
    {offset len : Nat} :
    Safe R B (peek .debug blocks deviceLba offset len) ↔
      PeekSafe blocks B deviceLba offset len := by
  refine safe_slice hR hB fun _ data hdata => ?_
  rw [safe_lift, slice, hdata]
  by_cases hfits : offset + len ≤ B
  · rw [if_pos hfits]
    exact iff_of_true ⟨fun h => h, fun _ _ => safe_println⟩ ⟨hfits, trivial⟩
  · rw [if_neg hfits]
    exact iff_of_false (fun h => h.1 trivial) fun h => hfits h.1

/-- A poke reads one block and writes it back. -/
theorem safe_poke (hR : Between R B) (hB : B < U64_SIZE) {deviceLba : UInt64} {offset : Nat}
    {text : Str} (hne : text.bytes ≠ []) :
    Safe R B (poke .debug blocks deviceLba offset text) ↔
      PokeSafe blocks B deviceLba offset text.bytes := by
  rw [poke, if_neg (by simpa using hne)]
  refine safe_slice hR hB fun hrange data hdata => ?_
  have hsize : blockSize blocks ≠ 0 := by
    have hlt := (rangeRefused_eq_false.mp hrange).1
    omega
  rw [safe_lift]
  -- the map may take a block to be longer than the device does: then the copy panics
  by_cases hfits : offset + text.bytes.length ≤ B
  · obtain ⟨buffer, hbuffer⟩ : ∃ buffer, copyInto data offset text.bytes = .ok buffer :=
      ⟨_, if_pos (hdata ▸ hfits)⟩
    have hlen : buffer.length = B := (length_copyInto hbuffer).trans hdata
    have hpos : 0 < B := Nat.lt_of_lt_of_le (List.length_pos_iff.mpr hne) (by omega)
    have hbufferNe : buffer ≠ [] := List.length_pos_iff.mp (hlen ▸ hpos)
    rw [hbuffer]
    simp only [Outcome.panics_ok, not_false_eq_true, true_and, Outcome.ok.injEq, forall_eq']
    rw [safe_bind fun _ => safe_println, safe_confinedWrite, hlen]
    exact ⟨fun h => ⟨hfits, fun hdvd => (h hbufferNe).2 hdvd⟩, fun h _ => ⟨hsize, h.2⟩⟩
  · rw [copyInto, if_neg (hdata ▸ hfits)]
    exact iff_of_false (fun h => h.1 trivial) fun h => hfits h.1

/-! ### The arms of `run_repl_line` -/

/-- A number that does not fit is an error, no panic. -/
theorem parseUnsigned_not_panics (size : Nat) (text : Str) :
    ¬ (parseUnsigned size text).Panics := by
  simp only [parseUnsigned]
  split
  · exact fun h => h
  · split
    · split <;> exact fun h => h
    · exact fun h => h

/-- No text panics the parser of block numbers. -/
@[simp] theorem parseU64_not_panics (text : Str) : ¬ (parseU64 text).Panics := by
  intro h
  rcases Outcome.bind_panics.mp h with h | ⟨n, -, h⟩
  · exact parseUnsigned_not_panics _ _ h
  · exact h

@[simp] theorem parseUsize_not_panics (text : Str) : ¬ (parseUsize text).Panics :=
  parseUnsigned_not_panics _ _

@[simp] theorem parseAsciiChar_not_panics (text : Str) : ¬ (parseAsciiChar text).Panics := by
  unfold parseAsciiChar
  split <;> exact fun h => h

/-- After an argument that has been parsed. -/
theorem safe_parse {x : Outcome IoError α} {f : α → Command β} (hx : ¬ x.Panics) :
    Safe R B (Method.lift x >>= f) ↔ ∀ a, x = .ok a → Safe R B (f a) := by
  rw [safe_lift]
  exact and_iff_right hx

theorem safe_printLines (hR : Between R B) (lines : List Str) : Safe R B (printLines lines) := by
  induction lines with
  | nil => exact safe_pure ()
  | cons line rest ih => exact (safe_println_bind hR).mpr ih

/-- The size in bytes that `blocks` prints is a product with overflow check. -/
theorem safe_printBlocks (hR : Between R B) (htotal : totalBlocks blocks < U64_SIZE) :
    Safe R B (printBlocks .debug blocks) ↔ totalBlocks blocks * blockSize blocks < U64_SIZE := by
  have hcast : (UInt64.ofNat (totalBlocks blocks)).toNat = totalBlocks blocks :=
    UInt64.toNat_ofNat_of_lt' htotal
  rw [printBlocks, totalLbas_debug, if_pos htotal, Method.lift_ok_bind, safe_lift, Profile.mulU64,
    Profile.fit_debug_u64_panics, hcast, Nat.not_le]
  refine and_iff_left_of_imp fun _ bytes _ => ?_
  exact (safe_println_bind hR).mpr ((safe_println_bind hR).mpr (safe_printLines hR _))

/-- `identify` is always safe. -/
theorem safe_runIdentify (hR : Between R B) : Safe R B runIdentify := by
  refine safe_call.mpr ⟨⟨fun _ h => (nomatch h), fun h => h⟩, fun answer _ => ?_⟩
  cases answer with
  | error e => exact fun h => h
  | ok data =>
    change Safe R B (printControllerIdentification data)
    rcases printControllerIdentification_cases data with h | ⟨id, -, h⟩
    · rw [h]
      exact safe_fail _
    · rw [h]
      exact safe_printLines hR _

/-- The commands with their arguments: what is safe depends on the arguments that parse. -/
theorem safe_runRead (hR : Between R B) {lba n : Str} :
    Safe R B (runRead .debug blocks lba n) ↔ ∀ deviceLba, parseU64 lba = .ok deviceLba →
      ∀ count, parseU64 n = .ok count → ReadSafe blocks B deviceLba count := by
  simp only [runRead, safe_parse (parseU64_not_panics _), safe_confinedRead_printRead hR]

theorem safe_runWrite (hR : Between R B) {lba : Str} {text : List Str} :
    Safe R B (runWrite .debug blocks lba text) ↔ ∀ deviceLba, parseU64 lba = .ok deviceLba →
      (joinSpace text).bytes ≠ [] → WriteSafe blocks B deviceLba (joinSpace text).bytes := by
  simp only [runWrite, safe_parse (parseU64_not_panics _), safe_bind fun _ => safe_println]
  refine forall₂_congr fun deviceLba _ => ?_
  by_cases hnil : (joinSpace text).bytes = []
  · rw [writeBlocks, if_pos (by simpa using hnil)]
    exact iff_of_true (safe_fail _) fun h => absurd hnil h
  · rw [safe_writeBlocks hR hnil]
    exact ⟨fun h _ => h, fun h => h hnil⟩

theorem safe_runFill (hR : Between R B) {lba ch : Str} {n : Outcome IoError UInt64}
    (hn : ¬ n.Panics) :
    Safe R B (runFill .debug blocks lba ch n) ↔ ∀ deviceLba, parseU64 lba = .ok deviceLba →
      ∀ byte, parseAsciiChar ch = .ok byte → ∀ count, n = .ok count →
        FillSafe blocks B deviceLba count := by
  simp only [runFill, safe_parse (parseU64_not_panics _), safe_parse (parseAsciiChar_not_panics _),
    safe_parse hn, safe_fill hR]

theorem safe_runPeek (hR : Between R B) (hB : B < U64_SIZE) {lba offset len : Str} :
    Safe R B (runPeek .debug blocks lba offset len) ↔ ∀ deviceLba, parseU64 lba = .ok deviceLba →
      ∀ o, parseUsize offset = .ok o → ∀ n, parseUsize len = .ok n →
        PeekSafe blocks B deviceLba o n := by
  simp only [runPeek, safe_parse (parseU64_not_panics _), safe_parse (parseUsize_not_panics _),
    safe_peek hR hB]

theorem safe_runPoke (hR : Between R B) (hB : B < U64_SIZE) {lba offset : Str}
    {text : List Str} :
    Safe R B (runPoke .debug blocks lba offset text) ↔ ∀ deviceLba,
      parseU64 lba = .ok deviceLba → ∀ o, parseUsize offset = .ok o →
        (joinSpace text).bytes ≠ [] → PokeSafe blocks B deviceLba o (joinSpace text).bytes := by
  simp only [runPoke, safe_parse (parseU64_not_panics _), safe_parse (parseUsize_not_panics _)]
  refine forall₂_congr fun deviceLba _ => forall₂_congr fun o _ => ?_
  by_cases hnil : (joinSpace text).bytes = []
  · rw [poke, if_pos (by simpa using hnil)]
    exact iff_of_true (safe_fail _) fun h => absurd hnil h
  · rw [safe_poke hR hB hnil]
    exact ⟨fun h _ => h, fun h => h hnil⟩

end Commands

/-! ### Lines -/

/-- The condition on a line of input, for each arm of `run_repl_line` that can panic. -/
structure LineSafe (blocks : FileBlocks) (B : Nat) (line : Str) : Prop where
  list : splitWhitespace line = ["list".toList] →
    totalBlocks blocks * blockSize blocks < U64_SIZE
  read {lba n : Str} {deviceLba count : UInt64} :
    splitWhitespace line = ["read".toList, lba, n] → parseU64 lba = .ok deviceLba →
      parseU64 n = .ok count → ReadSafe blocks B deviceLba count
  write {lba first : Str} {rest : List Str} {deviceLba : UInt64} :
    splitWhitespace line = "write".toList :: lba :: first :: rest → parseU64 lba = .ok deviceLba →
      (joinSpace (first :: rest)).bytes ≠ [] →
        WriteSafe blocks B deviceLba (joinSpace (first :: rest)).bytes
  fillOne {lba ch : Str} {deviceLba : UInt64} {byte : UInt8} :
    splitWhitespace line = ["fill".toList, lba, ch] → parseU64 lba = .ok deviceLba →
      parseAsciiChar ch = .ok byte → FillSafe blocks B deviceLba 1
  fill {lba ch n : Str} {deviceLba count : UInt64} {byte : UInt8} :
    splitWhitespace line = ["fill".toList, lba, ch, n] → parseU64 lba = .ok deviceLba →
      parseAsciiChar ch = .ok byte → parseU64 n = .ok count → FillSafe blocks B deviceLba count
  peek {lba offset len : Str} {deviceLba : UInt64} {o n : Nat} :
    splitWhitespace line = ["peek".toList, lba, offset, len] → parseU64 lba = .ok deviceLba →
      parseUsize offset = .ok o → parseUsize len = .ok n → PeekSafe blocks B deviceLba o n
  poke {lba offset first : Str} {rest : List Str} {deviceLba : UInt64} {o : Nat} :
    splitWhitespace line = "poke".toList :: lba :: offset :: first :: rest →
      parseU64 lba = .ok deviceLba → parseUsize offset = .ok o →
      (joinSpace (first :: rest)).bytes ≠ [] →
        PokeSafe blocks B deviceLba o (joinSpace (first :: rest)).bytes

/-- **One line.** It is safe exactly when it meets its condition. -/
theorem safe_runReplLine (hR : Between R B) (hB : B < U64_SIZE)
    (htotal : totalBlocks blocks < U64_SIZE) {line : Str} :
    Safe R B (runReplLine .debug blocks line) ↔ LineSafe blocks B line := by
  constructor
  · intro h
    -- a line is safe if its command is, and the command is known from its words
    have hcommand {tokens : List Str} {command : Command Unit}
        (htokens : splitWhitespace line = tokens)
        (hdispatch : dispatch .debug blocks tokens = some command) : Safe R B command := by
      rw [runReplLine, htokens, hdispatch] at h
      exact (safe_bind fun _ => safe_pure _).mp h
    constructor
    · exact fun ht => (safe_printBlocks hR htotal).mp (hcommand ht rfl)
    · exact fun ht hlba hn => (safe_runRead hR).mp (hcommand ht rfl) _ hlba _ hn
    · exact fun ht hlba hne => (safe_runWrite hR).mp (hcommand ht rfl) _ hlba hne
    · exact fun ht hlba hch =>
        (safe_runFill hR (Outcome.panics_ok 1)).mp (hcommand ht rfl) _ hlba _ hch 1 rfl
    · exact fun ht hlba hch hn => (safe_runFill hR (parseU64_not_panics _)).mp
        (hcommand ht rfl) _ hlba _ hch _ hn
    · exact fun ht hlba ho hn => (safe_runPeek hR hB).mp (hcommand ht rfl) _ hlba _ ho _ hn
    · exact fun ht hlba ho hne => (safe_runPoke hR hB).mp (hcommand ht rfl) _ hlba _ ho hne
  · intro h
    unfold runReplLine
    cases hdispatch : dispatch .debug blocks (splitWhitespace line) with
    | none => exact safe_pure false
    | some command =>
      refine (safe_bind fun _ => safe_pure true).mpr ?_
      -- conversely, whatever the command, its arm has the condition it needs
      have harm := arm_of_dispatch .debug blocks hdispatch
      generalize htokens : splitWhitespace line = tokens at harm
      cases harm with
      | help => exact safe_printLines hR _
      | list => exact (safe_printBlocks hR htotal).mpr (h.list htokens)
      | identify => exact safe_runIdentify hR
      | read lba n => exact (safe_runRead hR).mpr fun _ hlba _ hn => h.read htokens hlba hn
      | write lba first rest =>
        exact (safe_runWrite hR).mpr fun _ hlba hne => h.write htokens hlba hne
      | fillOne lba ch =>
        refine (safe_runFill hR (Outcome.panics_ok 1)).mpr fun _ hlba _ hch count hcount => ?_
        obtain rfl := Outcome.ok.inj hcount
        exact h.fillOne htokens hlba hch
      | fill lba ch n =>
        exact (safe_runFill hR (parseU64_not_panics _)).mpr fun _ hlba _ hch _ hn =>
          h.fill htokens hlba hch hn
      | peek lba offset len =>
        exact (safe_runPeek hR hB).mpr fun _ hlba _ ho _ hn => h.peek htokens hlba ho hn
      | poke lba offset first rest =>
        exact (safe_runPoke hR hB).mpr fun _ hlba _ ho hne => h.poke htokens hlba ho hne
      | unknown => exact safe_fail _

/-! ### The same on the driver -/

/-- No panic, and no allocation above the transfer limit, whatever the controller does. -/
def RunsSafely {α : Type} (m : DriverMethod α) (d : NvmeUserspaceDriver) : Prop :=
  (∀ x d', (m d).Returns Prog.Any (x, d') → ¬ x.Panics) ∧
    ∀ bytes, (m d).Emits Prog.Any (.alloc bytes) → bytes ≤ MAX_TRANSFER_BYTES

/-- The operation of the process is within the transfer limit. -/
def Limited (o : Op) : Prop := ∀ bytes, o = .alloc bytes → bytes ≤ MAX_TRANSFER_BYTES

/-- Over every run of the driver, as a condition on the program. -/
theorem runsSafely_iff_sat {α : Type} {m : DriverMethod α} {d : NvmeUserspaceDriver} :
    RunsSafely m d ↔ (m d).Sat Prog.Any Limited fun x => ¬ x.1.Panics := by
  rw [Prog.sat_iff, RunsSafely, and_comm]
  refine and_congr ⟨fun h o ho bytes he => h bytes (he ▸ ho), fun h bytes ho => h _ ho bytes rfl⟩ ?_
  exact ⟨fun h x hx => h x.1 x.2 hx, fun h x d' hx => h (x, d') hx⟩

variable {d : NvmeUserspaceDriver}

/-- What a completed call returns is an answer. -/
theorem answers_of_completes {o : ReplOp} {r : ReplRes o} (h : Completes .debug B o r) :
    Answers .debug B o r := by
  cases o with
  | read slba n =>
    cases r with
    | error e => trivial
    | ok data => exact h
  | _ => trivial

/-- A safe command runs safely on the driver. -/
theorem runsSafely_of_safe {α : Type} {command : Command α} (hd : d.Ready B)
    (hm : d.DoorbellsMapped) (h : Safe (Answers .debug B) B command) :
    RunsSafely (onDriver .debug command) d := by
  refine runsSafely_iff_sat.mpr ((sat_onDriver (ψ := fun x => ¬ x.Panics) hd h).mono ?_ ?_)
  · rintro _ ⟨o, ho, hserves⟩ bytes rfl
    exact hserves.elim id (ho.1 bytes)
  · rintro x ⟨-, hx | ⟨-, hover⟩⟩
    · exact hx
    · obtain ⟨o, ho, hoverflows⟩ := hover hm
      exact absurd hoverflows ho.2

theorem safe_of_runsSafely {α : Type} {command : Command α} (hd : d.Ready B)
    (hm : d.DoorbellsMapped) (h : RunsSafely (onDriver .debug command) d) :
    Safe (Completes .debug B) B command := by
  -- an operation that is not permitted panics, or allocates too much, in some run
  refine (sat_of_onDriver hd hm (runsSafely_iff_sat.mp h)).mono ?_ fun x ⟨_, _, hx⟩ => hx
  rintro o ⟨t, hk, ht⟩
  refine ⟨?_, fun hover => ?_⟩
  · rintro bytes rfl
    exact ht.1 bytes rfl
  · cases o with
    | read slba n =>
      have hzero : n ≠ 0 := by
        rintro rfl
        exact absurd hover.2 (by simp [U64_SIZE])
      exact ht.returns (Method.returns_attempt.mpr (read_panics slba (hk.ready hd)
        hzero hover.2)) _ rfl trivial
    | write slba data =>
      exact ht.returns (Method.returns_attempt.mpr (write_panics slba (hk.ready hd) hover.1
        hover.2.2)) _ rfl trivial
    | _ => exact hover

/-- **Which lines can end the process.** With the checks of a debug build, neither the banner
nor the line panics or allocates more than the transfer limit, whatever the controller does,
exactly when the blocks of the map can be counted and the line meets its condition. -/
theorem runs_safely_iff (hd : d.Ready B) (hm : d.DoorbellsMapped) (blocks : FileBlocks)
    (line : Str) :
    (¬ (blocks.totalLbas .debug).Panics ∧
        RunsSafely (onDriver .debug (runReplLine .debug blocks line)) d) ↔
      totalBlocks blocks < U64_SIZE ∧ LineSafe blocks B line := by
  have hbanner : ¬ (blocks.totalLbas .debug).Panics ↔ totalBlocks blocks < U64_SIZE := by
    rw [totalLbas_debug]
    split <;> simp_all
  rw [hbanner]
  -- what the driver answers and what is assumed of it bound the responses from both sides
  refine and_congr_right fun htotal => ⟨fun h => ?_, fun h => ?_⟩
  · exact (safe_runReplLine ⟨fun _ _ => id, fun _ _ => answers_of_completes⟩ hd.lt htotal).mp
      (safe_of_runsSafely hd hm h)
  · exact runsSafely_of_safe hd hm ((safe_runReplLine
      ⟨fun _ _ => answers_of_completes, fun _ _ => id⟩ hd.lt htotal).mpr h)

/-! ### A map without a block size -/

theorem tokens_write : splitWhitespace "write 100 a".toList =
    "write".toList :: "100".toList :: "a".toList :: [] := by decide

/-- **A map that crashes the REPL.** The map is accepted without a `device_lba_size`, and
the first `write` divides by it. -/
theorem sizeless_map_panics : ∃ blocks d,
    FileBlocks.parse (Str.bytes "100 1 0\n".toList) = .ok blocks ∧
    (openDriver .debug "0000:01:00.0".toList 1 ()).Returns Prog.Any (.ok d, ()) ∧
    (onDriver .debug (runReplLine .debug blocks "write 100 a".toList) d).Returns Prog.Any
      (.panic "attempt to divide by zero", d) := by
  obtain ⟨d, hopen, -⟩ := opens () .debug "0000:01:00.0".toList 1 (show 9 < 64 by decide)
  refine ⟨⟨0, [⟨100, 1, false⟩]⟩, d, by decide, hopen, ?_⟩
  -- the length is rounded up to whole blocks of no bytes
  have hline : runReplLine .debug ⟨0, [⟨100, 1, false⟩]⟩ "write 100 a".toList =
      Method.lift (.panic "attempt to divide by zero") := by
    rw [runReplLine, tokens_write, dispatch_write, runWrite,
      show parseU64 "100".toList = .ok 100 by decide, Method.lift_ok_bind]
    rfl
  rw [onDriver, hline]
  rfl

/-- One block of 512 bytes, at block 100. -/
def fineMap : FileBlocks := ⟨512, [⟨100, 1, false⟩]⟩

/-- The condition holds of a line that is typed. -/
theorem lineSafe_fineMap : LineSafe fineMap 512 "write 100 a".toList := by
  -- the line is none of the other commands
  have hother {name : Str} {args : List Str} (hname : "write".toList ≠ name)
      (h : splitWhitespace "write 100 a".toList = name :: args) : False :=
    hname (List.cons.inj (tokens_write.symm.trans h)).1
  have hcheck : fineMap.check .debug 100 1 = .ok () := by
    rw [FileBlocks.check, if_neg (by decide), if_pos (by decide),
      FileBlocks.walk_of_lt (by decide)]
    exact FileBlocks.walk_of_ge (by decide)
  constructor
  · exact fun h => (hother (by decide) h).elim
  · exact fun h => (hother (by decide) h).elim
  · intro lba first rest deviceLba h hlba _
    obtain ⟨rfl, rfl, rfl⟩ : "100".toList = lba ∧ "a".toList = first ∧ [] = rest := by
      simpa using tokens_write.symm.trans h
    obtain rfl : 100 = deviceLba :=
      Outcome.ok.inj ((show parseU64 "100".toList = .ok 100 by decide).symm.trans hlba)
    exact ⟨by decide, by decide, check_not_panics.mp (fun h => (hcheck ▸ h :)),
      fun _ hvanish => absurd hvanish.2.2 (by decide)⟩
  · exact fun h => (hother (by decide) h).elim
  · exact fun h => (hother (by decide) h).elim
  · exact fun h => (hother (by decide) h).elim
  · exact fun h => (hother (by decide) h).elim

/-- The same line on a map with a block size. -/
theorem runs_safely_write : ∃ d,
    (openDriver .debug "0000:01:00.0".toList 1 ()).Returns Prog.Any (.ok d, ()) ∧
    RunsSafely (onDriver .debug (runReplLine .debug fineMap "write 100 a".toList)) d := by
  obtain ⟨d, hopen, -, hd, hm⟩ := opens () .debug "0000:01:00.0".toList 1 (show 9 < 64 by decide)
  exact ⟨d, hopen, ((runs_safely_iff hd hm fineMap "write 100 a".toList).mpr
    ⟨by decide, lineSafe_fineMap⟩).2⟩

end Repl

end Nvmetoy
