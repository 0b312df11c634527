import Mathlib.Data.List.Nodup
import Nvmetoy.Framework.PrpWalk
import Nvmetoy.Ready

/-!
# The PRP entries of a transfer

`dataPointers` describes the first bytes of the data area to the controller, and leaves a list
of entries in memory when two pointers are not enough. A controller that reads them as the
format says (`Prp.walk`) finds the pages of the data area, in order, each once.

* `busMemory` — bus memory with the region mapped at an address, answering the operations that
  access it.
* `play_writePrpEntries` — the list that the loop leaves behind.
* `dataPointers_walk` — encoder and reader together, for every length and over any earlier
  content of the memory.
-/

namespace Nvmetoy

open Framework NvmeUserspaceDriver

/-- Bus memory, with the region mapped from `base` on. Nothing else answers. -/
def busMemory (base : Nat) : (o : Op) → Mem → Res o × Mem
  | .writeSqe offset entry, m => ((), m.write (base + offset) entry.encode)
  | .readSqe offset, m => (.decode (m.read (base + offset) 64), m)
  | .readCqe offset, m => (.decode (m.read (base + offset) 16), m)
  | .writeU64 offset value, m => ((), m.write (base + offset) (toLe 8 value.toNat))
  | .readBytes offset len, m => (⟨m.read (base + offset) len, Mem.length_read⟩, m)
  | .writeBytes offset source, m => ((), m.write (base + offset) source)
  | o, m => (silent o, m)

/-- The region's bus addresses do not wrap. -/
theorem DmaRegion.toNat_physicalAddressAt (dma : DmaRegion) {offset : Nat}
    (h : offset < dma.length) :
    (dma.physicalAddressAt offset).toNat = dma.physicalAddress.toNat + offset := by
  have hfits := dma.fits
  have hlt : offset < U64_SIZE := by omega
  have hsum : dma.physicalAddress.toNat + offset < U64_SIZE := by omega
  rw [physicalAddressAt, UInt64.toNat_add, UInt64.toNat_ofNat',
    Nat.mod_eq_of_lt (show offset < 2 ^ 64 from hlt)]
  exact Nat.mod_eq_of_lt hsum

namespace NvmeUserspaceDriver

variable {d : NvmeUserspaceDriver} {p : Profile} {base : Nat}

/-- The bus address of a data page. -/
def dataPage (base page : Nat) : Nat := base + DATA_OFFSET + page * PAGE_SIZE

/-- A page of the data area that holds a byte of a transfer within the limit. -/
theorem dataPage_le {length page : Nat} (h : length ≤ MAX_TRANSFER_BYTES)
    (hpage : page < (length + (PAGE_SIZE - 1)) / PAGE_SIZE) :
    dataPage base page + PAGE_SIZE ≤ base + HUGE_PAGE_SIZE := by
  simp only [MAX_TRANSFER_BYTES, HUGE_PAGE_SIZE, DATA_OFFSET, PAGE_SIZE, dataPage] at h hpage ⊢
  omega

/-- The address of a page of the buffer does not wrap around. -/
theorem toNat_dataPagePhysicalAddress (hd : d.dmaRegion.length = HUGE_PAGE_SIZE) {page : Nat}
    (h : DATA_OFFSET + page * PAGE_SIZE < HUGE_PAGE_SIZE) :
    (d.dataPagePhysicalAddress page).toNat =
      dataPage d.dmaRegion.physicalAddress.toNat page := by
  rw [dataPagePhysicalAddress, DmaRegion.toNat_physicalAddressAt _ (hd ▸ h), dataPage,
    Nat.add_assoc]

/-- The address of the list entry `index`. -/
def prpEntryAddress (base index : Nat) : Nat := base + PRP_LIST_OFFSET + 8 * index

/-- **The list.** After the loop, its entries name the data pages, and nothing else has
changed. -/
theorem play_writePrpEntries (hd : d.dmaRegion.length = HUGE_PAGE_SIZE)
    (hbase : d.dmaRegion.physicalAddress.toNat = base) {index count : Nat}
    (hcount : index + count ≤ PRP_LIST_CAPACITY)
    (hpages : DATA_OFFSET + (index + count) * PAGE_SIZE < HUGE_PAGE_SIZE) (m : Mem) :
    ∃ m', (writePrpEntries index count d).play (busMemory base) m = ((.ok (), d), m') ∧
      (∀ k, k < count →
        Prp.entry m' (prpEntryAddress base (index + k)) = dataPage base (index + k + 1)) ∧
      ∀ x, x < prpEntryAddress base index → m' x = m x := by
  -- by induction on the entries left; the memory changes with each
  induction count generalizing index m with
  | zero => exact ⟨m, rfl, fun k hk => absurd hk (Nat.not_lt_zero k), fun _ _ => rfl⟩
  | succ count ih =>
    have hslot := prpEntry_ok hd (show index < PRP_LIST_CAPACITY by omega)
    have hnext : DATA_OFFSET + (index + 1 + count) * PAGE_SIZE < HUGE_PAGE_SIZE := by
      rwa [show index + 1 + count = index + (count + 1) by omega]
    -- the later entries, in the memory with this one
    obtain ⟨m', hplay, hentries, hframe⟩ := ih (by omega) hnext
      (m.write (prpEntryAddress base index) (toLe 8 (d.dataPagePhysicalAddress (index + 1)).toNat))
    refine ⟨m', ?_, fun k hk => ?_, fun x hx => ?_⟩
    · simp only [writePrpEntries, Method.get_bind, DmaRegion.writeU64, hslot,
        Method.lift_ok_bind, Method.call_bind, Prog.play, busMemory]
      rw [show base + (PRP_LIST_OFFSET + index * 8) = prpEntryAddress base index by
        simp only [prpEntryAddress]; omega]
      exact hplay
    · cases k with
      | zero =>
        -- the later entries lie behind this one
        have hkept : Prp.entry m' (prpEntryAddress base index) =
            Prp.entry (m.write (prpEntryAddress base index)
              (toLe 8 (d.dataPagePhysicalAddress (index + 1)).toNat))
              (prpEntryAddress base index) := by
          refine Prp.entry_congr fun x _ hx => hframe x ?_
          simp only [prpEntryAddress] at hx ⊢
          omega
        have hin : DATA_OFFSET + (index + 1) * PAGE_SIZE < HUGE_PAGE_SIZE := by
          have : (index + 1) * PAGE_SIZE ≤ (index + (count + 1)) * PAGE_SIZE :=
            Nat.mul_le_mul_right _ (by omega)
          omega
        rw [Nat.add_zero, hkept, Prp.entry_write (UInt64.toNat_lt _),
          toNat_dataPagePhysicalAddress hd hin, hbase]
      | succ k =>
        have hk := hentries k (by omega)
        rwa [show index + 1 + k = index + (k + 1) by omega] at hk
    · rw [hframe x (by simp only [prpEntryAddress] at hx ⊢; omega)]
      exact Mem.write_of_lt hx

/-- The pages of a transfer from the start of the data area. -/
def transferPages (length : Nat) : Nat := (length + (PAGE_SIZE - 1)) / PAGE_SIZE

/-- What `dataPointers` gives, and what it leaves in memory. -/
theorem play_dataPointers (hd : d.dmaRegion.length = HUGE_PAGE_SIZE)
    (hbase : d.dmaRegion.physicalAddress.toNat = base) {length : Nat}
    (hmax : length ≤ MAX_TRANSFER_BYTES) (m : Mem) :
    ∃ prp2 m', (dataPointers p length d).play (busMemory base) m =
        ((.ok (d.dataPagePhysicalAddress 0, prp2), d), m') ∧
      (transferPages length = 2 → prp2 = d.dataPagePhysicalAddress 1) ∧
      (2 < transferPages length → prp2 = d.prpListPhysicalAddress ∧
        ∀ k, k < transferPages length - 1 →
          Prp.entry m' (prpEntryAddress base k) = dataPage base (k + 1)) := by
  have hcapacity : transferPages length - 1 ≤ PRP_LIST_CAPACITY := pageCount_le hmax
  simp only [dataPointers, Method.get_bind]
  rw [show (length + (PAGE_SIZE - 1)) / PAGE_SIZE = transferPages length from rfl]
  -- one page
  by_cases hone : transferPages length ≤ 1
  · rw [if_pos hone]
    exact ⟨0, m, rfl, fun h => by omega, fun h => by omega⟩
  rw [if_neg hone]
  -- two pages
  by_cases htwo : transferPages length = 2
  · rw [if_pos htwo]
    exact ⟨_, m, rfl, fun _ => rfl, fun h => by omega⟩
  -- more pages, with a list
  rw [if_neg htwo, if_neg fun h => Nat.not_lt.mpr hcapacity h.2]
  have hpages : DATA_OFFSET + (0 + (transferPages length - 1)) * PAGE_SIZE < HUGE_PAGE_SIZE := by
    simp only [transferPages, MAX_TRANSFER_BYTES, HUGE_PAGE_SIZE, DATA_OFFSET, PAGE_SIZE] at hmax ⊢
    omega
  obtain ⟨m', hplay, hentries, -⟩ := play_writePrpEntries hd hbase
    (show 0 + (transferPages length - 1) ≤ PRP_LIST_CAPACITY by omega) hpages m
  refine ⟨d.prpListPhysicalAddress, m', ?_, fun h => absurd h htwo, fun _ => ⟨rfl, fun k hk => ?_⟩⟩
  · rw [Method.bind_apply, Prog.play_bind, hplay]
    rfl
  · have hk := hentries k hk
    rwa [Nat.zero_add] at hk

end NvmeUserspaceDriver

/-- **Encoder and reader.** For every length a transfer can have, over any earlier content of
the memory, a controller that reads the two pointers and the list visits the pages of the data
area that hold the transfer, in order, each once, and all in the hugepage. -/
theorem dataPointers_walk (p : Profile) (d : NvmeUserspaceDriver)
    (hd : d.dmaRegion.length = HUGE_PAGE_SIZE)
    (hbase : d.dmaRegion.physicalAddress.toNat % PAGE_SIZE = 0) (length : Nat)
    (hpos : 1 ≤ length) (hmax : length ≤ MAX_TRANSFER_BYTES) (m : Mem) :
    let base := d.dmaRegion.physicalAddress.toNat
    let pages := (List.range (transferPages length)).map (dataPage base)
    ∃ prp1 prp2 m',
      (dataPointers p length d).play (busMemory base) m = ((.ok (prp1, prp2), d), m') ∧
      (∀ fuel, PRP_LIST_CAPACITY ≤ fuel →
        Prp.walk PAGE_SIZE m' fuel prp1.toNat prp2.toNat length = some pages) ∧
      pages.Nodup ∧ ∀ page ∈ pages, base ≤ page ∧ page + PAGE_SIZE ≤ base + HUGE_PAGE_SIZE := by
  intro base pages
  obtain ⟨prp2, m', hplay, htwo, hlist⟩ := play_dataPointers (p := p) hd rfl hmax m
  refine ⟨_, prp2, m', hplay, fun fuel hfuel => ?_, ?_, ?_⟩
  · have hcapacity : transferPages length - 1 ≤ PRP_LIST_CAPACITY := pageCount_le hmax
    have hfirst : (d.dataPagePhysicalAddress 0).toNat = dataPage base 0 :=
      toNat_dataPagePhysicalAddress hd (by decide)
    -- the buffer begins at a page boundary, so no page is cut
    have hcount : Prp.pageCount PAGE_SIZE (dataPage base 0) length = transferPages length := by
      have haligned : dataPage base 0 % PAGE_SIZE = 0 := by
        simp only [dataPage, DATA_OFFSET, PAGE_SIZE] at hbase ⊢
        omega
      rw [Prp.pageCount, haligned, Nat.zero_add, transferPages]
    rw [Prp.walk, hfirst, hcount]
    -- one page, two, or a list
    rcases hn : transferPages length with - | - | - | n
    · simp only [transferPages, PAGE_SIZE] at hn
      omega
    · simp [pages, hn]
    · have hsecond : (d.dataPagePhysicalAddress 1).toNat = dataPage base 1 :=
        toNat_dataPagePhysicalAddress hd (by decide)
      simp [pages, hn, htwo hn, hsecond, List.range_succ]
    · obtain ⟨rfl, hentries⟩ := hlist (by omega)
      have haddress : d.prpListPhysicalAddress.toNat = prpEntryAddress base 0 :=
        DmaRegion.toNat_physicalAddressAt _ (hd ▸ by decide)
      have hwalk := @Prp.walkList_eq PAGE_SIZE m' (prpEntryAddress base 0) (n + 2) fuel
        (fun k => dataPage base (k + 1)) (by omega) (fun k hk => ?_) fun k hk => ?_
      · simp only [haddress, hwalk, Option.map_some, pages, hn, List.range_succ_eq_map,
          List.map_cons, List.map_map]
        rfl
      · have hk := hentries k (by omega)
        rw [← hk]
        congr 1
      · simp only [prpEntryAddress, PRP_LIST_OFFSET, PAGE_SIZE, PRP_LIST_CAPACITY,
          DATA_OFFSET] at hbase hcapacity ⊢
        omega
  · -- different pages of the buffer have different addresses
    refine List.Nodup.map (fun k k' h => ?_) List.nodup_range
    simp only [dataPage, PAGE_SIZE] at h
    omega
  · intro page hpage
    obtain ⟨k, hk, rfl⟩ := List.mem_map.mp hpage
    exact ⟨by simp only [dataPage]; omega, dataPage_le hmax (List.mem_range.mp hk)⟩

/-- A transfer of three pages, over memory full of ones. -/
theorem dataPointers_walk_three :
    ∃ prp1 prp2 m', (dataPointers .release 8193 freshDriver).play (busMemory 0) (fun _ => 1) =
        ((.ok (prp1, prp2), freshDriver), m') ∧
      (∀ fuel, PRP_LIST_CAPACITY ≤ fuel →
        Prp.walk PAGE_SIZE m' fuel prp1.toNat prp2.toNat 8193 =
          some ((List.range (transferPages 8193)).map (dataPage 0))) ∧
      ((List.range (transferPages 8193)).map (dataPage 0)).Nodup ∧
      ∀ page ∈ (List.range (transferPages 8193)).map (dataPage 0),
        0 ≤ page ∧ page + PAGE_SIZE ≤ 0 + HUGE_PAGE_SIZE :=
  dataPointers_walk .release freshDriver rfl rfl 8193 (by decide) (by decide) fun _ => 1

end Nvmetoy
