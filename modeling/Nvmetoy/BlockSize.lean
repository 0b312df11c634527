import Nvmetoy.Ready
import Nvmetoy.Lifetime

/-!
# The block size of a namespace

`namespaceBlockSize` asks the controller how the namespace is formatted, takes the block size
from the answer, and keeps it: every later read and write works with what was learnt first
(`Learns`).

The answer lists up to 64 formats, and FLBAS selects one of them: with at most 16 formats by
its low four bits, and with more by two further bits (`formattedIndex`). The driver looks at
the low four bits alone (`formatIndex`). `formattedIndex_eq` says when the two agree, and
`learns_formatted_iff` when the driver learns the size of the format that is in use.
-/

namespace Nvmetoy

open Framework NvmeUserspaceDriver

namespace IdentifyNamespace

/-- The formats that the namespace reports. -/
def formatCount (ns : IdentifyNamespace) : Nat := ns.nlbaf.toNat + 1 + ns.nulbaf.toNat

/-- FIDXL, bits 3:0 of FLBAS. -/
def fidxl (ns : IdentifyNamespace) : Nat := (ns.flbas &&& 0xF).toNat

/-- FIDXU, bits 6:5 of FLBAS. -/
def fidxu (ns : IdentifyNamespace) : Nat := ((ns.flbas >>> 5) &&& 0x3).toNat

variable (ns : IdentifyNamespace)

theorem fidxl_lt : ns.fidxl < 16 := by
  have h : ns.flbas.toNat &&& 15 ≤ 15 := Nat.and_le_right
  simp only [fidxl, UInt8.toNat_and]
  exact Nat.lt_succ_of_le h

theorem fidxu_lt : ns.fidxu < 4 := by
  have h : (ns.flbas >>> 5).toNat &&& 3 ≤ 3 := Nat.and_le_right
  simp only [fidxu, UInt8.toNat_and]
  exact Nat.lt_succ_of_le h

/-- The entry of the format table that FLBAS selects. -/
def formattedIndex : Fin 64 :=
  if 16 < ns.formatCount then
    ⟨ns.fidxu * 16 + ns.fidxl, by have := ns.fidxl_lt; have := ns.fidxu_lt; omega⟩
  else ⟨ns.fidxl, by have := ns.fidxl_lt; omega⟩

/-- The data size exponent of the format in use, and of the one the driver takes for it. -/
def formattedLbads : Nat := (ns.lbaFormats ns.formattedIndex).lbads.toNat

/-- What the driver takes: the format at FIDXL alone. -/
def takenLbads : Nat := (ns.lbaFormats ns.formatIndex).lbads.toNat

/-- Where the fields lie in the data. -/
theorem read_fields {data : List UInt8} (h : readFromPrefix data = some ns) :
    ns.nlbaf = .ofNat (leField data 25 1) ∧ ns.flbas = .ofNat (leField data 26 1) ∧
      ns.nulbaf = .ofNat (leField data 82 1) ∧
      ∀ i, (ns.lbaFormats i).lbads = .ofNat (leField data (128 + 4 * i.val + 2) 1) := by
  unfold readFromPrefix at h
  split at h
  · cases h
  · obtain rfl := Option.some.inj h
    exact ⟨rfl, rfl, rfl, fun _ => rfl⟩

/-- The driver's entry is the selected one unless the upper bits count. -/
theorem formattedIndex_eq : ns.formattedIndex = ns.formatIndex ↔
    ns.formatCount ≤ 16 ∨ ns.fidxu = 0 := by
  have hl := ns.fidxl_lt
  have htaken : (ns.formatIndex).val = ns.fidxl := rfl
  unfold formattedIndex
  split
  · -- with more than 16 formats FIDXU counts, otherwise FIDXL alone
    next h =>
    rw [Fin.ext_iff, htaken]
    dsimp only
    omega
  · next h =>
    rw [Fin.ext_iff, htaken]
    simp only [true_iff]
    omega

end IdentifyNamespace

/-- The size that is taken from Identify Namespace data. -/
def blockSizeOf (p : Profile) (data : List UInt8) : Outcome IoError Nat :=
  match IdentifyNamespace.readFromPrefix data with
  | none => .err (.identifyTooShort "Namespace")
  | some ns => p.oneShlUsize ns.takenLbads

/-- The copies of `IDENTIFY_SIZE` bytes out of the region give `data`. -/
def Identifies (data : List UInt8) : (o : Op) → Res o → Prop
  | .readBytes _ len, bytes => len = IDENTIFY_SIZE → bytes.val = data
  | _, _ => True

/-- Keep a block size. -/
def cacheSize (d : NvmeUserspaceDriver) (nsid : UInt32) (size : Nat) : NvmeUserspaceDriver :=
  { d with blockSizes := fun n => if n = nsid then some size else d.blockSizes n }

namespace NvmeUserspaceDriver

variable {p : Profile} {d d' : NvmeUserspaceDriver} {data : List UInt8} {nsid : UInt32}

/-- Calls that have been made on a driver, however they ended. -/
def Later (p : Profile) : NvmeUserspaceDriver → NvmeUserspaceDriver → Prop :=
  Relation.ReflTransGen fun d d' => ∃ call x, (perform p call d).Returns Prog.Any (x, d')

/-- What a driver learns from `data`: it does not panic, and a size that it gives is `size`, with
which every later read and write works. -/
def Learns (p : Profile) (data : List UInt8) (size : Nat) (d : NvmeUserspaceDriver) : Prop :=
  (namespaceBlockSize p d.nsid d).Sat (Identifies data) (fun _ => True) fun x =>
    ¬ x.1.Panics ∧ ∀ given, x.1 = .ok given → given = size ∧
      ∀ d', Later p x.2 d' → namespaceBlockSize p d'.nsid d' = .pure (.ok size, d')

/-- A size that is not known is learnt from the answer, and kept. -/
theorem namespaceBlockSize_eq (hnone : d.blockSizes nsid = none) :
    namespaceBlockSize p nsid d = (identify .namespace nsid >>= fun data =>
      Method.lift (blockSizeOf p data) >>= fun size => do
        let d ← Method.get
        Method.set (cacheSize d nsid size)
        pure size) d := by
  simp only [namespaceBlockSize, Method.get_bind, hnone]
  refine congrFun (congrArg (identify .namespace nsid >>= ·) (funext fun data => ?_)) d
  unfold blockSizeOf
  cases IdentifyNamespace.readFromPrefix data with
  | none => rfl
  | some ns => rfl

/-- The data that an Identify gives is what was copied out of the region. -/
theorem sat_identify_data {«structure» : IdentifyStructure} (hd : d.Shaped) :
    (identify «structure» nsid d).Sat (Identifies data) (fun _ => True) fun x =>
      d.Kept x.2 ∧ (∀ given, x.1 = .ok given → given = data) ∧
        (x.1.Panics → ¬ d.DoorbellsMapped) := by
  simp only [identify, Method.get_bind]
  -- whatever the completion, the structure is copied only after a success
  refine Method.sat_bind ((sat_submitAdmin (ψ := fun _ => True) hd).mono (fun _ _ => trivial)
    fun _ h => h) (fun c t hc => ?_) ?_ ?_
  · refine Method.sat_bind sat_checkCompletion (fun _ t' ht' => ?_) (fun e t' ht' => ?_)
      fun why t' ht' => absurd trivial ht'.2
    · obtain rfl := ht'.1
      have hcheck : d.dmaRegion.checkBytes DATA_OFFSET IDENTIFY_SIZE = .ok () :=
        payload_ok hd.length_eq (by decide)
      simp only [DmaRegion.readBytes, hcheck, Method.lift_ok_bind, Method.call_bind, Prog.sat_op]
      refine ⟨trivial, fun bytes hbytes => ⟨hc.1, fun given h => ?_, by simp⟩⟩
      obtain rfl := Outcome.ok.inj h
      exact hbytes rfl
    · exact ⟨ht'.1 ▸ hc.1, by simp, by simp⟩
  · intro e t ht
    exact ⟨ht.1, by simp, by simp⟩
  · intro why t ht
    exact ⟨ht.1, by simp, ht.2⟩

/-- A known size stays known, through any calls. -/
theorem Later.ready {B : Nat} (h : Later p d d') (hd : d.Ready B) : d'.Ready B := by
  induction h with
  | refl => exact hd
  | tail _ hcall ih =>
    obtain ⟨call, x, hret⟩ := hcall
    exact ((sat_perform ih call).returns hret).ready ih

/-- **What a driver learns** from an answer of any content. -/
theorem sat_namespaceBlockSize_learns (hd : d.Shaped) (hnone : d.blockSizes d.nsid = none) :
    (namespaceBlockSize p d.nsid d).Sat (Identifies data) (fun _ => True) fun x =>
      (x.1.Panics → (blockSizeOf p data).Panics ∨ ¬ d.DoorbellsMapped) ∧
      ∀ given, x.1 = .ok given → blockSizeOf p data = .ok given ∧
        ∀ d', Later p x.2 d' → namespaceBlockSize p d'.nsid d' = .pure (.ok given, d') := by
  rw [namespaceBlockSize_eq hnone]
  refine Method.sat_bind (sat_identify_data hd) (fun given t ht => ?_) (fun e t ht => by simp)
    fun why t ht => ⟨fun h => .inr (ht.2.2 h), by simp⟩
  obtain rfl := ht.2.1 given rfl
  -- the three ends of the shift are those of the method
  cases hsize : blockSizeOf p given with
  | err e => exact ⟨by simp, by simp⟩
  | panic why => exact ⟨fun _ => .inl trivial, by simp⟩
  | ok size =>
    refine ⟨by simp, fun given' h => ?_⟩
    obtain rfl := Outcome.ok.inj h
    refine ⟨rfl, fun d' hlater => namespaceBlockSize_cached (hlater.ready ?_).cached⟩
    -- the driver is ready from here on
    have hs := ht.1.shaped
    obtain ⟨hpos, hlt⟩ : 0 < size ∧ size < U64_SIZE := by
      unfold blockSizeOf at hsize
      split at hsize
      · cases hsize
      · exact oneShlUsize_ok hsize
    have hnsid : t.nsid = d.nsid := by
      obtain ⟨admin, io, h, -⟩ := ht.1
      have hsame := congrArg NvmeUserspaceDriver.nsid h
      exact hsame
    exact { hs with cached := by simp [cacheSize, hnsid], pos := hpos, lt := hlt }

/-- A command on the admin queue copies nothing out of the data area. -/
theorem submitAdmin_identifies (data : List UInt8) (command : SubmissionQueueEntry) (hd : d.Shaped)
    (hm : d.DoorbellsMapped) :
    ∃ c d', (submitAdmin command d).Returns (Identifies data) (.ok c, d') ∧
      c.isSuccess = true ∧ d.Kept d' := by
  obtain ⟨c, d', hret, hrest⟩ := submitAdmin_answers command hd hm
  refine ⟨c, d', ?_, hrest⟩
  have hissues : (submitAdmin command d).Sat Prog.Any
      (QueuePair.Issues d.adminQueue.sqeOffset { command with cid := d.adminQueue.nextCid })
      fun _ => True := by
    simp only [submitAdmin, Method.get_bind]
    exact Method.sat_onField ((QueuePair.sat_submitAndWait hd.admin hd.adminRings).post
      fun _ _ => trivial)
  -- what is issued is nothing that the data could be asked for
  refine hissues.returns_of (fun o r ho => ?_) hret
  cases ho <;> trivial

/-- Every answer of `IDENTIFY_SIZE` bytes can be given, and the driver ends as it says. -/
theorem namespaceBlockSize_learns (hd : d.Shaped) (hm : d.DoorbellsMapped)
    (hnone : d.blockSizes d.nsid = none) (hlen : data.length = IDENTIFY_SIZE) :
    ∃ d', (namespaceBlockSize p d.nsid d).Returns (Identifies data) (blockSizeOf p data, d') := by
  obtain ⟨c, t, hret, hc, hk⟩ := submitAdmin_identifies data
    (nvmeIdentify .namespace d.nsid (d.dataPagePhysicalAddress 0)) hd hm
  have hidentify : (identify .namespace d.nsid d).Returns (Identifies data) (.ok data, t) := by
    simp only [identify, Method.get_bind]
    refine Method.returns_bind_ok.mpr ⟨c, t, hret, ?_⟩
    have hcheck : d.dmaRegion.checkBytes DATA_OFFSET IDENTIFY_SIZE = .ok () :=
      payload_ok hd.length_eq (by decide)
    simp only [checkCompletion_success hc, Method.pure_bind, DmaRegion.readBytes, hcheck,
      Method.lift_ok_bind, Method.call_bind, Prog.returns_op]
    exact ⟨⟨data, hlen⟩, fun _ => rfl, rfl⟩
  -- what is computed from the data is what the method ends with
  rw [namespaceBlockSize_eq hnone]
  cases hsize : blockSizeOf p data with
  | ok size =>
    refine ⟨cacheSize t d.nsid size, Method.returns_bind_ok.mpr ⟨data, t, hidentify, ?_⟩⟩
    rw [hsize]
    rfl
  | err e =>
    refine ⟨t, Method.returns_bind_err.mpr (.inr ⟨data, t, hidentify, ?_⟩)⟩
    rw [hsize]
    rfl
  | panic why =>
    refine ⟨t, Method.returns_bind_panic.mpr (.inr ⟨data, t, hidentify, ?_⟩)⟩
    rw [hsize]
    rfl

end NvmeUserspaceDriver

/-- A shift gives the power of two of another exponent exactly when the low six bits of its amount
are that exponent; a build that checks it panics from 64 on. -/
theorem oneShlUsize_eq_iff {E : Type} {p : Profile} {shift exponent : Nat} :
    (p.oneShlUsize shift : Outcome E Nat) = .ok (2 ^ exponent) ↔
      exponent = shift % 64 ∧ (p = .debug → shift < 64) := by
  have hpow {k : Nat} : 2 ^ k = 2 ^ exponent ↔ exponent = k :=
    ⟨fun h => (Nat.pow_right_injective le_rfl h).symm, fun h => h ▸ rfl⟩
  unfold Profile.oneShlUsize
  split
  · next h => simp [hpow, Nat.mod_eq_of_lt h, h]
  · next h =>
    cases p with
    | debug => simp [h]
    | release => simp [hpow]

/-- The driver's entry gives the size of the format in use, as it computes it. -/
def TakesFormatted (p : Profile) (ns : IdentifyNamespace) : Prop :=
  ns.formattedLbads = ns.takenLbads % 64 ∧ (p = .debug → ns.takenLbads < 64)

/-- With an exponent that fits, it does so when the low bits are all of FLBAS that counts. -/
theorem takesFormatted_of_low {p : Profile} {ns : IdentifyNamespace} (h : ns.takenLbads < 64)
    (hlow : ns.formatCount ≤ 16 ∨ ns.fidxu = 0) : TakesFormatted p ns := by
  have hsame : ns.formattedLbads = ns.takenLbads := by
    rw [IdentifyNamespace.formattedLbads, ns.formattedIndex_eq.mpr hlow]
    rfl
  exact ⟨hsame.trans (Nat.mod_eq_of_lt h).symm, fun _ => h⟩

/-- Every driver that asks learns a power of two exactly when the answer gives it. -/
theorem learns_iff {p : Profile} {data : List UInt8} {exponent : Nat} {d : NvmeUserspaceDriver}
    (hd : d.Shaped) (hm : d.DoorbellsMapped) (hnone : d.blockSizes d.nsid = none)
    (hlen : data.length = IDENTIFY_SIZE) :
    Learns p data (2 ^ exponent) d ↔ blockSizeOf p data = .ok (2 ^ exponent) := by
  constructor
  · intro h
    -- the one run in which the data arrives decides
    obtain ⟨d', hret⟩ := namespaceBlockSize_learns hd hm hnone hlen (p := p)
    obtain ⟨hpanic, hgiven⟩ := h.returns hret
    cases hout : blockSizeOf p data with
    | ok size => rw [(hgiven size hout).1]
    | err e =>
      -- the data is long enough
      unfold blockSizeOf at hout
      rw [IdentifyNamespace.readFromPrefix, if_neg (by omega)] at hout
      exact absurd hout Profile.oneShlUsize_ne_err
    | panic why =>
      rw [hout] at hpanic
      exact absurd trivial hpanic
  · intro h
    refine (sat_namespaceBlockSize_learns hd hnone).post ?_
    rintro x ⟨hpanic, hgiven⟩
    constructor
    · intro hx
      -- a panic is that of the shift, or of a doorbell outside the BAR
      rcases hpanic hx with hsize | hmapped
      · rw [h] at hsize
        exact hsize
      · exact hmapped hm
    · intro given hx
      obtain ⟨hok, hlater⟩ := hgiven given hx
      obtain rfl : given = 2 ^ exponent := by
        rw [h] at hok
        exact (Outcome.ok.inj hok).symm
      exact ⟨rfl, hlater⟩

/-- The size learnt is the size formatted with, exactly when the right format is taken. -/
theorem blockSizeOf_eq_iff {p : Profile} {data : List UInt8} {ns : IdentifyNamespace}
    (hdata : IdentifyNamespace.readFromPrefix data = some ns) :
    blockSizeOf p data = .ok (2 ^ ns.formattedLbads) ↔ TakesFormatted p ns := by
  unfold blockSizeOf
  rw [hdata]
  exact oneShlUsize_eq_iff

/-- **Which size is learnt.** For every answer, every driver that asks learns the size of the
format in use exactly when the entry at FIDXL gives it. -/
theorem learns_formatted_iff (p : Profile) (data : List UInt8) (ns : IdentifyNamespace)
    (hlen : data.length = IDENTIFY_SIZE)
    (hdata : IdentifyNamespace.readFromPrefix data = some ns) (d : NvmeUserspaceDriver)
    (hd : d.Shaped) (hm : d.DoorbellsMapped) (hnone : d.blockSizes d.nsid = none) :
    Learns p data (2 ^ ns.formattedLbads) d ↔ TakesFormatted p ns := by
  rw [learns_iff hd hm hnone hlen]
  exact blockSizeOf_eq_iff hdata

/-- The driver of the examples has its queues where they belong. -/
theorem freshDriver_shaped : freshDriver.Shaped := ⟨rfl, .new _ _ _, .new _ _ _⟩

theorem freshDriver_mapped : freshDriver.DoorbellsMapped := ⟨covers_twoPages.1, covers_twoPages.2⟩

/-- A namespace with one format. -/
theorem learns_formatted_one : ∃ ns, IdentifyNamespace.readFromPrefix (namespaceData 9) = some ns ∧
    (Learns .debug (namespaceData 9) (2 ^ ns.formattedLbads) freshDriver ↔
      TakesFormatted .debug ns) := by
  obtain ⟨ns, hdata, -⟩ := read_namespaceData (show 9 < 64 by decide)
  exact ⟨ns, hdata, learns_formatted_iff .debug (namespaceData 9) ns (length_namespaceData 9) hdata
    freshDriver freshDriver_shaped freshDriver_mapped rfl⟩

/-- Twenty formats, of which the seventeenth is in use: blocks of 4096 bytes. The first has
blocks of 512. -/
def twentyFormats : List UInt8 :=
  identifyData fun off => if off = 25 then 19 else if off = 26 then 0x20
    else if off = 130 then 9 else if off = 194 then 12 else 0

/-- Format 16 is used, of `2^12` bytes; the low bits name format 0, of `2^9`. -/
theorem read_twentyFormats : ∃ ns, IdentifyNamespace.readFromPrefix twentyFormats = some ns ∧
    ns.formattedLbads = 12 ∧ ns.takenLbads = 9 := by
  have hbyte {off : Nat} (h : off < IDENTIFY_SIZE) := leField_identifyData
    (fun off => if off = 25 then 19 else if off = 26 then 0x20
      else if off = 130 then 9 else if off = 194 then 12 else 0) h
  have hlen : ¬ twentyFormats.length < IDENTIFY_SIZE := by
    rw [twentyFormats, length_identifyData]
    decide
  obtain ⟨ns, hdata⟩ : ∃ ns, IdentifyNamespace.readFromPrefix twentyFormats = some ns :=
    ⟨_, if_neg hlen⟩
  obtain ⟨hnlbaf, hflbas, hnulbaf, hlbads⟩ := ns.read_fields hdata
  -- FLBAS is 0x20: FIDXL is 0 and FIDXU is 1
  have hflbas : ns.flbas = 0x20 := hflbas.trans (congrArg _ (hbyte (by decide)))
  have hfidxl : ns.fidxl = 0 := by
    rw [IdentifyNamespace.fidxl, hflbas]
    rfl
  have hfidxu : ns.fidxu = 1 := by
    rw [IdentifyNamespace.fidxu, hflbas]
    rfl
  -- twenty formats, so that FIDXU counts
  have hcount : ns.formatCount = 20 := by
    rw [IdentifyNamespace.formatCount, hnlbaf, hnulbaf, twentyFormats, hbyte (by decide),
      hbyte (by decide)]
    rfl
  have hformatted : ns.formattedIndex.val = 16 := by
    rw [IdentifyNamespace.formattedIndex, if_pos (by omega)]
    dsimp only
    omega
  have htaken : ns.formatIndex.val = 0 := hfidxl
  refine ⟨ns, hdata, ?_, ?_⟩
  · rw [IdentifyNamespace.formattedLbads, hlbads, hformatted, twentyFormats, hbyte (by decide)]
    rfl
  · rw [IdentifyNamespace.takenLbads, hlbads, htaken, twentyFormats, hbyte (by decide)]
    rfl

/-- Not every driver learns the size of the format in use. -/
theorem learns_wrong_format : ¬ ∀ (p : Profile) (data : List UInt8) (ns : IdentifyNamespace)
    (d : NvmeUserspaceDriver), data.length = IDENTIFY_SIZE →
    IdentifyNamespace.readFromPrefix data = some ns → d.Shaped → d.DoorbellsMapped →
    d.blockSizes d.nsid = none → Learns p data (2 ^ ns.formattedLbads) d := by
  intro h
  obtain ⟨ns, hdata, hformatted, htaken⟩ := read_twentyFormats
  have hlen : twentyFormats.length = IDENTIFY_SIZE := length_identifyData _
  have hlearns := h .release twentyFormats ns freshDriver hlen hdata freshDriver_shaped
    freshDriver_mapped rfl
  -- the driver would have to take the entry that the namespace is formatted with
  have htakes := (blockSizeOf_eq_iff hdata).mp
    ((learns_iff freshDriver_shaped freshDriver_mapped rfl hlen).mp hlearns)
  rw [TakesFormatted, hformatted, htaken] at htakes
  exact absurd htakes.1 (by decide)

end Nvmetoy
