import Mathlib.Data.List.Induction
import Nvmetoy.BlockDevice

/-!
# The last write wins

The blocks that a run of calls leads to are given by recursion on the calls (`BlockRun`). Here they
are read off the calls one byte at a time: the byte at an address is the one that the last call to
put a byte there has put, or the one that was there before the first call (`BlockRun.newest`). So
what a read returns is decided by the calls before it, and by these alone
(`lifetime_reads_newest`), whatever the driver and the controller did in between.

* `CallRecord.puts` — the byte that a call has put at an address.
* `Newest` — the last of them.
-/

namespace Nvmetoy

open Framework Machine NvmeUserspaceDriver

/-- The byte that a call has put at an address of the disk. -/
def CallRecord.puts (B : Nat) (record : CallRecord) (x : Nat) : Option UInt8 :=
  match record.call, record.result with
  | .write slba data, .ok _ => if slba.toNat * B ≤ x then data[x - slba.toNat * B]? else none
  | _, _ => none

/-- The last call that has put a byte there has put `value`; or none has, and it was there. -/
def Newest (B : Nat) (b₀ : Mem) (calls : List CallRecord) (x : Nat) (value : UInt8) : Prop :=
  (∃ earlier record later, calls = earlier ++ record :: later ∧ record.puts B x = some value ∧
    ∀ r ∈ later, r.puts B x = none) ∨
  (∀ r ∈ calls, r.puts B x = none) ∧ value = b₀ x

section Calls

variable {B : Nat} {b₀ b b' : Mem} {calls before after : List CallRecord} {record : CallRecord}
  {x : Nat} {value : UInt8}

/-- A call that has put a byte there is the last one. -/
theorem newest_of_puts (h : record.puts B x = some value) :
    Newest B b₀ (calls ++ [record]) x value :=
  .inl ⟨calls, record, [], rfl, h, fun _ hr => absurd hr List.not_mem_nil⟩

/-- A call that has put none there changes nothing. -/
theorem Newest.still (h : Newest B b₀ calls x value) (hnone : record.puts B x = none) :
    Newest B b₀ (calls ++ [record]) x value := by
  have hlast {rest : List CallRecord} (hrest : ∀ r ∈ rest, r.puts B x = none) :
      ∀ r ∈ rest ++ [record], r.puts B x = none := by
    intro r hr
    rcases List.mem_append.mp hr with hr | hr
    · exact hrest r hr
    · exact List.mem_singleton.mp hr ▸ hnone
  -- the new call joins those after the last one that counts, or all of them
  rcases h with ⟨earlier, r, later, rfl, hputs, hlater⟩ | ⟨hall, hvalue⟩
  · refine .inl ⟨earlier, r, later ++ [record], ?_, hputs, hlast hlater⟩
    rw [List.append_assoc, List.cons_append]
  · exact .inr ⟨hlast hall, hvalue⟩

/-- **One call**, byte by byte. -/
theorem Did.puts (h : Did B b record.call record.result b') (x : Nat) :
    b' x = (record.puts B x).getD (b x) := by
  obtain ⟨call, number, result⟩ := record
  change Did B b call result b' at h
  cases h with
  | identify bytes => rfl
  | read slba blockCount haccepted => rfl
  | write slba data haccepted =>
    show b.write (slba.toNat * B) data x =
      (if slba.toNat * B ≤ x then data[x - slba.toNat * B]? else none).getD (b x)
    rw [Mem.write]
    split
    · rfl
    · rfl
  -- a write that has failed has put nothing, whatever its payload
  | failed call e => cases call <;> rfl

/-- **The blocks, byte by byte**, by induction on the calls. -/
theorem BlockRun.newest (h : BlockRun B b₀ calls b) (x : Nat) :
    Newest B b₀ calls x (b x) := by
  induction h with
  | nil => exact .inr ⟨fun r hr => absurd hr List.not_mem_nil, rfl⟩
  | @snoc calls record b b' hrun hdid ih =>
    have hbyte := hdid.puts x
    -- either this call is the last one there, or the byte is as it was
    cases hputs : record.puts B x with
    | some value =>
      rw [hputs] at hbyte
      exact newest_of_puts (hputs.trans (congrArg some hbyte.symm))
    | none =>
      rw [hputs] at hbyte
      have hsame : b' x = b x := hbyte
      rw [hsame]
      exact ih.still hputs

/-- A call in the middle of a run. -/
theorem BlockRun.split (h : BlockRun B b₀ (before ++ record :: after) b') :
    ∃ b₁ b₂, BlockRun B b₀ before b₁ ∧ Did B b₁ record.call record.result b₂ := by
  induction after using List.reverseRecOn generalizing b' with
  | nil =>
    obtain ⟨b, hrun, hdid⟩ := h.last
    exact ⟨b, b', hrun, hdid⟩
  | append_singleton after last ih =>
    rw [← List.cons_append, ← List.append_assoc] at h
    obtain ⟨b, hrun, -⟩ := h.last
    exact ih hrun

/-- What a read has returned. -/
theorem Did.reads {slba : UInt64} {blockCount : UInt16} {data : List UInt8}
    (h : Did B b (.read slba blockCount) (.ok data) b') :
    data = b.read (slba.toNat * B) (blockCount.toNat * B) := by
  cases h with
  | read => rfl

end Calls

/-- **A read returns what was written last.** In every run of the driver in which nothing has timed
out, each byte that a read has returned is the one that the last successful write to its address has
put there, of all the calls before the read, or the byte that was there when the device was opened.
With no call in progress, the same holds of the disk. -/
theorem lifetime_reads_newest (P : Platform) (N : Namespace) (p : Profile) (bdf : Str)
    (nsid : UInt32) (calls : List Call) (w₀ : World)
    (halign : P.base.val.toNat % PAGE_SIZE = 0) (hformat : N.Formatted nsid)
    (hdisk : 512 ≤ N.blockSize) (hplain : N.Plain p nsid)
    (hreads : Unwrapped p N.blockSize calls) (hstart : NeverUsed w₀)
    (c : Config Op Res World (Outcome IoError Unit × Unit))
    (hc : (machine P (servingController N) InTime).Reaches
      (lifetime p bdf nsid calls (), w₀) c) :
    (∀ before after slba blockCount number data,
      c.2.calls = before ++ ⟨.read slba blockCount, number, .ok data⟩ :: after →
      data.length = blockCount.toNat * N.blockSize ∧ ∀ i (h : i < data.length),
        Newest N.blockSize w₀.disk before (slba.toNat * N.blockSize + i) data[i]) ∧
    (c.2.current = none → ∀ x, Newest N.blockSize w₀.disk c.2.calls x (c.2.disk x)) := by
  have hlife : (machine P (servingController N) InTime).Triple (SingleTask P N True w₀.disk) _
      (lifetime p bdf nsid calls ()) _ := lifetime_triple halign (inTime_regime P N) bdf nsid
    (fun data size hdata hsize => hformat.learns hplain hdata hsize) hformat.pos
    (hreads.fits hdisk)
  -- the calls explain the disk, and the reads what they returned
  obtain ⟨b, hrun, hunder⟩ := (hlife w₀ ⟨hstart.toBeforeOpen, hstart.unused⟩ c hc).1.explained
    trivial
  refine ⟨fun before after slba blockCount number data hcalls => ?_, fun hnone x => ?_⟩
  -- the read has seen the blocks that the calls before it had left
  · rw [hcalls] at hrun
    obtain ⟨b₁, b₂, hbefore, hdid⟩ := hrun.split
    obtain rfl := hdid.reads
    refine ⟨Mem.length_read, fun i hi => ?_⟩
    rw [Mem.getElem_read]
    exact hbefore.newest _
  · rw [hnone] at hunder
    have hdisk : c.2.disk = b := hunder
    rw [hdisk]
    exact hrun.newest x

/-- A read of one block. -/
theorem lifetime_reads_newest_one : ∃ c earlier number bytes,
    (machine .twoPages (servingController .ofSectors) InTime).Reaches
      (lifetime .release [] 1 [.read 0 1] (), World.zeroed) c ∧
    c.2.calls = earlier ++ [⟨.read 0 1, number, .ok bytes⟩] ∧ bytes.length = 512 ∧
    ∀ i (h : i < bytes.length), Newest 512 World.zeroed.disk earlier (0 * 512 + i) bytes[i] := by
  obtain ⟨c, earlier, number, bytes, hrun, hexpired, hcalls, hbytes⟩ := reads_512 (p := .release)
    allowsDrained_always 512 (length_namespaceData 9) ofSectors_size (by decide)
  have hreach := reaches_inTime hrun hexpired
  -- one block of 512 bytes does not wrap
  have hreads : Unwrapped .release 512 [.read 0 1] := by
    intro slba blockCount hmem
    obtain ⟨rfl, rfl⟩ := Call.read.inj (List.mem_singleton.mp hmem)
    exact fun _ => .inl (by decide)
  have hnewest := (lifetime_reads_newest .twoPages .ofSectors .release [] 1 [.read 0 1] .zeroed
    twoPages_aligned ofSectors_formatted (show 512 ≤ 512 from le_rfl) ofSectors_plain hreads
    ⟨⟨fun _ => rfl, rfl⟩, rfl, rfl, rfl⟩ c hreach).1 earlier [] 0 1 number bytes hcalls
  exact ⟨c, earlier, number, bytes, hreach, hcalls, hbytes, hnewest.2⟩

end Nvmetoy
