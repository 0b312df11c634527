import Nvmetoy.Controller

/-!
# The array of blocks

What a namespace is for: an array of `B`-byte blocks, kept as one byte memory. A write that ends
well replaces the blocks it names, a read that ends well gives their contents, and nothing else
changes a block.

* `Call.Accepted` — the calls that lead to a command on the I/O queue.
* `Did` — one call.
* `BlockRun` — the calls of a run, in order.
* `Explained` — the calls of a run have done what they did to an array of blocks. The namespace is
  that array, but for the first bytes of a write in progress.
-/

namespace Nvmetoy

open Framework NvmeUserspaceDriver

/-- A read or write call of a size that can be transferred. -/
def Call.Accepted (B : Nat) : Call → Prop
  | identifyController => False
  | read _ blockCount => blockCount ≠ 0 ∧ B * blockCount.toNat ≤ MAX_TRANSFER_BYTES
  | write _ data => Accepts B data

/-- What a call does to the blocks `b`, ending with a result. -/
inductive Did (B : Nat) (b : Mem) : Call → Except IoError (List UInt8) → Mem → Prop where
  | identify (bytes : List UInt8) : Did B b .identifyController (.ok bytes) b
  | read (slba : UInt64) (blockCount : UInt16) (h : (Call.read slba blockCount).Accepted B) :
      Did B b (.read slba blockCount) (.ok (b.read (slba.toNat * B) (blockCount.toNat * B))) b
  | write (slba : UInt64) (data : List UInt8) (h : (Call.write slba data).Accepted B) :
      Did B b (.write slba data) (.ok []) (b.write (slba.toNat * B) data)
  -- a failed call is one that did nothing
  | failed (call : Call) (e : IoError) : Did B b call (.error e) b

/-- The calls have taken the blocks `b₀` to `b`. -/
inductive BlockRun (B : Nat) (b₀ : Mem) : List CallRecord → Mem → Prop where
  | nil : BlockRun B b₀ [] b₀
  | snoc {calls : List CallRecord} {record : CallRecord} {b b' : Mem} (h : BlockRun B b₀ calls b)
      (hdid : Did B b record.call record.result b') : BlockRun B b₀ (calls ++ [record]) b'

/-- The last call. -/
theorem BlockRun.last {B : Nat} {b₀ b' : Mem} {calls : List CallRecord} {record : CallRecord}
    (h : BlockRun B b₀ (calls ++ [record]) b') :
    ∃ b, BlockRun B b₀ calls b ∧ Did B b record.call record.result b' := by
  generalize hall : calls ++ [record] = all at h
  cases h with
  | nil => simp at hall
  | snoc hrun hdid =>
    obtain ⟨rfl, hlast⟩ := List.append_inj' hall rfl
    obtain rfl := List.singleton_inj.mp hlast
    exact ⟨_, hrun, hdid⟩

/-- The namespace, while a call is in progress on the blocks `b`. -/
def Underneath (B : Nat) (b : Mem) (current : Option Call) (disk : Mem) : Prop :=
  match current with
  | some (.write slba data) => ∃ n, disk = b.write (slba.toNat * B) (data.take n)
  | _ => disk = b

/-- What no call has touched is as it was. -/
theorem Underneath.refl (B : Nat) (b : Mem) (current : Option Call) : Underneath B b current b := by
  unfold Underneath
  split
  · exact ⟨0, by rw [List.take_zero, Mem.write_nil]⟩
  · rfl

/-- The calls that have ended, and the one in progress, explain the namespace. -/
def Explained (B : Nat) (b₀ : Mem) (w : World) : Prop :=
  ∃ b, BlockRun B b₀ w.calls b ∧ Underneath B b w.current w.disk

end Nvmetoy
