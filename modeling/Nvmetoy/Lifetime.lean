import Nvmetoy.Responses

/-!
# The life of a driver

A caller has a driver from `open` and makes calls on it, any number and in any order
(`Reachable`). A call may fail in any way its controller brings about, and the driver goes on
from there. What is kept through such a life is `Ready`: the queues are in place, and the block
size that `open` has learnt is the one every later call works with (`Reachable.ready`).
-/

namespace Nvmetoy

open Framework NvmeUserspaceDriver

/-- One call. A `write` that ends well gives no bytes. -/
def perform (p : Profile) : Call → DriverMethod (List UInt8)
  | .identifyController => identifyController
  | .read slba blockCount => read p slba blockCount
  | .write slba data => do
    write p slba data
    pure []

/-- The drivers that `open` returns and that calls leave behind, however those end. -/
inductive Reachable (p : Profile) (bdf : Str) (nsid : UInt32) : NvmeUserspaceDriver → Prop where
  | opened {d : NvmeUserspaceDriver}
      (h : ((openDriver p bdf nsid : Method Op Res Unit IoError _) ()).Returns Prog.Any
        (.ok d, ())) : Reachable p bdf nsid d
  | called {d d' : NvmeUserspaceDriver} {x : Outcome IoError (List UInt8)} (call : Call)
      (hd : Reachable p bdf nsid d) (h : (perform p call d).Returns Prog.Any (x, d')) :
      Reachable p bdf nsid d'

variable {p : Profile} {bdf : Str} {nsid : UInt32} {d d' : NvmeUserspaceDriver} {B : Nat}
  {R : (o : Op) → Res o → Prop}

/-- **The step**: a call changes the queues alone. -/
theorem sat_perform (hd : d.Ready B) (call : Call) :
    (perform p call d).Sat R (fun _ => True) fun x => d.Kept x.2 := by
  cases call with
  | identifyController => exact sat_identify_kept hd.toShaped
  -- what a read or a write does to the queues is part of what it does
  | read slba blockCount => exact (sat_read hd).mono (fun _ _ => trivial) fun _ h => h.1
  | write slba data =>
    refine sat_bind_kept ((sat_write hd).mono (fun _ _ => trivial) fun _ h => h.1) ?_
    exact fun _ t ht => ht

/-- **The run**, by induction on the calls. -/
theorem Reachable.ready (h : Reachable p bdf nsid d) : d.nsid = nsid ∧ ∃ B, d.Ready B := by
  induction h with
  | opened h => exact sat_openDriver.returns h _ rfl
  | called call _ h ih =>
    obtain ⟨hnsid, B, hd⟩ := ih
    have hk := (sat_perform hd call).returns h
    refine ⟨?_, B, hk.ready hd⟩
    obtain ⟨_, _, rfl, -⟩ := hk
    exact hnsid

end Nvmetoy
