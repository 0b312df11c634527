import Nvmetoy.Framework.Guard
import Nvmetoy.Footprint

/-!
# The mappings of the device

The driver works through two mappings, the BAR and the hugepage, and through the file of the PCI
configuration space. Each access is unsafe code that is right under a condition: the mapping is
live, the access lies inside it and is aligned, the device may be touched at all. `Permits` is that
condition, and `Mappings` what it is about. Whatever the system and the controller respond, the
operations of `open` are permitted where they are issued (`openDriver_permitted`), and so are those
of the calls on the driver that it returns (`permitted_of_inbounds`). Each of the two is mapped once
at most, and what has been mapped is unmapped, once, when `open` fails or panics at any point, and
when the driver is dropped (`drop_permitted`).
-/

namespace Nvmetoy

open Framework Machine NvmeUserspaceDriver

/-- The link tells that the kernel's driver is not in the way. -/
def DriverLink.free : DriverLink → Bool
  | .notFound => true
  | .failed _ => false
  | .found fileName => fileName != some "nvme".toList

/-- What the process holds of the device, and knows about it. -/
structure Mappings where
  /-- It has been found that the kernel's driver is not in the way. -/
  checked : Bool
  /-- The position in the configuration space, once that is open. -/
  position : Option Nat
  /-- What was read there, at the command register. -/
  command : Option UInt16
  /-- The device may answer to memory accesses, and make them. -/
  master : Bool
  bar : Option NvmeBar
  dma : Option DmaRegion
  /-- The BAR has been mapped, now or before. -/
  barMapped : Bool
  /-- The hugepage has been mapped, now or before. -/
  dmaMapped : Bool

theorem HugePageAddress.fits (physical : HugePageAddress) :
    physical.val.toNat + HUGE_PAGE_SIZE ≤ U64_SIZE :=
  physical.property

namespace Mappings

/-- A process that has just started. -/
def initial : Mappings := ⟨false, none, none, false, none, none, false, false⟩

/-- What a response tells, or an operation does. -/
def after (m : Mappings) : (o : Op) → Res o → Mappings
  | .readDriverLink _, link => { m with checked := link.free }
  | .configOpen _, .ok _ => { m with position := some 0 }
  | .configSeek position, .ok _ => { m with position := some position }
  | .configRead len, .ok bytes => { m with
      position := m.position.map (· + len)
      command := if m.position = some 4 then some (.ofNat (ofLe bytes.val)) else m.command }
  | .configWrite bytes, .ok _ => { m with
      position := m.position.map (· + bytes.length)
      master := true }
  | .mapBar _ _, .ok length => { m with bar := some ⟨length⟩, barMapped := true }
  | .allocHuge, .ok physical => { m with
      dma := some ⟨HUGE_PAGE_SIZE, physical.val, physical.fits⟩
      dmaMapped := true }
  | .unmapBar, _ => { m with bar := none }
  | .unmapDma, _ => { m with dma := none }
  | _, _ => m

/-- The process before any response of the device, or after: any response is possible. -/
def machine : Machine Op Res Mappings where
  act := fun o m r m' => m' = m.after o r
  env := fun _ _ => False

end Mappings

/-- Where an operation is right. The command register is rewritten in place, with the two bits
added to what it held. Each mapping is made where there has been none before. -/
def Permits : Op → Mappings → Prop
  | .readDriverLink _, _ | .println _, _ | .alloc _, _ => True
  | .configOpen _, m => m.checked = true
  | .configSeek _, m | .configRead _, m => m.position.isSome
  | .configWrite bytes, m => m.position = some 4 ∧ ∃ before, m.command = some before ∧
      bytes = toLe 2 (before ||| ((1 : UInt16) <<< 1) ||| ((1 : UInt16) <<< 2)).toNat
  | .mapBar _ _, m => m.checked = true ∧ m.master = true ∧ m.barMapped = false ∧ m.bar = none ∧
      m.dma = none
  | .allocHuge, m => m.bar.isSome ∧ m.dmaMapped = false ∧ m.dma = none
  | .unmapBar, m => m.bar.isSome
  | .unmapDma, m => m.dma.isSome
  | o, m => ∃ bar dma, m.bar = some bar ∧ m.dma = some dma ∧ Inbounds bar dma o

/-- Every operation can be responded to. -/
theorem res_nonempty (o : Op) : Nonempty (Res o) := by
  cases o with
  | readBytes offset len => exact ⟨⟨List.replicate len 0, List.length_replicate⟩⟩
  | configRead len => exact ⟨.error (.os "")⟩
  | allocHuge => exact ⟨.error (.os "")⟩
  | mapBar bdf index => exact ⟨.ok 0⟩
  | readDriverLink bdf => exact ⟨.notFound⟩
  | configOpen bdf => exact ⟨.ok ()⟩
  | configSeek position => exact ⟨.ok ()⟩
  | configWrite bytes => exact ⟨.ok ()⟩
  | readSqe offset => exact ⟨.decode []⟩
  | readCqe offset => exact ⟨.decode []⟩
  | read32 offset => exact ⟨0⟩
  | read64 offset => exact ⟨0⟩
  | _ => exact ⟨()⟩

/-- The machine, with the rule. -/
abbrev ruled : Machine Op Res (Option Mappings) := Mappings.machine.guarded Permits

/-- Nothing is mapped. -/
def Unmapped (m : Mappings) : Prop := m.bar = none ∧ m.dma = none

/-- Nothing has been mapped yet. -/
def NeverMapped (m : Mappings) : Prop :=
  Unmapped m ∧ m.barMapped = false ∧ m.dmaMapped = false

/-- The mappings are those of a driver. -/
def MappedAs (bar : NvmeBar) (dma : DmaRegion) (m : Mappings) : Prop :=
  m.bar = some bar ∧ m.dma = some dma

section Rules

variable {σ α : Type} {P : Mappings → Prop} {bar : NvmeBar} {dma : DmaRegion} {p : Profile} {s : σ}

/-- Nothing else moves, so what is held stays held. -/
theorem still (P : Mappings → Prop) : ruled.Stable (Held P) :=
  held_stable fun _ _ _ henv => henv.elim

theorem held_any {u : Option Mappings} (h : Held P u) : Held (fun _ => True) u :=
  h.mono fun _ _ => trivial

/-- After an operation that is permitted. -/
theorem ruled_call {β : Type} {o : Op} {f : Res o → Method Op Res σ IoError β}
    {R : Res o → Mappings → Prop} {Q : Outcome IoError β × σ → Option Mappings → Prop}
    (ho : ∀ m, P m → Permits o m) (hR : ∀ m r, P m → R r (m.after o r))
    (hf : ∀ r, ruled.Triple (Held fun _ => True) (Held (R r)) (f r s) Q) :
    ruled.Triple (Held fun _ => True) (Held P) ((Method.call o >>= f) s) Q := by
  refine Triple.call_bind (R := fun r => Held (R r)) (still P) (fun _ => held_any) ?_ hf
  refine held_act ho ?_
  rintro m r m' hm rfl
  exact hR m r hm

/-- The last operation. -/
theorem ruled_last {o : Op} {R : Mappings → Prop} (ho : ∀ m, P m → Permits o m)
    (hR : ∀ m r, P m → R (m.after o r)) :
    ruled.Triple (Held fun _ => True) (Held P)
      ((Method.call o : Method Op Res σ IoError (Res o)) s) fun _ => Held R :=
  ruled_call (f := fun r => pure r) (R := fun _ => R) ho hR fun _ =>
    Triple.ret (still R) (fun _ => held_any) fun _ => id

/-- An access changes nothing about the mappings. -/
theorem Inbounds.after {o : Op} (ho : Inbounds bar dma o) (m : Mappings) :
    ∀ r, m.after o r = m := by
  intro r
  cases o <;> first | exact ho.elim | rfl

/-- An access inside a mapping is permitted while it lasts. -/
theorem Inbounds.permits {o : Op} {m : Mappings} (ho : Inbounds bar dma o)
    (hm : MappedAs bar dma m) : Permits o m := by
  cases o <;> first | exact ho.elim | trivial | exact ⟨bar, dma, hm.1, hm.2, ho⟩

/-- **Accesses inside the mappings**, by a method that issues no others. -/
theorem permitted_of_inbounds {ψ : α → Prop} {m : Prog Op Res α}
    (hm : m.Sat Prog.Any (Inbounds bar dma) ψ) :
    ruled.Triple (Held fun _ => True) (Held (MappedAs bar dma)) m fun a u =>
      ψ a ∧ Held (MappedAs bar dma) u := by
  refine held_sat hm (fun _ _ _ henv => henv.elim) (fun o w ho hw => ho.permits hw) ?_
  rintro o w r w' ho hw rfl
  rwa [ho.after]

/-- The drop unmaps both, in the order of the fields. -/
theorem drop_permitted :
    ruled.Triple (Held fun _ => True) (Held (MappedAs bar dma))
      ((drop : Method Op Res σ IoError Unit) s) fun _ => Held Unmapped := by
  refine ruled_call (R := fun _ m => m.bar = none ∧ m.dma = some dma)
    (fun m hm => ?_) (fun m _ hm => ⟨rfl, hm.2⟩) fun _ => ?_
  · show m.bar.isSome
    rw [hm.1]
    rfl
  · refine ruled_last (fun m hm => ?_) fun m _ hm => ⟨hm.1, rfl⟩
    show m.dma.isSome
    rw [hm.2]
    rfl

/-! ### `open` -/

/-- The answer of a call of the system. -/
theorem ruled_question {β : Type} {o : Op} {f : Res o → Except IoError α}
    {g : α → Method Op Res σ IoError β} {R : α → Mappings → Prop} {S : β → Mappings → Prop}
    {U : Mappings → Prop} (ho : ∀ m, P m → Permits o m)
    (hok : ∀ m r a, P m → f r = .ok a → R a (m.after o r))
    (herr : ∀ m r e, P m → f r = .error e → U (m.after o r))
    (hg : ∀ a, ruled.Triple (Held fun _ => True) (Held (R a)) (g a s)
      (Ends (fun b => Held (S b)) (Held U))) :
    ruled.Triple (Held fun _ => True) (Held P)
      ((Method.call o >>= fun r => question (f r) >>= g) s)
      (Ends (fun b => Held (S b)) (Held U)) := by
  refine ruled_call (R := fun r m => (∀ a, f r = .ok a → R a m) ∧ ∀ e, f r = .error e → U m) ho
    (fun m r hm => ⟨fun a => hok m r a hm, fun e => herr m r e hm⟩) fun r => ?_
  -- what `?` does depends on the answer alone
  cases hr : f r with
  | ok a => exact (hg a).pre fun u hu => hu.mono fun m hm => hm.1 a rfl
  | error e =>
    exact Triple.ret (still _) (fun _ => held_any) fun u hu => hu.mono fun m hm => hm.2 e rfl

/-- The last of them. -/
theorem ruled_answer {o : Op} {f : Res o → Except IoError α} {S : α → Mappings → Prop}
    {U : Mappings → Prop} (ho : ∀ m, P m → Permits o m)
    (hok : ∀ m r a, P m → f r = .ok a → S a (m.after o r))
    (herr : ∀ m r e, P m → f r = .error e → U (m.after o r)) :
    ruled.Triple (Held fun _ => True) (Held P)
      ((Method.call o >>= fun r => question (f r) : Method Op Res σ IoError α) s)
      (Ends (fun a => Held (S a)) (Held U)) := by
  have hend : (fun r => (question (f r) : Method Op Res σ IoError α)) =
      fun r => question (f r) >>= pure := funext fun r => (Method.bind_pure _).symm
  rw [hend]
  exact ruled_question ho hok herr fun a => Triple.ret (still _) (fun _ => held_any) fun _ => id

/-- The check comes before every mapping. -/
theorem refuse_permitted (bdf : Str) :
    ruled.Triple (Held fun _ => True) (Held NeverMapped)
      ((refuseIfKernelDriverBound bdf : Method Op Res σ IoError Unit) s)
      (Ends (fun _ => Held fun m => m.checked = true ∧ NeverMapped m) (Held Unmapped)) := by
  refine ruled_call (R := fun link m => m.checked = DriverLink.free link ∧ NeverMapped m)
    (fun _ _ => trivial) (fun m link hm => ⟨rfl, hm⟩) fun link => ?_
  -- the answer says whether the device is free, and the code asks the same
  have hrefused (e : IoError) : ruled.Triple (Held fun _ => True)
      (Held fun m => m.checked = DriverLink.free link ∧ NeverMapped m)
      ((Method.fail e : Method Op Res σ IoError Unit) s)
      (Ends (fun _ => Held fun m => m.checked = true ∧ NeverMapped m) (Held Unmapped)) :=
    Triple.ret (still _) (fun _ => held_any) fun _ hu => hu.mono fun _ hm => hm.2.1
  have hfree (h : DriverLink.free link = true) : ruled.Triple (Held fun _ => True)
      (Held fun m => m.checked = DriverLink.free link ∧ NeverMapped m)
      ((pure () : Method Op Res σ IoError Unit) s)
      (Ends (fun _ => Held fun m => m.checked = true ∧ NeverMapped m) (Held Unmapped)) :=
    Triple.ret (still _) (fun _ => held_any) fun _ hu => hu.mono fun _ hm => ⟨hm.1.trans h, hm.2⟩
  cases link with
  | notFound => exact hfree rfl
  | failed e => exact hrefused e
  | found fileName =>
    show ruled.Triple _ _ ((if fileName = some "nvme".toList then Method.fail _ else pure ()) s) _
    -- only a device that is bound to the nvme driver is refused
    by_cases hnvme : fileName = some "nvme".toList
    · rw [if_pos hnvme]
      exact hrefused _
    · rw [if_neg hnvme]
      exact hfree (bne_iff_ne.mpr hnvme)

theorem enable_permitted (bdf : Str) :
    ruled.Triple (Held fun _ => True) (Held fun m => m.checked = true ∧ NeverMapped m)
      ((enableBusMaster bdf : Method Op Res σ IoError Unit) s)
      (Ends (fun _ => Held fun m => m.checked = true ∧ m.master = true ∧ NeverMapped m)
        (Held Unmapped)) := by
  -- the file is opened, and the register sought
  refine ruled_question (o := .configOpen bdf) (f := fun r => r)
    (R := fun _ m => m.position = some 0 ∧ m.checked = true ∧ NeverMapped m)
    (fun m hm => hm.1) ?_ ?_ fun _ => ?_
  · rintro m r a hm rfl
    exact ⟨rfl, hm⟩
  · rintro m r e hm rfl
    exact hm.2.1
  refine ruled_question (o := .configSeek 4) (f := fun r => r)
    (R := fun _ m => m.position = some 4 ∧ m.checked = true ∧ NeverMapped m)
    (fun m hm => ?_) ?_ ?_ fun _ => ?_
  · show m.position.isSome
    rw [hm.1]
    rfl
  · rintro m r a hm rfl
    exact ⟨rfl, hm.2⟩
  · rintro m r e hm rfl
    exact hm.2.2.1
  -- the register is read, and its value kept
  refine ruled_question (o := .configRead 2) (f := fun r => r)
    (R := fun buffer m => (m.position.isSome ∧ m.command = some (.ofNat (ofLe buffer.val))) ∧
      m.checked = true ∧ NeverMapped m)
    (fun m hm => ?_) ?_ ?_ fun buffer => ?_
  · show m.position.isSome
    rw [hm.1]
    rfl
  · rintro m r a hm rfl
    refine ⟨⟨?_, ?_⟩, hm.2⟩
    · simp [Mappings.after, hm.1]
    · simp [Mappings.after, hm.1]
  · rintro m r e hm rfl
    exact hm.2.2.1
  refine ruled_question (o := .configSeek 4) (f := fun r => r)
    -- the position is set back, the value still known
    (R := fun _ m => (m.position = some 4 ∧ m.command = some (.ofNat (ofLe buffer.val))) ∧
      m.checked = true ∧ NeverMapped m)
    (fun m hm => hm.1.1) ?_ ?_ fun _ => ?_
  · rintro m r a hm rfl
    exact ⟨⟨rfl, hm.1.2⟩, hm.2⟩
  · rintro m r e hm rfl
    exact hm.2.2.1
  -- and written back with the two bits
  refine ruled_answer (o := .configWrite _) (f := fun r => r)
    (fun m hm => ⟨hm.1.1, _, hm.1.2, rfl⟩) ?_ ?_
  · rintro m r a hm rfl
    exact ⟨hm.2.1, rfl, hm.2.2⟩
  · rintro m r e hm rfl
    exact hm.2.2.1

/-- The BAR alone has been mapped. -/
structure BarOnly (bar : NvmeBar) (m : Mappings) : Prop where
  bar : m.bar = some bar
  never : m.dmaMapped = false
  dma : m.dma = none

/-- The hugepage; if there is none, the BAR is unmapped again. -/
theorem alloc_permitted :
    ruled.Triple (Held fun _ => True) (Held (BarOnly bar))
      ((Method.unwinding (Method.call Op.unmapBar) (do
        question (← Method.call Op.allocHuge)) : Method Op Res σ IoError HugePageAddress) s)
      (Ends (fun physical => Held (MappedAs bar ⟨HUGE_PAGE_SIZE, physical.val, physical.property⟩))
        (Held Unmapped)) := by
  have hbar {m : Mappings} (hm : BarOnly bar m) : m.bar.isSome := by
    rw [hm.bar]
    rfl
  -- a failed allocation leaves the BAR alone,
  have halloc : ruled.Triple (Held fun _ => True) (Held (BarOnly bar))
      ((do question (← Method.call Op.allocHuge) : Method Op Res σ IoError HugePageAddress) s)
      (Ends (fun physical =>
        Held (MappedAs bar ⟨HUGE_PAGE_SIZE, physical.val, physical.property⟩))
        (Held (BarOnly bar))) := by
    refine ruled_answer (o := .allocHuge) (f := fun r => r)
      (fun m hm => ⟨hbar hm, hm.never, hm.dma⟩) ?_ ?_
    · rintro m r a hm rfl
      exact ⟨hm.bar, rfl⟩
    · rintro m r e hm rfl
      exact hm
  -- which is then unmapped
  have hunmap (t : σ) : ruled.Triple (Held fun _ => True)
      (Held (BarOnly bar))
      ((Method.call Op.unmapBar : Method Op Res σ IoError Unit) t) fun _ => Held Unmapped :=
    ruled_last (fun m hm => hbar hm) fun m _ hm => ⟨rfl, hm.dma⟩
  exact Triple.unwinding halloc (fun _ _ _ => id) (fun _ t => hunmap t) fun _ t => hunmap t

/-- The capabilities are read with both mappings, which go if the register is out of bounds. -/
theorem capabilities_permitted :
    ruled.Triple (Held fun _ => True) (Held (MappedAs bar dma))
      ((Method.unwinding (do Method.call Op.unmapDma; Method.call Op.unmapBar)
        bar.readCapabilities : Method Op Res σ IoError UInt64) s)
      (Ends (fun _ => Held (MappedAs bar dma)) (Held Unmapped)) := by
  have hread : Method.Only (Inbounds bar dma)
      (bar.readCapabilities : Method Op Res σ IoError UInt64) :=
    stays_checked NvmeBar.bounds_of_check
  -- a failed read gives up both mappings
  have hunmap (t : σ) : ruled.Triple (Held fun _ => True) (Held (MappedAs bar dma))
      ((do Method.call Op.unmapDma; Method.call Op.unmapBar : Method Op Res σ IoError Unit) t)
      fun _ => Held Unmapped := by
    refine ruled_call (R := fun _ m => m.bar = some bar ∧ m.dma = none)
      (fun m hm => ?_) (fun m _ hm => ⟨hm.1, rfl⟩) fun _ => ?_
    · show m.dma.isSome
      rw [hm.2]
      rfl
    · refine ruled_last (fun m hm => ?_) fun m _ hm => ⟨rfl, hm.2⟩
      show m.bar.isSome
      rw [hm.1]
      rfl
  -- the read itself stays in the mapping, which is as before
  have hkept := (permitted_of_inbounds (hread s trivial)).post fun _ _ hu => hu.2
  exact Triple.unwinding hkept (fun _ _ _ => id) (fun _ t => hunmap t) fun _ t => hunmap t

/-- **`open`**, wherever it ends. -/
theorem openDriver_permitted (bdf : Str) (nsid : UInt32) :
    ruled.Triple (Held fun _ => True) (Held NeverMapped)
      ((openDriver p bdf nsid : Method Op Res σ IoError NvmeUserspaceDriver) s)
      (Ends (fun d => Held (MappedAs d.nvmeBar d.dmaRegion)) (Held Unmapped)) := by
  refine Triple.method_bind (refuse_permitted bdf) (fun _ t => ?_) (fun _ _ _ => id)
    fun _ _ _ => id
  refine Triple.method_bind (enable_permitted bdf) (fun _ t => ?_) (fun _ _ _ => id)
    fun _ _ _ => id
  refine ruled_question (o := .mapBar bdf 0) (f := fun r => r)
    (R := fun length => BarOnly ⟨length⟩)
    (fun m hm => ?_) ?_ ?_ fun length => ?_
  · -- the BAR is mapped after both checks, for the first time
    obtain ⟨hchecked, hmaster, ⟨hbar, hdma⟩, hnever, -⟩ := hm
    exact ⟨hchecked, hmaster, hnever, hbar, hdma⟩
  · rintro m r a ⟨-, -, ⟨-, hdma⟩, -, hnever⟩ rfl
    exact ⟨rfl, hnever, hdma⟩
  · rintro m r e ⟨-, -, hunmapped, -⟩ rfl
    exact hunmapped
  refine Triple.method_bind alloc_permitted (fun physical t => ?_) (fun _ _ _ => id)
    fun _ _ _ => id
  refine Triple.method_bind capabilities_permitted (fun capabilities t => ?_) (fun _ _ _ => id)
    fun _ _ _ => id
  -- the driver owns the mappings from here on
  refine Triple.unwinding (R := Ends (fun d => Held (MappedAs d.nvmeBar d.dmaRegion))
      (Held (MappedAs ⟨length⟩ ⟨HUGE_PAGE_SIZE, physical.val, physical.property⟩)))
    (Triple.owning ?_) (fun _ _ _ => id) (fun _ t => drop_permitted) fun _ t => drop_permitted
  let region : DmaRegion := ⟨HUGE_PAGE_SIZE, physical.val, physical.property⟩
  have hfresh : Holds ⟨length⟩ region
      (.fresh ⟨length⟩ region (doorbellStrideOf capabilities) nsid) := ⟨rfl, rfl⟩
  refine (permitted_of_inbounds (inbounds_bringUp _ hfresh)).post ?_
  rintro ⟨x, d⟩ u ⟨⟨hbar, hdma⟩, hu⟩
  cases x with
  | err e => exact hu
  | panic why => exact hu
  | ok _ =>
    rw [← hbar, ← hdma] at hu
    exact hu

end Rules

end Nvmetoy
