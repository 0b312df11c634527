import Nvmetoy.Repl.Commands
import Nvmetoy.Responses

/-!
# The REPL on a driver

A session is the loop of the REPL with its calls answered by the driver (`serve`). What the
driver answers, and what it puts on the I/O queue, is collected in one specification of
`serve` (`sat_serve`); a property of a session is then a property of the REPL under these
answers (`sat_onDriver`), and conversely (`sat_of_onDriver`), since a driver that is ready
can give each of the answers in `Completes`.
-/

namespace Nvmetoy

open Framework

namespace Repl

open NvmeUserspaceDriver

/-- The driver answers a call of the REPL. An error of the driver is an answer too. -/
def serve (p : Profile) : (o : ReplOp) → DriverMethod (ReplRes o)
  | .read slba blockCount => (NvmeUserspaceDriver.read p slba blockCount).attempt
  | .write slba data => (NvmeUserspaceDriver.write p slba data).attempt
  | .identifyController => NvmeUserspaceDriver.identifyController.attempt
  | .alloc bytes => Method.call (Op.alloc bytes)
  | .println line => Method.call (Op.println line)

/-- A command of the REPL, run on a driver. -/
def onDriver {α : Type} (p : Profile) (command : Command α) : DriverMethod α := do
  let x ← (command ()).interp (serve p)
  Method.lift x.1

/-- `run`, after `open`. The driver is dropped however the REPL ends. -/
def session [Unicode] (p : Profile) (blocks : FileBlocks) (lines : List Str) : DriverMethod Unit :=
  Method.unwinding NvmeUserspaceDriver.drop do
    onDriver p (interact p blocks lines)
    NvmeUserspaceDriver.drop

section Serve

variable {p : Profile} {B : Nat} {d : NvmeUserspaceDriver} {R : (o : Op) → Res o → Prop}

/-- The commands that a call puts on the I/O queue. -/
def Names (p : Profile) (B : Nat) : ReplOp → SubmissionQueueEntry → Prop
  | .read slba blockCount, e => e.slba = slba.toNat ∧ e.blockCount = blockCount.toNat
  | .write slba data, e => Accepts B data ∧ ¬ CutsToZero p B data.length ∧
      e.slba = slba.toNat ∧ e.blockCount = sentBlocks B data.length
  | _, _ => False

/-- What a driver whose namespace has blocks of `B` bytes can answer. -/
def Answers (p : Profile) (B : Nat) : (o : ReplOp) → ReplRes o → Prop
  | .read _ blockCount, .ok data => blockCount ≠ 0 ∧ data.length ≤ MAX_TRANSFER_BYTES ∧
      p.mulUsize B blockCount.toNat = (.ok data.length : Outcome IoError Nat)
  | _, _ => True

/-- The calls whose arithmetic overflows in the driver, where the build checks it. -/
def Overflows (p : Profile) (B : Nat) : ReplOp → Prop
  | .read _ blockCount => p = .debug ∧ U64_SIZE ≤ B * blockCount.toNat
  | .write _ data => Accepts B data ∧ CutsToZero p B data.length
  | _ => False

/-- What the driver issues for a call of the REPL. -/
def Serves (p : Profile) (B : Nat) (o : ReplOp) : Op → Prop
  | .writeSqe offset entry => IO_SUBMISSION_QUEUE_OFFSET ≤ offset → Names p B o entry
  | .alloc bytes => bytes ≤ MAX_TRANSFER_BYTES ∨ o = .alloc bytes
  | _ => True

theorem serves_of_asks {o : ReplOp} {o' : Op} (h : Asks (Names p B o) o') : Serves p B o o' := by
  cases o' <;> first | trivial | exact h | exact .inl h

/-- **The driver, as the REPL sees it.** It never fails outright, and panics only where
its own arithmetic overflows. -/
theorem sat_serve (hd : d.Ready B) (o : ReplOp) :
    (serve p o d).Sat R (Serves p B o) fun x =>
      d.Kept x.2 ∧ (∀ r, x.1 = .ok r → Answers p B o r) ∧ (∀ e, x.1 ≠ .err e) ∧
        (x.1.Panics → d.DoorbellsMapped → Overflows p B o) := by
  cases o with
  | read slba blockCount =>
    refine Method.sat_attempt ((sat_read hd).mono
      (fun o' h => serves_of_asks (h.mono fun _ he => he.2)) ?_)
    rintro ⟨x, t⟩ ⟨hk, hok, hpanic⟩
    -- what a call returns is an answer; an error is one as well
    cases x with
    | ok data =>
      refine ⟨hk, fun r h => ?_, by simp, by simp⟩
      obtain rfl := Outcome.ok.inj h
      exact hok data rfl
    | err e => exact ⟨hk, fun r h => by obtain rfl := Outcome.ok.inj h; trivial, by simp, by simp⟩
    | panic why => exact ⟨hk, by simp, by simp, fun _ hm => hpanic trivial hm⟩
  | write slba data =>
    refine Method.sat_attempt ((sat_write hd).mono
      (fun o' h => serves_of_asks (h.mono fun _ he => ⟨he.1, he.2.1, he.2.2.2⟩)) ?_)
    rintro ⟨x, t⟩ ⟨hk, hpanic⟩
    cases x with
    | ok data => exact ⟨hk, fun _ _ => trivial, by simp, by simp⟩
    | err e => exact ⟨hk, fun _ _ => trivial, by simp, by simp⟩
    | panic why => exact ⟨hk, by simp, by simp, fun _ hm => hpanic trivial hm⟩
  | identifyController =>
    refine Method.sat_attempt ((sat_identify hd.toShaped).mono (fun o' h => serves_of_asks h) ?_)
    rintro ⟨x, t⟩ ⟨hk, -, hpanic⟩
    cases x with
    | ok data => exact ⟨hk, fun _ _ => trivial, by simp, by simp⟩
    | err e => exact ⟨hk, fun _ _ => trivial, by simp, by simp⟩
    | panic why => exact ⟨hk, by simp, by simp, fun _ hm => absurd hm (hpanic trivial)⟩
  | alloc bytes =>
    exact ⟨.inr rfl, fun _ _ => ⟨.refl hd.toShaped, fun _ _ => trivial, by simp, by simp⟩⟩
  | println line =>
    exact ⟨trivial, fun _ _ => ⟨.refl hd.toShaped, fun _ _ => trivial, by simp, by simp⟩⟩

/-- **A session is the REPL with these answers.** What holds of a command under every
answer of a ready driver holds of it on the driver; a panic that the command has not is an
overflow in the driver, or a doorbell outside the BAR. -/
theorem sat_onDriver {α : Type} {command : Command α} {φ : ReplOp → Prop}
    {ψ : Outcome IoError α → Prop} (hd : d.Ready B)
    (hc : (command ()).Sat (Answers p B) φ fun x => ψ x.1) :
    (onDriver p command d).Sat R (fun o' => ∃ o, φ o ∧ Serves p B o o') fun x =>
      d.Kept x.2 ∧
        (ψ x.1 ∨ x.1.Panics ∧ (d.DoorbellsMapped → ∃ o, φ o ∧ Overflows p B o)) := by
  -- the driver in between is the one at the start, but for what it has learnt
  have hserve : ∀ o t, φ o → d.Kept t →
      (serve p o t).Sat R (fun o' => ∃ o, φ o ∧ Serves p B o o') fun x =>
        d.Kept x.2 ∧ (∀ r, x.1 = .ok r → Answers p B o r) ∧ (∀ e, x.1 ≠ .err e) ∧
          (x.1.Panics → d.DoorbellsMapped → Overflows p B o) := by
    intro o t ho ht
    refine (sat_serve (ht.ready hd) o).mono (fun o' h => ⟨o, ho, h⟩) ?_
    exact fun x ⟨hk, hok, herr, hpanic⟩ =>
      ⟨ht.trans hk, hok, herr, fun hx hm => hpanic hx (ht.doorbellsMapped hm)⟩
  have hrun : ((command ()).interp (serve p) d).Sat R (fun o' => ∃ o, φ o ∧ Serves p B o o')
      fun x => match x with
        | (.ok y, t') => d.Kept t' ∧ ψ y.1
        | (.err _, _) => False
        | (.panic _, t') => d.Kept t' ∧ (d.DoorbellsMapped → ∃ o, φ o ∧ Overflows p B o) := by
    refine Prog.sat_interp hc (Kept.refl hd.toShaped) hserve ?_ ?_ ?_ ?_
    · exact fun o r t _ h => ⟨h.1, h.2.1 r rfl⟩
    · exact fun o e t _ h => absurd rfl (h.2.2.1 e)
    · exact fun o why t ho h => ⟨h.1, fun hm => ⟨o, ho, h.2.2.2 trivial hm⟩⟩
    · exact fun y t hy ht => ⟨ht, hy⟩
  refine Method.sat_bind hrun ?_ ?_ ?_
  · exact fun y t hy => ⟨hy.1, .inl hy.2⟩
  · exact fun e t h => h.elim
  · exact fun why t h => ⟨h.1, .inr ⟨trivial, h.2⟩⟩

/-- What a command issues on the driver, whatever it ends with. -/
theorem onDriver_issues {α : Type} {command : Command α} {φ : ReplOp → Prop} (hd : d.Ready B)
    (hc : (command ()).Sat (Answers p B) φ fun _ => True) :
    (onDriver p command d).Sat R (fun o' => ∃ o, φ o ∧ Serves p B o o') fun _ => True :=
  (sat_onDriver (ψ := fun _ => True) hd hc).post fun _ _ => trivial

/-- The answers that every ready driver can be brought to give, by some behaviour of the
controller: what is read is arbitrary, and nothing is said of writes. -/
def Completes (p : Profile) (B : Nat) : (o : ReplOp) → ReplRes o → Prop
  | .read slba blockCount, .ok data => Answers p B (.read slba blockCount) (.ok data)
  | .alloc _, _ => True
  | .println _, _ => True
  | _, _ => False

/-- Every completion is one the driver can return. -/
theorem serve_completes (hd : d.Ready B) (hm : d.DoorbellsMapped) {o : ReplOp} {r : ReplRes o}
    (h : Completes p B o r) : ∃ d', d.Kept d' ∧ (serve p o d).Returns Prog.Any (.ok r, d') := by
  cases o with
  -- of the calls only a read completes here; what it returns is what it is asked to
  | read slba blockCount =>
    match r, h with
    | .ok data, h =>
      obtain ⟨hzero, hmax, htotal⟩ := h
      obtain ⟨d', hret, hk⟩ := read_answers hd hm hzero hmax htotal
      exact ⟨d', hk, Method.returns_attempt.mpr hret⟩
  | write slba data => cases r <;> exact h.elim
  | identifyController => cases r <;> exact h.elim
  | alloc bytes => exact ⟨d, .refl hd.toShaped, (), trivial, rfl⟩
  | println line => exact ⟨d, .refl hd.toShaped, (), trivial, rfl⟩

/-- **The other way.** What holds of a session holds of the REPL, under the answers that a
ready driver can be brought to give. -/
theorem sat_of_onDriver {α : Type} {command : Command α} {φ : Op → Prop}
    {χ : Outcome IoError α × NvmeUserspaceDriver → Prop} (hd : d.Ready B)
    (hm : d.DoorbellsMapped) (h : (onDriver p command d).Sat Prog.Any φ χ) :
    (command ()).Sat (Completes p B)
      (fun o => ∃ t, d.Kept t ∧ (serve p o t).Sat Prog.Any φ fun x =>
        ∀ why, x.1 = .panic why → χ (.panic why, x.2))
      fun x => ∃ t, d.Kept t ∧ χ (x.1, t) := by
  refine Prog.sat_of_interp (Method.sat_bind_iff.mp h) (Kept.refl hd.toShaped) ?_
  intro o t r ht hr
  obtain ⟨t', hk, hret⟩ := serve_completes (ht.ready hd) (ht.doorbellsMapped hm) hr
  exact ⟨t', ht.trans hk, hret⟩

end Serve

end Repl

end Nvmetoy
