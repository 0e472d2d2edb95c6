/-
# The control of the machine

The index of the next micro-operation, the decoded operation and the request for input are changed
by different transitions, and restored together by a rewind. In every history with the log on they
stay in step: the index never passes the end of the micro-program, and input is requested only
after the one operation of an input instruction.

A rewind brings back whatever the log holds, so the invariant would have to speak of every entry.
Instead it is proved of ledgers, which know no rewinds: what is left of a ledger when entries are
taken back is a ledger again, and its machine is the one that the rewind leads to.

* `Machine.InCycle` : a point of control that is in order;
* `Machine.Ledger.controlled` : the machine of every ledger is in order;
* `LogEntry.InOrder`, `Machine.Ledger.inOrder` : and so is the entry that is taken back;
* `Simulator.controlled_of_history` : both for every history.
-/
import Marie.Proofs.Consultation
import Marie.Proofs.DecodedCycle

namespace Marie

/-! ## Addresses -/

/-- What is cut to 12 bits is an address. -/
theorem Word.low12_le (w : Word) : (low12 w).toNat ≤ 0xFFF :=
  Nat.le_of_lt_succ (low12_lt w)

namespace Registers

variable {regs : Registers}

/-- PC holds an address. -/
theorem Fits.pc_le (h : regs.Fits) : regs.pc.toNat ≤ 0xFFF := by
  rw [← show Word.low12 regs.pc = regs.pc from h .pc]
  exact Word.low12_le _

/-- MAR holds an address. -/
theorem Fits.mar_le (h : regs.Fits) : regs.mar.toNat ≤ 0xFFF := by
  rw [← show Word.low12 regs.mar = regs.mar from h .mar]
  exact Word.low12_le _

end Registers

/-- The addresses that an action keeps: where a cycle began, which word of memory was read or
written, and what was in PC or MAR. -/
def Action.addresses : Action → List Word
  | .stepStart pc => [pc]
  | .incrementPC oldPC => [oldPC]
  | .memRead addr _ => [addr]
  | .memWrite addr _ => [addr]
  | .memSet addr _ _ => [addr]
  | .regTransfer .pc _ old | .regTransfer .mar _ old => [old]
  | .regSet .pc old new | .regSet .mar old new => [old, new]
  | _ => []

namespace Action

/-- All addresses that the action keeps have 12 bits. -/
def AddressesFit (action : Action) : Prop :=
  ∀ w ∈ action.addresses, w.toNat ≤ 0xFFF

variable {action : Action} {w : Word} {regs : Registers}

namespace AddressesFit

/-- An action that keeps no address. -/
theorem of_nil (h : action.addresses = []) : action.AddressesFit := by
  rw [AddressesFit, h]
  exact List.forall_mem_nil _

/-- An action that keeps one address. -/
theorem of_singleton (h : action.addresses = [w]) (hw : w.toNat ≤ 0xFFF) :
    action.AddressesFit := by
  rw [AddressesFit, h]
  exact List.forall_mem_singleton.mpr hw

/-- What a copy to a register overwrites is an address, if the register holds addresses. -/
theorem regTransfer (hfits : regs.Fits) (target source : Reg) :
    (Action.regTransfer target source (regs.get target)).AddressesFit := by
  cases target with
  | pc => exact of_singleton rfl hfits.pc_le
  | mar => exact of_singleton rfl hfits.mar_le
  | _ => exact of_nil rfl

/-- What a register held and what it is set to are addresses, if the register holds addresses. -/
theorem regSet (hfits : regs.Fits) (reg : Reg) (w : Word) :
    (Action.regSet reg (regs.get reg) (reg.fit w)).AddressesFit := by
  have hnew : ∀ new ∈ [Word.low12 w], new.toNat ≤ 0xFFF :=
    List.forall_mem_singleton.mpr (Word.low12_le w)
  cases reg with
  | pc => exact List.forall_mem_cons.mpr ⟨hfits.pc_le, hnew⟩
  | mar => exact List.forall_mem_cons.mpr ⟨hfits.mar_le, hnew⟩
  | _ => exact of_nil rfl

end AddressesFit

end Action

namespace Machine

variable {m m' : Machine} {allowed : List Usage} {e : LogEntry}

/-- The action of a micro-operation keeps addresses of 12 bits. -/
theorem addressesFit_execute (hfits : m.regs.Fits) {op : MicroOp} {action : Action}
    (h : m.execute op = (some action, m')) : action.AddressesFit := by
  cases op with
  | stepStart => cases h; exact .of_singleton rfl hfits.pc_le
  | incPC => cases h; exact .of_singleton rfl hfits.pc_le
  | readMem => cases h; exact .of_singleton rfl hfits.mar_le
  | writeMem => cases h; exact .of_singleton rfl hfits.mar_le
  | transfer target source => cases h; exact .regTransfer hfits target source
  | skipIfTrue =>
      simp only [execute] at h
      split at h
      · cases h; exact .of_singleton rfl hfits.pc_le
      · cases h
  | decode =>
      simp only [execute, decode] at h
      split at h
      · cases h; exact .of_nil rfl
      · cases h; exact .of_nil rfl
  | requestInput => cases h
  | _ => cases h; exact .of_nil rfl

/-- The entry of a transition keeps addresses of 12 bits. -/
theorem Advance.addressesFit {v : Option Int} (h : m.Advance v e m') (hfits : m.regs.Fits) :
    e.action.AddressesFit := by
  rw [← m.sameData_settle.regs] at hfits
  cases h with
  | perform _ _ hperform =>
      rcases perform_cases hperform with ⟨-, rfl, -⟩ | ⟨op, m₁, -, hexecute, -⟩
      · exact .of_nil rfl
      · exact addressesFit_execute hfits hexecute
  | takeInput _ _ => exact .regTransfer hfits .ac .inp
  | receive n _ _ => exact .of_nil rfl

/-- The entry of a change from outside keeps addresses of 12 bits. -/
theorem Change.addressesFit (h : m.Change allowed e m') (hfits : m.regs.Fits) :
    e.action.AddressesFit := by
  cases h with
  | setReg _ reg w => exact .regSet hfits reg w
  | setMem _ addr w => exact .of_singleton rfl (Word.low12_le addr)
  | setHalted _ _ _ => exact .of_nil rfl

/-! ## Points of control -/

/-- A point of control that is in step with the decoded operation. The index is within the cycle;
a request for input comes after the one operation of an input instruction; and at the beginning of
a cycle nothing is requested. -/
structure InStep (decoded : Option Opcode) (microPC : Nat) (interrupt : Interrupt) : Prop where
  within : microPC ≤ 6 + (decoded.elim [] Opcode.microProgram).length
  requests : interrupt ≠ .idle → decoded = some .input ∧ microPC = 7
  starts : microPC = 0 → interrupt = .idle

/-- Without a request for input only the index matters. -/
theorem InStep.of_idle {decoded : Option Opcode} {microPC : Nat}
    (hwithin : microPC ≤ 6 + (decoded.elim [] Opcode.microProgram).length) :
    InStep decoded microPC .idle :=
  ⟨hwithin, fun hne => absurd rfl hne, fun _ => rfl⟩

/-- A request for input is in step after the operation of an input instruction. -/
theorem InStep.input (interrupt : Interrupt) : InStep (some .input) 7 interrupt :=
  ⟨by decide, fun _ => ⟨rfl, rfl⟩, fun hpc => absurd hpc (Nat.succ_ne_zero 6)⟩

/-- The control of the machine is in step with the decoded operation. -/
def ControlInStep (m : Machine) : Prop :=
  InStep m.decoded m.microPC m.interrupt

/-- If a micro-operation comes next, the index is before the end of the cycle. -/
theorem microPC_lt_program {op : MicroOp} (h : m.nextOp? = some op) :
    m.microPC < 6 + m.program.length := by
  rw [nextOp?_eq_head?] at h
  by_contra hle
  rw [ahead_of_le (by omega), List.drop_eq_nil_of_le (by omega)] at h
  cases h

namespace ControlInStep

/-- Settling keeps the control in step. -/
theorem settle (h : m.ControlInStep) : m.settle.ControlInStep := by
  -- what settles is the last operation of its cycle
  rcases m.settle_cases with heq | ⟨hdecoded, heq⟩ | ⟨hdecoded, heq⟩
  · rw [heq]
    exact h
  · rw [heq]
    show InStep m.decoded 8 .idle
    rw [hdecoded]
    exact .of_idle (by decide)
  · rw [heq]
    show InStep m.decoded 7 .needsValue
    rw [hdecoded]
    exact .input _

/-- A micro-operation with an action leads to a point of control that is in step. -/
theorem execute {op : MicroOp} {action : Action} (hop : m.nextOp? = some op)
    (hidle : m.interrupt = .idle) (hexecute : m.execute op = (some action, m')) :
    (m'.moveTo (m.microPC + 1) m'.interrupt).ControlInStep := by
  have hinterrupt : m'.interrupt = .idle := by
    have hloud : m.isSilent op = false := by
      simpa [hexecute] using m.isSome_execute op
    rw [← hidle, ← execute_interrupt hloud, hexecute]
  rw [hinterrupt]
  refine .of_idle ?_
  show m.microPC + 1 ≤ _
  -- at the beginning and after decoding the index is right for whatever operation is decoded
  rcases nextOp?_cases hop with ⟨hpc, -⟩ | ⟨hpc, -⟩ | ⟨-, -, hstart, hdecode⟩
  · omega
  · omega
  · have hlt := microPC_lt_program hop
    obtain ⟨-, -, hdecoded⟩ := execute_of_ne hstart hdecode hexecute
    show m.microPC + 1 ≤ 6 + (m'.decoded.elim [] Opcode.microProgram).length
    rw [hdecoded]
    exact hlt

/-- A transition keeps the control in step. -/
theorem advance (h : m.ControlInStep) {v : Option Int} (hadv : m.Advance v e m') :
    m'.ControlInStep := by
  have hsettled := h.settle
  cases hadv with
  | perform _ hidle hperform =>
      rcases perform_cases hperform with ⟨-, -, rfl⟩ | ⟨op, m₁, hop, hexecute, rfl⟩
      · show InStep m.settle.decoded 0 m.settle.interrupt
        rw [hidle]
        exact .of_idle (Nat.zero_le _)
      · exact .execute hop hidle hexecute
  | takeInput _ _ => exact .of_idle hsettled.within
  | receive n _ hwait =>
      obtain ⟨hdecoded, hpc⟩ := hsettled.requests (by rw [hwait]; decide)
      show InStep m.settle.decoded m.settle.microPC .needsLoad
      rw [hdecoded, hpc]
      exact .input _

/-- A change from outside keeps the control in step. -/
theorem change (h : m.ControlInStep) (hchange : m.Change allowed e m') : m'.ControlInStep := by
  cases hchange <;> exact h

end ControlInStep

/-! ## Ledgers -/

/-- PC and MAR hold addresses, and the control is in step with the decoded operation. -/
structure Controlled (m : Machine) : Prop where
  pc_le : m.regs.pc.toNat ≤ 0xFFF
  mar_le : m.regs.mar.toNat ≤ 0xFFF
  control : m.ControlInStep

end Machine

/-- What an entry keeps is in order, for a machine with a given operation decoded. -/
structure LogEntry.InOrder (e : LogEntry) (decoded : Option Opcode) : Prop where
  addresses : e.action.AddressesFit
  control : Machine.InStep decoded e.microPC e.interrupt

namespace Machine

namespace Ledger

variable {m : Machine} {allowed : List Usage} {e : LogEntry} {es newer : List LogEntry}

/-- The machine of every ledger is in order. -/
theorem controlled (h : m.Ledger allowed es) : m.Controlled := by
  refine ⟨h.fits.pc_le, h.fits.mar_le, ?_⟩
  induction h with
  | reset m => exact .of_idle (Nat.zero_le _)
  | settle _ ih => exact ih.settle
  | advance _ hadv ih => exact ih.advance hadv
  | change _ hchange ih => exact ih.change hchange

/-- The newest entry of a ledger keeps addresses of 12 bits. -/
theorem addressesFit (h : m.Ledger allowed (e :: es)) : e.action.AddressesFit := by
  generalize hall : e :: es = all at h
  induction h with
  | reset m => cases hall
  | settle _ ih => exact ih hall
  | advance h hadv _ =>
      cases hall
      exact hadv.addressesFit h.fits
  | change h hchange _ =>
      cases hall
      exact hchange.addressesFit h.fits

/-- What the newest entry of a ledger keeps is in order for the machine without it. -/
theorem inOrder (h : m.Ledger allowed (e :: es)) : e.InOrder (m.undoEntry e).decoded :=
  ⟨h.addressesFit, h.tail.controlled.control⟩

/-- Taking back the newest entries leaves a ledger of the others. -/
theorem unwind (h : m.Ledger allowed (newer ++ es)) : (m.unwind newer).Ledger allowed es := by
  induction newer generalizing m with
  | nil => exact h
  | cons e newer ih => exact ih h.tail

end Ledger

end Machine

/-! ## Histories -/

namespace Simulator

variable {σ : Type}

/-- A new simulator is at the start of an empty program. -/
theorem restarted_new (flags : Flags) (input : σ) : (new flags input).Restarted := by
  have hregs : ({} : Registers).set .pc 0 = {} := by decide
  have hreset : (new flags input).reset = new flags input := by
    show { machine := { regs := ({} : Registers).set .pc 0 }, flags, input : Simulator σ } = _
    rw [hregs]
    rfl
  rw [← hreset]
  exact .reset _

variable [InputSource σ]

/-- Take any history from the start of a program with the log on. PC and MAR hold addresses, the
index of the next micro-operation is within the cycle of the decoded operation, input is requested
only after the operation of an input instruction, and nothing is requested at the beginning of a
cycle. Each entry of the log keeps addresses and a point of control for which the same holds, and
so it holds again after the micro-steps back that take the entry back. -/
theorem controlled_of_history {s₀ s : Simulator σ} (hstart : s₀.Restarted)
    (hlog : s₀.flags.enableLog = true) (h : History faithful 0 s₀ s) :
    s.machine.Controlled ∧
      ∀ newer e older, s.log.recent = newer ++ e :: older →
        (s.rewind (newer.length + 1)).machine.Controlled ∧
          e.InOrder (s.rewind (newer.length + 1)).machine.decoded := by
  have hledger := (h.ledger (by decide) (by decide) hstart hlog).ledger
  refine ⟨hledger.controlled, fun newer e older hrecent => ?_⟩
  rw [hrecent] at hledger
  have hrewind : (s.rewind (newer.length + 1)).machine = (s.machine.unwind newer).undoEntry e := by
    have hsplit : s.log.recent = (newer ++ [e]) ++ older := by simp [hrecent]
    have hunwind := s.rewind_eq_unwind (newer ++ [e]) older hsplit
    rw [List.length_append, List.length_singleton] at hunwind
    rw [hunwind, Machine.unwind_append_singleton]
  rw [hrewind]
  exact ⟨hledger.unwind.tail.controlled, hledger.unwind.inOrder⟩

/-- An input instruction waits, and the machine is stopped and set going again while it does. Then
its number arrives, PC is set to more than it holds, and that is taken back. -/
theorem controlled_of_history_waiting :
    let s₀ : Simulator Script := new {} (.flaky [7])
    let u := (((s₀.setMem 0 0x5000).step.2.setHalted true).setHalted false).microStep.2
    let s := (u.setReg .pc 0xFFFF).microStepBack.2
    (s₀.Restarted ∧ s₀.flags.enableLog = true ∧ History faithful 0 s₀ s) ∧
      (s.machine.Controlled ∧
        ∀ newer e older, s.log.recent = newer ++ e :: older →
          (s.rewind (newer.length + 1)).machine.Controlled ∧
            e.InOrder (s.rewind (newer.length + 1)).machine.decoded) ∧
      (s.machine.microPC, s.machine.interrupt) = (7, .needsLoad) ∧
      (s.log.recent.take 4).map (fun e => (e.microPC, e.interrupt)) =
        [(7, .needsValue), (7, .needsValue), (7, .needsValue), (5, .idle)] := by
  intro s₀ u s
  have hstart : s₀.Restarted := restarted_new _ _
  have hlog : s₀.flags.enableLog = true := rfl
  have hset : History faithful 0 s₀ (s₀.setMem 0 0x5000) :=
    (History.refl s₀).setMem (by decide) 0 0x5000
  have hu : History faithful 0 s₀ u :=
    (((hset.step (by decide)).setHalted (by decide) true).setHalted (by decide) false).microStep
      (by decide)
  have h : History faithful 0 s₀ s :=
    (hu.setReg (by decide) .pc 0xFFFF).microStepBack (by decide) (Nat.zero_le _)
  refine ⟨⟨hstart, hlog, h⟩, controlled_of_history hstart hlog h, ?_, ?_⟩
  all_goals decide +kernel

end Simulator

end Marie
