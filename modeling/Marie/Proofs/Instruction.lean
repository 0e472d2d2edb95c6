/-
# Instructions

The cycle of an instruction has the effect that the instruction set gives it. The cycle begins
with fetching and decoding, which is the same for every instruction; then the micro-programs of
plain operations are carried out in one go, and the three others are followed one by one.

* `Machine.exists_carriesOut` : every instruction that does not read input;
* `Machine.exists_carriesOut_input` : an instruction that does, with the machine that waits on
  the way.
-/
import Marie.Proofs.Cycle

namespace Marie.Machine

/-- The machine runs, and is between two instructions. -/
structure Starts (m : Machine) : Prop where
  microPC : m.microPC = 0
  idle : m.interrupt = .idle
  running : m.halted = false

/-! ## Fetching -/

/-- The micro-operations before the decoding. -/
def fetch : List MicroOp :=
  [.stepStart, .transfer .mar .pc, .readMem, .transfer .ir .mbr, .incPC]

/-- The machine after fetching an instruction, before decoding it. -/
def fetched (m : Machine) : Machine :=
  { m with
    microPC := 5
    regs := { m.regs with
      mar := Word.low12 m.regs.pc
      mbr := m.visible.instruction
      ir := m.visible.instruction
      pc := Word.low12 (m.regs.pc + 1) } }

theorem carryOut_fetch {m : Machine} (hstart : m.microPC = 0) : m.carryOut fetch = m.fetched := by
  simp [fetch, carryOut, execute, transfer, incrementPC, Registers.get, moveTo, fetched,
    Visible.instruction, visible, hstart]

/-- Fetching is a trace with quiet entries, and leaves the instruction to be decoded. -/
theorem trace_fetched {m : Machine} (h : m.Starts) :
    ∃ es, m.Trace [] es m.fetched ∧ ∀ e ∈ es, e.Quiet := by
  have hahead : m.ahead = fetch ++ [.decode] := by
    rw [ahead_of_lt (by rw [h.microPC]; decide), h.microPC]
    rfl
  obtain ⟨-, -, -, es, htrace, hquiet⟩ := trace_carryOut h.running h.idle hahead (by decide)
  rw [carryOut_fetch h.microPC] at htrace
  exact ⟨es, htrace, hquiet⟩

/-! ## Decoding -/

/-- The machine after decoding an instruction. -/
def decodedAs (m : Machine) (op : Opcode) : Machine :=
  { m.fetched with microPC := 6, decoded := some op, interrupt := .idle }

/-- The micro-program of the operation is left after decoding. -/
theorem ahead_decodedAs (m : Machine) (op : Opcode) : (m.decodedAs op).ahead = op.microProgram :=
  rfl

/-- Up to the decoding of an instruction the cycle is a trace with quiet entries. -/
theorem trace_decodedAs {m : Machine} {op : Opcode} (h : m.Starts)
    (hdecode : Opcode.decode m.visible.instruction = .ok op) :
    ∃ es, m.Trace [] es (m.decodedAs op) ∧ ∀ e ∈ es, e.Quiet := by
  obtain ⟨es, htrace, hquiet⟩ := trace_fetched h
  have hexec : m.fetched.execute .decode =
      (some (.decode m.decoded op), { m.fetched with decoded := some op }) := by
    have hir : Opcode.decode m.fetched.regs.ir = .ok op := hdecode
    simp only [execute, decode, hir]
    rfl
  have hadv := advance_of_execute (m := m.fetched) h.running h.idle rfl hexec
  refine ⟨_, htrace.snoc hadv, List.forall_mem_append.mpr ⟨hquiet, ?_⟩⟩
  exact List.forall_mem_singleton.mpr ⟨rfl, rfl⟩

/-! ## Plain instructions -/

/-- A micro-program of plain operations does what the instruction is to do. -/
theorem visible_carryOut {m : Machine} {op : Opcode} (hcode : m.visible.code = op.bits.toNat)
    (hplain : ∀ op' ∈ op.microProgram, op'.isPlain = true) (number : Int) :
    ((m.decodedAs op).carryOut op.microProgram).visible = m.visible.next number := by
  rw [Visible.next, hcode]
  cases op with
  | input => simp [Opcode.microProgram, MicroOp.isPlain] at hplain
  | halt => simp [Opcode.microProgram, MicroOp.isPlain] at hplain
  | skipCond => simp [Opcode.microProgram, MicroOp.isPlain] at hplain
  | _ =>
      simp [decodedAs, fetched, Opcode.microProgram, Opcode.bits, carryOut, execute, transfer,
        incrementPC, moveTo, Registers.get, ArithOp.apply, visible, Visible.advance,
        Visible.instruction, Visible.operand, Visible.direct, Visible.pointer, Visible.indirect]

/-! ## Carrying out an instruction -/

/-- The transitions from `m` to `m'` carry out the instruction at PC, with the numbers that they
take from the input source. -/
structure CarriesOut (m : Machine) (numbers : List Int) (es : List LogEntry) (m' : Machine) :
    Prop where
  /-- They are the whole cycle. -/
  cycle : m.Cycle numbers es m'
  /-- They have the effect of the instruction. -/
  visible : m'.visible = m.visible.next (numbers.headD 0)
  /-- They report the faults of the instruction. -/
  faults : faults es = m.visible.faults
  /-- They leave the machine between two instructions, unless it has halted. -/
  boundary : m'.halted = true ∨ m'.microPC = 0 ∧ m'.interrupt = .idle

variable {m : Machine}

/-- An operation code is no fault. -/
theorem faults_visible {op : Opcode} (hcode : m.visible.code = op.bits.toNat) :
    m.visible.faults = [] := by
  have hlt := op.bits_lt
  rw [Visible.faults, if_neg (by omega)]

/-- A cycle that is done carries out the instruction, if it has its effect. -/
theorem carriesOut_of_done {m₁ : Machine} {op : Opcode} {es : List LogEntry}
    (hcode : m.visible.code = op.bits.toNat) (htrace : m.Trace [] es m₁)
    (hquiet : ∀ e ∈ es, e.Quiet) (hrun : m₁.halted = false) (hdone : m₁.Done)
    (hvisible : m₁.visible = m.visible.next 0) : ∃ es' m', m.CarriesOut [] es' m' := by
  obtain ⟨es', m', hcycle, hvisible', hfaults, hboundary⟩ :=
    hdone.exists_cycle htrace hquiet hrun
  exact ⟨es', m', hcycle, hvisible'.trans hvisible,
    hfaults.trans (faults_visible hcode).symm, .inr hboundary⟩

/-- A transition that halts the machine carries out the instruction, if it has its effect and
reports its faults. -/
theorem carriesOut_of_stop {m₁ m' : Machine} {es : List LogEntry} {e : LogEntry}
    (htrace : m.Trace [] es m₁) (hquiet : ∀ e ∈ es, e.Quiet) (hadv : m₁.Advance none e m')
    (hend : e.action.isStepEnd = false) (hhalt : m'.halted = true)
    (hvisible : m'.visible = m.visible.next 0)
    (hfaults : e.action.fault?.toList = m.visible.faults) :
    ∃ es' m', m.CarriesOut [] es' m' := by
  refine ⟨es ++ [e], m', .halts (htrace.snoc hadv) ?_ hhalt, hvisible, ?_, .inl hhalt⟩
  · exact List.forall_mem_append.mpr
      ⟨fun e he => (hquiet e he).isStepEnd, List.forall_mem_singleton.mpr hend⟩
  · rw [faults_append, faults_eq_nil hquiet, ← hfaults, List.nil_append]
    cases hfault : e.action.fault? <;> simp [Marie.faults, hfault]

/-- An instruction whose micro-program is plain is carried out. -/
theorem exists_carriesOut_plain {op : Opcode} (h : m.Starts)
    (hdecode : Opcode.decode m.visible.instruction = .ok op)
    (hcode : m.visible.code = op.bits.toNat)
    (hplain : ∀ op' ∈ op.microProgram, op'.isPlain = true) :
    ∃ es m', m.CarriesOut [] es m' := by
  obtain ⟨es, htrace, hquiet⟩ := trace_decodedAs h hdecode
  have hahead : (m.decodedAs op).ahead = op.microProgram ++ [] := by
    rw [ahead_decodedAs, List.append_nil]
  obtain ⟨hrun, hidle, hahead', fs, htrace', hquiet'⟩ :=
    trace_carryOut (m := m.decodedAs op) h.running rfl hahead hplain
  exact carriesOut_of_done hcode (htrace.append htrace')
    (List.forall_mem_append.mpr ⟨hquiet, hquiet'⟩) hrun (done_of_ahead hidle hahead')
    (visible_carryOut hcode hplain 0)

/-- A halt instruction is carried out. -/
theorem exists_carriesOut_halt (h : m.Starts)
    (hdecode : Opcode.decode m.visible.instruction = .ok .halt)
    (hcode : m.visible.code = Opcode.halt.bits.toNat) : ∃ es m', m.CarriesOut [] es m' := by
  obtain ⟨es, htrace, hquiet⟩ := trace_decodedAs h hdecode
  have hadv := advance_of_execute (m := m.decodedAs .halt) h.running rfl rfl rfl
  refine carriesOut_of_stop htrace hquiet hadv rfl rfl ?_ (faults_visible hcode).symm
  rw [Visible.next, hcode]
  rfl

/-- A word that is no instruction stops the machine with a fault. -/
theorem exists_carriesOut_unsupported (h : m.Starts)
    (hdecode : Opcode.decode m.visible.instruction = .error 0xF) (hcode : m.visible.code = 15) :
    ∃ es m', m.CarriesOut [] es m' := by
  obtain ⟨es, htrace, hquiet⟩ := trace_fetched h
  have hexec : m.fetched.execute .decode =
      (some (.halt true (some (.unsupportedOpcode 0xF))), { m.fetched with halted := true }) := by
    have hir : Opcode.decode m.fetched.regs.ir = .error 0xF := hdecode
    simp only [execute, decode, hir]
    rfl
  have hadv := advance_of_execute (m := m.fetched) h.running h.idle rfl hexec
  refine carriesOut_of_stop htrace hquiet hadv rfl rfl ?_ ?_
  · rw [Visible.next, hcode]
    rfl
  · rw [Visible.faults, if_pos hcode]
    rfl

/-- The machine after the comparison of a conditional skip. -/
def compared (m : Machine) : Machine :=
  (m.decodedAs .skipCond).carryOut [.compare]

/-- The comparison holds exactly if the instruction is to skip. -/
theorem comparison_compared (m : Machine) :
    m.compared.comparison = Visible.skips m.visible.instruction m.visible.ac :=
  Condition.holds_select m.visible.instruction m.visible.ac

/-- Up to the comparison of a conditional skip the cycle is a trace with quiet entries. -/
theorem trace_compared (h : m.Starts)
    (hdecode : Opcode.decode m.visible.instruction = .ok .skipCond) :
    ∃ es, m.Trace [] es m.compared ∧ ∀ e ∈ es, e.Quiet := by
  obtain ⟨es, htrace, hquiet⟩ := trace_decodedAs h hdecode
  have hahead : (m.decodedAs .skipCond).ahead = [.compare] ++ [.skipIfTrue] := rfl
  obtain ⟨-, -, -, fs, htrace', hquiet'⟩ :=
    trace_carryOut (m := m.decodedAs .skipCond) h.running rfl hahead (by decide)
  exact ⟨es ++ fs, htrace.append htrace', List.forall_mem_append.mpr ⟨hquiet, hquiet'⟩⟩

/-- A skip that is not taken settles the machine. -/
theorem settle_compared (hfalse : m.compared.comparison = false) :
    m.compared.settle = m.compared.moveTo 8 .idle := by
  have hsilent : m.compared.isSilent .skipIfTrue = true := by
    rw [isSilent, hfalse]
    rfl
  have hexec : m.compared.execute .skipIfTrue = (none, m.compared) := by
    rw [execute, hfalse]
    rfl
  rw [settle_of_isSilent rfl rfl hsilent, hexec]
  rfl

/-- A conditional skip is carried out. -/
theorem exists_carriesOut_skipCond (h : m.Starts)
    (hdecode : Opcode.decode m.visible.instruction = .ok .skipCond)
    (hcode : m.visible.code = Opcode.skipCond.bits.toNat) : ∃ es m', m.CarriesOut [] es m' := by
  obtain ⟨es, htrace, hquiet⟩ := trace_compared h hdecode
  have hnext : m.visible.next 0 =
      if m.compared.comparison then m.visible.advance.advance else m.visible.advance := by
    rw [Visible.next, hcode, comparison_compared]
    rfl
  cases hskip : m.compared.comparison with
  | true =>
      -- the skip is one more transition, and nothing is left behind it
      have hexec : m.compared.execute .skipIfTrue =
          (some m.compared.incrementPC.1, m.compared.incrementPC.2) := by
        rw [execute, if_pos hskip]
      have hadv := advance_of_execute (m := m.compared) h.running rfl rfl hexec
      rw [hskip] at hnext
      refine carriesOut_of_done hcode (htrace.snoc hadv) ?_ h.running (done_of_ahead rfl rfl)
        hnext.symm
      exact List.forall_mem_append.mpr ⟨hquiet, List.forall_mem_singleton.mpr ⟨rfl, rfl⟩⟩
  | false =>
      have hsettle := settle_compared hskip
      rw [hskip] at hnext
      refine carriesOut_of_done hcode htrace hquiet h.running ⟨?_, ?_⟩ hnext.symm
      · exact congrArg Machine.interrupt hsettle
      · exact congrArg Machine.nextOp? hsettle

/-- Every instruction that reads no input is carried out. -/
theorem exists_carriesOut (h : m.Starts) (hcode : m.visible.code ≠ 5) :
    ∃ es m', m.CarriesOut [] es m' := by
  rcases Opcode.decode_cases m.visible.instruction with ⟨op, hdecode, hop⟩ | ⟨hdecode, hfault⟩
  · by_cases hplain : ∀ op' ∈ op.microProgram, op'.isPlain = true
    · exact exists_carriesOut_plain h hdecode hop hplain
    · cases op with
      | input => exact absurd hop hcode
      | halt => exact exists_carriesOut_halt h hdecode hop
      | skipCond => exact exists_carriesOut_skipCond h hdecode hop
      | _ => exact absurd (by decide) hplain
  · exact exists_carriesOut_unsupported h hdecode hfault

/-! ## Input -/

/-- The machine that waits for the number of an input instruction. -/
def waiting (m : Machine) : Machine :=
  (m.decodedAs .input).moveTo 7 .needsValue

theorem settle_decodedAs_input (m : Machine) : (m.decodedAs .input).settle = m.waiting :=
  rfl

theorem settle_waiting (m : Machine) : m.waiting.settle = m.waiting :=
  rfl

/-- The waiting machine after a number arrived and went to AC. -/
def answered (m : Machine) (n : Int) : Machine :=
  (m.waiting.receive n).2.takeInput.2

/-- The number arrives and goes to AC in two transitions with quiet entries. -/
theorem trace_answered (h : m.Starts) (n : Int) :
    ∃ es, m.waiting.Trace [n] es (m.answered n) ∧ ∀ e ∈ es, e.Quiet := by
  have hreceive := Advance.receive (m := m.waiting) n h.running rfl
  have htake := Advance.takeInput (m := (m.waiting.receive n).2) h.running rfl
  refine ⟨_, .cons hreceive (.cons htake (.nil _)), List.forall_mem_cons.mpr ⟨⟨rfl, rfl⟩, ?_⟩⟩
  exact List.forall_mem_singleton.mpr ⟨rfl, rfl⟩

theorem visible_answered (hcode : m.visible.code = 5) (n : Int) :
    (m.answered n).visible = m.visible.next n := by
  rw [Visible.next, hcode]
  simp [answered, takeInput, transfer, receive, waiting, decodedAs, fetched, moveTo,
    Registers.get, visible, Visible.advance]

/-- An input instruction is carried out in two parts. The first one leads up to the machine that
waits, and the second one from there to the end of the cycle. -/
theorem exists_carriesOut_input (h : m.Starts) (hcode : m.visible.code = 5) :
    ∃ es, m.Trace [] es (m.decodedAs .input) ∧ (∀ e ∈ es, e.action.isStepEnd = false) ∧
      ∀ n, ∃ es' m', m.waiting.Cycle [n] es' m' ∧ m.CarriesOut [n] (es ++ es') m' := by
  have hdecode : Opcode.decode m.visible.instruction = .ok .input := by
    rcases Opcode.decode_cases m.visible.instruction with ⟨op, hdecode, hop⟩ | ⟨-, hfault⟩
    · have hbits : op.bits = Opcode.input.bits := UInt8.toNat_inj.mp (hop.symm.trans hcode)
      cases op <;> first | exact hdecode | exact absurd hbits (by decide)
    · exact absurd (hcode.symm.trans hfault) (by decide)
  obtain ⟨es, htrace, hquiet⟩ := trace_decodedAs h hdecode
  refine ⟨es, htrace, fun e he => (hquiet e he).isStepEnd, fun n => ?_⟩
  obtain ⟨fs, hanswer, hquiet'⟩ := trace_answered h n
  have hdone : (m.answered n).Done := done_of_ahead rfl rfl
  obtain ⟨es', m', hcycle, hvisible, hfaults, hboundary⟩ :=
    hdone.exists_cycle hanswer hquiet' h.running
  have hcycle' : (m.decodedAs .input).Cycle [n] es' m' := .of_settle h.running hcycle
  refine ⟨es', m', hcycle, ?_, ?_, ?_, .inr hboundary⟩
  · exact hcycle'.prepend htrace fun e he => (hquiet e he).isStepEnd
  · exact hvisible.trans (visible_answered hcode n)
  · rw [faults_append, faults_eq_nil hquiet, hfaults, Visible.faults, hcode]
    rfl

end Marie.Machine
