/-
# The log as a row of cycles

Apart from the changes from outside, the log is a row of instruction cycles, of which only the
last one may be incomplete. A cycle is described by its stages: each is a kind of action at a
point of control, and the operation and the result of its comparison fix all of them (`cycle`).

The invariant says how far the machine is in its cycle: what the log holds of the cycle, together
with what a request for input still owes to it, are the stages up to the micro-operation that
comes next (`Machine.Within`). Rewinds need no case of their own, because the log is a ledger.

* `Machine.Within.perform` : one transition of a machine within its cycle;
* `Machine.Ledger.exists_cycles` : the invariant of every ledger;
* `Simulator.stages_log` : the log is a row of cycles.
-/
import Marie.Proofs.InstructionSet
import Marie.Proofs.Ledger

namespace Marie

/-! ## Stages -/

/-- What an action of the machine itself is, apart from the values that it read and overwrote. -/
inductive ActionKind where
  | stepStart
  | stepEnd
  | decode (opcode : Opcode)
  | incrementPC
  | arithmetic (op : ArithOp)
  | comparison (result : Bool)
  | memRead
  | memWrite
  | regTransfer (target source : Reg)
  | input
  | output
  | halt (halt : Bool) (fault : Option Fault)
deriving DecidableEq, Repr

/-- The kind of an action, unless a register or memory was set from outside. -/
def Action.kind? : Action → Option ActionKind
  | .stepStart _ => some .stepStart
  | .stepEnd => some .stepEnd
  | .decode _ opcode => some (.decode opcode)
  | .incrementPC _ => some .incrementPC
  | .arithmetic op _ => some (.arithmetic op)
  | .comparison _ _ result => some (.comparison result)
  | .memRead _ _ => some .memRead
  | .memWrite _ _ => some .memWrite
  | .memSet _ _ _ => none
  | .regTransfer target source _ => some (.regTransfer target source)
  | .regSet _ _ _ => none
  | .input _ _ => some .input
  | .output _ => some .output
  | .halt stopped fault => some (.halt stopped fault)

/-- A kind of action at a point of control. -/
structure Stage where
  kind : ActionKind
  /-- The index of the operation in its cycle. -/
  microPC : Nat
  /-- The state of the request for input. -/
  interrupt : Interrupt
deriving DecidableEq, Repr

/-- The stage that an entry records, unless a register or memory was set from outside. -/
def LogEntry.stage? (e : LogEntry) : Option Stage :=
  e.action.kind?.map fun kind => ⟨kind, e.microPC, e.interrupt⟩

/-- The stages that the entries of a log record, oldest first. -/
def Log.stages (log : Log) : List Stage :=
  log.entries.filterMap LogEntry.stage?

/-- The stages of a micro-operation at an index of the cycle of an operation, in which the
comparison has the given result. A skip has a stage only if it is taken, and a request for input
has the two stages that answer it. -/
def MicroOp.stages (opcode : Opcode) (taken : Bool) (index : Nat) : MicroOp → List Stage
  | .stepStart => [⟨.stepStart, index, .idle⟩]
  | .decode => [⟨.decode opcode, index, .idle⟩]
  | .transfer target source => [⟨.regTransfer target source, index, .idle⟩]
  | .readMem => [⟨.memRead, index, .idle⟩]
  | .writeMem => [⟨.memWrite, index, .idle⟩]
  | .incPC => [⟨.incrementPC, index, .idle⟩]
  | .arith op => [⟨.arithmetic op, index, .idle⟩]
  | .compare => [⟨.comparison taken, index, .idle⟩]
  | .skipIfTrue => if taken then [⟨.incrementPC, index, .idle⟩] else []
  | .requestInput =>
    [⟨.input, index + 1, .needsValue⟩, ⟨.regTransfer .ac .inp, index + 1, .needsLoad⟩]
  | .output => [⟨.output, index, .idle⟩]
  | .halt => [⟨.halt true none, index, .idle⟩]

/-- The micro-operations of the cycle of an operation. -/
def Opcode.cycleOps (opcode : Opcode) : List MicroOp :=
  fetchDecode ++ opcode.microProgram

/-- The stages of the first micro-operations of a cycle. -/
def stagesBefore (opcode : Opcode) (taken : Bool) (index : Nat) : List Stage :=
  (opcode.cycleOps.take index).zipIdx.flatMap fun (op, i) => op.stages opcode taken i

/-- The stages of a complete cycle: those of its micro-operations, and its end. -/
def cycle (opcode : Opcode) (taken : Bool) : List Stage :=
  stagesBefore opcode taken opcode.cycleOps.length ++
    [⟨.stepEnd, opcode.cycleOps.length, .idle⟩]

example : cycle .input false =
    [⟨.stepStart, 0, .idle⟩, ⟨.regTransfer .mar .pc, 1, .idle⟩, ⟨.memRead, 2, .idle⟩,
      ⟨.regTransfer .ir .mbr, 3, .idle⟩, ⟨.incrementPC, 4, .idle⟩, ⟨.decode .input, 5, .idle⟩,
      ⟨.input, 7, .needsValue⟩, ⟨.regTransfer .ac .inp, 7, .needsLoad⟩, ⟨.stepEnd, 7, .idle⟩] :=
  rfl

/-- The stages of a fetch of a word that no operation decodes. -/
def faultedFetch : List Stage :=
  [⟨.stepStart, 0, .idle⟩, ⟨.regTransfer .mar .pc, 1, .idle⟩, ⟨.memRead, 2, .idle⟩,
    ⟨.regTransfer .ir .mbr, 3, .idle⟩, ⟨.incrementPC, 4, .idle⟩,
    ⟨.halt true (some (.unsupportedOpcode 0xF)), 5, .idle⟩]

@[simp]
theorem Log.stages_push (log : Log) (e : LogEntry) :
    (log.push e).stages = log.stages ++ e.stage?.toList := by
  rw [stages, entries_push, List.filterMap_append, ← stages]
  cases h : e.stage? <;> simp [h]

/-- One micro-operation more adds its stages. -/
theorem stagesBefore_succ {opcode : Opcode} {taken : Bool} {i : Nat} {op : MicroOp}
    (hop : opcode.cycleOps[i]? = some op) :
    stagesBefore opcode taken (i + 1) =
      stagesBefore opcode taken i ++ op.stages opcode taken i := by
  have hlen : (opcode.cycleOps.take i).length = i := by
    rw [List.length_take_of_le]
    exact Nat.le_of_lt (List.getElem?_eq_some_iff.mp hop).1
  rw [stagesBefore, List.take_add_one, hop, Option.toList_some, List.zipIdx_append,
    List.flatMap_append, hlen]
  simp [stagesBefore]

/-- The stages up to a micro-operation begin the cycle, and do not complete it. -/
theorem stagesBefore_prefix_cycle (opcode : Opcode) (taken : Bool) (i : Nat) :
    stagesBefore opcode taken i <+: stagesBefore opcode taken opcode.cycleOps.length := by
  have hsplit := congrArg (fun ops => ops.zipIdx) (List.take_append_drop i opcode.cycleOps)
  rw [List.zipIdx_append] at hsplit
  rw [stagesBefore, stagesBefore, List.take_length, ← hsplit, List.flatMap_append]
  exact List.prefix_append _ _

/-- Before the operation is decoded all cycles have the same stages. -/
theorem stagesBefore_decode (opcode opcode' : Opcode) (taken taken' : Bool) :
    stagesBefore opcode taken 5 = stagesBefore opcode' taken' 5 :=
  rfl

/-- A cycle has eleven micro-operations at most. -/
theorem Opcode.lt_of_cycleOps {opcode : Opcode} {i : Nat} {op : MicroOp}
    (hop : opcode.cycleOps[i]? = some op) : i < 11 := by
  have hlt := (List.getElem?_eq_some_iff.mp hop).1
  have hle := opcode.length_microProgram_le
  rw [cycleOps, List.length_append, length_fetchDecode] at hlt
  omega

/-- The operation is decoded by the sixth micro-operation. -/
theorem Opcode.eq_of_cycleOps_decode {opcode : Opcode} {i : Nat}
    (hop : opcode.cycleOps[i]? = some .decode) : i = 5 := by
  have hall : ∀ i : Fin 11, opcode.cycleOps[i.val]? = some .decode → i.val = 5 := by
    cases opcode <;> decide
  exact hall ⟨i, lt_of_cycleOps hop⟩ hop

/-- Only the seventh micro-operation of a conditional skip compares. -/
theorem Opcode.eq_of_cycleOps_compare {opcode : Opcode} {i : Nat}
    (hop : opcode.cycleOps[i]? = some .compare) : opcode = .skipCond ∧ i = 6 := by
  have hall : ∀ i : Fin 11, opcode.cycleOps[i.val]? = some .compare →
      opcode = .skipCond ∧ i.val = 6 := by
    cases opcode <;> decide
  exact hall ⟨i, lt_of_cycleOps hop⟩ hop

/-- A skip comes after the comparison that it looks at. -/
theorem Opcode.compare_mem_of_cycleOps_skipIfTrue {opcode : Opcode} {i : Nat}
    (hop : opcode.cycleOps[i]? = some .skipIfTrue) : .compare ∈ opcode.cycleOps.take i := by
  have hall : ∀ i : Fin 11, opcode.cycleOps[i.val]? = some .skipIfTrue →
      .compare ∈ opcode.cycleOps.take i.val := by
    cases opcode <;> decide
  exact hall ⟨i, lt_of_cycleOps hop⟩ hop

namespace Machine

/-! ## Within a cycle -/

/-- The stages that the request for input still owes to its cycle. -/
def owed (m : Machine) : List Stage :=
  match m.interrupt with
  | .idle => []
  | .needsValue =>
    [⟨.input, m.microPC, .needsValue⟩, ⟨.regTransfer .ac .inp, m.microPC, .needsLoad⟩]
  | .needsLoad => [⟨.regTransfer .ac .inp, m.microPC, .needsLoad⟩]

/-- Nothing is owed while no input is requested. -/
theorem owed_of_idle {m : Machine} (hidle : m.interrupt = .idle) : m.owed = [] := by
  rw [owed, hidle]

/-- The machine is within a cycle of the operation, whose comparison has or will have the given
result, and the stages of the cycle so far are done. What was decoded and compared is known from
the micro-operation on that decodes or compares. -/
structure Within (m : Machine) (done : List Stage) (opcode : Opcode) (taken : Bool) : Prop where
  le : m.microPC ≤ opcode.cycleOps.length
  decoded : .decode ∈ opcode.cycleOps.take m.microPC → m.decoded = some opcode
  compared : .compare ∈ opcode.cycleOps.take m.microPC → m.comparison = taken
  halted : .halt ∈ opcode.cycleOps.take m.microPC → m.halted = true
  stages : done ++ m.owed = stagesBefore opcode taken m.microPC

namespace Within

variable {m m' : Machine} {done : List Stage} {opcode : Opcode} {taken : Bool}

/-- A machine at the start of a cycle, whichever operation it will be. -/
theorem start (hpc : m.microPC = 0) (hidle : m.interrupt = .idle) (opcode : Opcode)
    (taken : Bool) : m.Within [] opcode taken := by
  refine ⟨by omega, ?_, ?_, ?_, ?_⟩
  · simp [hpc]
  · simp [hpc]
  · simp [hpc]
  · rw [owed_of_idle hidle, hpc]
    rfl

/-- The next micro-operation is the one of the cycle at the index of the machine. -/
theorem nextOp?_eq (h : m.Within done opcode taken) :
    m.nextOp? = opcode.cycleOps[m.microPC]? := by
  unfold nextOp? Opcode.cycleOps
  split
  · rename_i hlt
    rw [List.getElem?_append_left hlt]
  · rename_i hge
    have hle : fetchDecode.length ≤ m.microPC := Nat.not_lt.mp hge
    have hmem : .decode ∈ opcode.cycleOps.take m.microPC := by
      rw [Opcode.cycleOps, List.take_append, List.take_of_length_le hle]
      exact List.mem_append_left _ (by decide)
    rw [h.decoded hmem, List.getElem?_append_right hle]

/-- Until the operation is decoded the cycle may turn out to be that of any operation. -/
theorem undecoded (h : m.Within done opcode taken) (hpc : m.microPC = 5) (opcode' : Opcode)
    (taken' : Bool) : m.Within done opcode' taken' := by
  have hfetch : opcode'.cycleOps.take 5 =
      [.stepStart, .transfer .mar .pc, .readMem, .transfer .ir .mbr, .incPC] := rfl
  refine ⟨?_, ?_, ?_, ?_, ?_⟩
  · rw [hpc, Opcode.cycleOps, List.length_append, length_fetchDecode]
    omega
  · simp [hpc, hfetch]
  · simp [hpc, hfetch]
  · simp [hpc, hfetch]
  · rw [h.stages, hpc, stagesBefore_decode]

/-- Until the comparison is made it may have either result. -/
theorem uncompared (h : m.Within done .skipCond taken) (hpc : m.microPC = 6) (taken' : Bool) :
    m.Within done .skipCond taken' := by
  have hstages : stagesBefore .skipCond taken 6 = stagesBefore .skipCond taken' 6 := rfl
  refine ⟨h.le, h.decoded, ?_, h.halted, ?_⟩
  · rw [hpc]
    exact fun hmem => absurd hmem (by decide)
  · rw [h.stages, hpc, hstages]

/-- The machine after the next micro-operation, with the stages that it left. -/
theorem next (h : m.Within done opcode taken) {op : MicroOp} {new : List Stage}
    (hop : m.nextOp? = some op) (hidle : m.interrupt = .idle)
    (hpc : m'.microPC = m.microPC + 1)
    (hdecoded : m'.decoded = if op = .decode then some opcode else m.decoded)
    (hcomparison : m'.comparison = if op = .compare then taken else m.comparison)
    (hhalted : m'.halted = if op = .halt then true else m.halted)
    (hnew : new ++ m'.owed = op.stages opcode taken m.microPC) :
    m'.Within (done ++ new) opcode taken := by
  rw [h.nextOp?_eq] at hop
  -- what an operation sets is known if it was known before, or if the operation is this one
  have hset {α : Type} {x : MicroOp} {old new : α}
      (hbefore : x ∈ opcode.cycleOps.take m.microPC → old = new)
      (hdone : x ∈ opcode.cycleOps.take (m.microPC + 1)) :
      (if op = x then new else old) = new := by
    rw [List.take_add_one, hop, Option.toList_some, List.mem_append, List.mem_singleton,
      eq_comm] at hdone
    split
    · rfl
    · rename_i hnow
      exact hbefore (hdone.resolve_right hnow)
  have hstages := h.stages
  rw [owed_of_idle hidle, List.append_nil] at hstages
  refine ⟨?_, ?_, ?_, ?_, ?_⟩
  · rw [hpc]
    exact (List.getElem?_eq_some_iff.mp hop).1
  · rw [hpc, hdecoded]
    exact hset h.decoded
  · rw [hpc, hcomparison]
    exact hset h.compared
  · rw [hpc, hhalted]
    exact hset h.halted
  · rw [List.append_assoc, hnew, hstages, hpc, stagesBefore_succ hop]

/-- The next micro-operation leaves its stages, if it is no decoding of another operation and no
comparison with another result. -/
theorem execute (h : m.Within done opcode taken) {op : MicroOp} (hop : m.nextOp? = some op)
    (hidle : m.interrupt = .idle)
    (hdecode : op = .decode → Opcode.decode m.regs.ir = .ok opcode)
    (hcompare : op = .compare → (Condition.select m.regs.ir).holds m.regs.ac = taken) :
    ((m.execute op).2.moveTo (m.microPC + 1) (m.execute op).2.interrupt).Within
      (done ++ ((m.execute op).1.bind fun action =>
        LogEntry.stage? ⟨action, m.microPC, .idle⟩).toList) opcode taken := by
  -- with the request idle every transition computes, and owes nothing
  obtain ⟨memory, regs, origin, halted, microPC, decoded, comparison, _, count⟩ := m
  cases hidle
  cases op with
  | decode =>
      simp only [Machine.execute, Machine.decode, hdecode rfl]
      exact h.next hop rfl rfl rfl rfl rfl rfl
  | compare =>
      refine h.next hop rfl rfl rfl (hcompare rfl) rfl ?_
      rw [← hcompare rfl]
      rfl
  | skipIfTrue =>
      have hcomparison : comparison = taken := by
        rw [h.nextOp?_eq] at hop
        exact h.compared (Opcode.compare_mem_of_cycleOps_skipIfTrue hop)
      subst hcomparison
      cases comparison with
      | true => exact h.next hop rfl rfl rfl rfl rfl rfl
      | false => exact h.next hop rfl rfl rfl rfl rfl rfl
  | _ => exact h.next hop rfl rfl rfl rfl rfl rfl

/-- Settling leaves no stage. -/
theorem settle (h : m.Within done opcode taken) : m.settle.Within done opcode taken := by
  unfold Machine.settle
  split
  · rename_i op hidle hop
    split
    · rename_i hsilent
      have hnext := h.execute hop hidle (fun hdecode => by simp [hdecode, isSilent] at hsilent)
        (fun hcompare => by simp [hcompare, isSilent] at hsilent)
      have hnone : (m.execute op).1 = none := congrArg Prod.fst (execute_of_isSilent hsilent)
      rw [hnone, Option.bind_none, Option.toList_none, List.append_nil] at hnext
      exact hnext
    · exact h
  · exact h

/-- A machine that answers a request for input does a stage that it owes. -/
theorem answer (h : m.Within done opcode taken) {new : List Stage}
    (hpc : m'.microPC = m.microPC) (hdecoded : m'.decoded = m.decoded)
    (hcomparison : m'.comparison = m.comparison) (hhalted : m'.halted = m.halted)
    (howed : m.owed = new ++ m'.owed) : m'.Within (done ++ new) opcode taken := by
  refine ⟨?_, ?_, ?_, ?_, ?_⟩
  · rw [hpc]
    exact h.le
  · rw [hpc, hdecoded]
    exact h.decoded
  · rw [hpc, hcomparison]
    exact h.compared
  · rw [hpc, hhalted]
    exact h.halted
  · rw [List.append_assoc, ← howed, hpc]
    exact h.stages

/-- At the end of a cycle all its stages are done, and it is not that of a halt if the machine
is still running. -/
theorem complete (h : m.Within done opcode taken) (hidle : m.interrupt = .idle)
    (hend : m.nextOp? = none) (hrun : m.halted = false) :
    done ++ [⟨.stepEnd, m.microPC, .idle⟩] = cycle opcode taken ∧ opcode ≠ .halt := by
  rw [h.nextOp?_eq, List.getElem?_eq_none_iff] at hend
  have hpc : m.microPC = opcode.cycleOps.length := Nat.le_antisymm h.le hend
  have hstages := h.stages
  rw [owed_of_idle hidle, List.append_nil] at hstages
  constructor
  · rw [hstages, hpc, cycle]
  · rintro rfl
    have hhalted := h.halted (by rw [hpc]; decide)
    rw [hrun] at hhalted
    cases hhalted

end Within

/-! ## One entry more -/

/-- The machine is within a cycle of which the given stages are done, or it has halted at a word
that no operation decodes. -/
def InCycle (m : Machine) (done : List Stage) : Prop :=
  (∃ opcode taken, m.Within done opcode taken) ∨ m.halted = true ∧ done = faultedFetch

variable {m m' : Machine} {done : List Stage} {allowed : List Usage}

/-- Settling leaves no stage. -/
theorem InCycle.settle (h : m.InCycle done) : m.settle.InCycle done := by
  rcases h with ⟨opcode, taken, h⟩ | ⟨hhalted, hfault⟩
  · exact .inl ⟨opcode, taken, h.settle⟩
  · exact .inr ⟨by rw [settle_halted, hhalted], hfault⟩

/-- The entry of the next micro-operation goes on with the cycle. -/
theorem Within.perform {opcode : Opcode} {taken : Bool} (h : m.Within done opcode taken)
    (hidle : m.interrupt = .idle) {op : MicroOp} (hop : m.nextOp? = some op) {action : Action}
    {m₁ : Machine} (hexecute : m.execute op = (some action, m₁)) :
    (m₁.moveTo (m.microPC + 1) m₁.interrupt).InCycle
      (done ++ (LogEntry.stage? ⟨action, m.microPC, .idle⟩).toList) := by
  have hcycle := hop
  rw [h.nextOp?_eq] at hcycle
  by_cases hdecode : op = .decode
  · subst hdecode
    have hpc := Opcode.eq_of_cycleOps_decode hcycle
    rcases Opcode.decode_cases m.regs.ir with ⟨opcode', hopcode, -⟩ | ⟨hfault, -⟩
    · have hnext := (h.undecoded hpc opcode' taken).execute hop hidle (fun _ => hopcode)
        (fun h => by cases h)
      rw [hexecute] at hnext
      exact .inl ⟨_, _, hnext⟩
    · simp only [Machine.execute, decode, hfault, stop, Prod.mk.injEq, Option.some.injEq]
        at hexecute
      obtain ⟨rfl, rfl⟩ := hexecute
      have hdone := h.stages
      rw [owed_of_idle hidle, List.append_nil, hpc] at hdone
      refine .inr ⟨rfl, ?_⟩
      rw [hdone, hpc]
      rfl
  · by_cases hcompare : op = .compare
    · subst hcompare
      obtain ⟨rfl, hpc⟩ := Opcode.eq_of_cycleOps_compare hcycle
      have hnext := (h.uncompared hpc _).execute hop hidle (fun h => by cases h)
        (fun _ => rfl)
      rw [hexecute] at hnext
      exact .inl ⟨_, _, hnext⟩
    · have hnext := h.execute hop hidle (fun h => absurd h hdecode) (fun h => absurd h hcompare)
      rw [hexecute] at hnext
      exact .inl ⟨_, _, hnext⟩

/-- The entry of a transition goes on with the cycle, or completes it. -/
theorem Advance.inCycle {v : Option Int} {e : LogEntry} (hadv : m.Advance v e m')
    (h : m.InCycle done) :
    m'.InCycle (done ++ e.stage?.toList) ∨
      ∃ opcode taken, done ++ e.stage?.toList = cycle opcode taken ∧ opcode ≠ .halt ∧
        m'.InCycle [] := by
  have hrun := hadv.running
  obtain ⟨opcode, taken, h⟩ : ∃ opcode taken, m.Within done opcode taken := by
    rcases h with h | ⟨hhalted, -⟩
    · exact h
    · rw [hrun] at hhalted
      cases hhalted
  have hsettled := h.settle
  cases hadv with
  | perform _ hidle hperform =>
      rcases perform_cases hperform with ⟨hend, rfl, rfl⟩ | ⟨op, m₁, hop, hexecute, rfl⟩
      · obtain ⟨hcycle, hhalt⟩ := hsettled.complete hidle hend (by rw [settle_halted, hrun])
        exact .inr ⟨opcode, taken, hcycle, hhalt, .inl ⟨opcode, taken, .start rfl (by exact hidle) _ _⟩⟩
      · exact .inl (hsettled.perform hidle hop hexecute)
  | takeInput _ hload =>
      refine .inl (.inl ⟨opcode, taken, hsettled.answer rfl rfl rfl rfl ?_⟩)
      rw [owed, hload]
      rfl
  | receive n _ hwait =>
      refine .inl (.inl ⟨opcode, taken, hsettled.answer rfl rfl rfl rfl ?_⟩)
      rw [owed, hwait]
      rfl

/-- Registers and memory have no part in how far the cycle is. -/
theorem InCycle.setData (h : m.InCycle done) (regs : Registers) (memory : Memory) :
    ({ m with regs, memory } : Machine).InCycle done := by
  rcases h with ⟨opcode, taken, h⟩ | h
  · exact .inl ⟨opcode, taken, h.le, h.decoded, h.compared, h.halted, h.stages⟩
  · exact .inr h

/-- A change of a register or of memory leaves no stage, and stays within the cycle. -/
theorem Change.inCycle (hhalting : .halting ∉ allowed) {e : LogEntry}
    (hchange : m.Change allowed e m') (h : m.InCycle done) :
    m'.InCycle done ∧ e.stage? = none := by
  cases hchange with
  | setReg _ _ _ => exact ⟨h.setData _ m.memory, rfl⟩
  | setMem _ _ _ => exact ⟨h.setData m.regs _, rfl⟩
  | setHalted ha _ _ => exact absurd ha hhalting

/-! ## The whole log -/

/-- The entries of a ledger are a row of complete cycles and the stages of the one in progress. -/
theorem Ledger.exists_cycles (hhalting : .halting ∉ allowed) {es : List LogEntry}
    (h : m.Ledger allowed es) :
    ∃ (cycles : List (Opcode × Bool)) (last : List Stage),
      (⟨es⟩ : Log).stages = (cycles.flatMap fun c => cycle c.1 c.2) ++ last ∧
        (∀ c ∈ cycles, c.1 ≠ .halt) ∧ m.InCycle last := by
  induction h with
  | reset m => exact ⟨[], [], rfl, by simp, .inl ⟨.halt, false, .start rfl rfl _ _⟩⟩
  | settle _ ih =>
      obtain ⟨cycles, last, hstages, hrun, hlast⟩ := ih
      exact ⟨cycles, last, hstages, hrun, hlast.settle⟩
  | @advance es m m' v e _ hadv ih =>
      obtain ⟨cycles, last, hstages, hrun, hlast⟩ := ih
      have hpush : (⟨e :: es⟩ : Log).stages =
          (cycles.flatMap fun c => cycle c.1 c.2) ++ (last ++ e.stage?.toList) := by
        rw [← List.append_assoc, ← hstages]
        exact Log.stages_push ⟨es⟩ e
      rcases hadv.inCycle hlast with hnext | ⟨opcode, taken, hcycle, hhalt, hnext⟩
      · exact ⟨cycles, _, hpush, hrun, hnext⟩
      · refine ⟨cycles ++ [(opcode, taken)], [], ?_, ?_, hnext⟩
        · rw [hpush, hcycle]
          simp
        · simpa [or_imp, forall_and, hhalt] using hrun
  | @change es m m' e _ hchange ih =>
      obtain ⟨cycles, last, hstages, hrun, hlast⟩ := ih
      obtain ⟨hnext, hnone⟩ := hchange.inCycle hhalting hlast
      refine ⟨cycles, last, ?_, hrun, hnext⟩
      have hpush := Log.stages_push ⟨es⟩ e
      rw [hnone, Option.toList_none, List.append_nil, hstages] at hpush
      exact hpush

/-- The stages done of a cycle begin it and do not complete it. -/
theorem Within.prefix_cycle {opcode : Opcode} {taken : Bool} (h : m.Within done opcode taken) :
    done <+: cycle opcode taken ∧ done ≠ cycle opcode taken := by
  have hdone : done <+: stagesBefore opcode taken opcode.cycleOps.length :=
    (h.stages ▸ List.prefix_append done m.owed).trans (stagesBefore_prefix_cycle _ _ _)
  refine ⟨hdone.trans (List.prefix_append _ _), ?_⟩
  rintro rfl
  have hle := hdone.length_le
  rw [cycle, List.length_append, List.length_singleton] at hle
  omega

end Machine

namespace Simulator

variable {σ : Type} [InputSource σ]

/-- All kinds of calls but those that stop the machine or set it going, change the settings, or
set the number of completed instructions. -/
def cyclic : List Usage :=
  [.forward, .poke, .rewind, .input, .restart, .breakpoints]

/-- Apart from the changes of registers and memory, the log of every history from the start of a
program is a row of complete instruction cycles and the beginning of one more. Every stage of a
cycle stands at its point of control, and a cycle skips exactly if its comparison holds. A halt
completes no cycle, so it is in the last one, as is a fetch of a word that no operation
decodes. -/
theorem stages_log {s₀ s : Simulator σ} (hstart : s₀.Restarted)
    (hlog : s₀.flags.enableLog = true) (h : History cyclic 0 s₀ s) :
    ∃ (cycles : List (Opcode × Bool)) (last : List Stage),
      s.log.stages = (cycles.flatMap fun c => cycle c.1 c.2) ++ last ∧
        (∀ c ∈ cycles, c.1 ≠ .halt) ∧
        (last = faultedFetch ∨
          ∃ opcode taken, last <+: cycle opcode taken ∧ last ≠ cycle opcode taken) := by
  have hkeeps := h.ledger (by decide) (by decide) hstart hlog
  obtain ⟨cycles, last, hstages, hrun, hlast⟩ := hkeeps.ledger.exists_cycles (by decide)
  refine ⟨cycles, last, hstages, hrun, ?_⟩
  rcases hlast with ⟨opcode, taken, hwithin⟩ | ⟨-, hfault⟩
  · exact .inr ⟨opcode, taken, hwithin.prefix_cycle⟩
  · exact .inl hfault

/-- A fetch is changed so that it stops at a word that no operation decodes. The stop is taken
back, the word is changed to an input instruction, and the cycle is completed. -/
theorem stages_log_mended_fetch :
    let s₀ : Simulator Script := (new {} (.flaky [5])).reset
    let u := s₀.microStep.2.microStep.2.microStep.2.microStep.2.microStep.2
    let t := (u.setReg .ir 0xF000).microStep.2.microStepBack.2
    let s := (t.setReg .ir 0x5000).step.2.step.2
    (s₀.Restarted ∧ s₀.flags.enableLog = true ∧ History cyclic 0 s₀ s) ∧
    s.log.size = 11 ∧
    ∃ (cycles : List (Opcode × Bool)) (last : List Stage),
      s.log.stages = (cycles.flatMap fun c => cycle c.1 c.2) ++ last ∧
        (∀ c ∈ cycles, c.1 ≠ .halt) ∧
        (last = faultedFetch ∨
          ∃ opcode taken, last <+: cycle opcode taken ∧ last ≠ cycle opcode taken) := by
  intro s₀ u t s
  have hstart : s₀.Restarted := .reset _
  have hlog : s₀.flags.enableLog = true := rfl
  have hu : History cyclic 0 s₀ u :=
    (((((History.refl s₀).microStep (by decide)).microStep (by decide)).microStep
      (by decide)).microStep (by decide)).microStep (by decide)
  have ht : History cyclic 0 s₀ t :=
    ((hu.setReg (by decide) .ir 0xF000).microStep (by decide)).microStepBack (by decide)
      (Nat.zero_le _)
  have h : History cyclic 0 s₀ s :=
    ((ht.setReg (by decide) .ir 0x5000).step (by decide)).step (by decide)
  have hsize : s.log.size = 11 := by decide +kernel
  exact ⟨⟨hstart, hlog, h⟩, hsize, stages_log hstart hlog h⟩

end Simulator

end Marie
