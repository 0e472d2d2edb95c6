/-
# The machine

The state of the machine apart from its log: memory, registers, and the control that leads from
one micro-operation to the next. The transitions are functions on this state.

* `execute` carries out one micro-operation and names the action, if there is one. Two
  operations may have none: a skip that is not taken and a request for input.
* `settle` carries out such an operation if it comes next, after which none comes next
  (`settle_settle`).
* `perform`, `receive` and `takeInput` are the transitions of a settled machine.
* `undo` takes back an action.
-/
import Marie.Action
import Marie.Memory
import Marie.MicroOp

namespace Marie

/-- The state of the machine. -/
structure Machine where
  memory : Memory := .zero
  regs : Registers := {}
  /-- The address where the loaded program starts. -/
  origin : Word := 0
  /-- Whether the machine has stopped. -/
  halted : Bool := false
  /-- The index of the next micro-operation in its cycle. -/
  microPC : Nat := 0
  /-- The operation that was decoded last. -/
  decoded : Option Opcode := none
  /-- The result of the last comparison. -/
  comparison : Bool := false
  /-- The state of the request for input. -/
  interrupt : Interrupt := .idle
  /-- The number of instruction cycles completed. -/
  count : Nat := 0
deriving DecidableEq

namespace Machine

instance : Inhabited Machine :=
  ⟨{}⟩

/-! ## Loading -/

/-- The machine at the start of its program: registers and control are cleared, and memory
stays. -/
def reset (m : Machine) : Machine :=
  { memory := m.memory
    origin := m.origin
    regs := ({} : Registers).set .pc m.origin }

/-- The machine at the start of a program that is loaded at its origin, if the program fits. -/
def load? (m : Machine) (origin : Word) (words : List Word) : Option Machine :=
  (Memory.load? origin words).map fun memory => { m with memory, origin }.reset

/-! ## Micro-operations -/

/-- The micro-operation that comes next, if the cycle is not complete. -/
def nextOp? (m : Machine) : Option MicroOp :=
  if m.microPC < fetchDecode.length then fetchDecode[m.microPC]?
  else match m.decoded with
    | some op => op.microProgram[m.microPC - fetchDecode.length]?
    | none => none

/-- Copies a register to another one, cut to its width. -/
def transfer (m : Machine) (target source : Reg) : Action × Machine :=
  (.regTransfer target source (m.regs.get target),
    { m with regs := m.regs.set target (m.regs.get source) })

/-- Increments PC. -/
def incrementPC (m : Machine) : Action × Machine :=
  (.incrementPC m.regs.pc, { m with regs := m.regs.set .pc (m.regs.pc + 1) })

/-- Stops the machine because of a fault. -/
def stop (m : Machine) (fault : Option Fault) : Action × Machine :=
  (.halt true fault, { m with halted := true })

/-- Decodes the operation in IR. -/
def decode (m : Machine) : Action × Machine :=
  match Opcode.decode m.regs.ir with
  | .ok op => (.decode m.decoded op, { m with decoded := some op })
  | .error bits => m.stop (some (.unsupportedOpcode bits))

/-- Carries out a micro-operation, and names the action unless nothing happened that could be
undone. -/
def execute (m : Machine) (op : MicroOp) : Option Action × Machine :=
  match op with
  | .stepStart => (some (.stepStart m.regs.pc), m)
  | .decode => let (action, m) := m.decode; (some action, m)
  | .transfer target source => let (action, m) := m.transfer target source; (some action, m)
  | .readMem =>
    (some (.memRead m.regs.mar m.regs.mbr),
      { m with regs := m.regs.set .mbr (m.memory.get m.regs.mar) })
  | .writeMem =>
    (some (.memWrite m.regs.mar (m.memory.get m.regs.mar)),
      { m with memory := m.memory.set m.regs.mar m.regs.mbr })
  | .incPC => let (action, m) := m.incrementPC; (some action, m)
  | .arith op =>
    (some (.arithmetic op m.regs.ac),
      { m with regs := m.regs.set .ac (op.apply m.regs.ac m.regs.mbr m.regs.ir) })
  | .compare =>
    let cond := Condition.select m.regs.ir
    let result := cond.holds m.regs.ac
    (some (.comparison cond m.comparison result), { m with comparison := result })
  | .skipIfTrue =>
    if m.comparison then let (action, m) := m.incrementPC; (some action, m) else (none, m)
  | .requestInput => (none, { m with interrupt := .needsValue })
  | .output => (some (.output m.regs.out), m)
  | .halt => let (action, m) := m.stop none; (some action, m)

/-- Whether a micro-operation would have no action. -/
def isSilent (m : Machine) : MicroOp → Bool
  | .skipIfTrue => !m.comparison
  | .requestInput => true
  | _ => false

/-! ## Transitions -/

/-- The machine after the operation without action that comes next, if one does. -/
def settle (m : Machine) : Machine :=
  match m.interrupt, m.nextOp? with
  | .idle, some op =>
    if m.isSilent op then
      let m' := (m.execute op).2
      { m' with microPC := m.microPC + 1 }
    else m
  | _, _ => m

/-- The next transition of a settled machine that does not wait for input: the next
micro-operation, or the end of the cycle. -/
def perform (m : Machine) : Option Action × Machine :=
  match m.nextOp? with
  | none => (some .stepEnd, { m with microPC := 0, count := m.count + 1 })
  | some op =>
    let (action, m') := m.execute op
    (action, { m' with microPC := m.microPC + 1 })

/-- The transition of a machine that waits for input when a number arrives. -/
def receive (m : Machine) (n : Int) : Action × Machine :=
  (.input m.regs.inp (Word.ofInt n),
    { m with regs := m.regs.set .inp (Word.ofInt n), interrupt := .needsLoad })

/-- The transition of a machine that has a value in IN. -/
def takeInput (m : Machine) : Action × Machine :=
  let (action, m) := m.transfer .ac .inp
  (action, { m with interrupt := .idle })

/-! ## Undoing -/

/-- Takes back an action, apart from the control that came with it. -/
def undo (m : Machine) : Action → Machine
  | .stepStart _ => m
  | .stepEnd => { m with count := m.count - 1 }
  | .decode old _ => { m with decoded := old }
  | .incrementPC oldPC => { m with regs := m.regs.set .pc oldPC }
  | .arithmetic _ oldAC => { m with regs := m.regs.set .ac oldAC }
  | .comparison _ oldResult _ => { m with comparison := oldResult }
  | .memRead _ oldMBR => { m with regs := m.regs.set .mbr oldMBR }
  | .memWrite addr old => { m with memory := m.memory.set addr old }
  | .memSet addr old _ => { m with memory := m.memory.set addr old }
  | .regTransfer target _ old => { m with regs := m.regs.set target old }
  | .regSet reg old _ => { m with regs := m.regs.set reg old }
  | .input old _ => { m with regs := m.regs.set .inp old }
  | .output _ => m
  | .halt halt _ => { m with halted := !halt }

/-- Takes back a recorded action, and returns to the point of control where it happened. -/
def undoEntry (m : Machine) (entry : LogEntry) : Machine :=
  { m.undo entry.action with microPC := entry.microPC, interrupt := entry.interrupt }

/-! ## How long a cycle lasts -/

/-- A bound on the number of transitions before the cycle is complete. -/
def remaining (m : Machine) : Nat :=
  3 * (11 - m.microPC) + m.interrupt.rank

/-- The bound is below 36. -/
theorem remaining_lt (m : Machine) : m.remaining < 36 := by
  have := m.interrupt.rank_le
  unfold remaining
  omega

/-- An operation comes next only among the first eleven of a cycle. -/
theorem microPC_lt_of_nextOp? {m : Machine} {op : MicroOp} (h : m.nextOp? = some op) :
    m.microPC < 11 := by
  unfold nextOp? at h
  split at h
  · simp_all; omega
  · split at h
    · rename_i decoded _
      have hlt := (List.getElem?_eq_some_iff.1 h).1
      have hle := decoded.length_microProgram_le
      simp_all; omega
    · simp at h

@[simp]
theorem execute_microPC (m : Machine) (op : MicroOp) : (m.execute op).2.microPC = m.microPC := by
  cases op <;> simp only [execute, decode, transfer, incrementPC, stop] <;>
    (repeat' split) <;> rfl

/-- The operations with an action are those that are not silent. -/
theorem isSome_execute (m : Machine) (op : MicroOp) :
    (m.execute op).1.isSome = !m.isSilent op := by
  cases op <;> simp only [isSilent, execute, decode, transfer, incrementPC, stop] <;>
    (repeat' split) <;> first | rfl | simp_all

/-- Only a request for input changes the state of the request. -/
theorem execute_interrupt {m : Machine} {op : MicroOp} (h : m.isSilent op = false) :
    (m.execute op).2.interrupt = m.interrupt := by
  cases op <;> simp only [isSilent, execute, decode, transfer, incrementPC, stop] at h ⊢ <;>
    (repeat' split) <;> first | rfl | simp_all

/-- An operation that may have no action is the last one of its cycle: it is the skip of a
conditional skip or the request of an input instruction. -/
theorem nextOp?_of_isSilent {m : Machine} {op : MicroOp} (hop : m.nextOp? = some op)
    (hsilent : m.isSilent op = true) :
    op = .skipIfTrue ∧ m.decoded = some .skipCond ∧ m.microPC = 7 ∨
      op = .requestInput ∧ m.decoded = some .input ∧ m.microPC = 6 := by
  have hlt := microPC_lt_of_nextOp? hop
  obtain ⟨i, hi⟩ : ∃ i : Fin 11, m.microPC = i.val := ⟨⟨m.microPC, hlt⟩, rfl⟩
  have hcases : op = .skipIfTrue ∨ op = .requestInput := by
    cases op <;> simp_all [isSilent]
  rw [nextOp?, hi] at hop
  rw [hi]
  cases hd : m.decoded with
  | none =>
    rw [hd] at hop
    clear hd hlt hsilent hi
    rcases hcases with rfl | rfl <;> revert i <;> decide
  | some d =>
    rw [hd] at hop
    clear hd hlt hsilent hi
    rcases hcases with rfl | rfl <;> revert i <;> cases d <;> decide

/-- Settling brings the end of the cycle nearer, or changes nothing. -/
theorem settle_eq_or_remaining_lt (m : Machine) :
    m.settle = m ∨ m.settle.remaining < m.remaining := by
  unfold settle
  split
  · rename_i op hidle hop
    split
    · rename_i hsilent
      right
      have hlt := microPC_lt_of_nextOp? hop
      have hrank := ((m.execute op).2.interrupt).rank_le
      have hzero : Interrupt.idle.rank = 0 := rfl
      simp only [remaining, hidle]
      omega
    · exact .inl rfl
  · exact .inl rfl

/-- After settling no operation without action comes next. -/
theorem isSilent_settle {m : Machine} {op : MicroOp} (hidle : m.settle.interrupt = .idle)
    (hop : m.settle.nextOp? = some op) : m.settle.isSilent op = false := by
  unfold settle at hidle hop ⊢
  split at hidle
  · rename_i next hi hnext
    simp only [hi, hnext] at hop ⊢
    split at hidle
    · rename_i hsilent
      simp only [hsilent, if_true] at hop ⊢
      rcases nextOp?_of_isSilent hnext hsilent with ⟨rfl, hd, hpc⟩ | ⟨rfl, _, _⟩
      · have hc : m.comparison = false := by simpa [isSilent] using hsilent
        simp [nextOp?, execute, hc, hd, hpc, Opcode.microProgram] at hop
      · simp [execute] at hidle
    · rename_i hloud
      have hfalse : m.isSilent next = false := by simpa using hloud
      simp only [hfalse, Bool.false_eq_true, if_false] at hop ⊢
      rw [hnext] at hop
      cases hop
      exact hfalse
  · rename_i hno
    cases hi : m.interrupt with
    | idle =>
      cases hn : m.nextOp? with
      | none => simp_all
      | some next => exact absurd hn (hno next hi)
    | needsValue => simp_all
    | needsLoad => simp_all

/-- Settling twice is settling once. -/
@[simp]
theorem settle_settle (m : Machine) : m.settle.settle = m.settle := by
  rw [settle]
  split
  · rename_i op hidle hop
    exact if_neg (by simp [isSilent_settle hidle hop])
  · rfl

/-- Settling does not lengthen the cycle. -/
theorem remaining_settle_le (m : Machine) : m.settle.remaining ≤ m.remaining := by
  rcases m.settle_eq_or_remaining_lt with h | h
  · exact Nat.le_of_eq (congrArg remaining h)
  · exact Nat.le_of_lt h

/-- A transition with an action brings the end of the cycle nearer, unless it is that end. -/
theorem remaining_perform_lt {m : Machine} {action : Action} {m' : Machine}
    (hidle : m.interrupt = .idle) (h : m.perform = (some action, m'))
    (hend : action.isStepEnd = false) : m'.remaining < m.remaining := by
  unfold perform at h
  split at h
  · simp only [Prod.mk.injEq, Option.some.injEq] at h
    rw [← h.1] at hend
    simp [Action.isStepEnd] at hend
  · rename_i op hop
    have hlt := microPC_lt_of_nextOp? hop
    simp only [Prod.mk.injEq] at h
    have hloud : m.isSilent op = false := by
      have := m.isSome_execute op
      rw [h.1] at this
      simpa using this.symm
    have hint := execute_interrupt hloud
    rw [← h.2]
    simp only [remaining, hint, hidle]
    omega

@[simp]
theorem execute_count (m : Machine) (op : MicroOp) : (m.execute op).2.count = m.count := by
  cases op <;> simp only [execute, decode, transfer, incrementPC, stop] <;>
    (repeat' split) <;> rfl

@[simp]
theorem settle_count (m : Machine) : m.settle.count = m.count := by
  unfold settle
  repeat' split
  · exact m.execute_count _
  · rfl
  · rfl

/-- No micro-operation is the end of a cycle. -/
theorem isStepEnd_of_execute {m : Machine} {op : MicroOp} {action : Action}
    (h : (m.execute op).1 = some action) : action.isStepEnd = false := by
  cases op with
  | decode =>
    rw [execute] at h
    cases h
    split <;> rfl
  | skipIfTrue =>
    rw [execute] at h
    split at h
    · cases h
      rfl
    · cases h
  | requestInput => cases h
  | _ =>
    cases h
    rfl

/-- A transition counts an instruction exactly if it ends the cycle. -/
theorem perform_count {m : Machine} {action : Action} {m' : Machine}
    (h : m.perform = (some action, m')) :
    m'.count = if action.isStepEnd then m.count + 1 else m.count := by
  unfold perform at h
  split at h
  · simp only [Prod.mk.injEq, Option.some.injEq] at h
    rw [← h.1, ← h.2]
    rfl
  · rename_i op hop
    simp only [Prod.mk.injEq] at h
    rw [← h.2, isStepEnd_of_execute h.1]
    exact m.execute_count op

theorem remaining_receive_lt {m : Machine} (hwait : m.interrupt = .needsValue) (n : Int) :
    (m.receive n).2.remaining < m.remaining := by
  simp [receive, remaining, hwait, Interrupt.rank]

theorem remaining_takeInput_lt {m : Machine} (hload : m.interrupt = .needsLoad) :
    m.takeInput.2.remaining < m.remaining := by
  simp [takeInput, transfer, remaining, hload, Interrupt.rank]

end Machine

end Marie
