/-
# What one transition changes

A transition changes one cell of the machine at most, namely the one that its action names, and
the action keeps what the cell held before. All other cells are as they were; only the control
moves on.

* `Machine.Effect` : an action accounts for the difference between two machines;
* `Machine.Advance.effect` : the action of every transition does;
* `Simulator.microStep_frame` : a micro-step appends the entry of its action and changes the cell
  of that action, or it changes nothing but the control.
-/
import Marie.Proofs.Cycle
import Marie.Proofs.Moves

namespace Marie

/-! ## Cells -/

/-- A place of the machine that holds a value, apart from the control. -/
inductive Cell where
  | reg (reg : Reg)
  | memory (index : Fin memorySize)
  | origin
  | halted
  | decoded
  | comparison
  | count
deriving DecidableEq

/-- What a cell holds. -/
def Cell.Value : Cell → Type
  | .reg _ | .memory _ | .origin => Word
  | .halted | .comparison => Bool
  | .decoded => Option Opcode
  | .count => Nat

/-- The cell that an action names as the one that it has changed. -/
def Action.cell? : Action → Option Cell
  | .stepStart _ | .output _ => none
  | .stepEnd => some .count
  | .decode _ _ => some .decoded
  | .incrementPC _ => some (.reg .pc)
  | .arithmetic _ _ => some (.reg .ac)
  | .comparison _ _ _ => some .comparison
  | .memRead _ _ => some (.reg .mbr)
  | .memWrite addr _ | .memSet addr _ _ => some (.memory (Memory.cell addr))
  | .regTransfer target _ _ => some (.reg target)
  | .regSet reg _ _ => some (.reg reg)
  | .input _ _ => some (.reg .inp)
  | .halt _ _ => some .halted

namespace Machine

variable {m m' : Machine}

/-- The value in a cell. -/
def read (m : Machine) : (c : Cell) → c.Value
  | .reg reg => m.regs.get reg
  | .memory index => m.memory.cells[index]
  | .origin => m.origin
  | .halted => m.halted
  | .decoded => m.decoded
  | .comparison => m.comparison
  | .count => m.count

/-- The control is in no cell. -/
@[simp]
theorem read_moveTo (m : Machine) (microPC : Nat) (interrupt : Interrupt) :
    (m.moveTo microPC interrupt).read = m.read := by
  funext c
  cases c <;> rfl

/-- Settling changes no cell. -/
@[simp]
theorem read_settle (m : Machine) : m.settle.read = m.read := by
  rw [settle_eq_moveTo, read_moveTo]

/-- Writing to a register leaves the other cells as they are. -/
theorem read_setReg (m : Machine) (reg : Reg) (w : Word) {c : Cell} (hne : c ≠ .reg reg) :
    ({ m with regs := m.regs.set reg w } : Machine).read c = m.read c := by
  cases c with
  | reg other =>
      have hother : other ≠ reg := fun h => hne (congrArg Cell.reg h)
      show (m.regs.set reg w).get other = m.regs.get other
      rw [Registers.get_set, if_neg hother]
  | _ => rfl

/-- Writing to an address leaves the other cells as they are. -/
theorem read_setMemory (m : Machine) (addr w : Word) {c : Cell}
    (hne : c ≠ .memory (Memory.cell addr)) :
    ({ m with memory := m.memory.set addr w } : Machine).read c = m.read c := by
  cases c with
  | memory index =>
      have hother : (Memory.cell addr).val ≠ index.val := by
        intro h
        exact hne (congrArg Cell.memory (Fin.ext h.symm))
      exact Vector.getElem_set_ne (Memory.cell addr).isLt index.isLt hother
  | _ => rfl

end Machine

/-! ## Effects -/

/-- What an action says of the values in the machine before it and after it. Every value that it
keeps as overwritten was in its cell before. Changes from outside are not actions of the machine
itself. -/
def Action.Tells (before after : Machine) : Action → Prop
  | .stepStart pc => pc = before.regs.pc
  | .stepEnd => after.count = before.count + 1
  | .decode old opcode =>
    old = before.decoded ∧ after.decoded = some opcode ∧
      Opcode.decode before.regs.ir = .ok opcode
  | .incrementPC oldPC =>
    oldPC = before.regs.pc ∧ after.regs.pc.toNat = (oldPC.toNat + 1) % memorySize
  | .arithmetic op oldAC =>
    oldAC = before.regs.ac ∧ after.regs.ac = op.apply oldAC before.regs.mbr before.regs.ir
  | .comparison cond oldResult result =>
    oldResult = before.comparison ∧ after.comparison = result ∧
      cond = Condition.select before.regs.ir ∧ result = cond.holds before.regs.ac
  | .memRead addr oldMBR =>
    addr = before.regs.mar ∧ oldMBR = before.regs.mbr ∧
      after.regs.mbr = before.memory.get addr
  | .memWrite addr old =>
    addr = before.regs.mar ∧ old = before.memory.get addr ∧
      after.memory.get addr = before.regs.mbr
  | .regTransfer target source old =>
    old = before.regs.get target ∧
      after.regs.get target = target.fit (before.regs.get source)
  | .input old new => old = before.regs.inp ∧ after.regs.inp = new
  | .output value => value = before.regs.out
  | .halt stopped _ => stopped = true ∧ before.halted = false ∧ after.halted = true
  | .memSet _ _ _ | .regSet _ _ _ => False

namespace Machine

variable {m m' : Machine} {action : Action}

/-- An action accounts for the difference between two machines: no other cell than the one that
it names has changed, and it tells the values. -/
structure Effect (m : Machine) (action : Action) (m' : Machine) : Prop where
  frame : ∀ c, action.cell? ≠ some c → m'.read c = m.read c
  tells : action.Tells m m'

namespace Effect

/-- Where the control stands does not matter to an effect. -/
theorem moveTo_iff {i j : Nat} {x y : Interrupt} :
    (m.moveTo i x).Effect action (m'.moveTo j y) ↔ m.Effect action m' := by
  have htells : action.Tells (m.moveTo i x) (m'.moveTo j y) ↔ action.Tells m m' := by
    cases action <;> exact Iff.rfl
  constructor
  · intro h
    refine ⟨fun c hc => ?_, htells.mp h.tells⟩
    have hframe := h.frame c hc
    rwa [read_moveTo, read_moveTo] at hframe
  · intro h
    refine ⟨fun c hc => ?_, htells.mpr h.tells⟩
    rw [read_moveTo, read_moveTo]
    exact h.frame c hc

/-- The control may move on after an effect. -/
theorem moveTo (h : m.Effect action m') (microPC : Nat) (interrupt : Interrupt) :
    m.Effect action (m'.moveTo microPC interrupt) :=
  (moveTo_iff (i := m.microPC) (x := m.interrupt)).mpr h

/-- A write to the register that an action names. -/
theorem setReg {reg : Reg} {w : Word} (hcell : action.cell? = some (.reg reg))
    (htells : action.Tells m { m with regs := m.regs.set reg w }) :
    m.Effect action { m with regs := m.regs.set reg w } := by
  refine ⟨fun c hc => ?_, htells⟩
  exact m.read_setReg reg w fun h => hc (by rw [hcell, h])

end Effect

/-- A transfer copies the source, cut to the width of the target. -/
theorem effect_transfer (m : Machine) (target source : Reg) :
    m.Effect (m.transfer target source).1 (m.transfer target source).2 := by
  refine .setReg rfl ⟨rfl, ?_⟩
  show (m.regs.set target (m.regs.get source)).get target = _
  rw [Registers.get_set, if_pos rfl]

/-- Incrementing PC is modulo the size of memory. -/
theorem effect_incrementPC (m : Machine) : m.Effect m.incrementPC.1 m.incrementPC.2 := by
  refine .setReg rfl ⟨rfl, ?_⟩
  show (Word.low12 (m.regs.pc + 1)).toNat = _
  rw [Word.toNat_low12, UInt16.toNat_add, memorySize]
  show (m.regs.pc.toNat + 1) % 65536 % 4096 = _
  omega

/-- Stopping changes the halted flag of a running machine. -/
theorem effect_stop (hrun : m.halted = false) (fault : Option Fault) :
    m.Effect (m.stop fault).1 (m.stop fault).2 := by
  refine ⟨fun c hc => ?_, rfl, hrun, rfl⟩
  cases c with
  | halted => exact absurd rfl hc
  | _ => rfl

/-- Decoding changes the decoded operation, or it stops the machine. -/
theorem effect_decode (hrun : m.halted = false) : m.Effect m.decode.1 m.decode.2 := by
  unfold decode
  split
  · rename_i opcode hopcode
    refine ⟨fun c hc => ?_, rfl, rfl, hopcode⟩
    cases c with
    | decoded => exact absurd rfl hc
    | _ => rfl
  · exact effect_stop hrun _

/-- Comparing changes the result of the comparison. -/
theorem effect_compare (m : Machine) :
    m.Effect (.comparison (Condition.select m.regs.ir) m.comparison
        ((Condition.select m.regs.ir).holds m.regs.ac))
      { m with comparison := (Condition.select m.regs.ir).holds m.regs.ac } := by
  refine ⟨fun c hc => ?_, rfl, rfl, rfl, rfl⟩
  cases c with
  | comparison => exact absurd rfl hc
  | _ => rfl

/-- The end of a cycle changes the number of completed instructions. -/
theorem effect_stepEnd (m : Machine) :
    m.Effect .stepEnd { m with microPC := 0, count := m.count + 1 } := by
  refine ⟨fun c hc => ?_, rfl⟩
  cases c with
  | count => exact absurd rfl hc
  | _ => rfl

/-- The action of a micro-operation accounts for what it does. -/
theorem effect_execute {op : MicroOp} (hrun : m.halted = false)
    (h : m.execute op = (some action, m')) : m.Effect action m' := by
  cases op with
  | stepStart => cases h; exact ⟨fun _ _ => rfl, rfl⟩
  | decode => cases h; exact effect_decode hrun
  | transfer target source => cases h; exact m.effect_transfer target source
  | readMem =>
      cases h
      refine .setReg rfl ⟨rfl, rfl, ?_⟩
      rw [Registers.set_mbr]
  | writeMem =>
      cases h
      refine ⟨fun c hc => m.read_setMemory _ _ fun h => hc (by rw [h]; rfl), rfl, rfl, ?_⟩
      show (m.memory.set m.regs.mar m.regs.mbr).get m.regs.mar = _
      rw [Memory.get_set, if_pos rfl]
  | incPC => cases h; exact m.effect_incrementPC
  | arith op =>
      cases h
      refine .setReg rfl ⟨rfl, ?_⟩
      rw [Registers.set_ac]
  | compare => cases h; exact m.effect_compare
  | skipIfTrue =>
      simp only [execute] at h
      split at h
      · cases h; exact m.effect_incrementPC
      · cases h
  | requestInput => cases h
  | output => cases h; exact ⟨fun _ _ => rfl, rfl⟩
  | halt => cases h; exact effect_stop hrun none

/-- The action of a transition accounts for what it does. -/
theorem Advance.effect {v : Option Int} {e : LogEntry} (h : m.Advance v e m') :
    m.Effect e.action m' := by
  have hrun : m.settle.halted = false := by rw [settle_halted, h.running]
  -- the transition is one of the settled machine, which only stands elsewhere
  have hsettled : m.settle.Effect e.action m' := by
    cases h with
    | perform _ _ hperform =>
        rcases perform_cases hperform with ⟨-, rfl, rfl⟩ | ⟨op, m₁, -, hexecute, rfl⟩
        · exact m.settle.effect_stepEnd
        · exact (effect_execute hrun hexecute).moveTo _ _
    | takeInput _ _ => exact (m.settle.effect_transfer .ac .inp).moveTo _ _
    | receive n _ _ =>
        have hset : m.settle.Effect (.input m.settle.regs.inp (Word.ofInt n))
            { m.settle with regs := m.settle.regs.set .inp (Word.ofInt n) } := by
          refine .setReg rfl ⟨rfl, ?_⟩
          rw [Registers.set_inp]
        exact hset.moveTo _ _
  rw [settle_eq_moveTo] at hsettled
  exact (Effect.moveTo_iff (j := m'.microPC) (y := m'.interrupt)).mp hsettled

end Machine

namespace Simulator

variable {σ : Type}

variable [InputSource σ]

/-! ## Micro-steps -/

/-- A micro-step with an action appends one entry, which is that of the action, and changes the
one cell that the action names, if it names one; and the action tells the values. A micro-step
without an action changes no cell and not the log. -/
theorem microStep_frame (s : Simulator σ) (hlog : s.flags.enableLog = true) :
    (∀ action t, s.microStep = (some action, t) →
      (∃ e, e.action = action ∧ t.log.entries = s.log.entries ++ [e]) ∧
        (∀ c, action.cell? ≠ some c → t.machine.read c = s.machine.read c) ∧
        action.Tells s.machine t.machine ∧ t.flags = s.flags ∧ t.breakpoints = s.breakpoints) ∧
    (∀ t, s.microStep = (none, t) →
      t.log = s.log ∧ t.machine.read = s.machine.read ∧ t.flags = s.flags ∧
        t.breakpoints = s.breakpoints) := by
  have hsettings := s.settings_microStep
  refine ⟨fun action t hmicro => ?_, fun t hmicro => ?_⟩
  · obtain ⟨v, e, hadv, haction, hpush, -⟩ := exists_advance_of_microStep hlog hmicro
    obtain ⟨hframe, htells⟩ := hadv.effect
    rw [hmicro] at hsettings
    rw [haction] at hframe htells
    exact ⟨⟨e, haction, by rw [hpush, Log.entries_push]⟩, hframe, htells, hsettings⟩
  · have hcases := s.microStep_cases
    rw [hmicro] at hcases hsettings
    cases hcases with
    | halted _ => exact ⟨rfl, rfl, hsettings⟩
    | notReady _ _ _ _ => exact ⟨rfl, s.machine.read_settle, hsettings⟩

/-- A conditional skip whose comparison does not hold: the micro-step passes the skip and ends the
cycle, so it changes the number of completed instructions and nothing else. -/
theorem microStep_frame_untaken_skip :
    let s₀ : Simulator Feed := ((new {} .empty).setMem 0 0x8400).setReg .ac 1
    let u := s₀.microStep.2.microStep.2.microStep.2.microStep.2.microStep.2.microStep.2
    let s := u.microStep.2
    let t := s.microStep.2
    s.flags.enableLog = true ∧ s.microStep = (some .stepEnd, t) ∧
      (∃ e, e.action = .stepEnd ∧ t.log.entries = s.log.entries ++ [e]) ∧
      (∀ c, c ≠ .count → t.machine.read c = s.machine.read c) ∧
      t.machine.count = s.machine.count + 1 := by
  intro s₀ u s t
  have hlog : s.flags.enableLog = true := by decide +kernel
  have haction : s.microStep.1 = some .stepEnd := by decide +kernel
  have hmicro : s.microStep = (some .stepEnd, t) := microStep_eq haction
  obtain ⟨hentry, hframe, htells, -⟩ := (microStep_frame s hlog).1 .stepEnd t hmicro
  exact ⟨hlog, hmicro, hentry, fun c hc => hframe c fun h => hc (Option.some.inj h).symm, htells⟩

end Simulator

end Marie
