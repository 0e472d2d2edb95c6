/-
# Taking back transitions

An entry of the log keeps what its transition overwrote. Writing that back restores the machine,
provided that every register holds a value of its own width (`Registers.Fits`), which all writes
preserve.

* `Machine.Advance.undoEntry` : taking back a transition gives the settled machine before it;
* `Machine.undoEntry_moveTo` : an entry brings its own point of control, so that it does not
  matter where the control stood.
-/
import Marie.Proofs.Advance

namespace Marie

/-! ## Writing back -/

namespace Registers

/-- Every register holds a value of its own width. -/
def Fits (regs : Registers) : Prop :=
  ∀ reg, reg.fit (regs.get reg) = regs.get reg

/-- The cleared registers fit. -/
theorem fits_default : ({} : Registers).Fits := by
  intro reg
  cases reg <;> rfl

/-- A write cuts its value to the width of the register. -/
theorem Fits.set {regs : Registers} (h : regs.Fits) (reg : Reg) (w : Word) :
    (regs.set reg w).Fits := by
  intro other
  rw [get_set]
  by_cases hother : other = reg
  · rw [if_pos hother, hother, Reg.fit_fit]
  · rw [if_neg hother, h other]

/-- Writing back what a write has overwritten undoes the write. -/
theorem Fits.set_set_get {regs : Registers} (h : regs.Fits) (reg : Reg) (w : Word) :
    (regs.set reg w).set reg (regs.get reg) = regs := by
  apply ext_get
  intro other
  rw [get_set, get_set]
  by_cases hother : other = reg
  · rw [if_pos hother, hother, h reg]
  · rw [if_neg hother, if_neg hother]

end Registers

/-- Writing back what a write has overwritten undoes the write. -/
theorem Memory.set_set_get (mem : Memory) (addr w : Word) :
    (mem.set addr w).set addr (mem.get addr) = mem := by
  apply ext_get
  intro other
  rw [get_set, get_set]
  by_cases hcell : cell other = cell addr
  · rw [if_pos hcell]
    simp only [get, hcell]
  · rw [if_neg hcell, if_neg hcell]

namespace Machine

/-! ## Control -/

/-- Undoing an action leaves the control alone. -/
theorem undo_moveTo (m : Machine) (microPC : Nat) (interrupt : Interrupt) (action : Action) :
    (m.moveTo microPC interrupt).undo action = (m.undo action).moveTo microPC interrupt := by
  cases action <;> rfl

theorem undoEntry_eq_moveTo (m : Machine) (entry : LogEntry) :
    m.undoEntry entry = (m.undo entry.action).moveTo entry.microPC entry.interrupt :=
  rfl

/-- An entry is taken back in the same way wherever the control stands. -/
@[simp]
theorem undoEntry_moveTo (m : Machine) (microPC : Nat) (interrupt : Interrupt)
    (entry : LogEntry) :
    (m.moveTo microPC interrupt).undoEntry entry = m.undoEntry entry := by
  rw [undoEntry_eq_moveTo, undo_moveTo, moveTo_moveTo, ← undoEntry_eq_moveTo]

/-- An entry is taken back in the same way before and after settling. -/
@[simp]
theorem undoEntry_settle (m : Machine) (entry : LogEntry) :
    m.settle.undoEntry entry = m.undoEntry entry := by
  rw [settle_eq_moveTo, undoEntry_moveTo]

/-- An entry is taken back in the same way from machines that are equal up to settling. -/
theorem SettlesTo.undoEntry_eq {m m' : Machine} (h : m.SettlesTo m') (entry : LogEntry) :
    m'.undoEntry entry = m.undoEntry entry := by
  rw [← undoEntry_settle, h.settle_eq, undoEntry_settle]

/-! ## Changes from outside -/

/-- Undoing a change of a register gives the machine before it. -/
theorem undo_regSet {m : Machine} (h : m.regs.Fits) (reg : Reg) (w : Word) :
    { m with regs := m.regs.set reg w }.undo (.regSet reg (m.regs.get reg) (reg.fit w)) = m := by
  simp only [undo, h.set_set_get]

/-- Undoing a change of a word of memory gives the machine before it. -/
theorem undo_memSet (m : Machine) (addr w : Word) :
    { m with memory := m.memory.set addr w }.undo
      (.memSet (Word.low12 addr) (m.memory.get addr) w) = m := by
  simp only [undo, Memory.set_low12, Memory.set_set_get]

/-- Undoing a change of the halted flag gives the machine before it. -/
theorem undo_halt {m : Machine} {halt : Bool} (hne : m.halted ≠ halt) :
    { m with halted := halt }.undo (.halt halt none) = m := by
  have hnot : (!halt) = m.halted := by
    cases halt <;> cases hhalted : m.halted <;> simp_all
  simp only [undo, hnot]

/-! ## One transition -/

/-- Undoing writes into at most one register. -/
theorem regs_undo (m : Machine) (action : Action) :
    (m.undo action).regs = m.regs ∨ ∃ reg w, (m.undo action).regs = m.regs.set reg w := by
  cases action with
  | incrementPC oldPC => exact .inr ⟨.pc, oldPC, rfl⟩
  | arithmetic _ oldAC => exact .inr ⟨.ac, oldAC, rfl⟩
  | memRead _ oldMBR => exact .inr ⟨.mbr, oldMBR, rfl⟩
  | regTransfer target _ old => exact .inr ⟨target, old, rfl⟩
  | regSet reg old _ => exact .inr ⟨reg, old, rfl⟩
  | input old _ => exact .inr ⟨.inp, old, rfl⟩
  | _ => exact .inl rfl

theorem fits_undoEntry {m : Machine} (h : m.regs.Fits) (entry : LogEntry) :
    (m.undoEntry entry).regs.Fits := by
  rcases m.regs_undo entry.action with hregs | ⟨reg, w, hregs⟩
  · exact (congrArg Registers.Fits hregs).mpr h
  · exact (congrArg Registers.Fits hregs).mpr (h.set reg w)

/-- A micro-operation writes into at most one register. -/
theorem regs_execute (m : Machine) (op : MicroOp) :
    (m.execute op).2.regs = m.regs ∨ ∃ reg w, (m.execute op).2.regs = m.regs.set reg w := by
  cases op with
  | transfer target source => exact .inr ⟨target, m.regs.get source, rfl⟩
  | readMem => exact .inr ⟨.mbr, m.memory.get m.regs.mar, rfl⟩
  | incPC => exact .inr ⟨.pc, m.regs.pc + 1, rfl⟩
  | arith op => exact .inr ⟨.ac, op.apply m.regs.ac m.regs.mbr m.regs.ir, rfl⟩
  | decode =>
      simp only [execute, decode]
      split <;> exact .inl rfl
  | skipIfTrue =>
      simp only [execute]
      split
      · exact .inr ⟨.pc, m.regs.pc + 1, rfl⟩
      · exact .inl rfl
  | _ => exact .inl rfl

/-- Undoing a stop sets a machine running again. -/
theorem undo_stop {m : Machine} (hrun : m.halted = false) (fault : Option Fault) :
    (m.stop fault).2.undo (m.stop fault).1 = m := by
  show { m with halted := false } = m
  rw [← hrun]

/-- Undoing the action of a micro-operation gives the machine before it. -/
theorem undo_execute {m m' : Machine} {op : MicroOp} {action : Action} (hfits : m.regs.Fits)
    (hrun : m.halted = false) (h : m.execute op = (some action, m')) : m'.undo action = m := by
  have hset := hfits.set_set_get
  -- an operation with an action either writes one register or one cell, or changes a flag
  cases op with
  | stepStart => cases h; rfl
  | decode =>
      simp only [execute, decode] at h
      split at h
      · cases h; rfl
      · cases h; exact undo_stop hrun _
  | transfer target source => cases h; simp only [undo, hset]
  | readMem => cases h; exact congrArg (fun regs => { m with regs }) (hset .mbr _)
  | writeMem => cases h; simp only [undo, Memory.set_set_get]
  | incPC => cases h; exact congrArg (fun regs => { m with regs }) (hset .pc _)
  | arith op => cases h; exact congrArg (fun regs => { m with regs }) (hset .ac _)
  | compare => cases h; rfl
  | skipIfTrue =>
      simp only [execute] at h
      split at h
      · cases h; exact congrArg (fun regs => { m with regs }) (hset .pc _)
      · cases h
  | requestInput => cases h
  | output => cases h; rfl
  | halt => cases h; exact undo_stop hrun none

namespace Advance

variable {m m' : Machine} {v : Option Int} {e : LogEntry}

/-- After a transition the registers fit again. -/
theorem fits (h : Advance m v e m') (hfits : m.regs.Fits) : m'.regs.Fits := by
  rw [← m.sameData_settle.regs] at hfits
  cases h with
  | perform _ _ hperform =>
      rcases perform_cases hperform with ⟨_, _, rfl⟩ | ⟨op, m₁, _, hexec, rfl⟩
      · exact hfits
      · have hregs := m.settle.regs_execute op
        rw [hexec] at hregs
        rcases hregs with hregs | ⟨reg, w, hregs⟩
        · exact (congrArg Registers.Fits hregs).mpr hfits
        · exact (congrArg Registers.Fits hregs).mpr (hfits.set reg w)
  | takeInput _ _ => exact hfits.set _ _
  | receive n _ _ => exact hfits.set _ _

/-- Taking back a transition gives the settled machine before it. -/
theorem undoEntry (h : Advance m v e m') (hfits : m.regs.Fits) : m'.undoEntry e = m.settle := by
  have hrun : m.settle.halted = false := by rw [settle_halted, h.running]
  rw [← m.sameData_settle.regs] at hfits
  cases h with
  | perform _ hidle hperform =>
      -- the end of a cycle only moves the control, which the entry has kept
      rcases perform_cases hperform with ⟨_, rfl, rfl⟩ | ⟨op, m₁, _, hexec, rfl⟩
      · rw [← hidle]
        rfl
      · rw [undoEntry_moveTo, undoEntry_eq_moveTo, undo_execute hfits hrun hexec, ← hidle]
        rfl
  | takeInput _ hload =>
      rw [undoEntry_eq_moveTo]
      simp only [Machine.takeInput, transfer, undo, hfits.set_set_get]
      rw [← hload]
      rfl
  | receive n _ hwait =>
      have hset := hfits.set_set_get .inp (Word.ofInt n)
      rw [undoEntry_eq_moveTo]
      simp only [Machine.receive, undo]
      rw [← hwait]
      exact congrArg (fun regs => { m.settle with regs }) hset

end Advance

end Machine

end Marie
