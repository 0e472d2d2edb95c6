/-
# Settling

An operation without action may be carried out at any time before the next transition, and
nothing but the control shows whether it has been. So two runs that record the same may end in
machines that differ by one such operation.

* `Machine.settle_eq_moveTo` : settling moves the control and changes nothing else;
* `Machine.SettlesTo` : one machine is the other one, or the other one settled;
* `Machine.settlesTo_iff` : that is, they hold the same data, and their controls are equal up to
  one operation without action.
-/
import Marie.Machine

namespace Marie.Machine

/-! ## Control -/

/-- The machine at another point of its control. -/
def moveTo (m : Machine) (microPC : Nat) (interrupt : Interrupt) : Machine :=
  { m with microPC, interrupt }

@[simp]
theorem moveTo_moveTo (m : Machine) (i j : Nat) (x y : Interrupt) :
    (m.moveTo i x).moveTo j y = m.moveTo j y :=
  rfl

@[simp]
theorem moveTo_self (m : Machine) : m.moveTo m.microPC m.interrupt = m :=
  rfl

/-- An operation without action changes nothing but the state of the request. -/
theorem execute_of_isSilent {m : Machine} {op : MicroOp} (h : m.isSilent op = true) :
    m.execute op = (none, m.moveTo m.microPC (m.execute op).2.interrupt) := by
  cases op with
  | skipIfTrue =>
      have hc : m.comparison = false := by simpa [isSilent] using h
      simp [execute, hc]
  | requestInput => rfl
  | _ => simp [isSilent] at h

/-- Settling carries out an operation without action. -/
theorem settle_of_isSilent {m : Machine} {op : MicroOp} (hidle : m.interrupt = .idle)
    (hop : m.nextOp? = some op) (hsilent : m.isSilent op = true) :
    m.settle = m.moveTo (m.microPC + 1) (m.execute op).2.interrupt := by
  rw [settle, hidle, hop]
  simp only [hsilent, if_true]
  rw [execute_of_isSilent hsilent]
  rfl

/-- Settling does nothing if no operation without action comes next. -/
theorem settle_eq_self {m : Machine}
    (h : ¬ ∃ op, m.interrupt = .idle ∧ m.nextOp? = some op ∧ m.isSilent op = true) :
    m.settle = m := by
  unfold settle
  split
  · rename_i op hidle hop
    exact if_neg fun hsilent => h ⟨op, hidle, hop, hsilent⟩
  · rfl

/-- Settling moves the control and changes nothing else. -/
theorem settle_eq_moveTo (m : Machine) :
    m.settle = m.moveTo m.settle.microPC m.settle.interrupt := by
  unfold settle
  split
  · split
    · rename_i op _ _ hsilent
      rw [execute_of_isSilent hsilent]
      rfl
    · rfl
  · rfl

@[simp]
theorem settle_halted (m : Machine) : m.settle.halted = m.halted := by
  rw [settle_eq_moveTo]
  rfl

/-- Settling does nothing at the start of a cycle. -/
theorem settle_of_microPC_eq_zero {m : Machine} (h : m.microPC = 0) : m.settle = m := by
  unfold settle
  split
  · rename_i op _ hop
    have hstart : op = .stepStart := by simpa [nextOp?, h, fetchDecode] using hop.symm
    rw [hstart]
    rfl
  · rfl

/-! ## Equal up to settling -/

/-- The second machine is the first one, possibly after the operation without action that comes
next. -/
def SettlesTo (m m' : Machine) : Prop :=
  m' = m ∨ m' = m.settle

theorem SettlesTo.refl (m : Machine) : m.SettlesTo m :=
  .inl rfl

theorem settlesTo_settle (m : Machine) : m.SettlesTo m.settle :=
  .inr rfl

theorem SettlesTo.trans {a b c : Machine} (hab : a.SettlesTo b) (hbc : b.SettlesTo c) :
    a.SettlesTo c := by
  rcases hab with rfl | rfl
  · exact hbc
  · rcases hbc with rfl | rfl
    · exact .inr rfl
    · exact .inr a.settle_settle

/-- No operation without action comes first in a cycle. -/
theorem SettlesTo.eq_of_microPC_eq_zero {m m' : Machine} (h : m.SettlesTo m')
    (hpc : m.microPC = 0) : m' = m := by
  rcases h with h | h
  · exact h
  · rw [h, settle_of_microPC_eq_zero hpc]

/-- Both machines settle to the same one. -/
theorem SettlesTo.settle_eq {m m' : Machine} (h : m.SettlesTo m') : m'.settle = m.settle := by
  rcases h with rfl | rfl
  · rfl
  · exact m.settle_settle

/-- Two machines with the same settled form differ by one operation without action at most. -/
theorem settlesTo_or_of_settlesTo {m a b : Machine} (ha : m.SettlesTo a) (hb : m.SettlesTo b) :
    a.SettlesTo b ∨ b.SettlesTo a := by
  rcases ha with rfl | rfl
  · exact .inl hb
  · rcases hb with rfl | rfl
    · exact .inr (.inr rfl)
    · exact .inl (.inl rfl)

/-- The machines agree in everything but their control. -/
structure SameData (m m' : Machine) : Prop where
  memory : m'.memory = m.memory
  regs : m'.regs = m.regs
  origin : m'.origin = m.origin
  halted : m'.halted = m.halted
  decoded : m'.decoded = m.decoded
  comparison : m'.comparison = m.comparison
  count : m'.count = m.count

theorem SameData.symm {m m' : Machine} (h : m.SameData m') : m'.SameData m :=
  ⟨h.memory.symm, h.regs.symm, h.origin.symm, h.halted.symm, h.decoded.symm, h.comparison.symm,
    h.count.symm⟩

/-- The control of the second machine is that of the first one, or that of the first one after
the operation without action that comes next: a skip that is not taken or a request for input. -/
def SameControl (m m' : Machine) : Prop :=
  m'.microPC = m.microPC ∧ m'.interrupt = m.interrupt ∨
    ∃ op, m.interrupt = .idle ∧ m.nextOp? = some op ∧
      (op = .skipIfTrue ∧ m.comparison = false ∨ op = .requestInput) ∧
      m'.microPC = m.microPC + 1 ∧ m'.interrupt = (m.execute op).2.interrupt

/-- The operations without action are the skip that is not taken and the request for input. -/
theorem isSilent_iff (m : Machine) (op : MicroOp) :
    m.isSilent op = true ↔ op = .skipIfTrue ∧ m.comparison = false ∨ op = .requestInput := by
  cases op <;> simp [isSilent]

/-- Machines with the same data and the same control are the same. -/
theorem SameData.eq {m m' : Machine} (h : m.SameData m') (hpc : m'.microPC = m.microPC)
    (hint : m'.interrupt = m.interrupt) : m' = m := by
  cases m
  cases m'
  obtain ⟨hmemory, hregs, horigin, hhalted, hdecoded, hcomparison, hcount⟩ := h
  simp only at *
  subst hmemory hregs horigin hhalted hdecoded hcomparison hcount hpc hint
  rfl

theorem sameData_settle (m : Machine) : m.SameData m.settle := by
  rw [settle_eq_moveTo]
  exact ⟨rfl, rfl, rfl, rfl, rfl, rfl, rfl⟩

/-- The control after settling. -/
theorem sameControl_settle (m : Machine) : m.SameControl m.settle := by
  unfold settle
  split
  · rename_i op hidle hop
    split
    · rename_i hsilent
      exact .inr ⟨op, hidle, hop, (m.isSilent_iff op).mp hsilent, rfl, rfl⟩
    · exact .inl ⟨rfl, rfl⟩
  · exact .inl ⟨rfl, rfl⟩

/-- One machine settles to another one exactly if they hold the same data and their controls are
equal up to one operation without action. -/
theorem settlesTo_iff {m m' : Machine} :
    m.SettlesTo m' ↔ m.SameData m' ∧ m.SameControl m' := by
  constructor
  · rintro (rfl | rfl)
    · exact ⟨⟨rfl, rfl, rfl, rfl, rfl, rfl, rfl⟩, .inl ⟨rfl, rfl⟩⟩
    · exact ⟨m.sameData_settle, m.sameControl_settle⟩
  · rintro ⟨hdata, ⟨hpc, hint⟩ | ⟨op, hidle, hop, hsilent, hpc, hint⟩⟩
    · exact .inl (hdata.eq hpc hint)
    · have hsettle : m.settle = m.moveTo (m.microPC + 1) (m.execute op).2.interrupt := by
        rw [← isSilent_iff] at hsilent
        exact settle_of_isSilent hidle hop hsilent
      right
      rw [hsettle]
      exact SameData.eq ⟨hdata.memory, hdata.regs, hdata.origin, hdata.halted, hdata.decoded,
        hdata.comparison, hdata.count⟩ hpc hint

end Marie.Machine
