/-
# Refused calls

Three calls on a simulator can be refused: loading a program, and setting a register or a word of
memory to what a user has typed. They work on the simulator in place, so that a refused call might
leave half of its work behind. None of them does, and each is refused for its own reasons alone.

* `Memory.loadBlock` : memory as the loader fills it, in three goes;
* `Simulator.Call` : the calls in place, and `Call.run_load`, `Call.run_setRegText` and
  `Call.run_setMemText`, by which they do what the calls without a state do;
* `Simulator.Loads`, `Simulator.SetsRegister`, `Simulator.SetsCell` : when a call is refused and
  why, and what it does if it is not;
* `Simulator.calls_all_or_nothing` : this is what the calls do, on any simulator.
-/
import Marie.Proofs.Delivery
import Marie.Proofs.NumberEntry

namespace Marie

/-! ## Filling memory -/

namespace Memory

/-- Writes a block to a place in memory, one word after the other. -/
def copy (mem : Memory) (start : Nat) : List Word → Memory
  | [] => mem
  | w :: rest => (mem.set (UInt16.ofNat start) w).copy (start + 1) rest

/-- Writes a block to its place, and then zeros below and above it. -/
def loadBlock (mem : Memory) (start : Nat) (block : List Word) : Memory :=
  let stop := start + block.length
  ((mem.copy start block).copy 0 (List.replicate start 0)).copy stop
    (List.replicate (memorySize - stop) 0)

/-- The number of a cell is an address of it. -/
theorem cell_ofNat {i : Nat} (h : i < memorySize) : (cell (UInt16.ofNat i)).val = i := by
  have hlt : i < 2 ^ 16 := Nat.lt_trans h (by decide)
  rw [cell_val, UInt16.toNat_ofNat_of_lt' hlt, Nat.mod_eq_of_lt h]

/-- A block that has been written is found at its place, and around it all is as before. -/
theorem get_copy {start : Nat} {block : List Word} (h : start + block.length ≤ memorySize)
    (mem : Memory) (addr : Word) :
    (mem.copy start block).get addr =
      if start ≤ (cell addr).val then (block[(cell addr).val - start]?).getD (mem.get addr)
      else mem.get addr := by
  induction block generalizing start mem with
  | nil => simp [copy]
  | cons w rest ih =>
      rw [List.length_cons] at h
      have hcell : cell addr = cell (UInt16.ofNat start) ↔ (cell addr).val = start := by
        rw [Fin.ext_iff, cell_ofNat (by omega)]
      rw [copy, ih (by omega), get_set]
      rcases Nat.lt_trichotomy (cell addr).val start with hlt | heq | hgt
      · rw [if_neg (by omega), if_neg (by rw [hcell]; omega), if_neg (by omega)]
      · rw [if_neg (by omega), if_pos (hcell.mpr heq), if_pos (by omega), heq, Nat.sub_self]
        rfl
      · have hindex : (cell addr).val - start = (cell addr).val - (start + 1) + 1 := by omega
        rw [if_pos (by omega), if_neg (by rw [hcell]; omega), if_pos (by omega), hindex,
          List.getElem?_cons_succ]

/-- After the three goes nothing is left of what memory has held before. -/
theorem loadBlock_eq {start : Nat} {block : List Word} (h : start + block.length ≤ memorySize)
    (mem : Memory) : mem.loadBlock start block = ofBlock start block := by
  have hbelow : 0 + (List.replicate start (0 : Word)).length ≤ memorySize := by
    rw [List.length_replicate]
    omega
  have habove : start + block.length +
      (List.replicate (memorySize - (start + block.length)) (0 : Word)).length ≤ memorySize := by
    rw [List.length_replicate]
    omega
  refine ext_get fun addr => ?_
  have hlt := (cell addr).isLt
  rw [loadBlock, get_copy habove, get_copy hbelow, get_copy h, get_ofBlock, Nat.sub_zero,
    List.getElem?_replicate, List.getElem?_replicate]
  -- the cell lies below the block, in it or above it
  by_cases hbefore : (cell addr).val < start
  · have hnot : ¬ start + block.length ≤ (cell addr).val := by omega
    simp [hnot, hbefore, Nat.not_le.mpr hbefore]
  · by_cases hafter : start + block.length ≤ (cell addr).val
    · have hnone : block[(cell addr).val - start]? = none := List.getElem?_eq_none (by omega)
      have hroom : (cell addr).val - (start + block.length) <
          memorySize - (start + block.length) := by omega
      simp [hafter, hroom, hnone]
    · have hsome : (cell addr).val - start < block.length := by omega
      simp [hafter, hbefore, hsome, Nat.not_lt.mp hbefore]

end Memory

/-! ## Names of registers -/

/-- The text is the name of the register, in letters of either case. -/
def Reg.IsNamed (reg : Reg) (name : String) : Prop :=
  name.toList.map Char.toLower = reg.name.toList.map Char.toLower

/-- A register is found by its name. -/
theorem Reg.ofName?_eq_some_iff {name : String} {reg : Reg} :
    ofName? name = some reg ↔ reg.IsNamed name := by
  have hfound : ∀ r, ofName? name = some r → r.IsNamed name := by
    intro r hr
    rw [ofName?] at hr
    have hsame := List.find?_some hr
    exact (Text.sameLetters_iff.mp hsame).symm
  refine ⟨hfound reg, fun hnamed => ?_⟩
  cases hname : ofName? name with
  | none =>
      have hno := List.find?_eq_none.mp hname reg reg.mem_all
      exact absurd (Text.sameLetters_iff.mpr hnamed.symm) hno
  | some other =>
      -- no two registers have one name
      have hsame := hnamed.symm.trans (hfound other hname)
      rw [Option.some_inj]
      clear hfound hnamed hname
      revert hsame
      cases reg <;> cases other <;> decide

/-- A text that is the name of no register finds none. -/
theorem Reg.ofName?_eq_none_iff {name : String} :
    ofName? name = none ↔ ∀ reg : Reg, ¬ reg.IsNamed name := by
  simp only [Option.eq_none_iff_forall_ne_some, ne_eq, ofName?_eq_some_iff]

/-! ## Words that are typed -/

section

variable {text : List Char} {w : Word}

/-- The word that is typed is the number modulo the size of a word. -/
theorem typedWord?_eq_some_iff_emod :
    typedWord? text = some w ↔ ∃ n, TypesWord text n ∧ (w.toNat : Int) = n % 65536 := by
  refine typedWord?_eq_some_iff.trans (exists_congr fun n => and_congr_right' ?_)
  rw [← Word.toNat_ofInt_eq_emod, Int.ofNat_inj, UInt16.toNat_inj]

/-- What is no number of a word is not read. -/
theorem typedWord?_eq_none_iff :
    typedWord? text = none ↔ ∀ n, ¬ TypesWord text n := by
  simp only [Option.eq_none_iff_forall_ne_some, ne_eq, typedWord?_eq_some_iff]
  exact ⟨fun h n htypes => h _ ⟨n, htypes, rfl⟩, fun h _ ⟨n, htypes, _⟩ => h n htypes⟩

end

namespace Simulator

variable {σ : Type}

/-! ## What is done to the simulator -/

/-- Committing an action changes the machine and the log alone. -/
theorem commit_eq (s : Simulator σ) (microPC : Nat) (interrupt : Interrupt) (action : Action)
    (machine : Machine) :
    s.commit microPC interrupt action machine =
      { s with machine, log := s.recorded ⟨action, microPC, interrupt⟩ } := by
  unfold commit recorded
  split <;> rfl

/-- Setting a register cuts the word to its width and adds one entry to a log that is on. -/
theorem setReg_eq (s : Simulator σ) (reg : Reg) (w : Word) :
    s.setReg reg w =
      { s with
        machine := { s.machine with regs := s.machine.regs.set reg w }
        log := s.recorded
          ⟨.regSet reg (s.machine.regs.get reg) (reg.fit w), s.machine.microPC,
            s.machine.interrupt⟩ } :=
  s.commit_eq _ _ _ _

/-- Setting a word of memory adds one entry to a log that is on. -/
theorem setMem_eq (s : Simulator σ) (addr w : Word) :
    s.setMem addr w =
      { s with
        machine := { s.machine with memory := s.machine.memory.set addr w }
        log := s.recorded
          ⟨.memSet (Word.low12 addr) (s.machine.memory.get addr) w, s.machine.microPC,
            s.machine.interrupt⟩ } :=
  s.commit_eq _ _ _ _

/-- A program that does not fit in memory is refused. -/
theorem load_of_too_large (s : Simulator σ) (program : Program)
    (h : memorySize < program.origin.toNat + program.words.length) :
    s.load program = .error (.programTooLarge program.origin program.words.length) := by
  rw [load, Machine.load?, Memory.load?, if_neg (Nat.not_le.mpr h)]
  rfl

/-! ## Calls in place -/

/-- What a call has done with the simulator when it returns, and with which error if it is
refused. -/
abbrev Outcome (σ : Type) :=
  EStateM.Result SimulatorError (Simulator σ) Unit

/-- A call that works on the simulator in place. A refused call leaves the simulator as it is at
that moment. -/
abbrev Call (σ α : Type) :=
  EStateM SimulatorError (Simulator σ) α

/-- The outcome of a call that leaves the simulator alone if it is refused. -/
def outcome (s : Simulator σ) : Except SimulatorError (Simulator σ) → Outcome σ
  | .ok t => .ok () t
  | .error e => .error e s

namespace Call

/-- Changes memory. -/
def onMemory (f : Memory → Memory) : Call σ Unit :=
  modify fun s => { s with machine := { s.machine with memory := f s.machine.memory } }

/-- Changes the registers. -/
def onRegisters (f : Registers → Registers) : Call σ Unit :=
  modify fun s => { s with machine := { s.machine with regs := f s.machine.regs } }

/-- Records an action if logging is on. -/
def record (action : Action) : Call σ Unit :=
  modify fun s => { s with log := s.recorded ⟨action, s.machine.microPC, s.machine.interrupt⟩ }

/-- Loads a program: its words, the zeros below them and the zeros above them are written one
after the other. -/
def load (program : Program) : Call σ Unit := do
  let start := program.origin.toNat
  let stop := start + program.words.length
  if memorySize < stop then
    throw (.programTooLarge program.origin program.size)
  onMemory fun mem => mem.copy start program.words
  onMemory fun mem => mem.copy 0 (List.replicate start 0)
  onMemory fun mem => mem.copy stop (List.replicate (memorySize - stop) 0)
  modify fun s => { s with machine := { s.machine with origin := program.origin } }
  modify reset

/-- Sets a register and records what it held and what it holds. -/
def setReg (reg : Reg) (w : Word) : Call σ Unit := do
  let old := (← get).machine.regs.get reg
  onRegisters fun regs => regs.set reg w
  let new := (← get).machine.regs.get reg
  record (.regSet reg old new)

/-- Sets a word of memory and records what stood there. -/
def setMem (addr w : Word) : Call σ Unit := do
  let addr := Word.low12 addr
  let old := (← get).machine.memory.get addr
  onMemory fun mem => mem.set addr w
  record (.memSet addr old w)

/-- The word that a text stands for. -/
def value (text : String) : Call σ Word :=
  match typedWord? text.toList with
  | some w => pure w
  | none => throw (.invalidValue text)

/-- Sets the register of a name to the value of a text. -/
def setRegText (name text : String) : Call σ Unit := do
  match Reg.ofName? name with
  | some reg => setReg reg (← value text)
  | none => throw (.unknownRegister name)

/-- Sets a word of memory to the value of a text. -/
def setMemText (addr : Word) (text : String) : Call σ Unit := do
  setMem addr (← value text)

variable (s : Simulator σ)

theorem run_setReg (reg : Reg) (w : Word) :
    (setReg reg w).run s = .ok () (s.setReg reg w) := by
  have hnew : (s.machine.regs.set reg w).get reg = reg.fit w := by simp [Registers.get_set]
  rw [s.setReg_eq, ← hnew]
  rfl

theorem run_setMem (addr w : Word) : (setMem addr w).run s = .ok () (s.setMem addr w) := by
  have hold : s.machine.memory.get (Word.low12 addr) = s.machine.memory.get addr :=
    s.machine.memory.get_low12 addr
  have hset : s.machine.memory.set (Word.low12 addr) w = s.machine.memory.set addr w :=
    s.machine.memory.set_low12 addr w
  rw [s.setMem_eq, ← hold, ← hset]
  rfl

/-- Loading in place is loading. -/
theorem run_load (program : Program) : (load program).run s = s.outcome (s.load program) := by
  unfold load
  by_cases hfits : program.origin.toNat + program.words.length ≤ memorySize
  · rw [load_of_fits s program hfits, ← Memory.loadBlock_eq hfits s.machine.memory]
    simp only [if_neg (Nat.not_lt.mpr hfits)]
    rfl
  · rw [s.load_of_too_large program (Nat.not_le.mp hfits)]
    simp only [if_pos (Nat.not_le.mp hfits)]
    rfl

theorem run_setRegText (name text : String) :
    (setRegText name text).run s = s.outcome (s.setRegText name text) := by
  unfold setRegText Simulator.setRegText
  cases Reg.ofName? name with
  | none => rfl
  | some reg =>
      unfold value
      cases typedWord? text.toList with
      | none => rfl
      | some w => exact run_setReg s reg w

theorem run_setMemText (addr : Word) (text : String) :
    (setMemText addr text).run s = s.outcome (s.setMemText addr text) := by
  unfold setMemText Simulator.setMemText value
  cases typedWord? text.toList with
  | none => rfl
  | some w => exact run_setMem s addr w

end Call

/-! ## What the calls do -/

/-- What loading a program does. -/
inductive Loads (s : Simulator σ) (program : Program) : Outcome σ → Prop
  | refused (h : 4096 < program.origin.toNat + program.words.length) :
      Loads s program (.error (.programTooLarge program.origin program.words.length) s)
  | loaded (h : program.origin.toNat + program.words.length ≤ 4096) :
      Loads s program
        (.ok () { s with
          machine := ({ memory := .ofBlock program.origin.toNat program.words
                        origin := program.origin } : Machine).reset
          log := ∅ })

/-- What setting the register of a name to a text does. -/
inductive SetsRegister (s : Simulator σ) (name text : String) : Outcome σ → Prop
  | unknown (h : ∀ reg : Reg, ¬ reg.IsNamed name) :
      SetsRegister s name text (.error (.unknownRegister name) s)
  | invalid {reg : Reg} (hname : reg.IsNamed name) (h : ∀ n, ¬ TypesWord text.toList n) :
      SetsRegister s name text (.error (.invalidValue text) s)
  | set {reg : Reg} {n : Int} {w : Word} (hname : reg.IsNamed name) (h : TypesWord text.toList n)
      (hw : (w.toNat : Int) = n % 65536) : SetsRegister s name text (.ok () (s.setReg reg w))

/-- What setting a word of memory to a text does. -/
inductive SetsCell (s : Simulator σ) (addr : Word) (text : String) : Outcome σ → Prop
  | invalid (h : ∀ n, ¬ TypesWord text.toList n) :
      SetsCell s addr text (.error (.invalidValue text) s)
  | set {n : Int} {w : Word} (h : TypesWord text.toList n) (hw : (w.toNat : Int) = n % 65536) :
      SetsCell s addr text (.ok () (s.setMem addr w))

variable (s : Simulator σ) (result : Outcome σ)

theorem loads_iff (program : Program) :
    s.outcome (s.load program) = result ↔ s.Loads program result := by
  constructor
  · rintro rfl
    by_cases hfits : program.origin.toNat + program.words.length ≤ memorySize
    · rw [load_of_fits s program hfits]
      exact .loaded hfits
    · rw [s.load_of_too_large program (Nat.not_le.mp hfits)]
      exact .refused (Nat.not_le.mp hfits)
  · intro h
    cases h with
    | refused h =>
        rw [s.load_of_too_large program h]
        rfl
    | loaded h =>
        rw [load_of_fits s program h]
        rfl

theorem setsRegister_iff (name text : String) :
    s.outcome (s.setRegText name text) = result ↔ s.SetsRegister name text result := by
  unfold setRegText
  constructor
  · rintro rfl
    cases hname : Reg.ofName? name with
    | none => exact .unknown (Reg.ofName?_eq_none_iff.mp hname)
    | some reg =>
        have hnamed := Reg.ofName?_eq_some_iff.mp hname
        cases htyped : typedWord? text.toList with
        | none => exact .invalid hnamed (typedWord?_eq_none_iff.mp htyped)
        | some w =>
            obtain ⟨n, htypes, hw⟩ := typedWord?_eq_some_iff_emod.mp htyped
            exact .set hnamed htypes hw
  · intro h
    cases h with
    | unknown h => simp only [Reg.ofName?_eq_none_iff.mpr h, outcome]
    | invalid hname h =>
        simp only [Reg.ofName?_eq_some_iff.mpr hname, typedWord?_eq_none_iff.mpr h, outcome]
    | set hname h hw =>
        simp only [Reg.ofName?_eq_some_iff.mpr hname,
          typedWord?_eq_some_iff_emod.mpr ⟨_, h, hw⟩, outcome]

theorem setsCell_iff (addr : Word) (text : String) :
    s.outcome (s.setMemText addr text) = result ↔ s.SetsCell addr text result := by
  unfold setMemText
  constructor
  · rintro rfl
    cases htyped : typedWord? text.toList with
    | none => exact .invalid (typedWord?_eq_none_iff.mp htyped)
    | some w =>
        obtain ⟨n, htypes, hw⟩ := typedWord?_eq_some_iff_emod.mp htyped
        exact .set htypes hw
  · intro h
    cases h with
    | invalid h => simp only [typedWord?_eq_none_iff.mpr h, outcome]
    | set h hw => simp only [typedWord?_eq_some_iff_emod.mpr ⟨_, h, hw⟩, outcome]

/-- A call that may be refused, carried out in place, either leaves the simulator as it was, for
the reasons that there are, or does all of its work. A register or a word of memory that is set
gets the number modulo the size of a word, as far as it is wide enough, and the log one entry. -/
theorem calls_all_or_nothing :
    (∀ program, (Call.load program).run s = s.outcome (s.load program) ∧
      ((Call.load program).run s = result ↔ s.Loads program result)) ∧
    (∀ name text, (Call.setRegText name text).run s = s.outcome (s.setRegText name text) ∧
      ((Call.setRegText name text).run s = result ↔ s.SetsRegister name text result)) ∧
    (∀ addr text, (Call.setMemText addr text).run s = s.outcome (s.setMemText addr text) ∧
      ((Call.setMemText addr text).run s = result ↔ s.SetsCell addr text result)) ∧
    (∀ reg w, s.setReg reg w =
      { s with
        machine := { s.machine with regs := s.machine.regs.set reg w }
        log := s.recorded
          ⟨.regSet reg (s.machine.regs.get reg) (reg.fit w), s.machine.microPC,
            s.machine.interrupt⟩ }) ∧
    (∀ addr w, s.setMem addr w =
      { s with
        machine := { s.machine with memory := s.machine.memory.set addr w }
        log := s.recorded
          ⟨.memSet (Word.low12 addr) (s.machine.memory.get addr) w, s.machine.microPC,
            s.machine.interrupt⟩ }) := by
  refine ⟨fun program => ⟨Call.run_load s program, ?_⟩,
    fun name text => ⟨Call.run_setRegText s name text, ?_⟩,
    fun addr text => ⟨Call.run_setMemText s addr text, ?_⟩, s.setReg_eq, s.setMem_eq⟩
  · rw [Call.run_load]
    exact s.loads_iff result program
  · rw [Call.run_setRegText]
    exact s.setsRegister_iff result name text
  · rw [Call.run_setMemText]
    exact s.setsCell_iff result addr text

end Simulator

end Marie
