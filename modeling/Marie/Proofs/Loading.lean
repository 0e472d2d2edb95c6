/-
# Loading assembled programs

An assembled program lies in memory, and so do its labels and lines, which may stand right behind
its last word. So it can be loaded, and after that nothing of what the machine has done before is
left.

* `Source.Describes.inMemory` : the program that a source makes up lies in memory;
* `Simulator.exists_loaded` : a program that lies in memory can be loaded, and what comes of it
  depends on the program alone;
* `assembled_loads` : both for the assembler.
-/
import Marie.Proofs.Assembler
import Marie.Proofs.History

namespace Marie

/-! ## Programs in memory -/

namespace Program

/-- The address is that of a word of the program, or the one after its last word, and is an
address of memory. -/
structure Reaches (program : Program) (addr : Word) : Prop where
  origin_le : program.origin.toNat ≤ addr.toNat
  le_stop : addr.toNat ≤ program.stop
  le_last : addr.toNat ≤ 0xFFF

/-- The program lies in memory with its labels and lines. -/
structure InMemory (program : Program) : Prop where
  origin_le : program.origin.toNat ≤ 0xFFF
  stop_eq : program.origin.toNat + program.words.length = program.stop
  stop_le : program.stop ≤ 4096
  symbols : ∀ label addr, (label, addr) ∈ program.symbols.entries → program.Reaches addr
  sourceMap : ∀ addr line, (addr, line) ∈ program.sourceMap.entries → program.Reaches addr

end Program

namespace Source

variable {lines : List NumberedLine}

/-- The lines that are read are lines of the source. -/
theorem mem_of_mem_readLines {l : NumberedLine} (h : l ∈ readLines lines) : l ∈ lines := by
  induction lines with
  | nil => exact h
  | cons head rest ih =>
      rw [readLines] at h
      split at h
      · rw [List.mem_singleton.mp h]
        exact List.mem_cons_self
      · rcases List.mem_cons.mp h with rfl | h
        · exact List.mem_cons_self
        · exact List.mem_cons_of_mem _ (ih h)

/-- The origin is an address of memory, if all lines give such. -/
theorem origin_lt (horg : ∀ l ∈ lines, ∀ addr, org? l = some addr → addr.toNat < memorySize) :
    (origin lines).toNat < memorySize := by
  unfold origin
  cases hfirst : (readLines lines).findSome? org? with
  | none => decide
  | some addr =>
      obtain ⟨l, hl, haddr⟩ := List.exists_of_findSome?_eq_some hfirst
      exact horg l (mem_of_mem_readLines hl) addr haddr

/-- At most one statement does not become a word, the one that ends the source. -/
theorem length_statements_le (lines : List NumberedLine) :
    (statements lines).length ≤ (body lines).length + 1 := by
  induction lines with
  | nil => exact Nat.zero_le _
  | cons l rest ih =>
      obtain ⟨line, result⟩ := l
      cases result with
      | error e => exact ih
      | ok said =>
          cases said with
          | blank => exact ih
          | org addr => exact ih
          | statement statement =>
              cases hend : statement.isEnd with
              | true =>
                  rw [statements_end _ _ hend]
                  exact Nat.le_add_left _ _
              | false =>
                  rw [statements_statement _ _ hend, body_statement _ _ hend]
                  exact Nat.succ_le_succ ih

/-- The lines of a source give origins in memory. -/
theorem sourceLines_org_lt {source : String} :
    ∀ l ∈ sourceLines source, ∀ addr, org? l = some addr → addr.toNat < memorySize := by
  rintro l hl addr haddr
  obtain ⟨⟨result, n⟩, hresult, rfl⟩ := List.mem_map.mp hl
  obtain ⟨text, -, rfl⟩ := List.mem_map.mp (List.fst_mem_of_mem_zipIdx hresult)
  unfold org? at haddr
  split at haddr
  · rename_i own heq
    cases haddr
    exact Line.parse_org_lt (congrArg Prod.snd heq)
  · cases haddr

/-- The program that well-formed lines make up lies in memory. -/
theorem Describes.inMemory {program : Program} (h : Describes lines program)
    (hwell : WellFormed lines)
    (horg : ∀ l ∈ lines, ∀ addr, org? l = some addr → addr.toNat < memorySize) :
    program.InMemory := by
  have hsize : (body lines).length = program.words.length := h.words.length_eq
  have hfits := hwell.fits
  rw [hsize, ← h.origin] at hfits
  -- the last statement may be the one that ends the source, right behind the last word
  have hreaches {i : Nat} {s : Nat × Statement} {addr : Word}
      (hi : (statements lines)[i]? = some s) (hstands : StandsAt lines i addr) :
      program.Reaches addr := by
    obtain ⟨haddr, hlt⟩ := hstands
    rw [← h.origin] at haddr
    have hlast : i < (statements lines).length := (List.getElem?_eq_some_iff.mp hi).1
    have hle := length_statements_le lines
    refine ⟨by omega, ?_, Nat.le_of_lt_succ hlt⟩
    show addr.toNat ≤ program.origin.toNat + program.words.length
    omega
  refine ⟨?_, rfl, hfits, ?_, ?_⟩
  · rw [h.origin]
    exact Nat.le_of_lt_succ (origin_lt horg)
  · intro label addr hmem
    obtain ⟨i, s, hi, -, hstands⟩ := (h.symbols label addr).mp (Table.get?_eq_some_iff.mpr hmem)
    exact hreaches hi hstands
  · intro addr line hmem
    obtain ⟨i, s, hi, -, hstands⟩ := (h.sourceMap addr line).mp (Table.get?_eq_some_iff.mpr hmem)
    exact hreaches hi hstands

end Source

/-! ## Loads -/

namespace Simulator

variable {σ : Type}

/-- What the second simulator is once the first one has loaded the program: memory holds the
program and nothing else, the machine is at the start of the program, and the log is empty. Only
settings, breakpoints and the input source are those of before. -/
structure Loaded (s : Simulator σ) (program : Program) (t : Simulator σ) : Prop where
  words : ∀ i w, program.words[i]? = some w → ∀ addr : Word,
    addr.toNat = program.origin.toNat + i → t.machine.memory.get addr = w
  zeros : ∀ addr : Word, addr.toNat < memorySize →
    (addr.toNat < program.origin.toNat ∨ program.stop ≤ addr.toNat) →
    t.machine.memory.get addr = 0
  regs : ∀ reg, t.machine.regs.get reg = if reg = .pc then program.origin else 0
  origin : t.machine.origin = program.origin
  halted : t.machine.halted = false
  log : t.log = ∅
  microPC : t.machine.microPC = 0
  decoded : t.machine.decoded = none
  comparison : t.machine.comparison = false
  interrupt : t.machine.interrupt = .idle
  count : t.machine.count = 0
  flags : t.flags = s.flags
  breakpoints : t.breakpoints = s.breakpoints
  input : t.input = s.input

/-- A program that lies in memory can be loaded into every simulator. -/
theorem exists_loaded (s : Simulator σ) {program : Program}
    (horigin : program.origin.toNat < memorySize)
    (hfits : program.origin.toNat + program.words.length ≤ memorySize) :
    ∃ t, s.load program = .ok t ∧ s.Loaded program t := by
  refine ⟨_, s.load_of_fits program hfits, ?_⟩
  have hcell {addr : Word} (h : addr.toNat < memorySize) :
      (Memory.cell addr).val = addr.toNat := by
    rw [Memory.cell_val, Nat.mod_eq_of_lt h]
  refine { words := ?_, zeros := ?_, regs := ?_, origin := rfl, halted := rfl, log := rfl,
           microPC := rfl, decoded := rfl, comparison := rfl, interrupt := rfl, count := rfl,
           flags := rfl, breakpoints := rfl, input := rfl }
  · intro i w hw addr haddr
    have hi : i < program.words.length := (List.getElem?_eq_some_iff.mp hw).1
    show (Memory.ofBlock program.origin.toNat program.words).get addr = w
    rw [Memory.get_ofBlock, hcell (by omega), haddr, if_pos (Nat.le_add_right _ _),
      Nat.add_sub_cancel_left, hw]
    rfl
  · intro addr haddr houtside
    show (Memory.ofBlock program.origin.toNat program.words).get addr = 0
    rw [Memory.get_ofBlock, hcell haddr]
    rcases houtside with hbefore | hbehind
    · rw [if_neg (Nat.not_le.mpr hbefore)]
    · have hnone : program.words[addr.toNat - program.origin.toNat]? = none :=
        List.getElem?_eq_none (Nat.le_sub_of_add_le' hbehind)
      rw [hnone]
      exact ite_self 0
  · intro reg
    show (({} : Registers).set .pc program.origin).get reg = _
    rw [Registers.get_set, Reg.fit_pc, Word.low12_eq_self horigin]
    cases reg <;> rfl

end Simulator

/-- Every assembled program lies in memory and can be loaded, whatever the simulator has done
before, and loading it leaves nothing of that. -/
theorem assembled_loads {source : String} {program : Program}
    (h : assemble source = .ok program) :
    program.InMemory ∧ ∀ {σ : Type} (s : Simulator σ),
      ∃ t, s.load program = .ok t ∧ s.Loaded program t := by
  have hmemory : program.InMemory := by
    rcases assembleLines_cases Source.sourceLines_org_lt with
      ⟨hwell, own, hown, hdescribes⟩ | ⟨-, errors, herrors, -⟩
    · rw [assemble, hown] at h
      cases h
      exact hdescribes.inMemory hwell Source.sourceLines_org_lt
    · rw [assemble, herrors] at h
      cases h
  refine ⟨hmemory, fun s => ?_⟩
  exact s.exists_loaded (Nat.lt_succ_of_le hmemory.origin_le) hmemory.stop_le

/-- A program that ends with memory, so that the end of its source has no address, is loaded
while the machine waits for input. -/
theorem assembled_loads_up_to_last :
    let program : Program :=
      { origin := 0xFFE, words := [0x9FFF, 0x7000]
        symbols := .ofList [("Loop", 0xFFE), ("Stop", 0xFFF)]
        sourceMap := .ofList [(0xFFE, 2), (0xFFF, 3)] }
    let s := ((Simulator.new {} (Script.flaky [5])).setMem 0 0x5000).step.2
    assemble "Org FFE\nLoop, Jump Stop\nStop, Halt\nLast, End" = .ok program ∧
      s.awaitingInput = true ∧ s.machine.microPC ≠ 0 ∧ s.log ≠ ∅ ∧
      program.InMemory ∧ ∃ t, s.load program = .ok t ∧ s.Loaded program t := by
  intro program s
  have hlines : sourceLines "Org FFE\nLoop, Jump Stop\nStop, Halt\nLast, End" =
      [(1, .ok (.org 0xFFE)), (2, .ok (.statement ⟨some "Loop", "jump", some "Stop"⟩)),
        (3, .ok (.statement ⟨some "Stop", "halt", none⟩)),
        (4, .ok (.statement ⟨some "Last", "end", none⟩))] := by decide +kernel
  have h : assemble "Org FFE\nLoop, Jump Stop\nStop, Halt\nLast, End" = .ok program := by
    rw [assemble, hlines]
    rfl
  obtain ⟨hmemory, hload⟩ := assembled_loads h
  exact ⟨h, by decide +kernel, by decide +kernel, by decide +kernel, hmemory, hload s⟩

end Marie
