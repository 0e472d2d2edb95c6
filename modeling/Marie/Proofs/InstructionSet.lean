/-
# The instruction set, one instruction at a time

What one instruction does to the part of the machine that a program can rely on, said without
micro-operations: the registers MAR, MBR and IR, the decoded operation and the result of the last
comparison are means to an end, and do not occur.

* `Visible.next` : the effect of the instruction that comes next;
* `Opcode.decode_cases` : decoding reads the top four bits of a word as a number;
* `Condition.holds_select` : the conditions of a conditional skip are comparisons of the
  accumulator with zero.
-/
import Marie.Machine
import Mathlib.Algebra.Group.Nat.Defs

namespace Marie

/-- The part of the machine that the instruction set speaks of. -/
@[ext]
structure Visible where
  ac : Word
  inp : Word
  out : Word
  pc : Word
  memory : Memory
  halted : Bool

/-- The part of a machine that the instruction set speaks of. -/
def Machine.visible (m : Machine) : Visible where
  ac := m.regs.ac
  inp := m.regs.inp
  out := m.regs.out
  pc := m.regs.pc
  memory := m.memory
  halted := m.halted

namespace Visible

/-- The instruction word at PC. -/
def instruction (v : Visible) : Word :=
  v.memory.get v.pc

/-- The operation code of the instruction at PC, as a number. -/
def code (v : Visible) : Nat :=
  v.instruction.toNat / memorySize

/-- The operand of the instruction at PC. -/
def operand (v : Visible) : Word :=
  Word.low12 v.instruction

/-- The word at the address that the operand names. -/
def direct (v : Visible) : Word :=
  v.memory.get v.operand

/-- The address that the word at the operand names. -/
def pointer (v : Visible) : Word :=
  Word.low12 v.direct

/-- The word at that address. -/
def indirect (v : Visible) : Word :=
  v.memory.get v.pointer

/-- Whether a conditional skip with the instruction word `w` skips: bits 11 and 10 choose
between less than, equal to, greater than and different from zero. -/
def skips (w ac : Word) : Bool :=
  match w.toNat / 1024 % 4 with
  | 0 => Word.signed ac < 0
  | 1 => Word.signed ac = 0
  | 2 => Word.signed ac > 0
  | _ => Word.signed ac ≠ 0

/-- Goes on to the next address. -/
def advance (v : Visible) : Visible :=
  { v with pc := Word.low12 (v.pc + 1) }

/-- The effect of the instruction at PC. An input instruction reads the given number. -/
def next (v : Visible) (number : Int) : Visible :=
  let w := v.advance
  match v.code with
  | 0x0 => { w with memory := v.memory.set v.operand w.pc, pc := Word.low12 (v.operand + 1) }
  | 0x1 => { w with ac := v.direct }
  | 0x2 => { w with memory := v.memory.set v.operand v.ac }
  | 0x3 => { w with ac := v.ac + v.direct }
  | 0x4 => { w with ac := v.ac - v.direct }
  | 0x5 => { w with inp := Word.ofInt number, ac := Word.ofInt number }
  | 0x6 => { w with out := v.ac }
  | 0x7 => { w with halted := true }
  | 0x8 => if skips v.instruction v.ac then w.advance else w
  | 0x9 => { w with pc := v.operand }
  | 0xA => { w with ac := v.operand }
  | 0xB => { w with ac := v.ac + v.indirect }
  | 0xC => { w with pc := v.pointer }
  | 0xD => { w with ac := v.indirect }
  | 0xE => { w with memory := v.memory.set v.pointer v.ac }
  | _ => { w with halted := true }

/-- The faults that the instruction at PC causes. -/
def faults (v : Visible) : List Fault :=
  if v.code = 0xF then [.unsupportedOpcode 0xF] else []

end Visible

/-! ## Decoding -/

/-- Every number below 15 is an operation code. -/
theorem Opcode.exists_bits {n : Nat} (h : n < 15) : ∃ op : Opcode, op.bits.toNat = n := by
  have hall : ∀ n < 15, ∃ op ∈ Opcode.all, op.bits.toNat = n := by decide
  obtain ⟨op, -, hop⟩ := hall n h
  exact ⟨op, hop⟩

/-- Decoding finds the operation with the code in the top four bits; only 15 is no code. -/
theorem Opcode.decode_cases (w : Word) :
    (∃ op, Opcode.decode w = .ok op ∧ w.toNat / memorySize = op.bits.toNat) ∨
      Opcode.decode w = .error 0xF ∧ w.toNat / memorySize = 15 := by
  have hcode := Opcode.toNat_codeOf w
  unfold Opcode.decode
  cases hfind : Opcode.ofBits? (Opcode.codeOf w) with
  | some op =>
      left
      have hbits := List.find?_some (p := fun op : Opcode => op.bits == Opcode.codeOf w) hfind
      have heq : op.bits = Opcode.codeOf w := by simpa using hbits
      exact ⟨op, rfl, by rw [heq, hcode]⟩
  | none =>
      right
      have hnone : ∀ op : Opcode, op.bits ≠ Opcode.codeOf w := by
        intro op heq
        rw [← heq, Opcode.ofBits?_bits] at hfind
        cases hfind
      -- every number below 15 is a code, and four bits leave only one more
      have hge : ¬ (Opcode.codeOf w).toNat < 15 := by
        intro hlt
        obtain ⟨op, hop⟩ := Opcode.exists_bits hlt
        exact hnone op (UInt8.toNat_inj.mp hop)
      have hword := w.toNat_lt
      have h15 : (Opcode.codeOf w).toNat = 15 := by
        rw [hcode, memorySize] at hge ⊢
        omega
      have herror : Opcode.codeOf w = 0xF := UInt8.toNat_inj.mp h15
      exact ⟨by rw [herror], by rw [← hcode, h15]⟩

/-! ## Conditions -/

/-- Masking the `k` bits of a number from bit `i` on. -/
theorem and_field (n k i : Nat) :
    n &&& (2 ^ k - 1) <<< i = n / 2 ^ i % 2 ^ k * 2 ^ i := by
  rw [← Nat.shiftRight_eq_div_pow, ← Nat.shiftLeft_eq]
  -- both sides have bit `j` of the number exactly for `i ≤ j < i + k`
  apply Nat.eq_of_testBit_eq
  intro j
  rw [Nat.testBit_and, Nat.testBit_shiftLeft, Nat.testBit_shiftLeft, Nat.testBit_mod_two_pow,
    Nat.testBit_two_pow_sub_one, Nat.testBit_shiftRight]
  by_cases hj : i ≤ j
  · rw [show i + (j - i) = j by omega]
    simp only [ge_iff_le, hj, decide_true, Bool.true_and]
    exact Bool.and_comm _ _
  · simp [hj]

namespace Word

/-- The number that a word stands for in two's complement, by its unsigned number. -/
theorem signed_eq (w : Word) :
    signed w = if w.toNat < 32768 then (w.toNat : Int) else (w.toNat : Int) - 65536 := by
  have hlt : w < 0x8000 ↔ w.toNat < 32768 := UInt16.lt_iff_toNat_lt
  unfold signed
  simp only [hlt]

/-- The top bit of a word tells whether it is negative. -/
theorem and_top_bit_ne_zero_iff (w : Word) : w &&& 0x8000 ≠ 0 ↔ signed w < 0 := by
  have hlt := w.toNat_lt
  have hfield := and_field w.toNat 1 15
  have htop : (w &&& 0x8000).toNat = w.toNat / 2 ^ 15 % 2 ^ 1 * 2 ^ 15 := by
    rw [UInt16.toNat_and]
    exact hfield
  rw [ne_eq, ← UInt16.toNat_inj, htop, show (0 : Word).toNat = 0 from rfl, signed_eq]
  split <;> omega

/-- A word is zero exactly if the number that it stands for is. -/
theorem eq_zero_iff_signed (w : Word) : w = 0 ↔ signed w = 0 := by
  have hlt := w.toNat_lt
  rw [← UInt16.toNat_inj, show (0 : Word).toNat = 0 from rfl, signed_eq]
  split <;> omega

end Word

namespace Condition

/-- The condition that an instruction selects, by the number in bits 11 and 10. -/
theorem select_eq (w : Word) :
    select w =
      match w.toNat / 1024 % 4 with
      | 0 => .negative
      | 1 => .zero
      | 2 => .positive
      | _ => .nonZero := by
  have hfield := and_field w.toNat 2 10
  have hmask : ∀ k : Word, w &&& 0x0C00 = k ↔ w.toNat / 1024 % 4 * 1024 = k.toNat := by
    intro k
    rw [← UInt16.toNat_inj, UInt16.toNat_and]
    exact Iff.of_eq (congrArg (· = k.toNat) hfield)
  have hlt : w.toNat / 1024 % 4 < 4 := Nat.mod_lt _ (by decide)
  simp only [select, hmask]
  clear hmask hfield
  generalize w.toNat / 1024 % 4 = n at hlt
  revert n
  decide

/-- The selected condition compares the accumulator with zero, in two's complement. -/
theorem holds_select (w ac : Word) : (select w).holds ac = Visible.skips w ac := by
  have hneg : (ac &&& 0x8000 != 0) = decide (Word.signed ac < 0) := by
    rw [Bool.eq_iff_iff, bne_iff_ne, decide_eq_true_iff]
    exact Word.and_top_bit_ne_zero_iff ac
  have hzero : (ac == 0) = decide (Word.signed ac = 0) := by
    rw [Bool.eq_iff_iff, beq_iff_eq, decide_eq_true_iff]
    exact Word.eq_zero_iff_signed ac
  have hnonzero : (ac != 0) = decide (Word.signed ac ≠ 0) := by
    rw [bne, hzero, decide_not]
  rw [select_eq, Visible.skips]
  split
  · exact hneg
  · exact hzero
  · simp only [holds, hneg, hnonzero]
    rw [← decide_not, ← Bool.decide_and, decide_eq_decide]
    omega
  · exact hnonzero

end Condition

end Marie
