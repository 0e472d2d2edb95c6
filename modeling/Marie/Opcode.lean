/-
# The instruction set

An instruction word holds a 4-bit operation code above a 12-bit operand. Fifteen of the
sixteen codes name an instruction; the last one is unused.

* `Opcode.decode_encode` : decoding an encoded instruction gives the instruction back.
-/
import Marie.Word
import Marie.Text.Lowercase

namespace Marie

/-- The operation of an instruction. -/
inductive Opcode where
  | jnS
  | load
  | store
  | add
  | subt
  | input
  | output
  | halt
  | skipCond
  | jump
  | loadImmi
  | addI
  | jumpI
  | loadI
  | storeI
deriving DecidableEq, Repr

namespace Opcode

/-- All operations, in the order of their codes. -/
def all : List Opcode :=
  [.jnS, .load, .store, .add, .subt, .input, .output, .halt, .skipCond, .jump, .loadImmi,
   .addI, .jumpI, .loadI, .storeI]

/-- The 4-bit operation code. -/
def bits : Opcode → UInt8
  | .jnS => 0x0
  | .load => 0x1
  | .store => 0x2
  | .add => 0x3
  | .subt => 0x4
  | .input => 0x5
  | .output => 0x6
  | .halt => 0x7
  | .skipCond => 0x8
  | .jump => 0x9
  | .loadImmi => 0xA
  | .addI => 0xB
  | .jumpI => 0xC
  | .loadI => 0xD
  | .storeI => 0xE

/-- The name of the instruction, which is also its mnemonic. -/
def name : Opcode → String
  | .jnS => "JnS"
  | .load => "Load"
  | .store => "Store"
  | .add => "Add"
  | .subt => "Subt"
  | .input => "Input"
  | .output => "Output"
  | .halt => "Halt"
  | .skipCond => "SkipCond"
  | .jump => "Jump"
  | .loadImmi => "LoadImmi"
  | .addI => "AddI"
  | .jumpI => "JumpI"
  | .loadI => "LoadI"
  | .storeI => "StoreI"

/-- Whether the instruction is written with an operand. -/
def hasOperand : Opcode → Bool
  | .input | .output | .halt => false
  | _ => true

/-- What the instruction does, in a sentence and in register transfers. -/
def description : Opcode → String
  | .jnS =>
    "Store the address of the next instruction into memory at address X, then jump to X + 1." ++
      "\n\nM[X] ← PC\nPC ← X + 1"
  | .load => "Load the value at the address X into the AC.\n\nAC ← M[X]"
  | .store => "Store the value of the AC into memory at address X.\n\nM[X] ← AC"
  | .add => "Add value at address X to the AC.\n\nAC ← AC + M[X]"
  | .subt => "Subtract value at address X from the AC.\n\nAC ← AC - M[X]"
  | .input => "Read the next value from user input.\n\nAC ← IN"
  | .output => "Output the value in the AC.\n\nOUT ← AC"
  | .halt => "Stop execution of the program."
  | .skipCond =>
    "Skip the next instruction if the condition indicated by X holds:\n" ++
      "- 000: Skip if AC < 0\n- 400: Skip if AC = 0\n" ++
      "- 800: Skip if AC > 0\n- C00: Skip if AC ≠ 0"
  | .jump => "Jump to address X.\n\nPC ← X"
  | .loadImmi => "Set the AC to the given 12-bit unsigned immediate value X.\n\nAC ← X"
  | .addI =>
    "Use the contents at address X as the address of the value to add to the AC.\n\n" ++
      "AC ← AC + M[M[X]]"
  | .jumpI =>
    "Use the contents at address X as the memory address to jump to.\n\nPC ← M[X]"
  | .loadI =>
    "Use the contents at address X as the address of the value to load into the AC.\n\n" ++
      "AC ← M[M[X]]"
  | .storeI =>
    "Use the contents at address X as the memory address at which to store the value of the " ++
      "AC.\n\nM[M[X]] ← AC"

/-- The operation with the given code. -/
def ofBits? (bits : UInt8) : Option Opcode :=
  all.find? fun op => op.bits == bits

/-- The operation with the given mnemonic, in capital or small letters. -/
def ofMnemonic? (text : String) : Option Opcode :=
  all.find? fun op => Text.sameLetters op.name.toList text.toList

/-- The operation code in the top four bits of a word. -/
def codeOf (w : Word) : UInt8 :=
  (w >>> 12).toUInt8

/-- The operation of an instruction word, or the code that names none. -/
def decode (w : Word) : Except UInt8 Opcode :=
  match ofBits? (codeOf w) with
  | some op => .ok op
  | none => .error (codeOf w)

/-- The instruction word for an operation and the low 12 bits of an operand. -/
def encode (op : Opcode) (operand : Word) : Word :=
  (op.bits.toUInt16 <<< 12) ||| Word.low12 operand

theorem mem_all (op : Opcode) : op ∈ all := by
  cases op <;> decide

@[simp]
theorem ofBits?_bits (op : Opcode) : ofBits? op.bits = some op := by
  cases op <;> rfl

theorem bits_lt (op : Opcode) : op.bits.toNat < 15 := by
  cases op <;> decide

/-- The operation code is the quotient of the word by the size of memory. -/
theorem toNat_codeOf (w : Word) : (codeOf w).toNat = w.toNat / memorySize := by
  have hlt := w.toNat_lt
  have hshift : (w >>> 12).toNat = w.toNat / 4096 := by
    rw [UInt16.toNat_shiftRight]
    exact Nat.shiftRight_eq_div_pow w.toNat 12
  rw [codeOf, UInt16.toNat_toUInt8, hshift, Nat.mod_eq_of_lt (by omega), memorySize]

/-- An instruction word is the operation code times the size of memory, plus the operand. -/
theorem toNat_encode (op : Opcode) (operand : Word) :
    (op.encode operand).toNat = op.bits.toNat * memorySize + operand.toNat % memorySize := by
  have hbits := op.bits_lt
  have hlow := Word.low12_lt operand
  have hcode : (op.bits.toUInt16 <<< 12).toNat = op.bits.toNat <<< 12 := by
    rw [UInt16.toNat_shiftLeft, UInt8.toNat_toUInt16, Nat.shiftLeft_eq, Nat.shiftLeft_eq]
    exact Nat.mod_eq_of_lt (by simp; omega)
  rw [encode, UInt16.toNat_or, hcode, ← Word.toNat_low12,
    ← Nat.shiftLeft_add_eq_or_of_lt hlow, Nat.shiftLeft_eq]
  rfl

/-- Decoding an encoded instruction gives the instruction back. -/
@[simp]
theorem decode_encode (op : Opcode) (operand : Word) : decode (op.encode operand) = .ok op := by
  have hcode : codeOf (op.encode operand) = op.bits := by
    apply UInt8.toNat_inj.1
    have hlow : operand.toNat % memorySize < memorySize := Nat.mod_lt _ (by decide)
    rw [toNat_codeOf, toNat_encode]
    simp only [memorySize] at hlow ⊢
    omega
  rw [decode, hcode, ofBits?_bits]

end Opcode

/-- What an editor shows about an instruction. -/
structure InstructionInfo where
  name : String
  opcode : UInt8
  operand : Bool
  description : String
deriving DecidableEq, Repr

/-- What an editor shows about the instruction of an operation. -/
def Opcode.info (op : Opcode) : InstructionInfo where
  name := op.name
  opcode := op.bits
  operand := op.hasOperand
  description := op.description

/-- What an editor shows about each instruction. -/
def instructions : List InstructionInfo :=
  Opcode.all.map Opcode.info

end Marie
