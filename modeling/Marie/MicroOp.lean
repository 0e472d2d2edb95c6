/-
# Micro-operations

An instruction is carried out as a row of micro-operations: six that fetch and decode it, the
same for every instruction, and then its own micro-program.
-/
import Marie.Alu
import Marie.Opcode
import Marie.Reg

namespace Marie

/-- A single step of the machine's control. -/
inductive MicroOp where
  /-- Begins an instruction cycle. -/
  | stepStart
  /-- Decodes the operation in IR. -/
  | decode
  /-- Copies one register to another. -/
  | transfer (target source : Reg)
  /-- Reads the word at MAR into MBR. -/
  | readMem
  /-- Writes MBR to the address MAR. -/
  | writeMem
  /-- Increments PC. -/
  | incPC
  /-- Computes a new accumulator. -/
  | arith (op : ArithOp)
  /-- Compares the accumulator as the operand in IR selects. -/
  | compare
  /-- Increments PC if the last comparison held. -/
  | skipIfTrue
  /-- Asks the input source for a value. -/
  | requestInput
  /-- Puts out the value of OUT. -/
  | output
  /-- Stops the machine. -/
  | halt
deriving DecidableEq, Repr

/-- The name of a micro-operation with its arguments. -/
def MicroOp.text : MicroOp → String
  | .stepStart => "StepStart"
  | .decode => "Decode"
  | .transfer target source => "Transfer(" ++ target.name ++ ", " ++ source.name ++ ")"
  | .readMem => "ReadMem"
  | .writeMem => "WriteMem"
  | .incPC => "IncPC"
  | .arith .add => "Arith(Add)"
  | .arith .sub => "Arith(Sub)"
  | .arith .loadImmi => "Arith(LoadImmi)"
  | .compare => "Compare"
  | .skipIfTrue => "SkipIfTrue"
  | .requestInput => "RequestInput"
  | .output => "Output"
  | .halt => "Halt"

/-- The micro-operations that fetch and decode an instruction. -/
def fetchDecode : List MicroOp :=
  [.stepStart, .transfer .mar .pc, .readMem, .transfer .ir .mbr, .incPC, .decode]

/-- The micro-operations that carry out a decoded instruction. -/
def Opcode.microProgram : Opcode → List MicroOp
  | .jnS => [.transfer .mar .ir, .transfer .mbr .pc, .writeMem, .transfer .pc .mar, .incPC]
  | .load => [.transfer .mar .ir, .readMem, .transfer .ac .mbr]
  | .store => [.transfer .mar .ir, .transfer .mbr .ac, .writeMem]
  | .add => [.transfer .mar .ir, .readMem, .arith .add]
  | .subt => [.transfer .mar .ir, .readMem, .arith .sub]
  | .input => [.requestInput]
  | .output => [.transfer .out .ac, .output]
  | .halt => [.halt]
  | .skipCond => [.compare, .skipIfTrue]
  | .jump => [.transfer .pc .ir]
  | .loadImmi => [.arith .loadImmi]
  | .addI => [.transfer .mar .ir, .readMem, .transfer .mar .mbr, .readMem, .arith .add]
  | .jumpI => [.transfer .mar .ir, .readMem, .transfer .pc .mbr]
  | .loadI => [.transfer .mar .ir, .readMem, .transfer .mar .mbr, .readMem, .transfer .ac .mbr]
  | .storeI =>
    [.transfer .mar .ir, .readMem, .transfer .mar .mbr, .transfer .mbr .ac, .writeMem]

@[simp]
theorem length_fetchDecode : fetchDecode.length = 6 :=
  rfl

/-- No micro-program is longer than five operations. -/
theorem Opcode.length_microProgram_le (op : Opcode) : op.microProgram.length ≤ 5 := by
  cases op <;> decide

end Marie
