/-
# Actions

Every change of the machine is an action that keeps what it overwrote, so that it can be undone.
The machine records its actions together with the point of its control at which each happened.
-/
import Marie.Alu
import Marie.Opcode
import Marie.Reg

namespace Marie

/-- Why a program stopped the machine without a halt instruction. -/
inductive Fault where
  /-- The operation code names no instruction. -/
  | unsupportedOpcode (bits : UInt8)
  /-- The operand selects no condition. -/
  | unsupportedSkipCond (operand : Word)
deriving DecidableEq, Repr

/-- The fault in words. -/
def Fault.text : Fault → String
  | .unsupportedOpcode bits => "Unsupported opcode 0x" ++ Word.hex 0 bits.toUInt16
  | .unsupportedSkipCond operand =>
    "Unsupported skipcond operand 0x" ++ Word.hex 0 operand ++ "."

/-- How far a request for input has come. -/
inductive Interrupt where
  /-- No input is requested. -/
  | idle
  /-- The machine waits for a value. -/
  | needsValue
  /-- A value is in IN and has to go to AC. -/
  | needsLoad
deriving DecidableEq, Repr

/-- All states of a request for input. -/
def Interrupt.all : List Interrupt :=
  [.idle, .needsValue, .needsLoad]

/-- The name of the state. -/
def Interrupt.name : Interrupt → String
  | .idle => "Idle"
  | .needsValue => "NeedsValue"
  | .needsLoad => "NeedsLoad"

/-- How many transitions a request for input still takes. -/
def Interrupt.rank : Interrupt → Nat
  | .idle => 0
  | .needsLoad => 1
  | .needsValue => 2

theorem Interrupt.rank_le (i : Interrupt) : i.rank ≤ 2 := by
  cases i <;> decide

/-- A change of the machine, with the values that it overwrote. -/
inductive Action where
  /-- An instruction cycle began at the address in PC. -/
  | stepStart (pc : Word)
  /-- An instruction cycle ended. -/
  | stepEnd
  /-- The operation in IR was decoded. -/
  | decode (old : Option Opcode) (opcode : Opcode)
  /-- PC was incremented. -/
  | incrementPC (oldPC : Word)
  /-- A new accumulator was computed. -/
  | arithmetic (op : ArithOp) (oldAC : Word)
  /-- The accumulator was compared. -/
  | comparison (cond : Condition) (oldResult result : Bool)
  /-- The word at an address was read into MBR. -/
  | memRead (addr oldMBR : Word)
  /-- MBR was written to an address. -/
  | memWrite (addr old : Word)
  /-- A word of memory was set from outside. -/
  | memSet (addr old new : Word)
  /-- One register was copied to another. -/
  | regTransfer (target source : Reg) (old : Word)
  /-- A register was set from outside. -/
  | regSet (reg : Reg) (old new : Word)
  /-- The input source put a value into IN. -/
  | input (old new : Word)
  /-- A value was put out. -/
  | output (value : Word)
  /-- The machine stopped, or was made ready to go on. -/
  | halt (halt : Bool) (fault : Option Fault)
deriving DecidableEq, Repr

namespace Action

/-- Whether the action begins an instruction cycle. -/
def isStepStart : Action → Bool
  | .stepStart _ => true
  | _ => false

/-- Whether the action ends an instruction cycle. -/
def isStepEnd : Action → Bool
  | .stepEnd => true
  | _ => false

/-- The action in words and register transfers. -/
def text : Action → String
  | .stepStart pc => "step @ " ++ Word.hex 3 pc
  | .stepEnd => "step end"
  | .decode _ opcode => "decode " ++ opcode.name
  | .incrementPC _ => "PC ← PC + 1"
  | .arithmetic op _ => op.name
  | .comparison cond _ result => cond.name ++ " = " ++ (if result then "true" else "false")
  | .memRead _ _ => "MBR ← M[MAR]"
  | .memWrite _ _ => "M[MAR] ← MBR"
  | .memSet addr _ new => "M[" ++ Word.hex 3 addr ++ "] ← " ++ Word.hex 4 new
  | .regTransfer target source _ => target.name ++ " ← " ++ source.name
  | .regSet reg _ new => reg.name ++ " ← " ++ Word.hex 4 new
  | .input _ new => "IN ← " ++ Word.hex 4 new
  | .output value => "output " ++ Word.hex 4 value
  | .halt true (some fault) => "halt: " ++ fault.text
  | .halt true none => "halt"
  | .halt false _ => "unhalt"

end Action

/-- A recorded action with the point of control at which it happened. -/
structure LogEntry where
  action : Action
  /-- The index of the micro-operation in its cycle. -/
  microPC : Nat
  /-- The state of the request for input. -/
  interrupt : Interrupt
deriving DecidableEq, Repr

end Marie
