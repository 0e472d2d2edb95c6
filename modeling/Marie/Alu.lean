/-
# Arithmetic and comparison

What the arithmetic unit computes from the registers: a new accumulator, or the truth of a
condition on it. A word counts as negative when its top bit is set.
-/
import Marie.Word

namespace Marie

/-- An operation whose result goes to the accumulator. -/
inductive ArithOp where
  /-- The sum of AC and MBR. -/
  | add
  /-- The difference of AC and MBR. -/
  | sub
  /-- The operand in IR. -/
  | loadImmi
deriving DecidableEq, Repr

namespace ArithOp

/-- All arithmetic operations. -/
def all : List ArithOp :=
  [.add, .sub, .loadImmi]

/-- The name of the operation. -/
def name : ArithOp → String
  | .add => "ADD"
  | .sub => "SUB"
  | .loadImmi => "LOAD_IMMI"

/-- The new value of the accumulator, modulo the size of a word. -/
def apply (op : ArithOp) (ac mbr ir : Word) : Word :=
  match op with
  | .add => ac + mbr
  | .sub => ac - mbr
  | .loadImmi => Word.low12 ir

theorem mem_all (op : ArithOp) : op ∈ all := by
  cases op <;> decide

end ArithOp

/-- A condition on the accumulator. -/
inductive Condition where
  | negative
  | zero
  | positive
  | nonZero
deriving DecidableEq, Repr

namespace Condition

/-- All conditions. -/
def all : List Condition :=
  [.negative, .zero, .positive, .nonZero]

/-- The name of the condition. -/
def name : Condition → String
  | .negative => "AC_NEG"
  | .zero => "AC_ZERO"
  | .positive => "AC_POS"
  | .nonZero => "AC_NON_ZERO"

/-- The condition that bits 11 and 10 of an instruction word select. -/
def select (w : Word) : Condition :=
  if w &&& 0x0C00 = 0x0000 then .negative
  else if w &&& 0x0C00 = 0x0400 then .zero
  else if w &&& 0x0C00 = 0x0800 then .positive
  else .nonZero

/-- Whether the condition holds of the accumulator. -/
def holds (cond : Condition) (ac : Word) : Bool :=
  let negative := ac &&& 0x8000 != 0
  match cond with
  | .negative => negative
  | .zero => ac == 0
  | .positive => ac != 0 && !negative
  | .nonZero => ac != 0

theorem mem_all (cond : Condition) : cond ∈ all := by
  cases cond <;> decide

end Condition

end Marie
