/-
# Encoding of statements

The word of a statement, given the addresses of the labels. A data directive stores its operand
as a number; an instruction has an operand exactly if its operation takes one, and the operand
is an address in hexadecimal when it starts with a digit, and a label otherwise.
-/
import Marie.Assembly.Error
import Marie.Source.Operator
import Marie.Table

namespace Marie

/-- The word of a data directive. -/
def encodeLiteral (form : DataForm) (operand : Option String) :
    Except AssemblyProblem Word :=
  match operand with
  | none => .error .expectedLiteral
  | some text =>
    match Numeral.parse form.radix text.toList with
    | .error .invalidDigits => .error .invalidLiteral
    | .error .overflow => .error .literalOutOfBounds
    | .ok n =>
      match Word.ofRange? form.least n with
      | some w => .ok w
      | none => .error .literalOutOfBounds

/-- Whether an operand is written as an address and not as a label. -/
def isAddressLiteral (text : List Char) : Bool :=
  (text.head?.map Numeral.isDecimalDigit).getD false && text.all (Numeral.isDigit .hexadecimal)

/-- The address that the operand of an instruction names. -/
def resolveAddress (symbols : Table String Word) (operand : String) :
    Except AssemblyProblem Word :=
  if isAddressLiteral operand.toList then
    match Numeral.parse .hexadecimal operand.toList with
    | .ok n => if n < memorySize then .ok (Word.ofInt n) else .error (.addrOutOfBounds operand)
    | .error _ => .error (.addrOutOfBounds operand)
  else match symbols.get? operand with
    | some addr => .ok addr
    | none => .error (.unknownLabel operand)

namespace Statement

/-- The word of an instruction. -/
def encodeInstruction (statement : Statement) (symbols : Table String Word) (op : Opcode) :
    Except AssemblyProblem Word :=
  match op.hasOperand, statement.operand with
  | true, some operand =>
    match resolveAddress symbols operand with
    | .ok addr => .ok (op.encode addr)
    | .error problem => .error problem
  | true, none => .error (.expectedOperand statement.operator)
  | false, some operand => .error (.unexpectedOperand statement.operator operand)
  | false, none => .ok (op.encode 0)

/-- The word of a statement. -/
def encode (statement : Statement) (symbols : Table String Word) :
    Except AssemblyProblem Word :=
  match Operator.ofName? statement.operator with
  | none => .error (.unknownOperator statement.operator)
  | some (.data form) => encodeLiteral form statement.operand
  | some .clear =>
    match statement.operand with
    | some operand => .error (.unexpectedOperand statement.operator operand)
    | none => .ok (Opcode.loadImmi.encode 0)
  | some .adr => statement.encodeInstruction symbols .jnS
  | some (.instr op) => statement.encodeInstruction symbols op

end Statement

end Marie
