/-
# Assembly errors

Everything that can be wrong with a source, with the message for each and, where there is one,
a hint how to mend it.
-/
import Marie.Source.Line
import Marie.Text.Message

namespace Marie

/-- The three sorts of assembly error. -/
inductive ErrorCategory where
  /-- The source is malformed. -/
  | form
  /-- A label is misused. -/
  | label
  /-- A value does not fit where it is placed. -/
  | value
deriving DecidableEq, Repr

/-- The category as it heads a message. -/
def ErrorCategory.text : ErrorCategory → String
  | .form => "Syntax error"
  | .label => "Label error"
  | .value => "Value error"

/-- What is wrong with a source line. -/
inductive AssemblyProblem where
  /-- A second origin directive, or one after a statement. -/
  | unexpectedOrg
  /-- The line is not a label, an operator and an operand. -/
  | incorrectForm
  /-- The label starts with a digit. -/
  | labelStartsWithDigit
  /-- The label has a blank character in it. -/
  | labelHasWhitespace
  /-- The label was defined on an earlier line. -/
  | duplicateLabel (label : String) (firstLine : Nat)
  /-- The statements extend past the end of memory. -/
  | programTooLarge
  /-- A data directive has no operand. -/
  | expectedLiteral
  /-- The operand of a data directive is not a numeral of its base. -/
  | invalidLiteral
  /-- The operand of a data directive does not fit in a word. -/
  | literalOutOfBounds
  /-- The operator names neither an instruction nor a directive. -/
  | unknownOperator (operator : String)
  /-- The instruction lacks its operand. -/
  | expectedOperand (operator : String)
  /-- The instruction takes no operand, but has one. -/
  | unexpectedOperand (operator operand : String)
  /-- The address in the operand is above the last one. -/
  | addrOutOfBounds (operand : String)
  /-- The operand is neither an address nor a label of the source. -/
  | unknownLabel (operand : String)
deriving DecidableEq, Repr

namespace AssemblyProblem

/-- The problem of a line that says nothing. -/
def ofLineError : LineError → AssemblyProblem
  | .incorrectForm => .incorrectForm
  | .labelStartsWithDigit => .labelStartsWithDigit
  | .labelHasWhitespace => .labelHasWhitespace

/-- The sort of the problem. -/
def category : AssemblyProblem → ErrorCategory
  | .duplicateLabel _ _ => .label
  | .programTooLarge | .literalOutOfBounds => .value
  | _ => .form

/-- The problem in a sentence. -/
def message : AssemblyProblem → String
  | .unexpectedOrg => "Unexpected origination directive."
  | .incorrectForm => "Line has incorrect form."
  | .labelStartsWithDigit => "Labels cannot start with a number."
  | .labelHasWhitespace => "Labels cannot contain whitespace."
  | .duplicateLabel label firstLine =>
    "Labels must be unique. The label '" ++ label ++ "' was already defined on line " ++
      toString firstLine ++ "."
  | .programTooLarge => "Program does not fit in memory."
  | .expectedLiteral => "Expected operand."
  | .invalidLiteral => "Failed to parse operand."
  | .literalOutOfBounds => "Literal out of bounds."
  | .unknownOperator operator => "Unknown operator '" ++ operator ++ "'."
  | .expectedOperand operator => "Expected operand for " ++ operator ++ "."
  | .unexpectedOperand operator operand =>
    "Unexpected operand '" ++ operand ++ "' for '" ++ operator ++ "'."
  | .addrOutOfBounds operand => "Address 0x" ++ operand ++ " is out of bounds."
  | .unknownLabel operand => "Unknown label '" ++ operand ++ "'."

/-- A hint how to mend the problem. -/
def help? : AssemblyProblem → Option String
  | .unexpectedOrg => some "ORG may only appear once, before any statement"
  | .incorrectForm =>
    some "a line should look like `[LABEL,] OPERATOR [OPERAND] [/comment]`"
  | .labelHasWhitespace => some "remove the whitespace between the label and the comma"
  | .duplicateLabel _ _ => some "rename one of the labels"
  | .programTooLarge =>
    some ("there are only " ++ toString memorySize ++ " words of memory; try lowering the ORG")
  | .invalidLiteral =>
    some "DEC takes 0-9 (and an optional '-'), OCT takes 0-7, HEX takes 0-9 and A-F"
  | .literalOutOfBounds =>
    some "DEC must be within [-32768, 65535], HEX and OCT must be within [0, 65535]"
  | .addrOutOfBounds _ => some "addresses must be within [000, FFF]"
  | .unknownLabel _ =>
    some "operands starting with a digit are read as hex addresses, everything else as labels"
  | .labelStartsWithDigit | .expectedLiteral | .unknownOperator _ | .expectedOperand _
  | .unexpectedOperand _ _ => none

end AssemblyProblem

/-- A problem with the number of its source line, counted from 1. -/
structure AssemblyError where
  problem : AssemblyProblem
  line : Nat
deriving DecidableEq, Repr

namespace AssemblyError

/-- The message of the problem after its category. -/
def message (e : AssemblyError) : String :=
  e.problem.category.text ++ ": " ++ e.problem.message

/-- The message after its line. -/
def report (e : AssemblyError) : String :=
  Marie.report (some e.line) e.message

end AssemblyError

end Marie
