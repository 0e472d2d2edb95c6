/-
# Source lines

A line of assembly source is blank, sets the origin, or holds a statement of the form
`[LABEL,] OPERATOR [OPERAND] [/comment]`. What an operand means depends on the operator, so a
statement keeps it as written; the operator is kept in lower case.
-/
import Marie.Numeral
import Marie.Source.Token
import Marie.Text.Lowercase
import Marie.Word

namespace Marie

/-- A statement of the source. -/
structure Statement where
  /-- The label that the line defines. -/
  label : Option String
  /-- The operator in lower case. -/
  operator : String
  /-- The operand as written. -/
  operand : Option String
deriving DecidableEq, Repr

/-- Whether the statement is the keyword that ends the source. -/
def Statement.isEnd (statement : Statement) : Bool :=
  statement.operator == "end"

/-- What a source line says. -/
inductive Line where
  /-- Nothing, apart from blank characters and a comment. -/
  | blank
  /-- The program starts at the given address. -/
  | org (addr : Word)
  | statement (statement : Statement)
deriving DecidableEq, Repr

/-- Why a source line says nothing. -/
inductive LineError where
  /-- The line is not a label, an operator and an operand. -/
  | incorrectForm
  /-- The label starts with a digit. -/
  | labelStartsWithDigit
  /-- The label has a blank character in it, or before its comma. -/
  | labelHasWhitespace
deriving DecidableEq, Repr

/-- A token of a line with its text. -/
abbrev Piece := TokenKind × List Char

namespace Line

/-- The tokens among the lexemes. -/
def pieces (ls : List Lexeme) : List Piece :=
  ls.filterMap fun
    | .blank _ => none
    | .token kind text => some (kind, text)

/-- The tokens without a comment at the end. -/
def dropComment (ps : List Piece) : List Piece :=
  match ps.getLast? with
  | some (.comment, _) => ps.dropLast
  | _ => ps

/-- The address that an origin directive sets: the keyword is followed by exactly three
hexadecimal digits. -/
def orgAddress? : List Piece → Option Word
  | [(.word, keyword), (.word, digits)] =>
    if Text.sameLetters keyword "org".toList && digits.length == 3 &&
        digits.all (Numeral.isDigit .hexadecimal) then
      some (UInt16.ofNat (Numeral.value 16 digits))
    else none
  | _ => none

/-- The text of the label of a line: all that stands before the first comma, apart from
leading blank characters. -/
def labelText (ls : List Lexeme) : List Char :=
  ((ls.dropWhile (·.isBlank)).takeWhile fun l => !l.isKind .comma).flatMap (·.text)

/-- Why a text is no label. -/
def labelError? (label : List Char) : Option LineError :=
  if (label.head?.map Numeral.isDecimalDigit).getD false then some .labelStartsWithDigit
  else if label.any Text.isBlank then some .labelHasWhitespace
  else none

/-- The texts of the tokens, if all of them are words. -/
def words? (ps : List Piece) : Option (List (List Char)) :=
  ps.mapM fun (kind, text) => if kind = .word then some text else none

/-- The operator and the operand of a statement. -/
def operation? (ps : List Piece) : Option (List Char × Option (List Char)) :=
  match words? ps with
  | some [operator] => some (operator, none)
  | some [operator, operand] => some (operator, some operand)
  | _ => none

/-- The statement of a label and the tokens after its comma. -/
def ofParts (label : Option (List Char)) (ps : List Piece) : Except LineError Line :=
  match operation? ps with
  | none => .error .incorrectForm
  | some (operator, operand) =>
    match label.bind labelError? with
    | some e => .error e
    | none =>
      .ok (.statement
        { label := label.map String.ofList
          operator := String.ofList (Text.lowercase operator)
          operand := operand.map String.ofList })

/-- What the lexemes of a line say. -/
def ofLexemes (ls : List Lexeme) : Except LineError Line :=
  let code := dropComment (pieces ls)
  if code.isEmpty then .ok .blank
  else match orgAddress? code with
    | some addr => .ok (.org addr)
    | none =>
      match code.dropWhile fun p => p.1 != .comma with
      | [] => ofParts none code
      | _ :: rest =>
        if (code.head?.map (·.1)) = some .comma then .error .incorrectForm
        else ofParts (some (labelText ls)) rest

/-- What a line of source says. -/
def parse (text : List Char) : Except LineError Line :=
  ofLexemes (lexemes text)

end Line

end Marie
