/-
# Operators

What the operator of a statement asks for: a machine instruction, one of the two short forms,
or a word of data. Operators are read without regard to case.
-/
import Marie.Numeral
import Marie.Opcode
import Marie.Text.Lowercase

namespace Marie

/-- How the operand of a data directive is written. -/
inductive DataForm where
  | oct
  | dec
  | hex
deriving DecidableEq, Repr

/-- The base of the operand of a data directive. -/
def DataForm.radix : DataForm → Radix
  | .oct => .octal
  | .dec => .decimal
  | .hex => .hexadecimal

/-- The least number that a data directive accepts. -/
def DataForm.least : DataForm → Int
  | .dec => Word.minSigned
  | .oct | .hex => 0

/-- The meaning of the operator of a statement. -/
inductive Operator where
  /-- A machine instruction. -/
  | instr (op : Opcode)
  /-- Another name for jump and store. -/
  | adr
  /-- Loads zero as an immediate. -/
  | clear
  /-- Stores its operand literally. -/
  | data (form : DataForm)
deriving DecidableEq, Repr

namespace Operator

/-- The operator with the given name, in capital or small letters. -/
def ofName? (text : String) : Option Operator :=
  let name := String.ofList (Text.lowercase text.toList)
  if name = "adr" then some .adr
  else if name = "clear" then some .clear
  else if name = "oct" then some (.data .oct)
  else if name = "dec" then some (.data .dec)
  else if name = "hex" then some (.data .hex)
  else (Opcode.ofMnemonic? name).map .instr

/-- The kind of the operator with its argument. -/
def text : Operator → String
  | .instr op => "Instr(" ++ op.name ++ ")"
  | .adr => "Adr"
  | .clear => "Clear"
  | .data .oct => "Data(Oct)"
  | .data .dec => "Data(Dec)"
  | .data .hex => "Data(Hex)"

end Operator

end Marie
