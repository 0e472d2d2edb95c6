/-
# Programs

An assembled program: the words from its origin on, the address of each label, and the source
line of each address. A program may also be a bare row of words without labels and lines.
-/
import Marie.Table
import Marie.Word

namespace Marie

/-- A program for the machine. -/
structure Program where
  /-- The address of the first word. -/
  origin : Word := 0
  /-- The words from the origin on. -/
  words : List Word := []
  /-- The address of each label. -/
  symbols : Table String Word := ∅
  /-- The source line of each address, counted from 1. -/
  sourceMap : Table Word Nat := ∅
deriving DecidableEq

namespace Program

instance : Inhabited Program :=
  ⟨{}⟩

/-- The number of words. -/
def size (program : Program) : Nat :=
  program.words.length

/-- Whether the program has no words. -/
def isEmpty (program : Program) : Bool :=
  program.words.isEmpty

/-- The address after the last word. -/
def stop (program : Program) : Nat :=
  program.origin.toNat + program.size

/-- The address of a label. -/
def lookupLabel (program : Program) (label : String) : Option Word :=
  program.symbols.get? label

/-- The label of an address, the alphabetically first if there are several. -/
def labelAt (program : Program) (addr : Word) : Option String :=
  program.symbols.firstKey? (· == addr)

/-- The source line of an address. -/
def sourceLine (program : Program) (addr : Word) : Option Nat :=
  program.sourceMap.get? addr

/-- The address of a source line, the lowest if there are several. -/
def lookupLine (program : Program) (line : Nat) : Option Word :=
  program.sourceMap.firstKey? (· == line)

end Program

end Marie
