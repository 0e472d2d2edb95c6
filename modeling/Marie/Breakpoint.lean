/-
# Breakpoints

A breakpoint watches the program counter, a register or a word of memory, and matches when the
value compares to a fixed one as it says. Words are compared without sign.
-/
import Marie.Machine
import Marie.Program

namespace Marie

/-- A test of a word against a fixed one. -/
inductive Comparator where
  | never
  | lt (bound : Word)
  | eq (bound : Word)
  | le (bound : Word)
  | gt (bound : Word)
  | ne (bound : Word)
  | ge (bound : Word)
  | always
deriving DecidableEq, Repr

namespace Comparator

/-- Whether a word passes the test. -/
def check (test : Comparator) (w : Word) : Bool :=
  match test with
  | .never => false
  | .always => true
  | .lt bound => decide (w < bound)
  | .eq bound => decide (w = bound)
  | .le bound => decide (w ≤ bound)
  | .gt bound => decide (bound < w)
  | .ne bound => decide (w ≠ bound)
  | .ge bound => decide (bound ≤ w)

/-- The test as it is written after what it tests. -/
def text : Comparator → String
  | .never => "never"
  | .always => "always"
  | .lt bound => "< " ++ Word.hex 4 bound
  | .eq bound => "== " ++ Word.hex 4 bound
  | .le bound => "<= " ++ Word.hex 4 bound
  | .gt bound => "> " ++ Word.hex 4 bound
  | .ne bound => "!= " ++ Word.hex 4 bound
  | .ge bound => ">= " ++ Word.hex 4 bound

end Comparator

/-- A condition on the machine at which a run stops. -/
inductive Breakpoint where
  /-- The program counter has the given value. -/
  | pc (addr : Word)
  /-- A register passes a test. -/
  | reg (reg : Reg) (test : Comparator)
  /-- A word of memory passes a test. -/
  | mem (addr : Word) (test : Comparator)
deriving DecidableEq, Repr

namespace Breakpoint

/-- The breakpoint on the word that a source line produced. -/
def line (program : Program) (line : Nat) : Option Breakpoint :=
  (program.lookupLine line).map .pc

/-- Whether the breakpoint matches a machine. -/
def check (bp : Breakpoint) (m : Machine) : Bool :=
  match bp with
  | .pc addr => addr == m.regs.pc
  | .reg r test => test.check (m.regs.get r)
  | .mem addr test => test.check (m.memory.get addr)

/-- The condition as it is shown. -/
def text (bp : Breakpoint) : String :=
  let condition := match bp with
    | .pc addr => "PC == " ++ Word.hex 3 addr
    | .reg r test => r.name ++ " " ++ test.text
    | .mem addr test => "M[" ++ Word.hex 3 addr ++ "] " ++ test.text
  "Breakpoint(" ++ condition ++ ")"

end Breakpoint

end Marie
