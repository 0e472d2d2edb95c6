/-
# Changes from outside

Loading a program, going back to its start, and setting registers, memory and the halted flag.
A load and a reset clear the log; the other changes are recorded, so that they can be rewound
like the program's own. A change that fails leaves everything as it was.
-/
import Marie.Simulator.Basic
import Marie.Text.Basic
import Marie.Text.Message

namespace Marie

/-- Why the simulator refused a change. -/
inductive SimulatorError where
  /-- The program does not fit in memory at its origin. -/
  | programTooLarge (origin : Word) (size : Nat)
  /-- The text is not a value. -/
  | invalidValue (text : String)
  /-- The text is not the name of a register. -/
  | unknownRegister (text : String)
deriving DecidableEq, Repr

namespace SimulatorError

/-- The error in words. -/
def message : SimulatorError → String
  | .programTooLarge origin size =>
    "program of " ++ toString size ++ " words does not fit in memory at " ++ Word.hex 3 origin
  | .invalidValue text => "invalid value " ++ String.ofList (Text.quoted text.toList)
  | .unknownRegister text => "unknown register " ++ String.ofList (Text.quoted text.toList)

/-- A hint how to mend the error. -/
def help : SimulatorError → String
  | .programTooLarge origin _ =>
    "at most " ++ toString (memorySize - origin.toNat) ++ " words fit after " ++ Word.hex 3 origin
  | .invalidValue _ =>
    "values are decimal (e.g., -1) or hexadecimal with a 0x prefix (e.g., 0xFFFF)"
  | .unknownRegister _ => "registers are AC, IN, IR, MAR, MBR, OUT, and PC"

/-- The report of the error, which has no source line. -/
def report (e : SimulatorError) : String :=
  Marie.report none e.message

end SimulatorError

/-- The base of a value that a user typed, and its digits without the mark of the base. -/
def splitBase (text : List Char) : Radix × List Char :=
  match text with
  | '0' :: 'x' :: digits => (.hexadecimal, digits)
  | '0' :: 'X' :: digits => (.hexadecimal, digits)
  | _ => (.decimal, text)

/-- The word that a user typed: a decimal number, or a hexadecimal one after `0x`. -/
def typedWord? (text : List Char) : Option Word :=
  let (radix, digits) := splitBase (Text.trim text)
  match Numeral.parse radix digits with
  | .ok n => Word.ofRange? Word.minSigned n
  | .error _ => none

namespace Simulator

variable {σ : Type}

/-- Loads a program at its origin, with zeros in the rest of memory, and goes to its start. -/
def load (s : Simulator σ) (program : Program) : Except SimulatorError (Simulator σ) :=
  match s.machine.load? program.origin program.words with
  | some machine => .ok { s with machine, log := ∅ }
  | none => .error (.programTooLarge program.origin program.size)

/-- Goes to the start of the loaded program. Memory stays. -/
def reset (s : Simulator σ) : Simulator σ :=
  { s with machine := s.machine.reset, log := ∅ }

/-- Carries out a change of the machine and records its action. -/
def poke (s : Simulator σ) (action : Action) (machine : Machine) : Simulator σ :=
  s.commit s.machine.microPC s.machine.interrupt action machine

/-- Sets a register to a value, cut to its width. -/
def setReg (s : Simulator σ) (reg : Reg) (w : Word) : Simulator σ :=
  s.poke (.regSet reg (s.machine.regs.get reg) (reg.fit w))
    { s.machine with regs := s.machine.regs.set reg w }

/-- Sets the word at an address. -/
def setMem (s : Simulator σ) (addr w : Word) : Simulator σ :=
  s.poke (.memSet (Word.low12 addr) (s.machine.memory.get addr) w)
    { s.machine with memory := s.machine.memory.set addr w }

/-- Stops the machine, or makes it ready to go on. Nothing is recorded unless that is a
change. -/
def setHalted (s : Simulator σ) (halt : Bool) : Simulator σ :=
  if s.machine.halted = halt then s
  else s.poke (.halt halt none) { s.machine with halted := halt }

/-- Sets the register of a name to the value that a text stands for. -/
def setRegText (s : Simulator σ) (name text : String) :
    Except SimulatorError (Simulator σ) :=
  match Reg.ofName? name with
  | none => .error (.unknownRegister name)
  | some reg =>
    match typedWord? text.toList with
    | none => .error (.invalidValue text)
    | some w => .ok (s.setReg reg w)

/-- Sets the word at an address to the value that a text stands for. -/
def setMemText (s : Simulator σ) (addr : Word) (text : String) :
    Except SimulatorError (Simulator σ) :=
  match typedWord? text.toList with
  | none => .error (.invalidValue text)
  | some w => .ok (s.setMem addr w)

/-- Sets the number of completed instructions. -/
def setCount (s : Simulator σ) (count : Nat) : Simulator σ :=
  { s with machine := { s.machine with count } }

end Simulator

end Marie
