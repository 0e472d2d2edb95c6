/-
# The simulator

A machine together with its log, its input source, its breakpoints and its flags. Here are its
state and the queries on it; the modules beside this one hold what changes it.
-/
import Marie.Breakpoint
import Marie.Duration
import Marie.Input
import Marie.Log

namespace Marie

/-- Settings of the simulator, which may be changed at any time. -/
structure Flags where
  /-- Whether actions are recorded in the log. -/
  enableLog : Bool := true
  /-- The time that one batch of a run may take. -/
  runInterval : Duration := .millis 20
deriving DecidableEq, Repr

/-- The parts of the machine that a program can see. -/
structure Snapshot where
  /-- The words of memory. -/
  memory : List Word
  registers : Registers
  halted : Bool
deriving DecidableEq, Repr

/-- A simulator that takes its input from a source of type `σ`. -/
structure Simulator (σ : Type) where
  machine : Machine := {}
  log : Log := ∅
  flags : Flags := {}
  /-- The breakpoints, without repetition. -/
  breakpoints : List Breakpoint := []
  input : σ

namespace Simulator

variable {σ : Type}

/-- A simulator with nothing loaded. -/
def new (flags : Flags) (input : σ) : Simulator σ where
  flags
  input

/-- Whether the machine has stopped. -/
def halted (s : Simulator σ) : Bool :=
  s.machine.halted

/-- Whether the machine waits for input. -/
def awaitingInput (s : Simulator σ) : Bool :=
  s.machine.interrupt == .needsValue

/-- The address of the instruction in progress: between instructions it is PC, and within one
it is the address at which the log says that the cycle began. -/
def currentPC (s : Simulator σ) : Word :=
  if s.machine.microPC = 0 then s.machine.regs.pc
  else s.log.lastStart?.getD s.machine.regs.pc

/-- The source line of the instruction in progress. -/
def currentLine (s : Simulator σ) (program : Program) : Option Nat :=
  program.sourceLine s.currentPC

/-- The memory, the registers and whether the machine has stopped. -/
def snapshot (s : Simulator σ) : Snapshot where
  memory := s.machine.memory.toList
  registers := s.machine.regs
  halted := s.machine.halted

/-- Whether some breakpoint matches. -/
def atBreakpoint (s : Simulator σ) : Bool :=
  s.breakpoints.any fun bp => bp.check s.machine

/-- Adds a breakpoint, and tells whether it is new. -/
def addBreakpoint (s : Simulator σ) (bp : Breakpoint) : Bool × Simulator σ :=
  if bp ∈ s.breakpoints then (false, s)
  else (true, { s with breakpoints := bp :: s.breakpoints })

/-- Removes a breakpoint, and tells whether it was there. -/
def removeBreakpoint (s : Simulator σ) (bp : Breakpoint) : Bool × Simulator σ :=
  if bp ∈ s.breakpoints then (true, { s with breakpoints := s.breakpoints.erase bp })
  else (false, s)

/-- Removes all breakpoints. -/
def clearBreakpoints (s : Simulator σ) : Simulator σ :=
  { s with breakpoints := [] }

/-- Replaces the input source. -/
def setInput (s : Simulator σ) (input : σ) : Simulator σ :=
  { s with input }

/-- Puts the machine into the state after an action, and records the action at the point of
control before it if logging is on. -/
def commit (s : Simulator σ) (microPC : Nat) (interrupt : Interrupt) (action : Action)
    (machine : Machine) : Simulator σ :=
  if s.flags.enableLog then
    { s with machine, log := s.log.push { action, microPC, interrupt } }
  else { s with machine }

@[simp]
theorem machine_commit (s : Simulator σ) (microPC : Nat) (interrupt : Interrupt)
    (action : Action) (machine : Machine) :
    (s.commit microPC interrupt action machine).machine = machine := by
  unfold commit
  split <;> rfl

end Simulator

end Marie
