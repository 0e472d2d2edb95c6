/-
# Summary of a simulator

The state of a simulator on one line: its registers and control in full, and of its log only
the number of entries.
-/
import Marie.Simulator.Basic

namespace Marie

/-- A truth value as a word. -/
def boolText (b : Bool) : String :=
  if b then "true" else "false"

/-- Texts in a row, with commas between them. -/
def commaSeparated (texts : List String) : String :=
  ", ".intercalate texts

/-- A text in braces. -/
def inBraces (text : String) : String :=
  "\x7b" ++ text ++ "\x7d"

/-- The registers in their order. -/
def Registers.summary (regs : Registers) : String :=
  "RegFile([" ++ commaSeparated (regs.toList.map fun w => toString w.toNat) ++ "])"

/-- The settings. -/
def Flags.summary (flags : Flags) : String :=
  "SimFlags " ++ inBraces (" enable_log: " ++ boolText flags.enableLog ++ ", run_interval: " ++
    flags.runInterval.text ++ " ")

/-- The state of a simulator on one line. -/
def Simulator.summary {σ : Type} (s : Simulator σ) : String :=
  let m := s.machine
  let decoded := match m.decoded with
    | some op => "Some(" ++ op.name ++ ")"
    | none => "None"
  let fields := [
    "regs: " ++ m.regs.summary,
    "origin: " ++ toString m.origin.toNat,
    "halted: " ++ boolText m.halted,
    "micro_pc: " ++ toString m.microPC,
    "decoded: " ++ decoded,
    "cmp_result: " ++ boolText m.comparison,
    "interrupt: " ++ m.interrupt.name,
    "instructions_run: " ++ toString m.count,
    "log_len: " ++ toString s.log.size,
    "flags: " ++ s.flags.summary,
    "breakpoints: " ++ inBraces (commaSeparated (s.breakpoints.map Breakpoint.text)),
    ".."]
  "Simulator " ++ inBraces (" " ++ commaSeparated fields ++ " ")

end Marie
