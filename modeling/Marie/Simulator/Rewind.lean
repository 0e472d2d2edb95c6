/-
# Rewinding

The log keeps what every action overwrote, so actions can be taken back one by one, newest
first, down to the state after the last load or reset. What is taken back leaves the log.
-/
import Marie.Simulator.Basic

namespace Marie

namespace Machine

/-- Takes back the newest entries of a log up to the one that began a cycle, or all of them, and
gives the rest of the log beside the machine. -/
def rewindCycle (m : Machine) : List LogEntry → Machine × List LogEntry
  | [] => (m, [])
  | entry :: rest =>
    if entry.action.isStepStart then (m.undoEntry entry, rest)
    else rewindCycle (m.undoEntry entry) rest

end Machine

namespace Simulator

variable {σ : Type}

/-- Takes back the newest recorded action and gives it, if there is one. -/
def microStepBack (s : Simulator σ) : Option Action × Simulator σ :=
  match s.log.recent with
  | [] => (none, s)
  | entry :: rest =>
    (some entry.action, { s with machine := s.machine.undoEntry entry, log := ⟨rest⟩ })

/-- Takes back the newest recorded actions up to the beginning of a cycle, and tells whether
there are more. -/
def stepBack (s : Simulator σ) : Bool × Simulator σ :=
  let (machine, rest) := s.machine.rewindCycle s.log.recent
  (!rest.isEmpty, { s with machine, log := ⟨rest⟩ })

end Simulator

end Marie
