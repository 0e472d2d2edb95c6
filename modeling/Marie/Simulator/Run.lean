/-
# Runs

A run makes steps until there is a reason to stop: the machine has halted, it waits for input,
a breakpoint matches, or the caller's tripwire says so. Breakpoints and the tripwire are looked
at between steps only. A run is given a number of rounds, one for each step; when they are used
up it pauses, and can be continued.

* A run with a limit of instructions is given enough rounds never to pause
  (`runWithLimit_ne_paused`).
-/
import Marie.Simulator.Step

namespace Marie

/-- Why a run stopped. -/
inductive RunStatus where
  /-- The machine has halted. -/
  | halted
  /-- The rounds are used up. -/
  | paused
  /-- The machine waits for input. -/
  | awaitingInput
  /-- A breakpoint matches. -/
  | breakpoint
  /-- The tripwire, or the limit, was hit. -/
  | tripwire
deriving DecidableEq, Repr

/-- The name of the reason. -/
def RunStatus.name : RunStatus → String
  | .halted => "Halted"
  | .paused => "Paused"
  | .awaitingInput => "AwaitingInput"
  | .breakpoint => "Breakpoint"
  | .tripwire => "Tripwire"

/-- What a run asks before each step: given a memory of its own and the simulator, a tripwire
answers whether to go on. It may operate the simulator. -/
abbrev Tripwire (τ σ : Type) := τ → Simulator σ → Bool × τ × Simulator σ

namespace Simulator

variable {τ σ : Type}

/-- The reason to stop after a step that made no progress. -/
def stuckStatus (s : Simulator σ) : RunStatus :=
  if s.halted then .halted else .awaitingInput

theorem stuckStatus_ne_paused (s : Simulator σ) : s.stuckStatus ≠ .paused := by
  unfold stuckStatus
  split <;> simp

variable [InputSource σ]

/-- Runs for a number of rounds at most, while the tripwire says so. -/
def runWhile (tripwire : Tripwire τ σ) (rounds : Nat) (t : τ) (s : Simulator σ) :
    RunStatus × τ × Simulator σ :=
  match rounds with
  | 0 => (.paused, t, s)
  | rounds + 1 =>
    if s.halted then (.halted, t, s)
    else match tripwire t s with
      | (false, t, s) => (.tripwire, t, s)
      | (true, t, s) =>
        match s.step with
        | (false, s) => (s.stuckStatus, t, s)
        | (true, s) =>
          if !s.halted && s.atBreakpoint then (.breakpoint, t, s)
          else runWhile tripwire rounds t s

/-- The tripwire that looks at the simulator only. -/
def watch (test : Simulator σ → Bool) : Tripwire Unit σ := fun t s => (test s, t, s)

/-- Runs for a number of rounds at most, without a tripwire. -/
def run (rounds : Nat) (s : Simulator σ) : RunStatus × Simulator σ :=
  let (status, _, s) := runWhile (watch fun _ => true) rounds () s
  (status, s)

/-- The rounds that suffice for a number of instructions. A round that does not complete an
instruction brings the one in progress nearer to its end, and 36 bounds that distance. -/
def roundsFor (limit : Nat) : Nat :=
  36 * (limit + 1) + 1

/-- Runs until the given number of instructions is completed at most. -/
def runWithLimit (limit : Nat) (s : Simulator σ) : RunStatus × Simulator σ :=
  let start := s.machine.count
  let (status, _, s) :=
    runWhile (watch fun s => decide (s.machine.count - start < limit)) (roundsFor limit) () s
  (status, s)

/-! ## Enough rounds -/

/-- A run that counts up to a limit does not use up its rounds, if there are more of them than
the instructions still allowed and the transitions of the cycle in progress ask for. -/
theorem runWhile_ne_paused (start limit rounds : Nat) (s : Simulator σ)
    (hcount : start ≤ s.machine.count)
    (h : 36 * (limit - (s.machine.count - start)) + s.machine.remaining + 1 < rounds) :
    (runWhile (watch fun s => decide (s.machine.count - start < limit)) rounds () s).1 ≠
      .paused := by
  induction rounds generalizing s with
  | zero => omega
  | succ rounds ih =>
    rw [runWhile]
    split
    · simp
    · split
      · simp
      · rename_i t s' hwatch
        simp only [watch, Prod.mk.injEq, decide_eq_true_eq, true_and] at hwatch
        obtain ⟨hgo, rfl⟩ := hwatch
        split
        · exact stuckStatus_ne_paused _
        · rename_i s' hstep
          split
          · simp
          · have hbound := s'.machine.remaining_lt
            rcases count_step hstep with hc | ⟨hc, hlt⟩
            · exact ih s' (by omega) (by omega)
            · exact ih s' (by omega) (by omega)

/-- A run with a limit never pauses. -/
theorem runWithLimit_ne_paused (limit : Nat) (s : Simulator σ) :
    (s.runWithLimit limit).1 ≠ .paused := by
  have hbound := s.machine.remaining_lt
  exact runWhile_ne_paused s.machine.count limit (roundsFor limit) s (Nat.le_refl _)
    (by unfold roundsFor; omega)

end Simulator

end Marie
