/-
# Slices of a run

How a run is cut into micro-steps, steps and runs, and how often the input source was not ready
in between, does not show in what the machine does: the program and the numbers that the source
delivers fix the log up to its length, and the log fixes the machine up to one operation without
action.
-/
import Marie.Proofs.History
import Marie.Proofs.Trace

namespace Marie

namespace InputSource

variable {σ ρ : Type} [InputSource σ] [InputSource ρ]

/-- The source after a number of questions. -/
def after (source : σ) : Nat → σ
  | 0 => source
  | k + 1 => (poll (after source k)).2

/-- The numbers among the answers to the first questions. -/
def delivered (source : σ) : Nat → List Int
  | 0 => []
  | k + 1 => delivered source k ++ (poll (after source k)).1.toList

/-- The sources deliver the same numbers in the same order, though each of them may be ready at
other questions, or may never be ready again. -/
def SameDeliveries (source : σ) (other : ρ) : Prop :=
  ∀ k l, Comparable (delivered source k) (delivered other l)

end InputSource

namespace Script

open InputSource

/-- The state of a script is the number of questions. -/
theorem after_eq (answer : Nat → Option Int) (k : Nat) :
    after ({ answer } : Script) k = { answer, polls := k } := by
  induction k with
  | zero => rfl
  | succ k ih => rw [after, ih]; rfl

/-- A list of numbers is delivered from its front. -/
theorem delivered_list (numbers : List Int) (k : Nat) :
    delivered (list numbers) k = numbers.take k := by
  induction k with
  | zero => rfl
  | succ k ih => rw [delivered, ih, list, after_eq, List.take_add_one]; rfl

/-- The flaky script needs two questions for each number. -/
theorem delivered_flaky (numbers : List Int) (k : Nat) :
    delivered (flaky numbers) k = numbers.take (k / 2) := by
  induction k with
  | zero => rfl
  | succ k ih =>
      rw [delivered, ih, flaky, after_eq]
      show numbers.take (k / 2) ++ (if k % 2 = 0 then none else numbers[k / 2]?).toList = _
      by_cases heven : k % 2 = 0
      · rw [if_pos heven, show (k + 1) / 2 = k / 2 by omega]
        exact List.append_nil _
      · rw [if_neg heven, show (k + 1) / 2 = k / 2 + 1 by omega, List.take_add_one]

/-- A list of numbers and the flaky script of the list deliver the same. -/
theorem sameDeliveries_list_flaky (numbers : List Int) :
    SameDeliveries (list numbers) (flaky numbers) := by
  intro k l
  rw [delivered_list, delivered_flaky]
  rcases Nat.le_total k (l / 2) with h | h
  · exact .inl (List.take_prefix_take_left h)
  · exact .inr (List.take_prefix_take_left h)

end Script

namespace Simulator

variable {σ ρ : Type} [InputSource σ] [InputSource ρ]

/-- The log of the second simulator is the trace of the machine of the first one on the numbers
that its source has delivered so far, and its own machine is the end of that trace, possibly
settled. -/
structure Traces (s t : Simulator σ) : Prop where
  logging : t.flags.enableLog = true
  traces : ∃ k m, t.input = InputSource.after s.input k ∧
    s.machine.Trace (InputSource.delivered s.input k) t.log.entries m ∧
    m.SettlesTo t.machine

/-- A simulator with an empty log traces itself. -/
theorem Traces.refl {s : Simulator σ} (hlog : s.log = ∅) (hlogging : s.flags.enableLog = true) :
    Traces s s := by
  refine ⟨hlogging, 0, s.machine, rfl, ?_, .refl _⟩
  rw [hlog]
  exact .nil _

/-- The kinds of calls that carry on with the program, and those that change breakpoints. -/
def onward : List Usage :=
  [.forward, .breakpoints]

/-- A micro-step lengthens the trace or settles the machine. -/
theorem Traces.microStep {s t : Simulator σ} (h : Traces s t) : Traces s t.microStep.2 := by
  obtain ⟨hlogging, k, m, hinput, htrace, hsettles⟩ := h
  have hcases := t.microStep_cases
  generalize t.microStep = r at hcases
  cases hcases with
  | halted _ => exact ⟨hlogging, k, m, hinput, htrace, hsettles⟩
  | notReady input _ _ hpoll =>
      rw [hinput] at hpoll
      refine ⟨hlogging, k + 1, m, ?_, ?_, hsettles.trans t.machine.settlesTo_settle⟩
      · rw [InputSource.after, hpoll]
      · rw [InputSource.delivered, hpoll, Option.toList_none, List.append_nil]
        exact htrace
  | @advance entry m' hadv =>
      -- the transition starts from a machine that may have settled since the last entry
      rw [commitEntry_of_enableLog hlogging]
      refine ⟨hlogging, k, m', hinput, ?_, .refl _⟩
      have hsnoc := htrace.snoc (hadv.of_settlesTo hsettles)
      rw [Option.toList_none, List.append_nil] at hsnoc
      rw [Log.entries_push]
      exact hsnoc
  | @receive n input entry m' hpoll hadv =>
      rw [commitEntry_of_enableLog (s := { t with input }) hlogging]
      rw [hinput] at hpoll
      refine ⟨hlogging, k + 1, m', ?_, ?_, .refl _⟩
      · rw [InputSource.after, hpoll]
      · rw [InputSource.delivered, hpoll, Log.entries_push]
        exact htrace.snoc (hadv.of_settlesTo hsettles)

/-- Every move that carries on with the program keeps tracing it. -/
theorem Traces.move {s t u : Simulator σ} (h : Traces s t) (hmove : Move onward 0 t u) :
    Traces s u := by
  cases hmove with
  | microStep _ => exact h.microStep
  | setBreakpoints _ _ => exact ⟨h.logging, h.traces⟩
  | _ => exact absurd ‹_ ∈ onward› (by decide)

/-- Two simulators load one program, keep the log on, and are carried on by micro-steps, steps
and runs in any way, with input sources that deliver the same numbers. Then the log of one
begins the log of the other; and when the logs have the same length, the machines hold the same
data, and their controls are equal up to one operation without action. -/
theorem log_comparable_of_sameDeliveries {s₀ s₁ s : Simulator σ} {r₀ r₁ r : Simulator ρ}
    {program : Program} (hs₀ : s₀.load program = .ok s₁) (hr₀ : r₀.load program = .ok r₁)
    (hslog : s₁.flags.enableLog = true) (hrlog : r₁.flags.enableLog = true)
    (hinput : InputSource.SameDeliveries s₁.input r₁.input)
    (hs : History onward 0 s₁ s) (hr : History onward 0 r₁ r) :
    (s.log.entries <+: r.log.entries ∨ r.log.entries <+: s.log.entries) ∧
      (s.log.size = r.log.size →
        s.machine.SameData r.machine ∧
          (s.machine.SameControl r.machine ∨ r.machine.SameControl s.machine)) := by
  obtain ⟨memory, hmemory, rfl⟩ := load_eq_ok hs₀
  obtain ⟨memory', hmemory', rfl⟩ := load_eq_ok hr₀
  obtain rfl : memory = memory' := Option.some.inj (hmemory.symm.trans hmemory')
  have hst := hs.preserves (fun _ _ hmove h => h.move hmove) (Traces.refl rfl hslog)
  have hrt := hr.preserves (fun _ _ hmove h => h.move hmove) (Traces.refl rfl hrlog)
  obtain ⟨_, k, a, _, hstrace, hsettles⟩ := hst
  obtain ⟨_, l, b, _, hrtrace, hsettles'⟩ := hrt
  -- the sources may have been asked different numbers of times, `k` and `l`
  obtain ⟨hentries, hend⟩ := hstrace.comparable hrtrace (hinput k l)
  refine ⟨hentries, fun hsize => ?_⟩
  have hlength : s.log.entries.length = r.log.entries.length := by
    rw [Log.entries, Log.entries, List.length_reverse, List.length_reverse]
    exact hsize
  obtain rfl := hend hlength
  -- either machine may be the one that has settled
  rcases Machine.settlesTo_or_of_settlesTo hsettles hsettles' with h | h
  · obtain ⟨hdata, hcontrol⟩ := Machine.settlesTo_iff.mp h
    exact ⟨hdata, .inl hcontrol⟩
  · obtain ⟨hdata, hcontrol⟩ := Machine.settlesTo_iff.mp h
    exact ⟨hdata.symm, .inr hcontrol⟩

/-- One simulator takes its input at once and runs to the end; the other one has to ask twice
for it, and goes on by single steps and micro-steps. -/
theorem log_comparable_flaky_input :
    ∃ (program : Program) (s₁ s r₁ r : Simulator Script),
      program.words = [0x5000, 0x8400, 0x7000] ∧
      ((new {} (.list [5])).load program = .ok s₁ ∧ (new {} (.flaky [5])).load program = .ok r₁ ∧
        InputSource.SameDeliveries s₁.input r₁.input ∧
        History onward 0 s₁ s ∧ History onward 0 r₁ r) ∧
      s = (s₁.run 10).2 ∧ r = r₁.step.2.step.2.microStep.2 ∧
      (s.log.entries <+: r.log.entries ∨ r.log.entries <+: s.log.entries) ∧
      (s.log.size = r.log.size →
        s.machine.SameData r.machine ∧
          (s.machine.SameControl r.machine ∨ r.machine.SameControl s.machine)) := by
  have hs₀ := (new {} (Script.list [5])).load_of_fits { words := [0x5000, 0x8400, 0x7000] }
    (by decide)
  have hr₀ := (new {} (Script.flaky [5])).load_of_fits { words := [0x5000, 0x8400, 0x7000] }
    (by decide)
  have hinput := Script.sameDeliveries_list_flaky [5]
  refine ⟨_, _, _, _, _, rfl, ⟨hs₀, hr₀, hinput, .run (.refl _) (by decide) 10,
    .microStep (.step (.step (.refl _) (by decide)) (by decide)) (by decide)⟩, rfl, rfl, ?_⟩
  exact log_comparable_of_sameDeliveries hs₀ hr₀ rfl rfl hinput (.run (.refl _) (by decide) 10)
    (.microStep (.step (.step (.refl _) (by decide)) (by decide)) (by decide))

end Simulator

end Marie
