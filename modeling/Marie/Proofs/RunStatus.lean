/-
# Why a run stops

The reason that a run gives for stopping is true of the simulator that it leaves, and it is the
first reason that there was: every round before the last one found the machine running, was allowed
by the tripwire, made progress, and came to no breakpoint.

* `Simulator.Rounds` : rounds of a run that go on, one after the other;
* `Simulator.exists_rounds` : a run is some rounds that go on and a last one that ends it;
* `Simulator.runWhile_truthful` : what the reason says of the last round and of the simulator after
  it.
-/
import Marie.Proofs.Moves
import Marie.Proofs.Polling
import Marie.Proofs.StepRefinement

namespace Marie.Simulator

variable {τ σ : Type} [InputSource σ] {tripwire : Tripwire τ σ} {breakpoints : List Breakpoint}

/-! ## Steps without progress -/

/-- A step of a running machine makes no progress only where the machine waits for input, and its
source, asked just once, is not ready. -/
theorem waits_of_step_false {s t : Simulator σ} (hrun : s.halted = false)
    (hstep : s.step = (false, t)) :
    t.halted = false ∧ t.awaitingInput = true ∧ answersTo step s = [none] := by
  have hcases := s.microStep_cases
  rw [step_eq_false_iff.mp hstep] at hcases
  cases hcases with
  | halted hhalt =>
      rw [halted, hhalt] at hrun
      cases hrun
  | notReady input _ hwait hpoll =>
      have hasked :
          InputSource.poll s.asked.input = (none, { source := input, answers := [none] }) := by
        show ((InputSource.poll s.input).1, ({
          source := (InputSource.poll s.input).2
          answers := [(InputSource.poll s.input).1] } : Asked σ)) = _
        rw [hpoll]
      have hmicro := microStep_of_notReady (s := s.asked) hrun hwait hasked
      refine ⟨s.machine.settle_halted.trans hrun, ?_, ?_⟩
      · rw [awaitingInput, hwait]
        rfl
      · rw [answersTo, step_eq_false_iff.mpr hmicro]
        rfl

/-! ## Rounds -/

/-- A round of a run does not stop it: the machine is running, the tripwire allows a step, the step
makes progress, and no breakpoint matches after it, unless the machine has halted. -/
structure GoesOn (tripwire : Tripwire τ σ) (breakpoints : List Breakpoint)
    (before after : τ × Simulator σ) : Prop where
  running : before.2.halted = false
  allowed : tripwire before.1 before.2 = (true, after.1, before.2)
  progress : before.2.step = (true, after.2)
  passed : after.2.halted = true ∨ ∀ bp ∈ breakpoints, bp.check after.2.machine = false

/-- Rounds that go on, from one memory of the tripwire and simulator to another. The list holds
those at the beginning of each of these rounds. -/
inductive Rounds (tripwire : Tripwire τ σ) (breakpoints : List Breakpoint) :
    τ × Simulator σ → List (τ × Simulator σ) → τ × Simulator σ → Prop
  | nil (last : τ × Simulator σ) : Rounds tripwire breakpoints last [] last
  | cons {first next last : τ × Simulator σ} {between : List (τ × Simulator σ)}
      (hround : GoesOn tripwire breakpoints first next)
      (hrest : Rounds tripwire breakpoints next between last) :
      Rounds tripwire breakpoints first (first :: between) last

/-- A round ends a run, for a reason and with a simulator. A run may also end before this round,
because it was not given any more. -/
inductive Ends (tripwire : Tripwire τ σ) (breakpoints : List Breakpoint) :
    τ × Simulator σ → RunStatus → Simulator σ → Prop
  | paused {last : τ × Simulator σ} : Ends tripwire breakpoints last .paused last.2
  | halted {last : τ × Simulator σ} (hhalted : last.2.halted = true) :
      Ends tripwire breakpoints last .halted last.2
  | tripwire {last : τ × Simulator σ} (hrunning : last.2.halted = false)
      (hrefused : (tripwire last.1 last.2).1 = false) :
      Ends tripwire breakpoints last .tripwire last.2
  | awaitingInput {last : τ × Simulator σ} {t : Simulator σ} (hrunning : last.2.halted = false)
      (hallowed : (tripwire last.1 last.2).1 = true) (hstep : last.2.step = (false, t)) :
      Ends tripwire breakpoints last .awaitingInput t
  | breakpoint {last : τ × Simulator σ} {t : Simulator σ} (hrunning : last.2.halted = false)
      (hallowed : (tripwire last.1 last.2).1 = true) (hstep : last.2.step = (true, t))
      (hstands : t.halted = false) (hmatch : ∃ bp ∈ breakpoints, bp.check t.machine = true) :
      Ends tripwire breakpoints last .breakpoint t

/-- The calls of the tripwire in the last round, which is not asked if the machine has halted or
there is no round. -/
def lastCalls (last : τ × Simulator σ) : RunStatus → List (τ × Simulator σ)
  | .halted | .paused => []
  | _ => [last]

/-- A step leaves the breakpoints as they are. -/
theorem breakpoints_step (s : Simulator σ) : s.step.2.breakpoints = s.breakpoints := by
  have h : History [.forward] 0 s s.step.2 := (History.refl s).step List.mem_cons_self
  exact (h.settings (by decide) (by decide)).2

omit [InputSource σ] in
/-- A run stops at a breakpoint if the machine has not halted and one of them matches. -/
theorem stopsAtBreakpoint_iff {s : Simulator σ} (hbreakpoints : s.breakpoints = breakpoints) :
    (!s.halted && s.atBreakpoint) = true ↔
      s.halted = false ∧ ∃ bp ∈ breakpoints, bp.check s.machine = true := by
  rw [Bool.and_eq_true, Bool.not_eq_true', atBreakpoint, hbreakpoints, List.any_eq_true]

/-- A run with a tripwire that only looks at the simulator is some rounds that go on and a last one
that ends it, and in each of them the tripwire is called once. -/
theorem exists_rounds (hpassive : ∀ t s, (tripwire t s).2.2 = s) (rounds : Nat) (memory : τ)
    (s : Simulator σ) (hbreakpoints : s.breakpoints = breakpoints) :
    ∃ earlier last, Rounds tripwire breakpoints (memory, s) earlier last ∧
      Ends tripwire breakpoints last (runWhile tripwire rounds memory s).1
        (runWhile tripwire rounds memory s).2.2 ∧
      tripwireCalls tripwire rounds memory s =
        earlier ++ lastCalls last (runWhile tripwire rounds memory s).1 := by
  induction rounds generalizing memory s with
  | zero => exact ⟨[], (memory, s), .nil _, .paused, rfl⟩
  | succ rounds ih =>
      rw [runWhile, tripwireCalls]
      cases hhalted : s.halted with
      | true => exact ⟨[], (memory, s), .nil _, .halted hhalted, rfl⟩
      | false =>
          rcases htrip : tripwire memory s with ⟨go, memory', s'⟩
          obtain rfl : s' = s := by
            have hsame := hpassive memory s
            rwa [htrip] at hsame
          have hgo : (tripwire memory s').1 = go := by rw [htrip]
          simp only [Bool.false_eq_true, if_false]
          cases go with
          | false => exact ⟨[], (memory, s'), .nil _, .tripwire hhalted hgo, rfl⟩
          | true =>
              rcases hstep : s'.step with ⟨progress, u⟩
              simp only [hstep]
              cases progress with
              | false =>
                  have hstatus : u.stuckStatus = .awaitingInput :=
                    if_neg (by simp [(waits_of_step_false hhalted hstep).1])
                  simp only [hstatus]
                  exact ⟨[], (memory, s'), .nil _, .awaitingInput hhalted hgo hstep, rfl⟩
              | true =>
                  have hbreakpoints' : u.breakpoints = breakpoints := by
                    have hsame := s'.breakpoints_step
                    rwa [hstep, hbreakpoints] at hsame
                  by_cases hbreak : (!u.halted && u.atBreakpoint) = true
                  · obtain ⟨hstands, hmatch⟩ := (stopsAtBreakpoint_iff hbreakpoints').mp hbreak
                    simp only [if_pos hbreak]
                    exact ⟨[], (memory, s'), .nil _,
                      .breakpoint hhalted hgo hstep hstands hmatch, rfl⟩
                  · have hpassed :
                        u.halted = true ∨ ∀ bp ∈ breakpoints, bp.check u.machine = false := by
                      rw [stopsAtBreakpoint_iff hbreakpoints', not_and_or] at hbreak
                      simpa using hbreak
                    simp only [if_neg hbreak]
                    obtain ⟨earlier, last, hrounds, hends, hcalls⟩ := ih memory' u hbreakpoints'
                    refine ⟨(memory, s') :: earlier, last, .cons ?_ hrounds, hends, ?_⟩
                    · exact ⟨hhalted, htrip, hstep, hpassed⟩
                    · rw [hcalls, List.cons_append]

/-- More rounds do not change a run that stops without them. -/
theorem runWhile_add (rounds more : Nat) (memory : τ) (s : Simulator σ)
    (hstops : (runWhile tripwire rounds memory s).1 ≠ .paused) :
    runWhile tripwire (rounds + more) memory s = runWhile tripwire rounds memory s := by
  induction rounds generalizing memory s with
  | zero => exact absurd rfl hstops
  | succ rounds ih =>
      rw [Nat.succ_add, runWhile]
      rw [runWhile] at hstops ⊢
      split
      · rfl
      · rename_i hhalted
        rw [if_neg hhalted] at hstops
        split
        · rfl
        · rename_i memory' s' htrip
          simp only [htrip] at hstops
          split
          · rfl
          · rename_i u hstep
            simp only [hstep] at hstops
            split
            · rfl
            · rename_i hbreak
              rw [if_neg hbreak] at hstops
              exact ih memory' u hstops

/-! ## The reason -/

/-- What a run that stops says by its reason: of the memory of the tripwire and the simulator at the
beginning of its last round, and of the simulator in the end. -/
structure Truthful (tripwire : Tripwire τ σ) (breakpoints : List Breakpoint)
    (last : τ × Simulator σ) (status : RunStatus) (final : Simulator σ) : Prop where
  halted : status = .halted ↔ final.halted = true
  awaitingInput : status = .awaitingInput →
    final.halted = false ∧ final.awaitingInput = true ∧ last.2.step.2 = final ∧
      answersTo step last.2 = [none]
  breakpoint : status = .breakpoint →
    final.halted = false ∧ (∃ bp ∈ breakpoints, bp.check final.machine = true) ∧
      last.2.step.2 = final ∧ last.2.microStep.1.isSome = true
  tripwire : status = .tripwire →
    final.halted = false ∧ last.2 = final ∧ (tripwire last.1 last.2).1 = false

/-- However a round ends a run, the reason is true. -/
theorem Ends.truthful {last : τ × Simulator σ} {status : RunStatus} {final : Simulator σ}
    (h : Ends tripwire breakpoints last status final) (hstops : status ≠ .paused) :
    Truthful tripwire breakpoints last status final := by
  cases h with
  | paused => exact absurd rfl hstops
  | halted hhalted => exact ⟨iff_of_true rfl hhalted, nofun, nofun, nofun⟩
  | tripwire hrunning hrefused =>
      refine ⟨iff_of_false (by decide) (by simp [hrunning]), nofun, nofun, fun _ => ?_⟩
      exact ⟨hrunning, rfl, hrefused⟩
  | awaitingInput hrunning _ hstep =>
      obtain ⟨hstands, hawaits, hanswers⟩ := waits_of_step_false hrunning hstep
      refine ⟨iff_of_false (by decide) (by simp [hstands]), fun _ => ?_, nofun, nofun⟩
      exact ⟨hstands, hawaits, congrArg Prod.snd hstep, hanswers⟩
  | breakpoint _ _ hstep hstands hmatch =>
      refine ⟨iff_of_false (by decide) (by simp [hstands]), nofun, fun _ => ?_, nofun⟩
      exact ⟨hstands, hmatch, congrArg Prod.snd hstep, by rw [← fst_step, hstep]⟩

/-- Every run that stops, from any simulator and with any tripwire that only looks at it, gives the
first reason that there was, and the reason is true. -/
theorem runWhile_truthful (hpassive : ∀ t s, (tripwire t s).2.2 = s) (rounds : Nat) (memory : τ)
    (s : Simulator σ) (hstops : (runWhile tripwire rounds memory s).1 ≠ .paused) :
    (∀ more, runWhile tripwire (rounds + more) memory s = runWhile tripwire rounds memory s) ∧
    ∃ earlier last, Rounds tripwire s.breakpoints (memory, s) earlier last ∧
      tripwireCalls tripwire rounds memory s =
        earlier ++ lastCalls last (runWhile tripwire rounds memory s).1 ∧
      Ends tripwire s.breakpoints last (runWhile tripwire rounds memory s).1
        (runWhile tripwire rounds memory s).2.2 ∧
      Truthful tripwire s.breakpoints last (runWhile tripwire rounds memory s).1
        (runWhile tripwire rounds memory s).2.2 := by
  obtain ⟨earlier, last, hrounds, hends, hcalls⟩ := exists_rounds hpassive rounds memory s rfl
  exact ⟨fun more => runWhile_add rounds more memory s hstops,
    earlier, last, hrounds, hcalls, hends, hends.truthful hstops⟩

/-- A tripwire that counts its calls, and a program that puts out what it takes in, with a source
that is not ready at first. The third round comes to a breakpoint. -/
theorem runWhile_truthful_counting :
    let tripwire : Tripwire Nat Script := fun n s => (decide (n < 10), n + 1, s)
    let s₀ := ((new {} (.flaky [5])).setMem 0 0x5000).setMem 1 0x6000
    let s := { s₀ with breakpoints := [.pc 2] }
    ((∀ t s, (tripwire t s).2.2 = s) ∧ (runWhile tripwire 4 0 s).1 = .breakpoint) ∧
    (∀ more, runWhile tripwire (4 + more) 0 s = runWhile tripwire 4 0 s) ∧
    ∃ earlier last, Rounds tripwire s.breakpoints (0, s) earlier last ∧
      tripwireCalls tripwire 4 0 s = earlier ++ lastCalls last (runWhile tripwire 4 0 s).1 ∧
      Ends tripwire s.breakpoints last (runWhile tripwire 4 0 s).1 (runWhile tripwire 4 0 s).2.2 ∧
      Truthful tripwire s.breakpoints last (runWhile tripwire 4 0 s).1
        (runWhile tripwire 4 0 s).2.2 := by
  intro tripwire s₀ s
  have hpassive : ∀ t s, (tripwire t s).2.2 = s := fun _ _ => rfl
  have hstatus : (runWhile tripwire 4 0 s).1 = .breakpoint := by decide +kernel
  have hstops : (runWhile tripwire 4 0 s).1 ≠ .paused := by
    rw [hstatus]
    decide
  exact ⟨⟨hpassive, hstatus⟩, runWhile_truthful hpassive 4 0 s hstops⟩

end Marie.Simulator
