/-
# Runs with a limit

A run with a limit of instructions may be cut in two at any point: it is a run with a smaller limit
and, if that limit was the reason to stop, another run with what is left. The relation `Runs` has
one case for each way in which a round of a run can go, and keeps the simulators after the steps.

* `runs_runWithLimit`, `Runs.unique` : a run with a limit is the one that `Runs` describes;
* `Runs.append`, `Runs.raise` : a run under a higher limit;
* `Runs.tripwire_iff` : when the limit is the reason to stop;
* `runWithLimit_add` : cutting a run.
-/
import Marie.Proofs.Polling
import Marie.Proofs.StepRefinement

namespace Marie.Simulator

variable {σ : Type} [InputSource σ] {test test' : Simulator σ → Bool}
  {s t t' u : Simulator σ} {ts ts' us : List (Simulator σ)} {status status' : RunStatus}

/-! ## Rounds -/

/-- A run that looks at the simulator before each step, from the first simulator to the last, with
the simulators after its steps and the reason why it stops. -/
inductive Runs (test : Simulator σ → Bool) :
    Simulator σ → List (Simulator σ) → RunStatus → Simulator σ → Prop
  | halted {s : Simulator σ} (hhalted : s.halted = true) : Runs test s [] .halted s
  | tripwire {s : Simulator σ} (hrunning : s.halted = false) (htest : test s = false) :
      Runs test s [] .tripwire s
  | stuck {s t : Simulator σ} {status : RunStatus} (hrunning : s.halted = false)
      (htest : test s = true) (hstep : s.step = (false, t)) (hstatus : t.stuckStatus = status) :
      Runs test s [t] status t
  | breakpoint {s t : Simulator σ} (hrunning : s.halted = false) (htest : test s = true)
      (hstep : s.step = (true, t)) (hbreak : (!t.halted && t.atBreakpoint) = true) :
      Runs test s [t] .breakpoint t
  | next {s t u : Simulator σ} {ts : List (Simulator σ)} {status : RunStatus}
      (hrunning : s.halted = false) (htest : test s = true) (hstep : s.step = (true, t))
      (hgo : (!t.halted && t.atBreakpoint) = false) (h : Runs test t ts status u) :
      Runs test s (t :: ts) status u

/-- The simulators after the steps of a run that looks at the simulator before each step. -/
def stepsWhile (test : Simulator σ → Bool) (rounds : Nat) (s : Simulator σ) :
    List (Simulator σ) :=
  match rounds with
  | 0 => []
  | rounds + 1 =>
    if s.halted || !test s then []
    else match s.step with
      | (false, t) => [t]
      | (true, t) =>
        if !t.halted && t.atBreakpoint then [t] else t :: stepsWhile test rounds t

/-- The simulators after the steps of a run with a limit. -/
def stepsWithLimit (limit : Nat) (s : Simulator σ) : List (Simulator σ) :=
  stepsWhile (fun t => decide (t.machine.count - s.machine.count < limit)) (roundsFor limit) s

/-- A run that does not use up its rounds goes as the relation says. -/
theorem runs_runWhile (rounds : Nat)
    (h : (runWhile (watch test) rounds () s).1 ≠ .paused) :
    Runs test s (stepsWhile test rounds s) (runWhile (watch test) rounds () s).1
      (runWhile (watch test) rounds () s).2.2 := by
  induction rounds generalizing s with
  | zero => exact absurd rfl h
  | succ rounds ih =>
      rw [runWhile] at h ⊢
      rw [stepsWhile]
      cases hhalted : s.halted with
      | true => exact .halted hhalted
      | false =>
          cases htest : test s with
          | false =>
              simp only [watch, htest]
              exact .tripwire hhalted htest
          | true =>
              simp only [hhalted, watch, htest, Bool.false_eq_true, if_false] at h ⊢
              rcases hstep : s.step with ⟨progress, t⟩
              cases progress with
              | false => exact .stuck hhalted htest hstep rfl
              | true =>
                  simp only [hstep] at h
                  cases hbreak : !t.halted && t.atBreakpoint with
                  | true =>
                      simp only [hbreak]
                      exact .breakpoint hhalted htest hstep hbreak
                  | false =>
                      simp only [hbreak] at h ⊢
                      exact .next hhalted htest hstep hbreak (ih h)

namespace Runs

/-- What the relation describes is the result of a run with enough rounds. -/
theorem runWhile_eq (h : Runs test s ts status t) (rounds : Nat) (hrounds : ts.length < rounds) :
    runWhile (watch test) rounds () s = (status, (), t) := by
  induction h generalizing rounds with
  | halted hhalted =>
      cases rounds with
      | zero => cases hrounds
      | succ rounds => simp only [runWhile, hhalted, if_true]
  | tripwire hrunning htest =>
      cases rounds with
      | zero => cases hrounds
      | succ rounds => simp only [runWhile, hrunning, watch, htest]; rfl
  | stuck hrunning htest hstep hstatus =>
      cases rounds with
      | zero => cases hrounds
      | succ rounds => simp only [runWhile, hrunning, watch, htest, hstep, hstatus]; rfl
  | breakpoint hrunning htest hstep hbreak =>
      cases rounds with
      | zero => cases hrounds
      | succ rounds => simp only [runWhile, hrunning, watch, htest, hstep, hbreak]; rfl
  | next hrunning htest hstep hgo _ ih =>
      cases rounds with
      | zero => cases hrounds
      | succ rounds =>
          simp only [runWhile, hrunning, watch, htest, hstep, hgo]
          exact ih rounds (Nat.lt_of_succ_lt_succ hrounds)

/-- A run from a simulator goes in one way only. -/
theorem unique (h : Runs test s ts status t) (h' : Runs test s ts' status' t') :
    (status, t) = (status', t') := by
  have hlong := h.runWhile_eq (ts.length + ts'.length + 1) (by omega)
  rw [h'.runWhile_eq _ (by omega)] at hlong
  cases hlong
  rfl

end Runs

/-! ## Counting -/

/-- A step without progress counts nothing. -/
theorem count_step_false (hstep : s.step = (false, t)) : t.machine.count = s.machine.count :=
  (microStep_none (step_eq_false_iff.mp hstep)).1

/-- A step with progress counts one instruction or none. -/
theorem count_step_true (hstep : s.step = (true, t)) :
    s.machine.count ≤ t.machine.count ∧ t.machine.count ≤ s.machine.count + 1 := by
  rcases count_step hstep with hcount | ⟨hcount, -⟩ <;> omega

/-- Whether fewer instructions than the bound have been counted. -/
def countBelow (bound : Nat) (s : Simulator σ) : Bool :=
  decide (s.machine.count < bound)

variable {bound higher : Nat}

omit [InputSource σ] in
/-- What is below a bound is below a higher one. -/
theorem countBelow_of_le (hle : bound ≤ higher) (h : countBelow bound s = true) :
    countBelow higher s = true :=
  decide_eq_true (Nat.lt_of_lt_of_le (of_decide_eq_true h) hle)

namespace Runs

/-- Tests that agree from the count at the beginning on lead to the same run. -/
theorem congr (h : Runs test s ts status t)
    (htests : ∀ u : Simulator σ, s.machine.count ≤ u.machine.count → test u = test' u) :
    Runs test' s ts status t := by
  induction h with
  | halted hhalted => exact .halted hhalted
  | tripwire hrunning htest => exact .tripwire hrunning (htests _ (Nat.le_refl _) ▸ htest)
  | stuck hrunning htest hstep hstatus =>
      exact .stuck hrunning (htests _ (Nat.le_refl _) ▸ htest) hstep hstatus
  | breakpoint hrunning htest hstep hbreak =>
      exact .breakpoint hrunning (htests _ (Nat.le_refl _) ▸ htest) hstep hbreak
  | next hrunning htest hstep hgo _ ih =>
      have hle := (count_step_true hstep).1
      exact .next hrunning (htests _ (Nat.le_refl _) ▸ htest) hstep hgo
        (ih fun u hu => htests u (Nat.le_trans hle hu))

/-- A run below a bound does not count beyond it. -/
theorem count_le (h : Runs (countBelow bound) s ts status t) (hs : s.machine.count ≤ bound) :
    t.machine.count ≤ bound := by
  induction h with
  | halted hhalted => exact hs
  | tripwire hrunning htest => exact hs
  | stuck hrunning htest hstep hstatus =>
      rw [count_step_false hstep]
      exact hs
  | breakpoint hrunning htest hstep hbreak =>
      have hlt := of_decide_eq_true htest
      have hle := (count_step_true hstep).2
      omega
  | next hrunning htest hstep hgo _ ih =>
      have hlt := of_decide_eq_true htest
      have hle := (count_step_true hstep).2
      exact ih (by omega)

/-- Below a higher bound a run goes on where the lower one was the reason to stop. -/
theorem append (h : Runs (countBelow bound) s ts .tripwire t) (hle : bound ≤ higher)
    (hmore : Runs (countBelow higher) t us status u) :
    Runs (countBelow higher) s (ts ++ us) status u := by
  generalize hstatus : RunStatus.tripwire = stopped at h
  induction h with
  | halted hhalted => cases hstatus
  | tripwire hrunning htest => exact hmore
  | stuck hrunning htest hstep hstuck =>
      rw [← hstatus, stuckStatus] at hstuck
      split at hstuck <;> cases hstuck
  | breakpoint hrunning htest hstep hbreak => cases hstatus
  | next hrunning htest hstep hgo _ ih =>
      exact .next hrunning (countBelow_of_le hle htest) hstep hgo (ih hmore hstatus)

/-- Below a higher bound a run is the same, if the lower one was not the reason to stop. -/
theorem raise (h : Runs (countBelow bound) s ts status t) (hle : bound ≤ higher)
    (hne : status ≠ .tripwire) : Runs (countBelow higher) s ts status t := by
  induction h with
  | halted hhalted => exact .halted hhalted
  | tripwire hrunning htest => exact absurd rfl hne
  | stuck hrunning htest hstep hstatus =>
      exact .stuck hrunning (countBelow_of_le hle htest) hstep hstatus
  | breakpoint hrunning htest hstep hbreak =>
      exact .breakpoint hrunning (countBelow_of_le hle htest) hstep hbreak
  | next hrunning htest hstep hgo _ ih =>
      exact .next hrunning (countBelow_of_le hle htest) hstep hgo (ih hne)

/-- A run without a step ends where it began. -/
theorem eq_of_nil (h : Runs test s [] status t) : t = s := by
  cases h <;> rfl

/-- The bound is the reason to stop exactly if it is reached, the machine has not halted, and no
breakpoint matches after the last step, if there was one. -/
theorem tripwire_iff (h : Runs (countBelow bound) s ts status t) (hs : s.machine.count ≤ bound) :
    status = .tripwire ↔
      t.machine.count = bound ∧ t.halted = false ∧
        ∀ u, ts.getLast? = some u → u.atBreakpoint = false := by
  induction h with
  | halted hhalted =>
      refine iff_of_false (by decide) fun hreason => ?_
      rw [hhalted] at hreason
      cases hreason.2.1
  | tripwire hrunning htest =>
      have hge := of_decide_eq_false htest
      exact iff_of_true rfl ⟨by omega, hrunning, fun u hu => by cases hu⟩
  | @stuck s t status hrunning htest hstep hstatus =>
      have hlt := of_decide_eq_true htest
      have hsame := count_step_false hstep
      refine iff_of_false ?_ fun hreason => by omega
      rw [← hstatus, stuckStatus]
      split <;> decide
  | @breakpoint s t hrunning htest hstep hbreak =>
      refine iff_of_false (by decide) fun hreason => ?_
      rw [hreason.2.2 t rfl, Bool.and_false] at hbreak
      cases hbreak
  | @next s t u ts status hrunning htest hstep hgo h ih =>
      have hlt := of_decide_eq_true htest
      have hle := (count_step_true hstep).2
      rw [ih (by omega)]
      refine and_congr_right fun _ => and_congr_right fun hend => ?_
      cases ts with
      | nil =>
          -- this was the last step, and the run went on after it
          have hclear : t.atBreakpoint = false := by
            rw [← h.eq_of_nil, hend, h.eq_of_nil] at hgo
            exact hgo
          refine iff_of_true (fun v hv => by cases hv) fun v hv => ?_
          cases hv
          exact hclear
      | cons t' ts => rw [List.getLast?_cons_cons]

end Runs

/-! ## Limits -/

/-- A run with a limit is a run below the count that the limit leads to. -/
theorem runs_runWithLimit (limit : Nat) (s : Simulator σ) :
    Runs (countBelow (s.machine.count + limit)) s (s.stepsWithLimit limit) (s.runWithLimit limit).1
      (s.runWithLimit limit).2 := by
  have h : Runs (fun t => decide (t.machine.count - s.machine.count < limit)) s
      (s.stepsWithLimit limit) (s.runWithLimit limit).1 (s.runWithLimit limit).2 :=
    runs_runWhile (roundsFor limit) (s.runWithLimit_ne_paused limit)
  refine h.congr fun u hu => ?_
  rw [countBelow, decide_eq_decide]
  omega

/-- What a run below the count of a limit comes to is the result of the run with the limit. -/
theorem Runs.runWithLimit_eq {limit : Nat}
    (h : Runs (countBelow (s.machine.count + limit)) s ts status t) :
    s.runWithLimit limit = (status, t) :=
  (runs_runWithLimit limit s).unique h

/-- Goes on after a run with another limit, if its limit was the reason to stop. -/
def goOn (limit : Nat) (result : RunStatus × Simulator σ) : RunStatus × Simulator σ :=
  if result.1 = .tripwire then result.2.runWithLimit limit else result

/-- A run with a sum of limits is the run with the first, gone on with the second. -/
theorem runWithLimit_sum (limit more : Nat) (s : Simulator σ) :
    s.runWithLimit (limit + more) = goOn more (s.runWithLimit limit) := by
  have hfirst := runs_runWithLimit limit s
  rw [goOn]
  split
  · rename_i htripwire
    have hcount := ((hfirst.tripwire_iff (Nat.le_add_right _ _)).mp htripwire).1
    have hmore := runs_runWithLimit more (s.runWithLimit limit).2
    rw [hcount, Nat.add_assoc] at hmore
    rw [htripwire] at hfirst
    exact (hfirst.append (by omega) hmore).runWithLimit_eq
  · rename_i hother
    exact (hfirst.raise (by omega) hother).runWithLimit_eq

/-- Runs with a limit are exact and compose. A run with a sum of limits has the result of the run
with the first limit, gone on with the second exactly if the first was the reason to stop; and the
same holds with a record of the questions to the input source. A run counts no more instructions
than its limit, and the limit is the reason to stop exactly if as many were counted, the machine
has not halted and no breakpoint matches after the last step. -/
theorem runWithLimit_add (limit more : Nat) (s : Simulator σ) :
    s.runWithLimit (limit + more) = goOn more (s.runWithLimit limit) ∧
      s.asked.runWithLimit (limit + more) = goOn more (s.asked.runWithLimit limit) ∧
      (s.runWithLimit limit).2.machine.count ≤ s.machine.count + limit ∧
      ((s.runWithLimit limit).1 = .tripwire ↔
        (s.runWithLimit limit).2.machine.count = s.machine.count + limit ∧
          (s.runWithLimit limit).2.halted = false ∧
          ∀ t, (s.stepsWithLimit limit).getLast? = some t → t.atBreakpoint = false) := by
  have hruns := runs_runWithLimit limit s
  have hstart := Nat.le_add_right s.machine.count limit
  exact ⟨runWithLimit_sum limit more s, runWithLimit_sum limit more s.asked,
    hruns.count_le hstart, hruns.tripwire_iff hstart⟩

end Marie.Simulator
