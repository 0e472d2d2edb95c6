/-
# Termination

Micro-steps, steps and runs are loops. Each loop is given here by one of its rounds, which either
has the result or hands on the simulator with which the next round begins. A micro-step goes round
once more at most, because a settled machine stays settled. The other loops have a variant that
every further round makes smaller: the transitions that are left of the cycle, and for a run these
together with the instructions that its limit leaves. So all of them return, whatever the input
source answers and from whatever state.

* `Returns`, `exists_returns` : loops, and that a loop with a variant returns;
* `returns_microStep` : a micro-step carries out one operation without action at most;
* `stepReturns_step` : a step makes 36 micro-steps at most;
* `returns_runWithLimit` : a run with a limit returns, also with a counter of 64 bits.
-/
import Marie.Proofs.LimitedRun

namespace Marie

/-! ## Loops -/

section Loops

variable {α β : Type} {body : α → β ⊕ α} {a : α} {b b' : β} {n n' : Nat}

/-- The loop returns a result, after a number of rounds that each handed on a state. -/
inductive Returns (body : α → β ⊕ α) : α → Nat → β → Prop
  | done {a : α} {b : β} (h : body a = .inl b) : Returns body a 0 b
  | again {a a' : α} {n : Nat} {b : β} (h : body a = .inr a') (hrest : Returns body a' n b) :
      Returns body a (n + 1) b

/-- A loop returns in one way only. -/
theorem Returns.unique (h : Returns body a n b) (h' : Returns body a n' b') : n' = n ∧ b' = b := by
  induction h generalizing n' with
  | done hround =>
      cases h' with
      | done hround' =>
          rw [hround] at hround'
          cases hround'
          exact ⟨rfl, rfl⟩
      | again hround' _ =>
          rw [hround] at hround'
          cases hround'
  | again hround _ ih =>
      cases h' with
      | done hround' =>
          rw [hround] at hround'
          cases hround'
      | again hround' hrest' =>
          rw [hround] at hround'
          cases hround'
          obtain ⟨rfl, rfl⟩ := ih hrest'
          exact ⟨rfl, rfl⟩

/-- A loop that returns has one number of rounds and one result. -/
theorem Returns.iff_eq (h : Returns body a n b) : Returns body a n' b' ↔ n' = n ∧ b' = b := by
  constructor
  · exact h.unique
  · rintro ⟨rfl, rfl⟩
    exact h

/-- A loop returns if each round that hands on a state makes a variant smaller. Its result is the
value of a function that such a round does not change. -/
theorem exists_returns (body : α → β ⊕ α) (inv : α → Prop) (result : α → β) (variant : α → Nat)
    (hdone : ∀ a b, inv a → body a = .inl b → result a = b)
    (hagain : ∀ a a', inv a → body a = .inr a' →
      inv a' ∧ result a' = result a ∧ variant a' < variant a)
    {a : α} (ha : inv a) : ∃ n ≤ variant a, Returns body a n (result a) := by
  induction hv : variant a using Nat.strong_induction_on generalizing a with
  | _ v ih =>
      cases hround : body a with
      | inl b =>
          rw [hdone a b ha hround]
          exact ⟨0, Nat.zero_le _, .done hround⟩
      | inr a' =>
          obtain ⟨ha', hsame, hlt⟩ := hagain a a' ha hround
          obtain ⟨n, hn, hrest⟩ := ih (variant a') (hv ▸ hlt) ha' rfl
          rw [hsame] at hrest
          exact ⟨n + 1, by omega, .again hround hrest⟩

end Loops

namespace Simulator

variable {σ : Type} [InputSource σ] {s t : Simulator σ}

/-! ## Micro-steps -/

/-- A round of a micro-step. It goes on to another one if it has carried out an operation without
action, and otherwise the micro-step is over. -/
def microStepRound (s : Simulator σ) : (Option Action × Simulator σ) ⊕ Simulator σ :=
  let m := s.machine
  if m.halted then .inl (none, s)
  else match m.interrupt with
    | .needsValue =>
      match InputSource.poll s.input with
      | (none, input) => .inl (none, { s with input })
      | (some n, input) =>
        let (action, m') := m.receive n
        .inl (some action, { s with input }.commit m.microPC .needsValue action m')
    | .needsLoad =>
      let (action, m') := m.takeInput
      .inl (some action, s.commit m.microPC .needsLoad action m')
    | .idle =>
      match m.nextOp? with
      | none =>
        .inl (some .stepEnd,
          s.commit m.microPC .idle .stepEnd { m with microPC := 0, count := m.count + 1 })
      | some op =>
        match m.execute op with
        | (some action, m') =>
          .inl (some action, s.commit m.microPC .idle action { m' with microPC := m.microPC + 1 })
        | (none, m') => .inr { s with machine := { m' with microPC := m.microPC + 1 } }

/-- If the machine is settled, the round is the micro-step. -/
theorem microStepRound_of_settled (h : s.machine.settle = s.machine) :
    microStepRound s = .inl s.microStep := by
  cases hhalted : s.machine.halted with
  | true => simp [microStepRound, microStep, hhalted]
  | false =>
      cases hinterrupt : s.machine.interrupt with
      | needsValue =>
          rcases hpoll : InputSource.poll s.input with ⟨_ | n, input⟩
          · simp [microStepRound, microStep, h, hhalted, hinterrupt, hpoll]
          · simp [microStepRound, microStep, h, hhalted, hinterrupt, hpoll]
      | needsLoad => simp [microStepRound, microStep, h, hhalted, hinterrupt]
      | idle =>
          cases hop : s.machine.nextOp? with
          | none => simp [microStepRound, microStep, h, hhalted, hinterrupt, Machine.perform, hop]
          | some op =>
              have hloud : s.machine.isSilent op = false := by
                rw [← h] at hinterrupt hop ⊢
                exact Machine.isSilent_settle hinterrupt hop
              have hsome := s.machine.isSome_execute op
              rcases hexecute : s.machine.execute op with ⟨_ | action, m'⟩
              · rw [hexecute, hloud] at hsome
                cases hsome
              · simp [microStepRound, microStep, h, hhalted, hinterrupt, Machine.perform, hop,
                  hexecute]

/-- If an operation without action comes next, the round settles the machine. -/
theorem microStepRound_of_isSilent {op : MicroOp} (hrun : s.machine.halted = false)
    (hidle : s.machine.interrupt = .idle) (hop : s.machine.nextOp? = some op)
    (hsilent : s.machine.isSilent op = true) :
    microStepRound s = .inr { s with machine := s.machine.settle } := by
  have hsome := s.machine.isSome_execute op
  rcases hexecute : s.machine.execute op with ⟨_ | action, m'⟩
  · simp [microStepRound, Machine.settle, hrun, hidle, hop, hsilent, hexecute]
  · rw [hexecute, hsilent] at hsome
    cases hsome

/-- A running simulator makes the same micro-step after settling. -/
theorem microStep_settle (hrun : s.machine.halted = false) :
    { s with machine := s.machine.settle }.microStep = s.microStep := by
  simp only [microStep, Machine.settle_halted, Machine.settle_settle, hrun]
  rfl

/-- The loop of a micro-step returns after one round that goes on, or after none. -/
theorem returns_microStep (s : Simulator σ) : ∃ k ≤ 1, Returns microStepRound s k s.microStep := by
  by_cases hsettled : s.machine.settle = s.machine
  · exact ⟨0, Nat.zero_le _, .done (microStepRound_of_settled hsettled)⟩
  · cases hrun : s.machine.halted with
    | true =>
        refine ⟨0, Nat.zero_le _, .done ?_⟩
        simp [microStepRound, microStep, hrun]
    | false =>
        obtain ⟨op, hidle, hop, hsilent⟩ := not_not.mp fun h => hsettled (Machine.settle_eq_self h)
        have hround := microStepRound_of_isSilent hrun hidle hop hsilent
        have hnext := microStepRound_of_settled (s := { s with machine := s.machine.settle })
          s.machine.settle_settle
        rw [microStep_settle hrun] at hnext
        exact ⟨1, Nat.le_refl _, .again hround (.done hnext)⟩

/-! ## Steps -/

/-- A round of the loop in which a step finishes the cycle: a micro-step, after which the loop goes
on unless that was the end of the cycle or had no action. -/
def finishCycleRound (s : Simulator σ) : Simulator σ ⊕ Simulator σ :=
  match s.microStep with
  | (none, t) => .inl t
  | (some action, t) => if action.isStepEnd then .inl t else .inr t

/-- The loop that finishes a cycle returns after as many rounds at most as transitions are left. -/
theorem returns_finishCycle (s : Simulator σ) :
    ∃ n ≤ s.machine.remaining, Returns finishCycleRound s n s.finishCycle := by
  refine exists_returns finishCycleRound (fun _ => True) finishCycle (fun s => s.machine.remaining)
    (fun s t _ h => ?_) (fun s t _ h => ?_) trivial
  · rw [finishCycleRound] at h
    split at h
    · rename_i hmicro
      cases h
      exact finishCycle_of_microStep_none hmicro
    · rename_i hmicro
      split at h
      · rename_i hend
        cases h
        rw [finishCycle_of_microStep hmicro, if_pos hend]
      · cases h
  · rw [finishCycleRound] at h
    split at h
    · cases h
    · rename_i hmicro
      split at h
      · cases h
      · rename_i hend
        cases h
        have hlt := remaining_microStep_lt hmicro (by simpa using hend)
        rw [finishCycle_of_microStep hmicro, if_neg hend]
        exact ⟨trivial, rfl, hlt⟩

/-- What a step comes to, with the number of its micro-steps. If the first one has an action other
than the end of a cycle, the loop comes after it. -/
inductive StepReturns (s : Simulator σ) : Nat → Bool × Simulator σ → Prop
  | stuck {t : Simulator σ} (h : s.microStep = (none, t)) : StepReturns s 1 (false, t)
  | ended {t : Simulator σ} {action : Action} (h : s.microStep = (some action, t))
      (hend : action.isStepEnd = true) : StepReturns s 1 (true, t)
  | finished {t u : Simulator σ} {action : Action} {n : Nat}
      (h : s.microStep = (some action, t)) (hend : action.isStepEnd = false)
      (hloop : Returns finishCycleRound t n u) : StepReturns s (n + 2) (true, u)

/-- A step returns in one way only. -/
theorem StepReturns.unique {n n' : Nat} {r r' : Bool × Simulator σ} (h : StepReturns s n r)
    (h' : StepReturns s n' r') : n' = n ∧ r' = r := by
  cases h with
  | stuck hmicro => cases h' <;> grind
  | ended hmicro hend => cases h' <;> grind
  | finished hmicro hend hloop =>
      cases h' with
      | finished hmicro' _ hloop' =>
          rw [hmicro] at hmicro'
          cases hmicro'
          obtain ⟨rfl, rfl⟩ := hloop.unique hloop'
          exact ⟨rfl, rfl⟩
      | _ => grind

/-- A step makes 36 micro-steps at most. -/
theorem stepReturns_step (s : Simulator σ) : ∃ n ≤ 36, StepReturns s n s.step := by
  rcases hmicro : s.microStep with ⟨_ | action, t⟩
  · rw [step_eq_false_iff.mpr hmicro]
    exact ⟨1, by omega, .stuck hmicro⟩
  · rw [step_of_microStep hmicro, finishCycle_of_microStep hmicro]
    cases hend : action.isStepEnd with
    | true => exact ⟨1, by omega, .ended hmicro hend⟩
    | false =>
        obtain ⟨n, hn, hloop⟩ := returns_finishCycle t
        have hlt := remaining_microStep_lt hmicro hend
        have hbound := s.machine.remaining_lt
        exact ⟨n + 2, by omega, .finished hmicro hend hloop⟩

/-! ## Runs -/

/-- A round of a run that looks at the simulator before each step. -/
def runRound (test : Simulator σ → Bool) (s : Simulator σ) :
    (RunStatus × Simulator σ) ⊕ Simulator σ :=
  if s.halted then .inl (.halted, s)
  else if !test s then .inl (.tripwire, s)
  else match s.step with
    | (false, t) => .inl (t.stuckStatus, t)
    | (true, t) => if !t.halted && t.atBreakpoint then .inl (.breakpoint, t) else .inr t

/-- Whether fewer instructions than the limit have been counted since the start, by a counter of
64 bits that wraps around. -/
def withinLimit (start limit : Nat) (s : Simulator σ) : Bool :=
  decide (UInt64.ofNat s.machine.count - UInt64.ofNat start < UInt64.ofNat limit)

variable {start limit bound : Nat}

omit [InputSource σ] in
/-- A counter that does not overflow makes no difference to the limit. -/
theorem withinLimit_eq_countBelow (hfits : start + limit < 2 ^ 64)
    (hstart : start ≤ s.machine.count) (hbound : s.machine.count ≤ start + limit) :
    withinLimit start limit s = countBelow (start + limit) s := by
  have htoNat (n : Nat) (hn : n < 2 ^ 64) : (UInt64.ofNat n).toNat = n :=
    UInt64.toNat_ofNat_of_lt' hn
  have hle : UInt64.ofNat start ≤ UInt64.ofNat s.machine.count := by
    rw [UInt64.le_iff_toNat_le, htoNat _ (by omega), htoNat _ (by omega)]
    exact hstart
  rw [withinLimit, countBelow, decide_eq_decide, UInt64.lt_iff_toNat_lt,
    UInt64.toNat_sub_of_le _ _ hle, htoNat _ (by omega), htoNat _ (by omega),
    htoNat _ (by omega)]
  omega

/-- A round of a run that goes on. -/
theorem runRound_eq_inr {test : Simulator σ → Bool} (h : runRound test s = .inr t) :
    s.halted = false ∧ test s = true ∧ s.step = (true, t) ∧
      (!t.halted && t.atBreakpoint) = false := by
  unfold runRound at h
  split at h
  · cases h
  · split at h
    · cases h
    · split at h
      · cases h
      · split at h
        · cases h
        · cases h
          simp_all

/-- A round that does not go on is the last round of a run. -/
theorem exists_runs_of_runRound {test : Simulator σ → Bool} {status : RunStatus}
    (h : runRound test s = .inl (status, t)) : ∃ ts, Runs test s ts status t := by
  unfold runRound at h
  split at h
  · rename_i hhalted
    cases h
    exact ⟨[], .halted hhalted⟩
  · rename_i hrun
    split at h
    · rename_i htest
      cases h
      exact ⟨[], .tripwire (by simpa using hrun) (by simpa using htest)⟩
    · rename_i htest
      split at h
      · rename_i hstep
        cases h
        exact ⟨[t], .stuck (by simpa using hrun) (by simpa using htest) hstep rfl⟩
      · rename_i hstep
        split at h
        · rename_i hbreak
          cases h
          exact ⟨[t], .breakpoint (by simpa using hrun) (by simpa using htest) hstep hbreak⟩
        · cases h

/-- Rounds whose tests agree on the simulator are the same. -/
theorem runRound_congr {test test' : Simulator σ → Bool} (h : test s = test' s) :
    runRound test s = runRound test' s := by
  rw [runRound, runRound, h]

/-- Between the start and the limit, a run below the bound that the limit leads to has the result of
the run with the instructions that are left. -/
theorem runWithLimit_eq_of_runs {ts : List (Simulator σ)} {status : RunStatus}
    (hbound : s.machine.count ≤ bound) (h : Runs (countBelow bound) s ts status t) :
    s.runWithLimit (bound - s.machine.count) = (status, t) := by
  rw [← Nat.add_sub_cancel' hbound] at h
  exact h.runWithLimit_eq

/-- The loop of a run with a limit returns, after as many rounds at most as its limit and the cycle
in progress leave. Its counter does not overflow. -/
theorem returns_runWithLimit (hfits : s.machine.count + limit < 2 ^ 64) :
    ∃ n ≤ 36 * limit + s.machine.remaining,
      Returns (runRound (withinLimit s.machine.count limit)) s n (s.runWithLimit limit) := by
  generalize hstart : s.machine.count = start at hfits
  -- the invariant keeps the count where the test is that of a counter without bound
  have hround {u : Simulator σ}
      (hinv : start ≤ u.machine.count ∧ u.machine.count ≤ start + limit) :
      runRound (withinLimit start limit) u = runRound (countBelow (start + limit)) u :=
    runRound_congr (withinLimit_eq_countBelow hfits hinv.1 hinv.2)
  have hloop := exists_returns (runRound (withinLimit start limit))
    (fun u => start ≤ u.machine.count ∧ u.machine.count ≤ start + limit)
    (fun u => u.runWithLimit (start + limit - u.machine.count))
    (fun u => 36 * (start + limit - u.machine.count) + u.machine.remaining)
    (fun u result hinv h => ?_) (fun u v hinv h => ?_) (a := s) (by omega)
  · rwa [hstart, Nat.add_sub_cancel_left] at hloop
  · obtain ⟨ts, hruns⟩ := exists_runs_of_runRound (hround hinv ▸ h)
    exact runWithLimit_eq_of_runs hinv.2 hruns
  · obtain ⟨hrun, htest, hstep, hgo⟩ := runRound_eq_inr (hround hinv ▸ h)
    have hlt : u.machine.count < start + limit := of_decide_eq_true htest
    have hcount := count_step_true hstep
    have hrest := runs_runWithLimit (start + limit - v.machine.count) v
    rw [Nat.add_sub_cancel' (by omega)] at hrest
    refine ⟨by omega, ?_, ?_⟩
    · exact (runWithLimit_eq_of_runs hinv.2 (.next hrun htest hstep hgo hrest)).symm
    · have hbound := v.machine.remaining_lt
      rcases count_step hstep with hcounted | ⟨hcounted, hnearer⟩ <;> omega

/-- Micro-steps, steps and runs with a limit return in one way, from every state of the machine,
with every set of breakpoints and whatever the input source answers. A micro-step carries out at
most one operation that records nothing, a step makes at most 36 micro-steps, and a run with a
limit goes on after at most 36 steps for each instruction of its limit and 35 for the cycle in
progress, without counting beyond the limit. -/
theorem loops_return (s : Simulator σ) :
    (∃ k ≤ 1, ∀ j result,
        Returns microStepRound s j result ↔ j = k ∧ result = s.microStep) ∧
      (∃ n ≤ 36, ∀ j result, StepReturns s j result ↔ j = n ∧ result = s.step) ∧
      ∀ limit, s.machine.count + limit < 2 ^ 64 →
        (∃ n ≤ 36 * limit + 35, ∀ j result,
            Returns (runRound (withinLimit s.machine.count limit)) s j result ↔
              j = n ∧ result = s.runWithLimit limit) ∧
          (s.runWithLimit limit).2.machine.count ≤ s.machine.count + limit := by
  refine ⟨?_, ?_, fun limit hfits => ⟨?_, ?_⟩⟩
  · obtain ⟨k, hk, hreturns⟩ := returns_microStep s
    exact ⟨k, hk, fun j result => hreturns.iff_eq⟩
  · obtain ⟨n, hn, hreturns⟩ := stepReturns_step s
    refine ⟨n, hn, fun j result => ⟨hreturns.unique, ?_⟩⟩
    rintro ⟨rfl, rfl⟩
    exact hreturns
  · obtain ⟨n, hn, hreturns⟩ := returns_runWithLimit hfits
    have hbound := s.machine.remaining_lt
    exact ⟨n, by omega, fun j result => hreturns.iff_eq⟩
  · exact (runs_runWithLimit limit s).count_le (Nat.le_add_right _ _)

/-- An input instruction that a poke has written, on a machine that was stopped and set going again,
with a source that is not ready at first. The run goes round twice for its one instruction: the
first step waits and counts nothing. -/
theorem loops_return_flaky_input :
    let s : Simulator Script :=
      (((new {} (.flaky [7])).reset.setMem 0 0x5000).setHalted true).setHalted false
    s.machine.count + 1 < 2 ^ 64 ∧
      (∃ n ≤ 36 * 1 + 35, ∀ j result,
        Returns (runRound (withinLimit s.machine.count 1)) s j result ↔
          j = n ∧ result = s.runWithLimit 1) ∧
      (s.runWithLimit 1).1 = .tripwire ∧ (s.runWithLimit 1).2.machine.regs.ac = 7 ∧
      (s.stepsWithLimit 1).map (fun t => t.machine.count) = [0, 1] := by
  intro s
  have hfits : s.machine.count + 1 < 2 ^ 64 := by decide
  refine ⟨hfits, ((loops_return s).2.2 1 hfits).1, ?_, ?_, ?_⟩
  all_goals decide +kernel

end Simulator

end Marie
