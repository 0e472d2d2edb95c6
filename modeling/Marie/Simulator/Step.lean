/-
# Steps

A micro-step is one transition of the machine, and a step goes on until the instruction cycle
is complete. Both stop early when the machine has halted or its input source is not ready; a
later one takes up where they stopped.

* `remaining_microStep_lt` : every micro-step brings the end of the cycle nearer, which is why
  a step comes to an end.
* `count_step` : a step with progress counts one instruction, or at least brings the end of the
  cycle nearer.
-/
import Marie.Simulator.Basic

namespace Marie.Simulator

variable {σ : Type} [InputSource σ]

/-- One transition of the machine with its action, or no action if the machine has halted or
the input source is not ready. -/
def microStep (s : Simulator σ) : Option Action × Simulator σ :=
  if s.machine.halted then (none, s)
  else
    let m := s.machine.settle
    match m.interrupt with
    | .needsValue =>
      match InputSource.poll s.input with
      | (none, input) => (none, { s with machine := m, input })
      | (some n, input) =>
        let (action, m') := m.receive n
        (some action, { s with input }.commit m.microPC .needsValue action m')
    | .needsLoad =>
      let (action, m') := m.takeInput
      (some action, s.commit m.microPC .needsLoad action m')
    | .idle =>
      match m.perform with
      | (some action, m') => (some action, s.commit m.microPC .idle action m')
      | (none, m') => (none, { s with machine := m' })

/-- A micro-step with an action brings the end of the cycle nearer, unless it is that end. -/
theorem remaining_microStep_lt {s s' : Simulator σ} {action : Action}
    (h : s.microStep = (some action, s')) (hend : action.isStepEnd = false) :
    s'.machine.remaining < s.machine.remaining := by
  have hle := s.machine.remaining_settle_le
  unfold microStep at h
  split at h
  · simp at h
  · simp only at h
    split at h
    · rename_i hwait
      split at h
      · simp at h
      · simp only [Prod.mk.injEq] at h
        rw [← h.2, machine_commit]
        exact Nat.lt_of_lt_of_le (Machine.remaining_receive_lt hwait _) hle
    · rename_i hload
      simp only [Prod.mk.injEq] at h
      rw [← h.2, machine_commit]
      exact Nat.lt_of_lt_of_le (Machine.remaining_takeInput_lt hload) hle
    · rename_i hidle
      split at h
      · rename_i action' m' hperform
        simp only [Prod.mk.injEq, Option.some.injEq] at h
        rw [← h.2, machine_commit]
        rw [← h.1] at hend
        exact Nat.lt_of_lt_of_le (Machine.remaining_perform_lt hidle hperform hend) hle
      · simp at h

/-- A micro-step counts an instruction exactly if it ends the cycle. -/
theorem count_microStep {s s' : Simulator σ} {action : Action}
    (h : s.microStep = (some action, s')) :
    s'.machine.count =
      if action.isStepEnd then s.machine.count + 1 else s.machine.count := by
  unfold microStep at h
  split at h
  · simp at h
  · simp only at h
    split at h
    · split at h
      · simp at h
      · simp only [Prod.mk.injEq, Option.some.injEq] at h
        rw [← h.2, machine_commit, ← h.1]
        exact s.machine.settle_count
    · simp only [Prod.mk.injEq, Option.some.injEq] at h
      rw [← h.2, machine_commit, ← h.1]
      exact s.machine.settle_count
    · split at h
      · rename_i action' m' hperform
        simp only [Prod.mk.injEq, Option.some.injEq] at h
        rw [← h.2, machine_commit, ← h.1, Machine.perform_count hperform,
          Machine.settle_count]
      · simp at h

/-- A micro-step without an action counts nothing and does not lengthen the cycle. -/
theorem microStep_none {s s' : Simulator σ} (h : s.microStep = (none, s')) :
    s'.machine.count = s.machine.count ∧ s'.machine.remaining ≤ s.machine.remaining := by
  have hle := s.machine.remaining_settle_le
  have hcount := s.machine.settle_count
  unfold microStep at h
  split at h
  · simp only [Prod.mk.injEq, true_and] at h
    subst h
    exact ⟨rfl, Nat.le_refl _⟩
  · simp only at h
    split at h
    · split at h
      · simp only [Prod.mk.injEq, true_and] at h
        subst h
        exact ⟨hcount, hle⟩
      · simp at h
    · simp at h
    · rename_i hidle
      split at h
      · simp at h
      · rename_i m' hperform
        exfalso
        unfold Machine.perform at hperform
        split at hperform
        · simp at hperform
        · rename_i op hop
          have hsome := s.machine.settle.isSome_execute op
          simp only [Prod.mk.injEq] at hperform
          rw [hperform.1, Machine.isSilent_settle hidle hop] at hsome
          simp at hsome

/-- Makes micro-steps until the cycle is complete or no more progress is made. -/
def finishCycle (s : Simulator σ) : Simulator σ :=
  match _h : s.microStep with
  | (none, s') => s'
  | (some action, s') => if _hend : action.isStepEnd then s' else finishCycle s'
termination_by s.machine.remaining
decreasing_by exact remaining_microStep_lt _h (by simpa using _hend)

/-- Makes micro-steps until the instruction in progress is complete, and tells whether there was
any progress. -/
def step (s : Simulator σ) : Bool × Simulator σ :=
  match s.microStep with
  | (none, s') => (false, s')
  | (some action, s') => if action.isStepEnd then (true, s') else (true, finishCycle s')

/-- Finishing a cycle either counts one instruction, or counts none and does not lengthen the
cycle. -/
theorem count_finishCycle (s : Simulator σ) :
    s.finishCycle.machine.count = s.machine.count + 1 ∨
      s.finishCycle.machine.count = s.machine.count ∧
        s.finishCycle.machine.remaining ≤ s.machine.remaining := by
  fun_induction finishCycle s with
  | case1 s s' h =>
    obtain ⟨hcount, hle⟩ := microStep_none h
    exact .inr ⟨hcount, hle⟩
  | case2 s action s' h hend =>
    have hcount := count_microStep h
    rw [if_pos hend] at hcount
    exact .inl hcount
  | case3 s action s' h hend ih =>
    have hcount := count_microStep h
    rw [if_neg hend] at hcount
    have hlt := remaining_microStep_lt h (by simpa using hend)
    rw [hcount] at ih
    rcases ih with ih | ⟨ih, hle⟩
    · exact .inl ih
    · exact .inr ⟨ih, by omega⟩

/-- A step with progress either counts one instruction, or counts none and brings the end of
the cycle nearer. -/
theorem count_step {s s' : Simulator σ} (h : s.step = (true, s')) :
    s'.machine.count = s.machine.count + 1 ∨
      s'.machine.count = s.machine.count ∧ s'.machine.remaining < s.machine.remaining := by
  unfold step at h
  split at h
  · simp at h
  · rename_i action t hmicro
    have hcount := count_microStep hmicro
    split at h
    · rename_i hend
      rw [if_pos hend] at hcount
      simp only [Prod.mk.injEq, true_and] at h
      exact .inl (h ▸ hcount)
    · rename_i hend
      rw [if_neg hend] at hcount
      have hlt := remaining_microStep_lt hmicro (by simpa using hend)
      simp only [Prod.mk.injEq, true_and] at h
      have hfinish := count_finishCycle t
      rw [h, hcount] at hfinish
      rcases hfinish with hfinish | ⟨hfinish, hle⟩
      · exact .inl hfinish
      · exact .inr ⟨hfinish, by omega⟩

end Marie.Simulator
