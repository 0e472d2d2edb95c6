/-
# Steps carry out instructions

A step from between two instructions carries out one instruction, as the instruction set has it.
A step makes micro-steps for as long as they go on within the cycle, so it follows a whole cycle
of the machine, provided that the input source is ready when it is asked. If it is not, the
step stops at the machine that waits, and the next step with a source that is ready goes on from
there.

* `Simulator.step_of_cycle` : a step follows a cycle;
* `Simulator.step_refines` : a step refines the instruction set.
-/
import Marie.Proofs.Instruction

namespace Marie.Simulator

variable {σ : Type}

/-! ## Following a trace -/

/-- Puts the machine after a row of transitions into the simulator, and records the transitions
if logging is on. -/
def commitTrace (s : Simulator σ) (es : List LogEntry) (machine : Machine) : Simulator σ :=
  if s.flags.enableLog then { s with machine, log := .ofEntries (s.log.entries ++ es) }
  else { s with machine }

@[simp]
theorem machine_commitTrace (s : Simulator σ) (es : List LogEntry) (machine : Machine) :
    (s.commitTrace es machine).machine = machine := by
  unfold commitTrace
  split <;> rfl

@[simp]
theorem input_commitTrace (s : Simulator σ) (es : List LogEntry) (machine : Machine) :
    (s.commitTrace es machine).input = s.input := by
  unfold commitTrace
  split <;> rfl

theorem commitTrace_nil (s : Simulator σ) : s.commitTrace [] s.machine = s := by
  unfold commitTrace
  split
  · rw [List.append_nil, Log.ofEntries_entries]
  · rfl

theorem commitTrace_commitTrace (s : Simulator σ) (es fs : List LogEntry) (m m' : Machine) :
    (s.commitTrace es m).commitTrace fs m' = s.commitTrace (es ++ fs) m' := by
  unfold commitTrace
  by_cases hlog : s.flags.enableLog = true
  · simp [hlog, List.append_assoc]
  · simp [hlog]

theorem commitEntry_eq_commitTrace (s : Simulator σ) (e : LogEntry) (m : Machine) :
    s.commitEntry e m = s.commitTrace [e] m := by
  unfold commitEntry commit commitTrace
  split
  · simp [Log.ofEntries, Log.entries, Log.push]
  · rfl

/-- Replacing the input after a row of transitions. -/
theorem commitTrace_input (s : Simulator σ) (es : List LogEntry) (m : Machine) (input : σ) :
    { s.commitTrace es m with input } = { s with input }.commitTrace es m := by
  unfold commitTrace
  split <;> rfl

/-- Replacing the machine and the input after a row of transitions. -/
theorem commitTrace_update (s : Simulator σ) (es : List LogEntry) (m m' : Machine) (input : σ) :
    { s.commitTrace es m with machine := m', input } =
      { s with input }.commitTrace es m' := by
  unfold commitTrace
  split <;> rfl

variable [InputSource σ]

/-- The source gives the numbers one after the other without being asked in vain. -/
inductive Delivers : σ → List Int → σ → Prop
  | nil (input : σ) : Delivers input [] input
  | cons {input input₁ input' : σ} {n : Int} {numbers : List Int}
      (hpoll : InputSource.poll input = (some n, input₁)) (h : Delivers input₁ numbers input') :
      Delivers input (n :: numbers) input'

/-- A transition of the machine that takes no number is a micro-step. -/
theorem microStep_of_advance {s : Simulator σ} {e : LogEntry} {m' : Machine}
    (hadv : s.machine.Advance none e m') : s.microStep = (some e.action, s.commitEntry e m') := by
  have hcases := microStep_cases s
  generalize s.microStep = result at hcases
  cases hcases with
  | halted hhalt =>
      rw [hadv.running] at hhalt
      cases hhalt
  | notReady _ _ hwait _ =>
      have hsome := hadv.isSome_iff.mpr hwait
      cases hsome
  | advance hadv' =>
      obtain ⟨rfl, rfl⟩ := hadv.deterministic hadv'
      rfl
  | receive _ hadv' =>
      have hsome := hadv.isSome_iff.mpr (hadv'.isSome_iff.mp rfl)
      cases hsome

/-- A transition that takes a number is a micro-step, if the source has the number. -/
theorem microStep_of_receive {s : Simulator σ} {n : Int} {input : σ} {e : LogEntry}
    {m' : Machine} (hpoll : InputSource.poll s.input = (some n, input))
    (hadv : s.machine.Advance (some n) e m') :
    s.microStep = (some e.action, { s with input }.commitEntry e m') := by
  have hcases := microStep_cases s
  generalize s.microStep = result at hcases
  cases hcases with
  | halted hhalt =>
      rw [hadv.running] at hhalt
      cases hhalt
  | notReady _ _ _ hpoll' =>
      rw [hpoll] at hpoll'
      cases hpoll'
  | advance hadv' =>
      have hsome := hadv'.isSome_iff.mpr (hadv.isSome_iff.mp rfl)
      cases hsome
  | receive hpoll' hadv' =>
      rw [hpoll] at hpoll'
      cases hpoll'
      obtain ⟨rfl, rfl⟩ := hadv.deterministic hadv'
      rfl

/-- Finishing the cycle stops after a micro-step that ends it, and otherwise goes on. -/
theorem finishCycle_of_microStep {s s' : Simulator σ} {action : Action}
    (h : s.microStep = (some action, s')) :
    s.finishCycle = if action.isStepEnd then s' else s'.finishCycle := by
  rw [finishCycle]
  split
  · rename_i h'
    rw [h] at h'
    cases h'
  · rename_i h'
    rw [h] at h'
    cases h'
    split <;> rfl

/-- Finishing the cycle stops where there is no action. -/
theorem finishCycle_of_microStep_none {s s' : Simulator σ} (h : s.microStep = (none, s')) :
    s.finishCycle = s' := by
  rw [finishCycle]
  split
  · rename_i h'
    rw [h] at h'
    cases h'
    rfl
  · rename_i h'
    rw [h] at h'
    cases h'

/-- A step with progress finishes the cycle. -/
theorem step_of_microStep {s s' : Simulator σ} {action : Action}
    (h : s.microStep = (some action, s')) : s.step = (true, s.finishCycle) := by
  rw [step, h, finishCycle_of_microStep h]
  simp only
  split <;> rfl

/-- A step makes progress exactly if its first micro-step has an action. -/
theorem fst_step (s : Simulator σ) : s.step.1 = s.microStep.1.isSome := by
  rw [step]
  split
  · rename_i h
    rw [h]
    rfl
  · rename_i h
    rw [h]
    split <;> rfl

/-- A step without progress is a micro-step without an action. -/
theorem step_eq_false_iff {s t : Simulator σ} :
    s.step = (false, t) ↔ s.microStep = (none, t) := by
  constructor
  · intro h
    have hnone : s.microStep.1.isSome = false := by rw [← fst_step, h]
    rcases hmicro : s.microStep with ⟨_ | action, t'⟩
    · rw [step, hmicro] at h
      cases h
      rfl
    · rw [hmicro] at hnone
      cases hnone
  · intro h
    rw [step, h]

/-- The first transition of a trace is a micro-step, after which the rest of the trace is
left. -/
theorem exists_microStep_of_trace {s : Simulator σ} {v : Option Int} {e : LogEntry}
    {m₁ : Machine} {numbers : List Int} {input' : σ} (hadv : s.machine.Advance v e m₁)
    (hinput : Delivers s.input (v.toList ++ numbers) input') :
    ∃ input₁, s.microStep = (some e.action, { s with input := input₁ }.commitTrace [e] m₁) ∧
      Delivers input₁ numbers input' := by
  cases v with
  | none =>
      refine ⟨s.input, ?_, hinput⟩
      rw [microStep_of_advance hadv, commitEntry_eq_commitTrace]
  | some n =>
      cases hinput with
      | cons hpoll hrest =>
          refine ⟨_, ?_, hrest⟩
          rw [microStep_of_receive hpoll hadv, commitEntry_eq_commitTrace]

/-- Finishing the cycle follows a trace within it. -/
theorem finishCycle_of_trace {s : Simulator σ} {m m' : Machine} {numbers : List Int}
    {es : List LogEntry} {input' : σ} (htrace : m.Trace numbers es m') (hm : s.machine = m)
    (hinput : Delivers s.input numbers input')
    (hwithin : ∀ e ∈ es, e.action.isStepEnd = false) :
    s.finishCycle = ({ s with input := input' }.commitTrace es m').finishCycle := by
  -- induction on the trace, for every simulator that stands at its beginning
  induction htrace generalizing s with
  | nil m =>
      cases hinput
      rw [← hm, commitTrace_nil]
  | @cons m m₁ m' v e numbers es hadv htrace ih =>
      rw [← hm] at hadv
      obtain ⟨input₁, hmicro, hrest⟩ := exists_microStep_of_trace hadv hinput
      have hend := hwithin e List.mem_cons_self
      rw [finishCycle_of_microStep hmicro, if_neg (by simp [hend])]
      have hrest' : Delivers ({ s with input := input₁ }.commitTrace [e] m₁).input numbers
          input' := by
        rw [input_commitTrace]
        exact hrest
      have hfinish := ih (machine_commitTrace _ _ _) hrest'
        fun e' he' => hwithin e' (List.mem_cons_of_mem e he')
      rw [hfinish, commitTrace_input, commitTrace_commitTrace]
      rfl

/-- Finishing the cycle follows it to its end, or to where the machine halts. -/
theorem finishCycle_of_cycle {s : Simulator σ} {m' : Machine} {numbers : List Int}
    {es : List LogEntry} {input' : σ} (hcycle : s.machine.Cycle numbers es m')
    (hinput : Delivers s.input numbers input') :
    s.finishCycle = { s with input := input' }.commitTrace es m' := by
  cases hcycle with
  | halts htrace hwithin hhalt =>
      rw [finishCycle_of_trace htrace rfl hinput hwithin]
      apply finishCycle_of_microStep_none
      rw [microStep, machine_commitTrace, if_pos hhalt]
  | @ends es m₁ _ e htrace hwithin hadv hend =>
      rw [finishCycle_of_trace htrace rfl hinput hwithin]
      have hmicro := microStep_of_advance
        (s := { s with input := input' }.commitTrace es m₁)
        (by rw [machine_commitTrace]; exact hadv)
      rw [finishCycle_of_microStep hmicro, if_pos hend, commitEntry_eq_commitTrace,
        commitTrace_commitTrace]

/-- A step follows the cycle of a running machine, if the source has the numbers. -/
theorem step_of_cycle {s : Simulator σ} {m' : Machine} {numbers : List Int}
    {es : List LogEntry} {input' : σ} (hrun : s.machine.halted = false)
    (hcycle : s.machine.Cycle numbers es m') (hinput : Delivers s.input numbers input') :
    s.step = (true, { s with input := input' }.commitTrace es m') := by
  -- the first micro-step of a step is not one of the loop, so it has to be shown to succeed
  have hstart : ∃ action s', s.microStep = (some action, s') := by
    cases hcycle with
    | halts htrace _ hhalt =>
        cases htrace with
        | nil =>
            rw [hrun] at hhalt
            cases hhalt
        | cons hadv _ =>
            obtain ⟨_, hmicro, -⟩ := exists_microStep_of_trace hadv hinput
            exact ⟨_, _, hmicro⟩
    | ends htrace _ hadv _ =>
        cases htrace with
        | nil => exact ⟨_, _, microStep_of_advance hadv⟩
        | cons hadv' _ =>
            obtain ⟨_, hmicro, -⟩ := exists_microStep_of_trace hadv' hinput
            exact ⟨_, _, hmicro⟩
  obtain ⟨action, s', hmicro⟩ := hstart
  rw [step_of_microStep hmicro, finishCycle_of_cycle hcycle hinput]

/-! ## Waiting -/

/-- When the machine waits and the source is not ready, a micro-step only settles it. -/
theorem microStep_of_notReady {s : Simulator σ} {input : σ} (hrun : s.machine.halted = false)
    (hwait : s.machine.settle.interrupt = .needsValue)
    (hpoll : InputSource.poll s.input = (none, input)) :
    s.microStep = (none, { s with machine := s.machine.settle, input }) := by
  rw [microStep, if_neg (by simp [hrun])]
  simp only [hwait, hpoll]

/-- A step from between two instructions makes progress. -/
theorem step_of_starts {s : Simulator σ} (h : s.machine.Starts) :
    s.step = (true, s.finishCycle) := by
  have hidle : s.machine.settle.interrupt = .idle := by
    rw [Machine.settle_of_microPC_eq_zero h.microPC]
    exact h.idle
  obtain ⟨action, m', hperform⟩ := Machine.exists_perform_settle hidle
  exact step_of_microStep (microStep_of_advance (.perform h.running hidle hperform))

/-- A step that starts an input instruction with a source that is not ready stops where the
machine waits. -/
theorem step_of_notReady {s : Simulator σ} {es : List LogEntry} {input : σ}
    (h : s.machine.Starts) (htrace : s.machine.Trace [] es (s.machine.decodedAs .input))
    (hwithin : ∀ e ∈ es, e.action.isStepEnd = false)
    (hpoll : InputSource.poll s.input = (none, input)) :
    s.step = (true, { s with input }.commitTrace es s.machine.waiting) := by
  rw [step_of_starts h, finishCycle_of_trace htrace rfl (.nil s.input) hwithin]
  have hmachine := machine_commitTrace s es (s.machine.decodedAs .input)
  have hpoll' : InputSource.poll (s.commitTrace es (s.machine.decodedAs .input)).input =
      (none, input) := by
    rw [input_commitTrace]
    exact hpoll
  have hmicro := microStep_of_notReady (by rw [hmachine]; exact h.running)
    (by rw [hmachine]; rfl) hpoll'
  rw [finishCycle_of_microStep_none hmicro, commitTrace_update, hmachine,
    Machine.settle_decodedAs_input]

/-- A step from the machine that waits, with a source that is not ready, does nothing. -/
theorem step_of_waiting {s : Simulator σ} {m : Machine} {input : σ} (h : m.Starts)
    (hm : s.machine = m.waiting) (hpoll : InputSource.poll s.input = (none, input)) :
    s.step = (false, { s with input }) := by
  have hmicro := microStep_of_notReady (by rw [hm]; exact h.running) (by rw [hm]; rfl) hpoll
  rw [step, hmicro, hm, Machine.settle_waiting, ← hm]

/-! ## The instruction set -/

/-- A step refines the instruction set. From between two instructions, a step carries out the
instruction at PC; if that is an input instruction, with the number that the input source gives.
If the source is not ready, the step goes on to a machine that waits, where only PC has changed;
there a step does nothing for as long as the source is not ready, and with the first number
that the source gives, it carries out the rest of the instruction. -/
theorem step_refines (s : Simulator σ) (h : s.machine.Starts) :
    (s.machine.visible.code ≠ 5 →
      ∃ es m', s.machine.CarriesOut [] es m' ∧ s.step = (true, s.commitTrace es m')) ∧
    (s.machine.visible.code = 5 →
      (∀ n input, InputSource.poll s.input = (some n, input) →
        ∃ es m', s.machine.CarriesOut [n] es m' ∧
          s.step = (true, { s with input }.commitTrace es m')) ∧
      (∀ input, InputSource.poll s.input = (none, input) →
        ∃ es w, w.visible = s.machine.visible.advance ∧ w.interrupt = .needsValue ∧
          s.step = (true, { s with input }.commitTrace es w) ∧
          ∀ t : Simulator σ, t.machine = w →
            (∀ input, InputSource.poll t.input = (none, input) →
              t.step = (false, { t with input })) ∧
            (∀ n input, InputSource.poll t.input = (some n, input) →
              ∃ es' m', s.machine.CarriesOut [n] (es ++ es') m' ∧
                t.step = (true, { t with input }.commitTrace es' m')))) := by
  refine ⟨?_, fun hcode => ?_⟩
  · intro hcode
    obtain ⟨es, m', hcarries⟩ := Machine.exists_carriesOut h hcode
    exact ⟨es, m', hcarries, step_of_cycle h.running hcarries.cycle (.nil s.input)⟩
  · obtain ⟨es, htrace, hwithin, hanswer⟩ := Machine.exists_carriesOut_input h hcode
    refine ⟨?_, ?_⟩
    · intro n input hpoll
      obtain ⟨es', m', -, hcarries⟩ := hanswer n
      have hinput : Delivers s.input [n] input := .cons hpoll (.nil input)
      exact ⟨es ++ es', m', hcarries, step_of_cycle h.running hcarries.cycle hinput⟩
    · intro input hpoll
      refine ⟨es, s.machine.waiting, rfl, rfl, step_of_notReady h htrace hwithin hpoll, ?_⟩
      -- the later steps may be those of any simulator that has the waiting machine
      intro t ht
      refine ⟨fun input' hpoll' => step_of_waiting h ht hpoll', ?_⟩
      intro n input' hpoll'
      obtain ⟨es', m', hcycle, hcarries⟩ := hanswer n
      have hinput : Delivers t.input [n] input' := .cons hpoll' (.nil input')
      rw [← ht] at hcycle
      have hrun : t.machine.halted = false := by
        rw [ht]
        exact h.running
      exact ⟨es', m', hcarries, step_of_cycle hrun hcycle hinput⟩

/-- An input instruction at address 0 with a source that is not ready at first: the first step
leaves AC alone, and the second one reads the number. -/
theorem step_refines_flaky_input :
    let s : Simulator Script :=
      { machine := { memory := Memory.zero.set 0 0x5000 }, input := .flaky [-1] }
    s.machine.Starts ∧ s.step.2.machine.visible.ac = 0 ∧
      s.step.2.step.2.machine.visible.ac = 0xFFFF := by
  intro s
  have hstarts : s.machine.Starts := ⟨rfl, rfl, rfl⟩
  have hword : s.machine.visible.instruction = 0x5000 := by
    show (Memory.zero.set 0 0x5000).get 0 = 0x5000
    rw [Memory.get_set, if_pos rfl]
  have hcode : s.machine.visible.code = 5 := by
    rw [Visible.code, hword]
    rfl
  obtain ⟨es, w, hw, -, hstep, hresume⟩ :=
    ((step_refines s hstarts).2 hcode).2 ⟨s.input.answer, 1⟩ rfl
  have hmachine : s.step.2.machine = w := by
    rw [hstep]
    exact machine_commitTrace _ _ _
  have hpoll : InputSource.poll s.step.2.input = (some (-1), ⟨s.input.answer, 2⟩) := by
    rw [hstep]
    show InputSource.poll (commitTrace _ _ _).input = _
    rw [input_commitTrace]
    simp [s, InputSource.poll, Script.flaky]
  obtain ⟨es', m', hcarries, hstep'⟩ := (hresume s.step.2 hmachine).2 _ _ hpoll
  refine ⟨hstarts, ?_, ?_⟩
  · rw [hmachine, hw]
    rfl
  · rw [hstep']
    show (commitTrace _ _ _).machine.visible.ac = _
    rw [machine_commitTrace, hcarries.visible, Visible.next, hcode]
    rfl

end Marie.Simulator
