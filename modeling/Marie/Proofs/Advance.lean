/-
# Recorded transitions

A micro-step changes the machine in two ways. It may settle the machine, which no log entry
shows, and then it may make one transition, which is an entry of the log. `Machine.Advance` is
the relation between the machine before such a transition, the number that it takes from the
input source, its entry, and the machine after it.

* `Machine.Advance.deterministic` : the machine and the number fix the entry and the machine
  after it;
* `Simulator.microStep_cases` : what a micro-step does, said once for all later proofs.
-/
import Marie.Proofs.Settling
import Marie.Simulator.Step

namespace Marie

namespace Machine

/-! ## Performing -/

/-- A settled machine whose control is not waiting for input has a transition with an action. -/
theorem exists_perform_settle {m : Machine} (hidle : m.settle.interrupt = .idle) :
    ∃ action m', m.settle.perform = (some action, m') := by
  unfold perform
  split
  · exact ⟨_, _, rfl⟩
  · rename_i op hop
    have hsome := m.settle.isSome_execute op
    rw [isSilent_settle hidle hop] at hsome
    obtain ⟨action, haction⟩ := Option.isSome_iff_exists.mp hsome
    exact ⟨action, _, by rw [← haction]⟩

/-- A transition that performs is the end of the cycle or a micro-operation. -/
theorem perform_cases {m m' : Machine} {action : Action} (h : m.perform = (some action, m')) :
    (m.nextOp? = none ∧ action = .stepEnd ∧ m' = { m with microPC := 0, count := m.count + 1 }) ∨
      ∃ op m₁, m.nextOp? = some op ∧ m.execute op = (some action, m₁) ∧
        m' = m₁.moveTo (m.microPC + 1) m₁.interrupt := by
  unfold perform at h
  split at h
  · rename_i hnone
    cases h
    exact .inl ⟨hnone, rfl, rfl⟩
  · rename_i op hop
    rw [Prod.mk.injEq] at h
    obtain ⟨haction, rfl⟩ := h
    exact .inr ⟨op, (m.execute op).2, hop, Prod.ext haction rfl, rfl⟩

/-! ## Transitions -/

/-- A transition with its log entry, from the settled form of a running machine. The number is
the one that the transition takes from the input source, if it takes one. -/
inductive Advance (m : Machine) : Option Int → LogEntry → Machine → Prop
  /-- The next micro-operation, or the end of the cycle. -/
  | perform {action : Action} {m' : Machine} (hrun : m.halted = false)
      (hidle : m.settle.interrupt = .idle) (hperform : m.settle.perform = (some action, m')) :
      Advance m none ⟨action, m.settle.microPC, .idle⟩ m'
  /-- A value goes from IN to AC. -/
  | takeInput (hrun : m.halted = false) (hload : m.settle.interrupt = .needsLoad) :
      Advance m none ⟨m.settle.takeInput.1, m.settle.microPC, .needsLoad⟩ m.settle.takeInput.2
  /-- A number arrives in IN. -/
  | receive (n : Int) (hrun : m.halted = false) (hwait : m.settle.interrupt = .needsValue) :
      Advance m (some n) ⟨(m.settle.receive n).1, m.settle.microPC, .needsValue⟩
        (m.settle.receive n).2

namespace Advance

variable {m m' m₁ m₂ : Machine} {v v₁ v₂ : Option Int} {e e₁ e₂ : LogEntry}

/-- Only a running machine makes a transition. -/
theorem running (h : Advance m v e m') : m.halted = false := by
  cases h <;> assumption

/-- Whether a transition takes a number depends on the machine alone. -/
theorem isSome_iff (h : Advance m v e m') :
    v.isSome = true ↔ m.settle.interrupt = .needsValue := by
  cases h with
  | perform _ hidle _ => simp [hidle]
  | takeInput _ hload => simp [hload]
  | receive n _ hwait => simp [hwait]

/-- The machine and the number fix the entry and the machine after the transition. -/
theorem deterministic (h₁ : Advance m v e₁ m₁) (h₂ : Advance m v e₂ m₂) :
    e₁ = e₂ ∧ m₁ = m₂ := by
  cases h₁ with
  | perform _ hidle hperform =>
      cases h₂ with
      | perform _ _ hperform' =>
          rw [hperform, Prod.mk.injEq, Option.some.injEq] at hperform'
          obtain ⟨rfl, rfl⟩ := hperform'
          exact ⟨rfl, rfl⟩
      | takeInput _ hload => simp [hidle] at hload
  | takeInput _ hload =>
      cases h₂ with
      | perform _ hidle _ => simp [hload] at hidle
      | takeInput _ _ => exact ⟨rfl, rfl⟩
  | receive n _ _ =>
      cases h₂ with
      | receive _ _ _ => exact ⟨rfl, rfl⟩

/-- Settling first makes no difference to a transition. -/
theorem settle_iff : Advance m.settle v e m' ↔ Advance m v e m' := by
  constructor
  -- every kind of transition starts from the settled machine, and settling twice is settling
  · intro h
    cases h with
    | perform hrun hidle hperform =>
        rw [settle_settle] at hidle hperform ⊢
        exact .perform (by simpa using hrun) hidle hperform
    | takeInput hrun hload =>
        rw [settle_settle] at hload ⊢
        exact .takeInput (by simpa using hrun) hload
    | receive n hrun hwait =>
        rw [settle_settle] at hwait ⊢
        exact .receive n (by simpa using hrun) hwait
  · intro h
    cases h with
    | perform hrun hidle hperform =>
        have h' := Advance.perform (m := m.settle) (by simpa using hrun)
          (by simpa using hidle) (by simpa using hperform)
        simpa using h'
    | takeInput hrun hload =>
        have h' := Advance.takeInput (m := m.settle) (by simpa using hrun) (by simpa using hload)
        simpa using h'
    | receive n hrun hwait =>
        have h' := Advance.receive (m := m.settle) n (by simpa using hrun) (by simpa using hwait)
        simpa using h'

end Advance

end Machine

namespace Simulator

variable {σ : Type}

/-- Committing an action while logging is on. -/
theorem commit_of_enableLog {s : Simulator σ} (h : s.flags.enableLog = true) (microPC : Nat)
    (interrupt : Interrupt) (action : Action) (machine : Machine) :
    s.commit microPC interrupt action machine =
      { s with machine, log := s.log.push ⟨action, microPC, interrupt⟩ } :=
  if_pos h

/-- Puts the machine after a recorded transition into the simulator. -/
def commitEntry (s : Simulator σ) (entry : LogEntry) (machine : Machine) : Simulator σ :=
  s.commit entry.microPC entry.interrupt entry.action machine

/-- Taking a transition over into the simulator while logging is on. -/
theorem commitEntry_of_enableLog {s : Simulator σ} (h : s.flags.enableLog = true)
    (entry : LogEntry) (machine : Machine) :
    s.commitEntry entry machine = { s with machine, log := s.log.push entry } :=
  commit_of_enableLog h _ _ _ _

variable [InputSource σ]

/-- What one micro-step may do. -/
inductive MicroStep (s : Simulator σ) : Option Action × Simulator σ → Prop
  /-- The machine has halted, and nothing happens. -/
  | halted (hhalt : s.machine.halted = true) : MicroStep s (none, s)
  /-- The machine waits, and the input source is not ready. -/
  | notReady (input : σ) (hrun : s.machine.halted = false)
      (hwait : s.machine.settle.interrupt = .needsValue)
      (hpoll : InputSource.poll s.input = (none, input)) :
      MicroStep s (none, { s with machine := s.machine.settle, input })
  /-- A transition that asks for no number. -/
  | advance {entry : LogEntry} {m' : Machine} (hadv : s.machine.Advance none entry m') :
      MicroStep s (some entry.action, s.commitEntry entry m')
  /-- A transition with a number from the input source. -/
  | receive {n : Int} {input : σ} {entry : LogEntry} {m' : Machine}
      (hpoll : InputSource.poll s.input = (some n, input))
      (hadv : s.machine.Advance (some n) entry m') :
      MicroStep s (some entry.action, { s with input }.commitEntry entry m')

/-- What a micro-step does is one of the four possibilities. -/
theorem microStep_cases (s : Simulator σ) : MicroStep s s.microStep := by
  unfold microStep
  split
  · rename_i hhalt
    exact .halted hhalt
  · rename_i hhalt
    have hrun : s.machine.halted = false := by simpa using hhalt
    simp only
    split
    · rename_i hwait
      split
      · rename_i input hpoll
        exact .notReady input hrun hwait hpoll
      · rename_i n input hpoll
        have h := MicroStep.receive hpoll (.receive n hrun hwait)
        exact h
    · rename_i hload
      exact .advance (.takeInput hrun hload)
    · rename_i hidle
      obtain ⟨action, m', hperform⟩ := Machine.exists_perform_settle hidle
      rw [hperform]
      exact .advance (.perform hrun hidle hperform)

/-- A micro-step is its answer and the simulator after it. -/
theorem microStep_eq {s : Simulator σ} {action : Action} (h : s.microStep.1 = some action) :
    s.microStep = (some action, s.microStep.2) :=
  Prod.ext h rfl

/-- A micro-step with an action, while the log is on, makes one transition and records it. -/
theorem exists_advance_of_microStep {s t : Simulator σ} {action : Action}
    (hlog : s.flags.enableLog = true) (h : s.microStep = (some action, t)) :
    ∃ v e, s.machine.Advance v e t.machine ∧ e.action = action ∧ t.log = s.log.push e ∧
      t.flags = s.flags := by
  have hcases := s.microStep_cases
  rw [h] at hcases
  cases hcases with
  | @advance e m' hadv =>
      rw [commitEntry_of_enableLog hlog]
      exact ⟨_, e, hadv, rfl, rfl, rfl⟩
  | @receive n input e m' _ hadv =>
      rw [commitEntry_of_enableLog (s := { s with input }) hlog]
      exact ⟨_, e, hadv, rfl, rfl, rfl⟩

end Simulator

end Marie
