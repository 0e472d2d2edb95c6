/-
# Questions to the input source

Which questions a simulator puts to its input source shows in no log. To speak of them the source
is made to keep a record of its answers, which changes neither the answers nor anything else.

* `InputSource.SameAnswers` : two sources give the same answer to every question;
* `Asked` : a source with the record of its answers;
* `Simulator.answersTo_microStep` : a micro-step asks once if the machine waits for a value, and
  otherwise not at all.
-/
import Marie.Proofs.Slicing

namespace Marie

namespace InputSource

variable {σ ρ : Type} [InputSource σ] [InputSource ρ]

/-- A relation between sources that give the same answer, and stay related after it. -/
def AnswersAlike (related : σ → ρ → Prop) : Prop :=
  ∀ source other, related source other →
    (poll source).1 = (poll other).1 ∧ related (poll source).2 (poll other).2

/-- The sources give the same answer to every question. -/
def SameAnswers (source : σ) (other : ρ) : Prop :=
  ∀ k, (poll (after source k)).1 = (poll (after other k)).1

/-- The source after one question, and then some more. -/
theorem after_poll (source : σ) (k : Nat) : after (poll source).2 k = after source (k + 1) := by
  induction k with
  | zero => rfl
  | succ k ih =>
      show (poll (after (poll source).2 k)).2 = (poll (after source (k + 1))).2
      rw [ih]

/-- Sources with the same answers give them alike. -/
theorem answersAlike_sameAnswers : AnswersAlike (SameAnswers (σ := σ) (ρ := ρ)) := by
  intro source other h
  refine ⟨h 0, fun k => ?_⟩
  rw [after_poll, after_poll]
  exact h (k + 1)

/-- Related sources have the same answers, if the relation is one of sources that give them
alike. -/
theorem AnswersAlike.sameAnswers {related : σ → ρ → Prop} (h : AnswersAlike related) {source : σ}
    {other : ρ} (hrelated : related source other) : SameAnswers source other := by
  have hafter (k : Nat) : related (after source k) (after other k) := by
    induction k with
    | zero => exact hrelated
    | succ k ih => exact (h _ _ ih).2
  exact fun k => (h _ _ (hafter k)).1

end InputSource

/-- A list of numbers is answered in the same way by a script and by a channel. -/
theorem Script.sameAnswers_list_channel (numbers : List Int) :
    InputSource.SameAnswers (list numbers) ({ numbers } : Channel) := by
  -- after `k` questions the channel has lost the first `k` numbers
  have hrelated : InputSource.AnswersAlike fun (script : Script) (channel : Channel) =>
      script.answer = (fun i => numbers[i]?) ∧
        channel.numbers = numbers.drop script.polls := by
    rintro ⟨answer, k⟩ ⟨rest, hasSender⟩ ⟨rfl, hrest⟩
    obtain rfl : rest = numbers.drop k := hrest
    show numbers[k]? = _ ∧ _ ∧ _ = numbers.drop (k + 1)
    by_cases hk : k < numbers.length
    · rw [List.drop_eq_getElem_cons hk]
      exact ⟨List.getElem?_eq_getElem hk, rfl, rfl⟩
    · have hle : numbers.length ≤ k := Nat.le_of_not_lt hk
      rw [List.drop_eq_nil_of_le hle, List.drop_eq_nil_of_le (Nat.le_succ_of_le hle)]
      exact ⟨List.getElem?_eq_none hle, rfl, rfl⟩
  exact hrelated.sameAnswers ⟨rfl, rfl⟩

/-! ## Recorded answers -/

/-- A source with the answers that it has given. -/
structure Asked (σ : Type) where
  source : σ
  /-- The answers so far, newest first. -/
  answers : List (Option Int) := []

namespace Asked

variable {σ ρ : Type} [InputSource σ] [InputSource ρ]

instance : InputSource (Asked σ) where
  poll asked :=
    ((InputSource.poll asked.source).1,
      { source := (InputSource.poll asked.source).2
        answers := (InputSource.poll asked.source).1 :: asked.answers })

/-- Sources with the same answers so far and from now on. -/
structure SameRecord (asked : Asked σ) (other : Asked ρ) : Prop where
  source : InputSource.SameAnswers asked.source other.source
  answers : asked.answers = other.answers

/-- Sources with the same answers and records give their answers alike. -/
theorem answersAlike_sameRecord :
    InputSource.AnswersAlike (SameRecord (σ := σ) (ρ := ρ)) := by
  intro asked other h
  obtain ⟨hanswer, hnext⟩ := InputSource.answersAlike_sameAnswers _ _ h.source
  refine ⟨hanswer, hnext, ?_⟩
  show _ :: asked.answers = _ :: other.answers
  rw [hanswer, h.answers]

/-- A source gives its answers alike with and without a record. -/
theorem answersAlike_source :
    InputSource.AnswersAlike fun (asked : Asked σ) (source : σ) => asked.source = source := by
  rintro asked source rfl
  exact ⟨rfl, rfl⟩

end Asked

namespace Simulator

variable {σ : Type}

/-- The simulator with an input source that keeps a record from now on. -/
def asked (s : Simulator σ) : Simulator (Asked σ) where
  machine := s.machine
  log := s.log
  flags := s.flags
  breakpoints := s.breakpoints
  input := { source := s.input }

@[simp]
theorem input_commitEntry (s : Simulator σ) (entry : LogEntry) (machine : Machine) :
    (s.commitEntry entry machine).input = s.input := by
  unfold commitEntry commit
  split <;> rfl

variable [InputSource σ]

/-- The answers of the input source during a call, oldest first. -/
def answersTo {α : Type} (call : Simulator (Asked σ) → α × Simulator (Asked σ))
    (s : Simulator σ) : List (Option Int) :=
  (call s.asked).2.input.answers.reverse

/-- A micro-step asks once if the machine is running and waits for a value after settling, and
otherwise not at all. -/
theorem answersTo_microStep (s : Simulator σ) :
    answersTo microStep s =
      if s.machine.halted = false ∧ s.machine.settle.interrupt = .needsValue
      then [(InputSource.poll s.input).1] else [] := by
  have hcases := s.asked.microStep_cases
  rw [answersTo]
  generalize s.asked.microStep = result at hcases
  cases hcases with
  | halted hhalt =>
      have hhalt' : s.machine.halted = true := hhalt
      rw [hhalt']
      rfl
  | notReady input hrun hwait hpoll =>
      rw [if_pos ⟨hrun, hwait⟩]
      obtain rfl := congrArg Prod.snd hpoll
      rfl
  | advance hadv =>
      have hidle : ¬s.machine.settle.interrupt = .needsValue := fun hwait => by
        have hsome := hadv.isSome_iff.mpr hwait
        cases hsome
      rw [if_neg fun h => hidle h.2, input_commitEntry]
      rfl
  | receive hpoll hadv =>
      rw [if_pos ⟨hadv.running, hadv.isSome_iff.mp rfl⟩, input_commitEntry]
      obtain rfl := congrArg Prod.snd hpoll
      rfl

/-- A micro-step that asks finds the machine running and waiting for a value. -/
theorem waits_of_answersTo_microStep {s : Simulator σ} {answer : Option Int}
    (h : answersTo microStep s = [answer]) :
    s.machine.halted = false ∧ s.machine.settle.interrupt = .needsValue ∧
      (InputSource.poll s.input).1 = answer := by
  rw [answersTo_microStep] at h
  split at h
  · rename_i hwaits
    exact ⟨hwaits.1, hwaits.2, List.head_eq_of_cons_eq h⟩
  · cases h

end Simulator

end Marie
