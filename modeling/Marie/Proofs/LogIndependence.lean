/-
# Execution does not depend on the log

Whether actions are recorded, and what the log holds, makes no difference to what a simulator does.
Two simulators that differ in nothing but that are operated alike, by routines that never look at
the log and never rewind, while each of them switches its log on and off as it likes. Every call
then gives the same in both, puts the same questions to the input source, and leaves the same.

* `Simulator.Agree` : simulators that differ in their logs at most, and whose input sources are
  related;
* `Call.agree` : every call keeps the agreement, with the same answer;
* `Routine.Alike` : routines that differ only in switching the log on and off;
* `Routine.log_independent` : such routines cannot be told apart on simulators that agree.
-/
import Marie.Proofs.Polling
import Marie.Proofs.StepRefinement

namespace Marie

open InputSource (AnswersAlike SameAnswers)

/-! ## What does not belong to the log -/

/-- The parts of a simulator that do not belong to the log or the input source. -/
structure View where
  machine : Machine
  breakpoints : List Breakpoint
  runInterval : Duration

namespace Simulator

variable {τ σ ρ α : Type}

/-- What can be seen of a simulator without its log. -/
def view (s : Simulator σ) : View where
  machine := s.machine
  breakpoints := s.breakpoints
  runInterval := s.flags.runInterval

/-- The simulators differ in their logs at most, and their input sources are related. -/
structure Agree (related : σ → ρ → Prop) (s : Simulator σ) (t : Simulator ρ) : Prop where
  view : s.view = t.view
  input : related s.input t.input

/-- Calls with the same answer, after which the simulators agree. -/
structure AgreeAfter (related : σ → ρ → Prop) (x : α × Simulator σ) (y : α × Simulator ρ) :
    Prop where
  answer : x.1 = y.1
  agree : x.2.Agree related y.2

/-- Switches the log on or off. -/
def setLogging (s : Simulator σ) (enableLog : Bool) : Simulator σ :=
  { s with flags := { s.flags with enableLog } }

variable {related : σ → ρ → Prop} {s : Simulator σ} {t : Simulator ρ}

namespace Agree

theorem machine (h : s.Agree related t) : s.machine = t.machine :=
  congrArg View.machine h.view

theorem halted (h : s.Agree related t) : s.halted = t.halted :=
  congrArg Machine.halted h.machine

theorem atBreakpoint (h : s.Agree related t) : s.atBreakpoint = t.atBreakpoint := by
  rw [Simulator.atBreakpoint, Simulator.atBreakpoint, h.machine]
  exact congrArg (fun breakpoints => breakpoints.any fun bp => bp.check t.machine)
    (congrArg View.breakpoints h.view)

theorem stuckStatus (h : s.Agree related t) : s.stuckStatus = t.stuckStatus := by
  rw [Simulator.stuckStatus, Simulator.stuckStatus, h.halted]

/-- Both sides get the same machine, and any logs. -/
theorem withMachine (h : s.Agree related t) (machine : Machine) (log log' : Log) :
    { s with machine, log }.Agree related { t with machine, log := log' } :=
  ⟨congrArg (fun view => { view with machine }) h.view, h.input⟩

/-- Both sides get input sources that are related. -/
theorem withInput (h : s.Agree related t) {input : σ} {input' : ρ}
    (hinput : related input input') : { s with input }.Agree related { t with input := input' } :=
  ⟨h.view, hinput⟩

/-- The log may be switched on and off on either side alone. -/
theorem setLogging_left (h : s.Agree related t) (on : Bool) : (s.setLogging on).Agree related t :=
  ⟨h.view, h.input⟩

theorem setLogging_right (h : s.Agree related t) (on : Bool) : s.Agree related (t.setLogging on) :=
  ⟨h.view, h.input⟩

/-- Committing one action on both sides, whether or not it is recorded. -/
theorem commit (h : s.Agree related t) (microPC : Nat) (interrupt : Interrupt) (action : Action)
    (machine : Machine) :
    (s.commit microPC interrupt action machine).Agree related
      (t.commit microPC interrupt action machine) := by
  unfold Simulator.commit
  split
  · split
    · exact h.withMachine machine _ _
    · exact h.withMachine machine _ _
  · split
    · exact h.withMachine machine _ _
    · exact h.withMachine machine _ _

/-- Poking the machine on both sides. -/
theorem poke (h : s.Agree related t) (action : Action) (machine : Machine) :
    (s.poke action machine).Agree related (t.poke action machine) := by
  unfold Simulator.poke
  rw [h.machine]
  exact h.commit _ _ _ _

theorem setReg (h : s.Agree related t) (reg : Reg) (w : Word) :
    (s.setReg reg w).Agree related (t.setReg reg w) := by
  unfold Simulator.setReg
  rw [h.machine]
  exact h.poke _ _

theorem setMem (h : s.Agree related t) (addr w : Word) :
    (s.setMem addr w).Agree related (t.setMem addr w) := by
  unfold Simulator.setMem
  rw [h.machine]
  exact h.poke _ _

theorem setHalted (h : s.Agree related t) (halt : Bool) :
    (s.setHalted halt).Agree related (t.setHalted halt) := by
  unfold Simulator.setHalted
  rw [h.machine]
  split
  · exact h
  · exact h.poke _ _

theorem reset (h : s.Agree related t) : s.reset.Agree related t.reset := by
  unfold Simulator.reset
  rw [h.machine]
  exact h.withMachine _ _ _

end Agree

/-! ## Micro-steps, steps and runs -/

variable [InputSource σ] [InputSource ρ]

/-- A micro-step gives the same on both sides. -/
theorem Agree.microStep (hrelated : AnswersAlike related) (h : s.Agree related t) :
    AgreeAfter related s.microStep t.microStep := by
  obtain ⟨hanswer, hnext⟩ := hrelated _ _ h.input
  unfold Simulator.microStep
  rw [h.machine]
  split
  · exact ⟨rfl, h⟩
  · simp only
    split
    · -- both sources are asked, and give the same answer
      rcases hs : InputSource.poll s.input with ⟨answer, input⟩
      rcases ht : InputSource.poll t.input with ⟨answer', input'⟩
      rw [hs, ht] at hanswer hnext
      obtain rfl : answer = answer' := hanswer
      cases answer with
      | none => exact ⟨rfl, (h.withMachine _ s.log t.log).withInput hnext⟩
      | some n => exact ⟨rfl, (h.withInput hnext).commit _ _ _ _⟩
    · exact ⟨rfl, h.commit _ _ _ _⟩
    · split
      · exact ⟨rfl, h.commit _ _ _ _⟩
      · exact ⟨rfl, h.withMachine _ s.log t.log⟩

/-- Finishing a cycle leaves the same on both sides. -/
theorem Agree.finishCycle (hrelated : AnswersAlike related) (h : s.Agree related t) :
    s.finishCycle.Agree related t.finishCycle := by
  fun_induction Simulator.finishCycle s generalizing t with
  | case1 s s' hmicro =>
      obtain ⟨hanswer, hagree⟩ := h.microStep hrelated
      rw [hmicro] at hanswer hagree
      rw [finishCycle_of_microStep_none (Prod.ext hanswer.symm rfl)]
      exact hagree
  | case2 s action s' hmicro hend =>
      obtain ⟨hanswer, hagree⟩ := h.microStep hrelated
      rw [hmicro] at hanswer hagree
      rw [finishCycle_of_microStep (Prod.ext hanswer.symm rfl), if_pos hend]
      exact hagree
  | case3 s action s' hmicro hend ih =>
      obtain ⟨hanswer, hagree⟩ := h.microStep hrelated
      rw [hmicro] at hanswer hagree
      rw [finishCycle_of_microStep (Prod.ext hanswer.symm rfl), if_neg hend]
      exact ih hagree

/-- A step gives the same on both sides. -/
theorem Agree.step (hrelated : AnswersAlike related) (h : s.Agree related t) :
    AgreeAfter related s.step t.step := by
  obtain ⟨hanswer, hagree⟩ := h.microStep hrelated
  rcases hs : s.microStep with ⟨answer, s'⟩
  rw [hs] at hanswer hagree
  have ht : t.microStep = (answer, t.microStep.2) := Prod.ext hanswer.symm rfl
  cases answer with
  | none =>
      rw [Simulator.step, Simulator.step, hs, ht]
      exact ⟨rfl, hagree⟩
  | some action =>
      rw [step_of_microStep hs, step_of_microStep ht]
      exact ⟨rfl, h.finishCycle hrelated⟩

/-- Tripwires with the same answer and memory on both sides, after which the simulators agree. -/
def TripwiresAgree (related : σ → ρ → Prop) (tripwire : Tripwire τ σ) (other : Tripwire τ ρ) :
    Prop :=
  ∀ memory (s : Simulator σ) (t : Simulator ρ), s.Agree related t →
    (tripwire memory s).1 = (other memory t).1 ∧
      AgreeAfter related (tripwire memory s).2 (other memory t).2

/-- A run gives the same on both sides, if its tripwires do. -/
theorem Agree.runWhile (hrelated : AnswersAlike related) {tripwire : Tripwire τ σ}
    {other : Tripwire τ ρ} (htripwires : TripwiresAgree related tripwire other) (rounds : Nat)
    (memory : τ) (h : s.Agree related t) :
    (Simulator.runWhile tripwire rounds memory s).1 =
        (Simulator.runWhile other rounds memory t).1 ∧
      AgreeAfter related (Simulator.runWhile tripwire rounds memory s).2
        (Simulator.runWhile other rounds memory t).2 := by
  induction rounds generalizing memory s t with
  | zero => exact ⟨rfl, rfl, h⟩
  | succ rounds ih =>
      rw [Simulator.runWhile, Simulator.runWhile, h.halted]
      split
      · exact ⟨rfl, rfl, h⟩
      · obtain ⟨hgo, hmemory, htripped⟩ := htripwires memory s t h
        rcases hs : tripwire memory s with ⟨go, memory₁, s₁⟩
        rcases ht : other memory t with ⟨go', memory₁', t₁⟩
        rw [hs, ht] at hgo hmemory htripped
        obtain rfl : go = go' := hgo
        obtain rfl : memory₁ = memory₁' := hmemory
        cases go with
        | false => exact ⟨rfl, rfl, htripped⟩
        | true =>
            obtain ⟨hprogress, hstepped⟩ := htripped.step hrelated
            rcases hs₁ : s₁.step with ⟨progress, s₂⟩
            rcases ht₁ : t₁.step with ⟨progress', t₂⟩
            rw [hs₁, ht₁] at hprogress hstepped
            obtain rfl : progress = progress' := hprogress
            have hstepped' : s₂.Agree related t₂ := hstepped
            simp only [hs₁, ht₁]
            cases progress with
            | false => exact ⟨hstepped'.stuckStatus, rfl, hstepped'⟩
            | true =>
                simp only [hstepped'.halted, hstepped'.atBreakpoint]
                split
                · exact ⟨rfl, rfl, hstepped'⟩
                · exact ih memory₁ hstepped'

/-- A run with a limit gives the same on both sides. -/
theorem Agree.runWithLimit (hrelated : AnswersAlike related) (limit : Nat)
    (h : s.Agree related t) :
    AgreeAfter related (s.runWithLimit limit) (t.runWithLimit limit) := by
  have hwatch : TripwiresAgree related
      (watch fun s' => decide (s'.machine.count - s.machine.count < limit))
      (watch fun t' => decide (t'.machine.count - t.machine.count < limit)) := by
    intro _ s' t' h'
    rw [h.machine]
    refine ⟨?_, rfl, h'⟩
    show decide (s'.machine.count - _ < limit) = decide (t'.machine.count - _ < limit)
    rw [h'.machine]
  obtain ⟨hstatus, -, hagree⟩ := h.runWhile hrelated hwatch (roundsFor limit) ()
  exact ⟨hstatus, hagree⟩

end Simulator

/-! ## Calls -/

/-- A call on a simulator that neither rewinds nor concerns the log. -/
inductive Call where
  | load (program : Program)
  | reset
  | setReg (reg : Reg) (w : Word)
  | setMem (addr w : Word)
  | setHalted (halt : Bool)
  | setRegText (name text : String)
  | setMemText (addr : Word) (text : String)
  | setBreakpoints (breakpoints : List Breakpoint)
  | setRunInterval (runInterval : Duration)
  | setCount (count : Nat)
  | microStep
  | step
  | runWithLimit (limit : Nat)

/-- The answer to a call. -/
inductive Answer where
  /-- The call cannot fail. -/
  | done
  /-- The call has failed with an error, or not. -/
  | checked (error : Option SimulatorError)
  | action (action : Option Action)
  | progress (progress : Bool)
  | status (status : RunStatus)
deriving DecidableEq

namespace Call

open Simulator (AgreeAfter)

variable {σ ρ : Type}

/-- A change that may be refused, after which the simulator is as it was. -/
def attempt (s : Simulator σ) : Except SimulatorError (Simulator σ) → Answer × Simulator σ
  | .ok s' => (.checked none, s')
  | .error error => (.checked (some error), s)

variable [InputSource σ] [InputSource ρ]

/-- Makes the call. -/
def apply (s : Simulator σ) : Call → Answer × Simulator σ
  | load program => attempt s (s.load program)
  | reset => (.done, s.reset)
  | setReg reg w => (.done, s.setReg reg w)
  | setMem addr w => (.done, s.setMem addr w)
  | setHalted halt => (.done, s.setHalted halt)
  | setRegText name text => attempt s (s.setRegText name text)
  | setMemText addr text => attempt s (s.setMemText addr text)
  | setBreakpoints breakpoints => (.done, { s with breakpoints })
  | setRunInterval runInterval => (.done, { s with flags := { s.flags with runInterval } })
  | setCount count => (.done, s.setCount count)
  | microStep => (.action s.microStep.1, s.microStep.2)
  | step => (.progress s.step.1, s.step.2)
  | runWithLimit limit => (.status (s.runWithLimit limit).1, (s.runWithLimit limit).2)

variable {related : σ → ρ → Prop} {s : Simulator σ} {t : Simulator ρ}

/-- A call gives the same on both sides. -/
theorem agree (hrelated : AnswersAlike related) (h : s.Agree related t) (call : Call) :
    AgreeAfter related (call.apply s) (call.apply t) := by
  cases call with
  | load program =>
      rw [apply, apply, Simulator.load, Simulator.load, h.machine]
      split
      · exact ⟨rfl, h.withMachine _ _ _⟩
      · exact ⟨rfl, h⟩
  | reset => exact ⟨rfl, h.reset⟩
  | setReg reg w => exact ⟨rfl, h.setReg reg w⟩
  | setMem addr w => exact ⟨rfl, h.setMem addr w⟩
  | setHalted halt => exact ⟨rfl, h.setHalted halt⟩
  | setRegText name text =>
      rw [apply, apply, Simulator.setRegText, Simulator.setRegText]
      split
      · exact ⟨rfl, h⟩
      · split
        · exact ⟨rfl, h⟩
        · exact ⟨rfl, h.setReg _ _⟩
  | setMemText addr text =>
      rw [apply, apply, Simulator.setMemText, Simulator.setMemText]
      split
      · exact ⟨rfl, h⟩
      · exact ⟨rfl, h.setMem _ _⟩
  | setBreakpoints breakpoints =>
      exact ⟨rfl, congrArg (fun view => { view with breakpoints }) h.view, h.input⟩
  | setRunInterval runInterval =>
      exact ⟨rfl, congrArg (fun view => { view with runInterval }) h.view, h.input⟩
  | setCount count =>
      rw [apply, apply, Simulator.setCount, Simulator.setCount, h.machine]
      exact ⟨rfl, h.withMachine _ s.log t.log⟩
  | microStep =>
      obtain ⟨hanswer, hagree⟩ := h.microStep hrelated
      exact ⟨congrArg Answer.action hanswer, hagree⟩
  | step =>
      obtain ⟨hanswer, hagree⟩ := h.step hrelated
      exact ⟨congrArg Answer.progress hanswer, hagree⟩
  | runWithLimit limit =>
      obtain ⟨hanswer, hagree⟩ := h.runWithLimit hrelated limit
      exact ⟨congrArg Answer.status hanswer, hagree⟩

/-- That the input source keeps a record makes no difference to a call. -/
theorem agree_asked (s : Simulator σ) (call : Call) :
    AgreeAfter (fun (asked : Asked σ) (source : σ) => asked.source = source)
      (call.apply s.asked) (call.apply s) :=
  agree Asked.answersAlike_source ⟨rfl, rfl⟩ call

end Call

/-! ## Routines -/

/-- A sequence of calls, each of which may depend on what was seen before it. The log is switched
on and off, but not looked at. The tripwire of a run is such a routine itself. -/
inductive Routine : Type → Type 1
  | done {α : Type} (result : α) : Routine α
  /-- Looks at everything but the log. -/
  | look {α : Type} (next : View → Routine α) : Routine α
  | call {α : Type} (c : Call) (next : Answer → Routine α) : Routine α
  | setLogging {α : Type} (enableLog : Bool) (next : Routine α) : Routine α
  | runWhile {α τ : Type} (tripwire : τ → Routine (Bool × τ)) (rounds : Nat) (memory : τ)
      (next : RunStatus × τ → Routine α) : Routine α

/-- What a call has given. -/
structure Observation where
  answer : Answer
  /-- The answers of the input source to all questions so far, newest first. -/
  answers : List (Option Int)
  /-- What can be seen after the call. -/
  view : View

namespace Routine

open Simulator (Agree AgreeAfter TripwiresAgree new)

variable {α σ ρ : Type} [InputSource σ] [InputSource ρ]

/-- The observation after a call. -/
def observation (answer : Answer) (s : Simulator (Asked σ)) : Observation where
  answer
  answers := s.input.answers
  view := s.view

/-- Simulators that agree look the same after a call with the same answer. -/
theorem observation_eq {s : Simulator (Asked σ)} {t : Simulator (Asked ρ)}
    (h : s.Agree Asked.SameRecord t) (answer : Answer) :
    observation answer s = observation answer t := by
  rw [observation, observation, h.view, h.input.answers]

/-- The tripwire that calls a routine, and keeps what was observed in its memory. -/
def asTripwire {τ : Type}
    (call : τ → List Observation → Simulator (Asked σ) →
      (Bool × τ) × List Observation × Simulator (Asked σ)) :
    Tripwire (τ × List Observation) (Asked σ) := fun (memory, seen) s =>
  let ((go, memory), seen, s) := call memory seen s
  (go, (memory, seen), s)

/-- Carries out the routine. Beside its result it gives what was observed after every call, newest
first. The calls of a tripwire come before the end of its run. -/
def eval : {α : Type} → Routine α → List Observation → Simulator (Asked σ) →
    α × List Observation × Simulator (Asked σ)
  | _, .done result, seen, s => (result, seen, s)
  | _, .look next, seen, s => (next s.view).eval seen s
  | _, .call c next, seen, s =>
    let (answer, s) := c.apply s
    (next answer).eval (observation answer s :: seen) s
  | _, .setLogging enableLog next, seen, s => next.eval seen (s.setLogging enableLog)
  | _, .runWhile tripwire rounds memory next, seen, s =>
    let (status, (memory, seen), s) :=
      Simulator.runWhile (asTripwire fun memory => (tripwire memory).eval) rounds (memory, seen) s
    (next (status, memory)).eval (observation (.status status) s :: seen) s

/-- The routines make the same calls. Either of them may switch the log on and off in between,
also within the tripwires. -/
inductive Alike : {α : Type} → Routine α → Routine α → Prop
  | done {α : Type} (result : α) : Alike (.done result) (.done result)
  | look {α : Type} {p q : View → Routine α} (h : ∀ view, Alike (p view) (q view)) :
      Alike (.look p) (.look q)
  | call {α : Type} (c : Call) {p q : Answer → Routine α}
      (h : ∀ answer, Alike (p answer) (q answer)) : Alike (.call c p) (.call c q)
  | setLogging_left {α : Type} (enableLog : Bool) {p q : Routine α} (h : Alike p q) :
      Alike (.setLogging enableLog p) q
  | setLogging_right {α : Type} (enableLog : Bool) {p q : Routine α} (h : Alike p q) :
      Alike p (.setLogging enableLog q)
  | runWhile {α τ : Type} {trip trip' : τ → Routine (Bool × τ)}
      (htrip : ∀ memory, Alike (trip memory) (trip' memory)) (rounds : Nat) (memory : τ)
      {p q : RunStatus × τ → Routine α} (h : ∀ result, Alike (p result) (q result)) :
      Alike (.runWhile trip rounds memory p) (.runWhile trip' rounds memory q)

/-- Carrying out alike routines on simulators that agree gives the same, observations
included. -/
theorem Alike.eval_agree {p q : Routine α} (hpq : p.Alike q) (seen : List Observation)
    {s : Simulator (Asked σ)} {t : Simulator (Asked ρ)} (h : s.Agree Asked.SameRecord t) :
    (p.eval seen s).1 = (q.eval seen t).1 ∧
      AgreeAfter Asked.SameRecord (p.eval seen s).2 (q.eval seen t).2 := by
  induction hpq generalizing seen s t with
  | done result => exact ⟨rfl, rfl, h⟩
  | look _ ih =>
      rw [eval, eval, h.view]
      exact ih t.view seen h
  | call c _ ih =>
      obtain ⟨hanswer, hagree⟩ := c.agree Asked.answersAlike_sameRecord h
      rw [eval, eval]
      simp only
      rw [hanswer, observation_eq hagree]
      exact ih (c.apply t).1 _ hagree
  | setLogging_left enableLog _ ih => exact ih seen (h.setLogging_left enableLog)
  | setLogging_right enableLog _ ih => exact ih seen (h.setLogging_right enableLog)
  | @runWhile _ _ trip trip' _ rounds memory _ _ _ ihtrip ih =>
      have htripwires : TripwiresAgree Asked.SameRecord
          (asTripwire (σ := σ) fun memory => (trip memory).eval)
          (asTripwire (σ := ρ) fun memory => (trip' memory).eval) := by
        rintro ⟨memory, seen⟩ s t h
        obtain ⟨hresult, hseen, hagree⟩ := ihtrip memory seen h
        exact ⟨congrArg Prod.fst hresult, Prod.ext (congrArg Prod.snd hresult) hseen, hagree⟩
      have hrun := h.runWhile Asked.answersAlike_sameRecord htripwires rounds (memory, seen)
      rw [eval, eval]
      generalize Simulator.runWhile (asTripwire fun memory => (trip memory).eval) rounds
        (memory, seen) s = x at hrun
      generalize Simulator.runWhile (asTripwire fun memory => (trip' memory).eval) rounds
        (memory, seen) t = y at hrun
      -- both runs end with the same status and memory, so that both go on alike
      obtain ⟨status, ⟨memory₁, seen₁⟩, s₁⟩ := x
      obtain ⟨status', memories, t₁⟩ := y
      obtain ⟨hstatus, hmemory, hagree⟩ := hrun
      obtain rfl : status = status' := hstatus
      obtain rfl : (memory₁, seen₁) = memories := hmemory
      simp only
      rw [observation_eq hagree]
      exact ih (status, memory₁) _ hagree

/-- Two simulators that differ in nothing but the log and whether it is on, with input sources that
give the same answers, are operated alike, while either log is switched on and off in any way.
Then the result is the same, and so are after every call, also of a tripwire, the answer to the
call, all questions to the input source so far with their answers, and the machine. -/
theorem log_independent {p q : Routine α} (hpq : p.Alike q) {s : Simulator σ} {t : Simulator ρ}
    (hview : s.view = t.view) (hinput : SameAnswers s.input t.input) :
    (p.eval [] s.asked).1 = (q.eval [] t.asked).1 ∧
      (p.eval [] s.asked).2.1 = (q.eval [] t.asked).2.1 ∧
      (p.eval [] s.asked).2.2.view = (q.eval [] t.asked).2.2.view := by
  have h : s.asked.Agree Asked.SameRecord t.asked := ⟨hview, hinput, rfl⟩
  obtain ⟨hresult, hseen, hagree⟩ := hpq.eval_agree [] h
  exact ⟨hresult, hseen, hagree.view⟩

/-- A program that begins with an input instruction runs until AC is 5. The one simulator reads
from a script and switches its log off within the tripwire; the other one reads from a channel,
with a log that is off at first and switched on before the run. -/
theorem log_independent_toggled :
    let s : Simulator Script := new {} (.list [5])
    let t : Simulator Channel := new { enableLog := false } { numbers := [5] }
    let awaitsFive := fun calls : Nat =>
      Routine.look fun view => .done (view.machine.regs.ac != 5, calls + 1)
    let start := Call.load { words := [0x5000, 0x7000] }
    let p := Routine.call start fun _ =>
      .runWhile (fun calls => .setLogging false (awaitsFive calls)) 4 0 .done
    let q := Routine.call start fun _ => .setLogging true (.runWhile awaitsFive 4 0 .done)
    (p.Alike q ∧ s.view = t.view ∧ SameAnswers s.input t.input) ∧
      (p.eval [] s.asked).1 = (q.eval [] t.asked).1 ∧
      (p.eval [] s.asked).2.1 = (q.eval [] t.asked).2.1 ∧
      (p.eval [] s.asked).2.2.view = (q.eval [] t.asked).2.2.view := by
  intro s t awaitsFive start p q
  have hpq : p.Alike q := by
    refine .call start fun _ => .setLogging_right true (.runWhile (fun calls => ?_) 4 0 .done)
    exact .setLogging_left false (.look fun _ => .done _)
  have hview : s.view = t.view := rfl
  have hinput := Script.sameAnswers_list_channel [5]
  exact ⟨⟨hpq, hview, hinput⟩, log_independent hpq hview hinput⟩

end Routine

end Marie
