/-
# Where a run looks around

Between two steps a run asks its tripwire and looks at the breakpoints. A step ends with the
instruction cycle, but also when an input instruction finds the input source not ready, and if it
made any progress until then the run does not tell the one from the other. So the run looks around
between instructions, or within an input instruction that waits.

* `Machine.settle_cases` : what settling may do to the control;
* `Simulator.Rests.consulted` : where the run looks around, by induction on its rounds;
* `Simulator.consulted_at_rest` : the same for every run from the beginning of a cycle;
* `Simulator.breakpoint_within_input` : a breakpoint on the instruction after an input instruction
  stops the run before the input has arrived.
-/
import Marie.Proofs.ExactRewind
import Marie.Proofs.RunStatus

namespace Marie

namespace Machine

variable {m m' : Machine}

/-! ## Points of control -/

/-- The control is between two instructions. -/
def Between (m : Machine) : Prop :=
  m.microPC = 0 ∧ m.interrupt = .idle

/-- The control is within an input instruction, which waits for the input source. -/
def AwaitsInput (m : Machine) : Prop :=
  m.interrupt = .needsValue ∧ m.microPC = 7 ∧ m.decoded = some .input

/-- Input is requested only within input instructions. -/
def RequestsInInput (m : Machine) : Prop :=
  m.interrupt ≠ .idle → m.microPC = 7 ∧ m.decoded = some .input

/-- Settling does nothing, passes the skip of a conditional skip that is not taken, or requests
input within an input instruction. -/
theorem settle_cases (m : Machine) :
    m.settle = m ∨ m.decoded = some .skipCond ∧ m.settle = m.moveTo 8 .idle ∨
      m.decoded = some .input ∧ m.settle = m.moveTo 7 .needsValue := by
  by_cases hsilent : ∃ op, m.interrupt = .idle ∧ m.nextOp? = some op ∧ m.isSilent op = true
  · right
    obtain ⟨op, hidle, hop, hsilent⟩ := hsilent
    rw [settle_of_isSilent hidle hop hsilent]
    rcases nextOp?_of_isSilent hop hsilent with ⟨rfl, hdecoded, hpc⟩ | ⟨rfl, hdecoded, hpc⟩
    · have hcomparison : m.comparison = false := by simpa [isSilent] using hsilent
      refine .inl ⟨hdecoded, ?_⟩
      rw [execute, hcomparison, hpc]
      exact congrArg (m.moveTo 8) hidle
    · exact .inr ⟨hdecoded, by rw [hpc]; rfl⟩
  · exact .inl (settle_eq_self hsilent)

/-- Settling requests input only within input instructions. -/
theorem RequestsInInput.settle (h : m.RequestsInInput) : m.settle.RequestsInInput := by
  rcases m.settle_cases with heq | ⟨-, heq⟩ | ⟨hdecoded, heq⟩
  · rw [heq]
    exact h
  · rw [heq]
    exact fun hne => absurd rfl hne
  · rw [heq]
    exact fun _ => ⟨rfl, hdecoded⟩

namespace Advance

variable {v : Option Int} {e : LogEntry}

/-- After a transition no input is requested, unless its number has just arrived. -/
theorem idle_or (h : m.Advance v e m') :
    m'.interrupt = .idle ∨ m.settle.interrupt ≠ .idle ∧ m'.microPC = m.settle.microPC ∧
      m'.decoded = m.settle.decoded := by
  cases h with
  | perform _ hidle hperform =>
      left
      rcases perform_cases hperform with ⟨-, -, rfl⟩ | ⟨op, m₁, hop, hexecute, rfl⟩
      · exact hidle
      · have hinterrupt := execute_interrupt (isSilent_settle hidle hop)
        rw [hexecute, hidle] at hinterrupt
        exact hinterrupt
  | takeInput _ _ => exact .inl rfl
  | receive n _ hwait =>
      refine .inr ⟨?_, rfl, rfl⟩
      rw [hwait]
      decide

/-- After the end of a cycle the control is between two instructions. -/
theorem between (h : m.Advance v e m') (hend : e.action.isStepEnd = true) : m'.Between := by
  cases h with
  | perform _ hidle hperform =>
      rcases perform_cases hperform with ⟨-, -, rfl⟩ | ⟨op, m₁, -, hexecute, rfl⟩
      · exact ⟨rfl, hidle⟩
      · rw [isStepEnd_of_execute (congrArg Prod.fst hexecute)] at hend
        cases hend
  | takeInput _ _ => cases hend
  | receive _ _ _ => cases hend

/-- A transition requests input only within input instructions. -/
theorem requestsInInput (hadv : m.Advance v e m') (h : m.RequestsInInput) :
    m'.RequestsInInput := by
  intro hne
  rcases hadv.idle_or with hidle | ⟨hrequest, hpc, hdecoded⟩
  · exact absurd hidle hne
  · rw [hpc, hdecoded]
    exact h.settle hrequest

end Advance

end Machine

namespace Simulator

variable {σ τ : Type}

/-! ## The beginning of a cycle -/

/-- A point of control at the beginning of a cycle has no request for input. -/
def IdleAtStart (microPC : Nat) (interrupt : Interrupt) : Prop :=
  microPC = 0 → interrupt = .idle

/-- No request for input is at the beginning of a cycle, neither in the machine nor in any entry
that may be taken back. -/
structure StartsIdle (s : Simulator σ) : Prop where
  machine : IdleAtStart s.machine.microPC s.machine.interrupt
  log : ∀ e ∈ s.log.recent, IdleAtStart e.microPC e.interrupt

/-- Settling requests no input at the beginning of a cycle. -/
theorem IdleAtStart.settle {m : Machine} (h : IdleAtStart m.microPC m.interrupt) :
    IdleAtStart m.settle.microPC m.settle.interrupt := by
  rcases m.settle_cases with heq | ⟨-, heq⟩ | ⟨-, heq⟩
  · rw [heq]
    exact h
  · rw [heq]
    exact fun _ => rfl
  · rw [heq]
    exact fun hpc => absurd hpc (Nat.succ_ne_zero 6)

/-- The machine and the entry of a transition have no request at the beginning of a cycle. -/
theorem IdleAtStart.advance {m m' : Machine} {v : Option Int} {e : LogEntry}
    (h : IdleAtStart m.microPC m.interrupt) (hadv : m.Advance v e m') :
    IdleAtStart m'.microPC m'.interrupt ∧ IdleAtStart e.microPC e.interrupt := by
  have hsettle := h.settle
  constructor
  · intro hpc
    rcases hadv.idle_or with hidle | ⟨hrequest, hsame, -⟩
    · exact hidle
    · exact absurd (hsettle (hsame.symm.trans hpc)) hrequest
  · cases hadv with
    | perform _ _ _ => exact fun _ => rfl
    | takeInput _ hload =>
        rw [← hload]
        exact hsettle
    | receive n _ hwait =>
        rw [← hwait]
        exact hsettle

/-- Recording an entry that has no request at the beginning of a cycle. -/
theorem StartsIdle.recorded {s : Simulator σ} (h : s.StartsIdle) {e : LogEntry}
    (hentry : IdleAtStart e.microPC e.interrupt) :
    ∀ e' ∈ (s.recorded e).recent, IdleAtStart e'.microPC e'.interrupt := by
  unfold Simulator.recorded
  split
  · exact List.forall_mem_cons.mpr ⟨hentry, h.log⟩
  · exact h.log

/-- At the start of a program nothing is requested. -/
theorem Restarted.startsIdle {s : Simulator σ} (hstart : s.Restarted) : s.StartsIdle := by
  obtain ⟨hempty, -, -, -, hidle⟩ := hstart.start
  refine ⟨fun _ => hidle, ?_⟩
  rw [hempty]
  exact fun e he => absurd he List.not_mem_nil

variable [InputSource σ]

/-- No move requests input at the beginning of a cycle. -/
theorem StartsIdle.move {allowed : List Usage} {floor : Nat} {s t : Simulator σ}
    (h : s.StartsIdle) (hmove : Move allowed floor s t) : t.StartsIdle := by
  cases hmove.moved with
  | silent hmachine hlog =>
      refine ⟨?_, by rw [hlog]; exact h.log⟩
      rcases hmachine with heq | heq
      · rw [heq]
        exact h.machine
      · rw [heq]
        exact h.machine.settle
  | advance _ _ hadv hlog =>
      obtain ⟨hmachine, hentry⟩ := h.machine.advance hadv
      exact ⟨hmachine, by rw [hlog]; exact h.recorded hentry⟩
  | change hchange hlog =>
      obtain ⟨hmachine, hentry⟩ := hchange.control
      rw [Prod.mk.injEq] at hmachine hentry
      refine ⟨?_, ?_⟩
      · rw [hmachine.1, hmachine.2]
        exact h.machine
      · rw [hlog]
        apply h.recorded
        rw [hentry.1, hentry.2]
        exact h.machine
  | back _ _ hlog hmachine =>
      have hall := h.log
      rw [hlog] at hall
      obtain ⟨hentry, hrest⟩ := List.forall_mem_cons.mp hall
      refine ⟨?_, hrest⟩
      rw [hmachine]
      exact hentry
  | restart m _ _ hlog hmachine =>
      refine ⟨?_, ?_⟩
      · rw [hmachine]
        exact fun _ => rfl
      · rw [hlog]
        exact List.forall_mem_nil _
  | count _ _ hlog hmachine =>
      refine ⟨?_, ?_⟩
      · rw [hmachine]
        exact h.machine
      · rw [hlog]
        exact h.log

/-! ## Micro-steps and steps -/

end Simulator

/-- The input comes from the source by questions, and the source was not ready at the last of
them. -/
def InputSource.Refused {σ : Type} [InputSource σ] (source input : σ) : Prop :=
  ∃ k, (poll (after source k)).1 = none ∧ input = after source (k + 1)

namespace Simulator

open InputSource (Refused after)

variable {σ τ : Type} [InputSource σ] {source : σ} {s t : Simulator σ}

/-- The simulator has asked the source a number of times, and requests input only within input
instructions. -/
structure Proceeds (source : σ) (s : Simulator σ) : Prop where
  asked : ∃ k, s.input = after source k
  requests : s.machine.RequestsInInput

/-- The simulator stands between two instructions, or within an input instruction because its
source was not ready when it was last asked. -/
def AtRest (source : σ) (s : Simulator σ) : Prop :=
  s.machine.Between ∨ s.machine.AwaitsInput ∧ Refused source s.input

/-- The simulator has halted or is at rest. -/
structure Rests (source : σ) (s : Simulator σ) : Prop where
  proceeds : s.Proceeds source
  rests : s.halted = true ∨ s.AtRest source

/-- A micro-step with an action goes on, and is between two instructions after the end of a
cycle. -/
theorem Proceeds.microStep_some (h : s.Proceeds source) {action : Action}
    (hmicro : s.microStep = (some action, t)) :
    t.Proceeds source ∧ (action.isStepEnd = true → t.machine.Between) := by
  obtain ⟨k, hinput⟩ := h.asked
  have hcases := s.microStep_cases
  rw [hmicro] at hcases
  cases hcases with
  | advance hadv =>
      rw [commitEntry_eq_commitTrace]
      refine ⟨⟨⟨k, ?_⟩, ?_⟩, ?_⟩
      · rw [input_commitTrace, hinput]
      · rw [machine_commitTrace]
        exact hadv.requestsInInput h.requests
      · rw [machine_commitTrace]
        exact hadv.between
  | receive hpoll hadv =>
      rw [commitEntry_eq_commitTrace]
      refine ⟨⟨⟨k + 1, ?_⟩, ?_⟩, ?_⟩
      · rw [input_commitTrace, after, ← hinput, hpoll]
      · rw [machine_commitTrace]
        exact hadv.requestsInInput h.requests
      · rw [machine_commitTrace]
        exact hadv.between

/-- A micro-step without an action finds the machine halted, or the source not ready. -/
theorem Proceeds.microStep_none (h : s.Proceeds source) (hmicro : s.microStep = (none, t)) :
    t.Proceeds source ∧ (t.halted = true ∨ t.machine.AwaitsInput ∧ Refused source t.input) := by
  obtain ⟨k, hinput⟩ := h.asked
  have hcases := s.microStep_cases
  rw [hmicro] at hcases
  cases hcases with
  | halted hhalt => exact ⟨h, .inl hhalt⟩
  | notReady input _ hwait hpoll =>
      rw [hinput] at hpoll
      have hasked : input = after source (k + 1) := by rw [after, hpoll]
      have hrequests := h.requests.settle
      refine ⟨⟨⟨k + 1, hasked⟩, hrequests⟩, .inr ⟨⟨hwait, ?_⟩, k, ?_, hasked⟩⟩
      · apply hrequests
        rw [hwait]
        decide
      · rw [hpoll]

/-- Finishing a cycle ends halted or at rest. -/
theorem Proceeds.finishCycle (h : s.Proceeds source) : s.finishCycle.Rests source := by
  fun_induction Simulator.finishCycle s with
  | case1 s s' hmicro =>
      obtain ⟨hproceeds, hstuck⟩ := h.microStep_none hmicro
      exact ⟨hproceeds, hstuck.imp_right .inr⟩
  | case2 s action s' hmicro hend =>
      obtain ⟨hproceeds, hbetween⟩ := h.microStep_some hmicro
      exact ⟨hproceeds, .inr (.inl (hbetween hend))⟩
  | case3 s action s' hmicro _ ih => exact ih (h.microStep_some hmicro).1

/-- A step ends halted or at rest. Without progress it ends halted or within an input
instruction. -/
theorem Proceeds.step (h : s.Proceeds source) {progress : Bool}
    (hstep : s.step = (progress, t)) :
    t.Rests source ∧ (progress = false → t.halted = true ∨ t.machine.AwaitsInput) := by
  cases hmicro : s.microStep with
  | mk answer s' =>
      cases answer with
      | none =>
          rw [Simulator.step, hmicro] at hstep
          cases hstep
          obtain ⟨hproceeds, hstuck⟩ := h.microStep_none hmicro
          exact ⟨⟨hproceeds, hstuck.imp_right .inr⟩, fun _ => hstuck.imp_right And.left⟩
      | some action =>
          rw [step_of_microStep hmicro] at hstep
          cases hstep
          exact ⟨h.finishCycle, fun hfalse => by cases hfalse⟩

/-! ## Runs -/

/-- A run with the given calls of its tripwire and the given result looks around at rest. If it
says that it awaits input, the machine is within an input instruction. -/
structure Consulted (source : σ) (calls : List (τ × Simulator σ))
    (result : RunStatus × τ × Simulator σ) : Prop where
  tripwire : ∀ call ∈ calls, call.2.AtRest source
  breakpoint : result.1 = .breakpoint → result.2.2.AtRest source
  awaitingInput : result.1 = .awaitingInput → result.2.2.machine.AwaitsInput

/-- A run that stops for another reason need only call its tripwire at rest. -/
theorem Consulted.of_ne {calls : List (τ × Simulator σ)} {status : RunStatus} {memory : τ}
    (hcalls : ∀ call ∈ calls, call.2.AtRest source) (hbreak : status ≠ .breakpoint)
    (hawait : status ≠ .awaitingInput) : Consulted source calls (status, memory, s) :=
  ⟨hcalls, fun h => absurd h hbreak, fun h => absurd h hawait⟩

/-- Rounds that go on from rest begin at rest, and lead to a simulator that rests again. -/
theorem Rests.rounds {tripwire : Tripwire τ σ} {breakpoints : List Breakpoint}
    {first last : τ × Simulator σ} {between : List (τ × Simulator σ)}
    (h : first.2.Rests source) (hrounds : Rounds tripwire breakpoints first between last) :
    (∀ start ∈ between, start.2.AtRest source) ∧ last.2.Rests source := by
  induction hrounds with
  | nil last => exact ⟨List.forall_mem_nil _, h⟩
  | @cons first next last between hround _ ih =>
      have hrest : first.2.AtRest source := h.rests.resolve_left (by simp [hround.running])
      obtain ⟨hbetween, hlast⟩ := ih (h.proceeds.step hround.progress).1
      exact ⟨List.forall_mem_cons.mpr ⟨hrest, hbetween⟩, hlast⟩

/-- A run from rest, with a tripwire that only looks at the simulator, looks around at rest. -/
theorem Rests.consulted (tripwire : Tripwire τ σ) (hpassive : ∀ t s, (tripwire t s).2.2 = s)
    (rounds : Nat) (memory : τ) (h : s.Rests source) :
    Consulted source (tripwireCalls tripwire rounds memory s)
      (runWhile tripwire rounds memory s) := by
  obtain ⟨earlier, last, hrounds, hends, hcalls⟩ := exists_rounds hpassive rounds memory s rfl
  have hfirst : (memory, s).2.Rests source := h
  obtain ⟨hearlier, hlast⟩ := hfirst.rounds hrounds
  generalize runWhile tripwire rounds memory s = result at hends hcalls ⊢
  obtain ⟨status, memory', t⟩ := result
  rw [hcalls]
  have hcall (hrunning : last.2.halted = false) :
      ∀ call ∈ earlier ++ [last], call.2.AtRest source := by
    have hrest : last.2.AtRest source := hlast.rests.resolve_left (by simp [hrunning])
    exact List.forall_mem_append.mpr ⟨hearlier, List.forall_mem_singleton.mpr hrest⟩
  cases hends with
  | paused => exact .of_ne (by simpa [lastCalls] using hearlier) (by decide) (by decide)
  | halted _ => exact .of_ne (by simpa [lastCalls] using hearlier) (by decide) (by decide)
  | tripwire hrunning _ => exact .of_ne (hcall hrunning) (by decide) (by decide)
  | awaitingInput hrunning _ hstep =>
      obtain ⟨hstands, -, -⟩ := waits_of_step_false hrunning hstep
      have hstuck := (hlast.proceeds.step hstep).2 rfl
      exact ⟨hcall hrunning, nofun, fun _ => hstuck.resolve_left (by simp [hstands])⟩
  | breakpoint hrunning _ hstep hstands _ =>
      have hrests := (hlast.proceeds.step hstep).1.rests
      exact ⟨hcall hrunning, fun _ => hrests.resolve_left (by simp [hstands]), nofun⟩

/-- Every run from the beginning of a cycle, in whatever state the simulator may have come to,
with any breakpoints, any input source and any tripwire that only looks at the simulator, calls
the tripwire and stops at breakpoints only between two instructions, or within an input
instruction because the source was not ready when it was last asked. If it says that it awaits
input, the machine is within an input instruction. -/
theorem consulted_at_rest {s₀ : Simulator σ} (hstart : s₀.Restarted)
    (h : History Usage.all 0 s₀ s) (hpc : s.machine.microPC = 0) (tripwire : Tripwire τ σ)
    (hpassive : ∀ t s, (tripwire t s).2.2 = s) (rounds limit : Nat) (memory : τ) :
    Consulted s.input (tripwireCalls tripwire rounds memory s)
        (runWhile tripwire rounds memory s) ∧
      ((s.run rounds).1 = .breakpoint → (s.run rounds).2.AtRest s.input) ∧
      ((s.runWithLimit limit).1 = .breakpoint → (s.runWithLimit limit).2.AtRest s.input) := by
  have hidle : s.machine.interrupt = .idle :=
    (h.preserves (fun _ _ hmove hidle => hidle.move hmove) hstart.startsIdle).machine hpc
  have hrests : s.Rests s.input :=
    ⟨⟨⟨0, rfl⟩, fun hne => absurd hidle hne⟩, .inr (.inl ⟨hpc, hidle⟩)⟩
  refine ⟨hrests.consulted tripwire hpassive rounds memory, ?_, ?_⟩
  · exact (hrests.consulted _ (fun _ _ => rfl) rounds ()).breakpoint
  · exact (hrests.consulted _ (fun _ _ => rfl) (roundsFor limit) ()).breakpoint

/-- A program that is put into memory word by word begins with an input instruction, and its
source is ready at every other question. -/
theorem consulted_at_rest_flaky_input :
    let s₀ : Simulator Script := (new {} (.flaky [5])).reset
    let s := { (s₀.setMem 0 0x5000).setMem 1 0x7000 with breakpoints := [.pc 1] }
    let tripwire : Tripwire Unit Script := watch fun s => s.machine.regs.ac != 5
    (s₀.Restarted ∧ History Usage.all 0 s₀ s ∧ s.machine.microPC = 0 ∧
      ∀ t u, (tripwire t u).2.2 = u) ∧
    Consulted s.input (tripwireCalls tripwire 4 () s) (runWhile tripwire 4 () s) ∧
      ((s.run 4).1 = .breakpoint → (s.run 4).2.AtRest s.input) ∧
      ((s.runWithLimit 4).1 = .breakpoint → (s.runWithLimit 4).2.AtRest s.input) := by
  intro s₀ s tripwire
  have hstart : s₀.Restarted := .reset _
  have h : History Usage.all 0 s₀ s :=
    (((History.refl s₀).setMem (Usage.mem_all _) 0 0x5000).setMem (Usage.mem_all _) 1
      0x7000).setBreakpoints (Usage.mem_all _) [.pc 1]
  have hpassive : ∀ t u, (tripwire t u).2.2 = u := fun _ _ => rfl
  exact ⟨⟨hstart, h, rfl, hpassive⟩,
    consulted_at_rest hstart h rfl tripwire hpassive 4 4 ()⟩

/-- A program that begins with an input instruction, whose source is never ready. With a
breakpoint on the next instruction the run stops at the breakpoint, and not because it awaits
input: PC has been incremented already. Without one the second call of the tripwire is within the
input instruction. -/
theorem breakpoint_within_input :
    let s₀ : Simulator Feed := ((new {} .empty).reset.setMem 0 0x5000).setMem 1 0x7000
    let s := { s₀ with breakpoints := [.pc 1] }
    (History Usage.all 0 (new {} .empty).reset s ∧ s.machine.Between) ∧
      (s.run 2).1 = .breakpoint ∧ (s.run 2).2.machine.AwaitsInput ∧
      ¬(s.run 2).2.machine.Between ∧ (s₀.run 2).1 = .awaitingInput ∧
      (tripwireCalls (watch fun _ => true) 2 () s₀).map (fun call => call.2.machine.microPC) =
        [0, 7] := by
  intro s₀ s
  have h : History Usage.all 0 (new {} .empty).reset s :=
    (((History.refl _).setMem (Usage.mem_all _) 0 0x5000).setMem (Usage.mem_all _) 1
      0x7000).setBreakpoints (Usage.mem_all _) [.pc 1]
  refine ⟨⟨h, rfl, rfl⟩, ?_, ⟨?_, ?_, ?_⟩, fun hbetween => absurd hbetween.1 ?_, ?_, ?_⟩
  all_goals decide +kernel

end Simulator

end Marie
