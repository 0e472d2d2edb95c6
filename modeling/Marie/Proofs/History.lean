/-
# Histories

Whatever happens to a simulator is a history: a sequence of calls, in any order, of the kinds
that are allowed. A history may also promise that the log never gets shorter than a number of
entries.

* `Simulator.History` lists the calls, and `Simulator.Move` the few single moves that they are
  made of;
* `Simulator.History.moves` : every history is a chain of single moves, none of which shortens
  the log below the floor. So what each move preserves every history preserves
  (`Simulator.History.preserves`);
* `Simulator.History.append` : histories in a row.
-/
import Marie.Proofs.Advance
import Marie.Simulator.Poke
import Marie.Simulator.Rewind
import Marie.Simulator.Run
import Mathlib.Logic.Relation

namespace Marie

/-- The kinds of calls on a simulator. -/
inductive Usage where
  /-- Micro-steps, steps and runs. -/
  | forward
  /-- Registers and memory set from outside. -/
  | poke
  /-- The halted flag set from outside. -/
  | halting
  /-- Micro-steps and steps taken back. -/
  | rewind
  /-- The input source replaced or changed from outside. -/
  | input
  /-- Loads and resets. -/
  | restart
  /-- Breakpoints added and removed. -/
  | breakpoints
  /-- Settings changed. -/
  | flags
  /-- The number of completed instructions set from outside. -/
  | count
deriving DecidableEq, Repr

/-- All kinds of calls. -/
def Usage.all : List Usage :=
  [.forward, .poke, .halting, .rewind, .input, .restart, .breakpoints, .flags, .count]

theorem Usage.mem_all (usage : Usage) : usage ∈ all := by
  cases usage <;> decide

namespace Simulator

variable {σ τ : Type} [InputSource σ]

/-- The calls of the tripwire that a run makes, each with the memory of the tripwire and the
simulator before the call. -/
def tripwireCalls (tripwire : Tripwire τ σ) (rounds : Nat) (t : τ) (s : Simulator σ) :
    List (τ × Simulator σ) :=
  match rounds with
  | 0 => []
  | rounds + 1 =>
    if s.halted then []
    else (t, s) ::
      match tripwire t s with
      | (false, _, _) => []
      | (true, t, s) =>
        match s.step with
        | (false, _) => []
        | (true, s) =>
          if !s.halted && s.atBreakpoint then []
          else tripwireCalls tripwire rounds t s

/-- The second simulator comes out of the first one by calls of the allowed kinds, during which
the log never has fewer entries than the floor. The tripwire of a run may operate the simulator;
then each of its calls is such a history itself. A run with a time budget is one whose tripwire
keeps a clock. -/
inductive History (allowed : List Usage) (floor : Nat) : Simulator σ → Simulator σ → Prop
  | refl (s : Simulator σ) : History allowed floor s s
  | microStep {s t : Simulator σ} (h : History allowed floor s t) (ha : .forward ∈ allowed) :
      History allowed floor s t.microStep.2
  | step {s t : Simulator σ} (h : History allowed floor s t) (ha : .forward ∈ allowed) :
      History allowed floor s t.step.2
  | run {s t : Simulator σ} (h : History allowed floor s t) (ha : .forward ∈ allowed)
      (rounds : Nat) : History allowed floor s (t.run rounds).2
  | runWithLimit {s t : Simulator σ} (h : History allowed floor s t) (ha : .forward ∈ allowed)
      (limit : Nat) : History allowed floor s (t.runWithLimit limit).2
  | runWhile {s t : Simulator σ} {τ : Type} (h : History allowed floor s t)
      (ha : .forward ∈ allowed) (tripwire : Tripwire τ σ) (rounds : Nat) (memory : τ)
      (hcalls : ∀ call ∈ tripwireCalls tripwire rounds memory t,
        History allowed floor call.2 (tripwire call.1 call.2).2.2) :
      History allowed floor s (Simulator.runWhile tripwire rounds memory t).2.2
  | setReg {s t : Simulator σ} (h : History allowed floor s t) (ha : .poke ∈ allowed)
      (reg : Reg) (w : Word) : History allowed floor s (t.setReg reg w)
  | setMem {s t : Simulator σ} (h : History allowed floor s t) (ha : .poke ∈ allowed)
      (addr w : Word) : History allowed floor s (t.setMem addr w)
  | setRegText {s t u : Simulator σ} (h : History allowed floor s t) (ha : .poke ∈ allowed)
      {name text : String} (hset : t.setRegText name text = .ok u) : History allowed floor s u
  | setMemText {s t u : Simulator σ} (h : History allowed floor s t) (ha : .poke ∈ allowed)
      {addr : Word} {text : String} (hset : t.setMemText addr text = .ok u) :
      History allowed floor s u
  | setHalted {s t : Simulator σ} (h : History allowed floor s t) (ha : .halting ∈ allowed)
      (halt : Bool) : History allowed floor s (t.setHalted halt)
  | microStepBack {s t : Simulator σ} (h : History allowed floor s t) (ha : .rewind ∈ allowed)
      (hfloor : floor ≤ t.microStepBack.2.log.size) :
      History allowed floor s t.microStepBack.2
  | stepBack {s t : Simulator σ} (h : History allowed floor s t) (ha : .rewind ∈ allowed)
      (hfloor : floor ≤ t.stepBack.2.log.size) : History allowed floor s t.stepBack.2
  | setInput {s t : Simulator σ} (h : History allowed floor s t) (ha : .input ∈ allowed)
      (input : σ) : History allowed floor s (t.setInput input)
  | load {s t u : Simulator σ} (h : History allowed floor s t) (ha : .restart ∈ allowed)
      (hfloor : floor = 0) {program : Program} (hload : t.load program = .ok u) :
      History allowed floor s u
  | reset {s t : Simulator σ} (h : History allowed floor s t) (ha : .restart ∈ allowed)
      (hfloor : floor = 0) : History allowed floor s t.reset
  | setBreakpoints {s t : Simulator σ} (h : History allowed floor s t)
      (ha : .breakpoints ∈ allowed) (breakpoints : List Breakpoint) :
      History allowed floor s { t with breakpoints }
  | setFlags {s t : Simulator σ} (h : History allowed floor s t) (ha : .flags ∈ allowed)
      (flags : Flags) : History allowed floor s { t with flags }
  | setCount {s t : Simulator σ} (h : History allowed floor s t) (ha : .count ∈ allowed)
      (count : Nat) : History allowed floor s (t.setCount count)

/-- A single move of a simulator. -/
inductive Move (allowed : List Usage) (floor : Nat) (s : Simulator σ) : Simulator σ → Prop
  | microStep (ha : .forward ∈ allowed) : Move allowed floor s s.microStep.2
  | setReg (ha : .poke ∈ allowed) (reg : Reg) (w : Word) :
      Move allowed floor s (s.setReg reg w)
  | setMem (ha : .poke ∈ allowed) (addr w : Word) : Move allowed floor s (s.setMem addr w)
  | setHalted (ha : .halting ∈ allowed) (halt : Bool) :
      Move allowed floor s (s.setHalted halt)
  | microStepBack (ha : .rewind ∈ allowed) (hfloor : floor ≤ s.microStepBack.2.log.size) :
      Move allowed floor s s.microStepBack.2
  | setInput (ha : .input ∈ allowed) (input : σ) : Move allowed floor s (s.setInput input)
  | load (ha : .restart ∈ allowed) (hfloor : floor = 0) {program : Program}
      {t : Simulator σ} (hload : s.load program = .ok t) : Move allowed floor s t
  | reset (ha : .restart ∈ allowed) (hfloor : floor = 0) : Move allowed floor s s.reset
  | setBreakpoints (ha : .breakpoints ∈ allowed) (breakpoints : List Breakpoint) :
      Move allowed floor s { s with breakpoints }
  | setFlags (ha : .flags ∈ allowed) (flags : Flags) : Move allowed floor s { s with flags }
  | setCount (ha : .count ∈ allowed) (count : Nat) : Move allowed floor s (s.setCount count)

omit [InputSource σ] in
/-- A program that is loaded starts in a machine that the program alone fixes. -/
theorem load_eq_ok {s t : Simulator σ} {program : Program} (h : s.load program = .ok t) :
    ∃ memory, Memory.load? program.origin program.words = some memory ∧
      t = { s with machine := ({ memory, origin := program.origin } : Machine).reset, log := ∅ } := by
  rw [load] at h
  split at h
  · rename_i m' hm'
    cases h
    obtain ⟨memory, hmemory, rfl⟩ := Option.map_eq_some_iff.mp hm'
    exact ⟨memory, hmemory, rfl⟩
  · cases h

omit [InputSource σ] in
/-- A program that fits in memory can be loaded. -/
theorem load_of_fits (s : Simulator σ) (program : Program)
    (h : program.origin.toNat + program.words.length ≤ memorySize) :
    s.load program =
      .ok { s with
        machine := ({ memory := .ofBlock program.origin.toNat program.words
                      origin := program.origin } : Machine).reset
        log := ∅ } := by
  rw [load, Machine.load?, Memory.load?, if_pos h]
  rfl

open Relation (ReflTransGen)

/-! ## Calls as chains of moves -/

section Chains

variable {allowed : List Usage} {floor : Nat}

/-- Finishing a cycle is a chain of micro-steps. -/
theorem moves_finishCycle (ha : .forward ∈ allowed) (s : Simulator σ) :
    ReflTransGen (Move allowed floor) s s.finishCycle := by
  fun_induction finishCycle s with
  | case1 s s' h =>
      have hmove : Move allowed floor s s.microStep.2 := .microStep ha
      rw [h] at hmove
      exact .single hmove
  | case2 s action s' h _ =>
      have hmove : Move allowed floor s s.microStep.2 := .microStep ha
      rw [h] at hmove
      exact .single hmove
  | case3 s action s' h _ ih =>
      have hmove : Move allowed floor s s.microStep.2 := .microStep ha
      rw [h] at hmove
      exact .head hmove ih

/-- A step is a chain of micro-steps. -/
theorem moves_step (ha : .forward ∈ allowed) (s : Simulator σ) :
    ReflTransGen (Move allowed floor) s s.step.2 := by
  have hmove : Move allowed floor s s.microStep.2 := .microStep ha
  unfold step
  split
  · rename_i s' h
    rw [h] at hmove
    exact .single hmove
  · rename_i action s' h
    rw [h] at hmove
    split
    · exact .single hmove
    · exact .head hmove (moves_finishCycle ha s')

/-- A run is a chain of moves if each call of its tripwire is. -/
theorem moves_runWhile (ha : .forward ∈ allowed) (tripwire : Tripwire τ σ) (rounds : Nat)
    (t : τ) (s : Simulator σ)
    (hcalls : ∀ call ∈ tripwireCalls tripwire rounds t s,
      ReflTransGen (Move allowed floor) call.2 (tripwire call.1 call.2).2.2) :
    ReflTransGen (Move allowed floor) s (runWhile tripwire rounds t s).2.2 := by
  induction rounds generalizing t s with
  | zero => exact .refl
  | succ rounds ih =>
      rw [runWhile]
      rw [tripwireCalls] at hcalls
      split
      · exact .refl
      · rename_i hrun
        rw [if_neg hrun] at hcalls
        have hfirst := hcalls (t, s) List.mem_cons_self
        split
        · rename_i t' s' htrip
          rw [htrip] at hfirst
          exact hfirst
        · rename_i t' s' htrip
          rw [htrip] at hfirst
          have hstep : ReflTransGen (Move allowed floor) s' s'.step.2 := moves_step ha s'
          split
          · rename_i u hu
            rw [hu] at hstep
            exact hfirst.trans hstep
          · rename_i u hu
            rw [hu] at hstep
            split
            · exact hfirst.trans hstep
            · rename_i hbreak
              -- the calls of the rounds that follow are among the calls of all rounds
              refine (hfirst.trans hstep).trans (ih t' u fun call hcall => ?_)
              apply hcalls call
              rw [htrip]
              simp only [hu, hbreak]
              exact List.mem_cons_of_mem _ hcall

/-- A tripwire that only looks at the simulator leaves a run a chain of moves. -/
theorem moves_runWhile_of_passive (ha : .forward ∈ allowed) (tripwire : Tripwire τ σ)
    (hpassive : ∀ t s, (tripwire t s).2.2 = s) (rounds : Nat) (t : τ) (s : Simulator σ) :
    ReflTransGen (Move allowed floor) s (runWhile tripwire rounds t s).2.2 := by
  apply moves_runWhile ha
  intro call _
  rw [hpassive]

omit [InputSource σ] in
/-- A call that succeeds in setting a register sets it to some word. -/
theorem exists_setReg_of_setRegText {s t : Simulator σ} {name text : String}
    (h : s.setRegText name text = .ok t) : ∃ reg w, t = s.setReg reg w := by
  unfold setRegText at h
  split at h
  · cases h
  · split at h
    · cases h
    · cases h
      exact ⟨_, _, rfl⟩

omit [InputSource σ] in
/-- A call that succeeds in setting a word of memory sets it to some word. -/
theorem exists_setMem_of_setMemText {s t : Simulator σ} {addr : Word} {text : String}
    (h : s.setMemText addr text = .ok t) : ∃ w, t = s.setMem addr w := by
  unfold setMemText at h
  split at h
  · cases h
  · cases h
    exact ⟨_, rfl⟩

/-- Taking back the entries of a cycle leaves no more entries than taking back one. -/
theorem length_rewindCycle_le (m : Machine) (entries : List LogEntry) :
    (m.rewindCycle entries).2.length ≤ entries.length - 1 := by
  induction entries generalizing m with
  | nil => exact Nat.le_refl 0
  | cons entry rest ih =>
      rw [Machine.rewindCycle]
      split
      · exact Nat.le_refl _
      · have hrest := ih (m.undoEntry entry)
        simp only [List.length_cons, Nat.add_sub_cancel]
        omega

/-- Taking back a cycle is a chain of micro-steps back. -/
theorem moves_stepBack (ha : .rewind ∈ allowed) (s : Simulator σ)
    (hfloor : floor ≤ s.stepBack.2.log.size) :
    ReflTransGen (Move allowed floor) s s.stepBack.2 := by
  obtain ⟨machine, ⟨entries⟩, flags, breakpoints, input⟩ := s
  -- induction on the log, which the floor bounds at every move before the last one as well
  induction entries generalizing machine with
  | nil => exact .refl
  | cons entry rest ih =>
      simp only [stepBack, Machine.rewindCycle] at hfloor ih ⊢
      split at hfloor
      · rename_i hstart
        rw [if_pos hstart]
        exact .single (.microStepBack ha hfloor)
      · rename_i hstart
        rw [if_neg hstart]
        have hle := length_rewindCycle_le (machine.undoEntry entry) rest
        have hfirst : floor ≤ rest.length := by
          simp only [Log.size] at hfloor
          omega
        exact .head (.microStepBack ha hfirst) (ih (machine.undoEntry entry) hfloor)

/-- A history is a chain of moves. -/
theorem History.moves {s t : Simulator σ} (h : History allowed floor s t) :
    ReflTransGen (Move allowed floor) s t := by
  -- a call that is no single move is a chain of them itself
  induction h with
  | refl s => exact .refl
  | microStep _ ha ih => exact .tail ih (.microStep ha)
  | step _ ha ih => exact ih.trans (moves_step ha _)
  | run _ ha rounds ih =>
      exact ih.trans (moves_runWhile_of_passive ha _ (fun _ _ => rfl) rounds () _)
  | runWithLimit _ ha limit ih =>
      exact ih.trans (moves_runWhile_of_passive ha _ (fun _ _ => rfl) (roundsFor limit) () _)
  | runWhile _ ha tripwire rounds memory _ ih ihcalls =>
      exact ih.trans (moves_runWhile ha tripwire rounds memory _ ihcalls)
  | setReg _ ha reg w ih => exact .tail ih (.setReg ha reg w)
  | setMem _ ha addr w ih => exact .tail ih (.setMem ha addr w)
  | setRegText _ ha hset ih =>
      obtain ⟨reg, w, rfl⟩ := exists_setReg_of_setRegText hset
      exact .tail ih (.setReg ha reg w)
  | setMemText _ ha hset ih =>
      obtain ⟨w, rfl⟩ := exists_setMem_of_setMemText hset
      exact .tail ih (.setMem ha _ w)
  | setHalted _ ha halt ih => exact .tail ih (.setHalted ha halt)
  | microStepBack _ ha hfloor ih => exact .tail ih (.microStepBack ha hfloor)
  | stepBack _ ha hfloor ih => exact ih.trans (moves_stepBack ha _ hfloor)
  | setInput _ ha input ih => exact .tail ih (.setInput ha input)
  | load _ ha hfloor hload ih => exact .tail ih (.load ha hfloor hload)
  | reset _ ha hfloor ih => exact .tail ih (.reset ha hfloor)
  | setBreakpoints _ ha breakpoints ih => exact .tail ih (.setBreakpoints ha breakpoints)
  | setFlags _ ha flags ih => exact .tail ih (.setFlags ha flags)
  | setCount _ ha count ih => exact .tail ih (.setCount ha count)

/-- What every move preserves every history preserves. -/
theorem History.preserves {P : Simulator σ → Prop}
    (hmove : ∀ s t, Move allowed floor s t → P s → P t) {s t : Simulator σ}
    (h : History allowed floor s t) (hs : P s) : P t := by
  have hchain := h.moves
  clear h
  induction hchain with
  | refl => exact hs
  | tail _ hlast ih => exact hmove _ _ hlast ih

/-- One more move at the end of a history, which leaves the log no shorter than the floor. -/
theorem History.snoc {s t u : Simulator σ} {usages : List Usage} {other : Nat}
    (h : History allowed floor s t) (husages : usages ⊆ allowed) (hmove : Move usages other t u)
    (hfloor : floor ≤ u.log.size) : History allowed floor s u := by
  cases hmove with
  | microStep ha => exact h.microStep (husages ha)
  | setReg ha reg w => exact h.setReg (husages ha) reg w
  | setMem ha addr w => exact h.setMem (husages ha) addr w
  | setHalted ha halt => exact h.setHalted (husages ha) halt
  | microStepBack ha _ => exact h.microStepBack (husages ha) hfloor
  | setInput ha input => exact h.setInput (husages ha) input
  | load ha _ hload =>
      obtain ⟨memory, _, rfl⟩ := load_eq_ok hload
      exact h.load (husages ha) (Nat.le_zero.mp hfloor) hload
  | reset ha _ => exact h.reset (husages ha) (Nat.le_zero.mp hfloor)
  | setBreakpoints ha breakpoints => exact h.setBreakpoints (husages ha) breakpoints
  | setFlags ha flags => exact h.setFlags (husages ha) flags
  | setCount ha count => exact h.setCount (husages ha) count

/-- Histories in a row are a history. -/
theorem History.append {s t u : Simulator σ} {usages : List Usage} {other : Nat}
    (h : History allowed 0 s t) (husages : usages ⊆ allowed) (hmore : History usages other t u) :
    History allowed 0 s u :=
  hmore.preserves (fun _ _ hmove hall => hall.snoc husages hmove (Nat.zero_le _)) h

end Chains

end Simulator

end Marie
