/-
# Delivery of input

Others may add numbers to a feed, and lock, unlock and poison it or go away, at any time between
the micro-steps of the simulator that reads from it. No number gets lost or is read twice: what was
sent is what the log says was received, and then what still waits.

* `Feed.poll_cases` : what one question to a queue may do;
* `Simulator.Interleaved` : forward calls, interleaved with what others do to the feed;
* `Simulator.Interleaved.preserves` : what micro-steps and others keep every interleaving keeps;
* `Simulator.delivers_in_order` : after every interleaving the input has been delivered in order.
-/
import Marie.Proofs.Polling
import Marie.Proofs.Rerun

namespace Marie

/-- The word that holds a number is the number modulo `2 ^ 16`. -/
theorem Word.toNat_ofInt_eq_emod (n : Int) : ((Word.ofInt n).toNat : Int) = n % 65536 := by
  have hlt : (n % 2 ^ 16).toNat < 2 ^ 16 := by omega
  rw [ofInt, UInt16.ofInt, UInt16.toNat_ofNat_of_lt' hlt]
  omega

/-- The values that a log says were received, with one entry more. -/
theorem inputs_entries_push (log : Log) (e : LogEntry) :
    inputs (log.push e).entries = inputs log.entries ++ e.action.input?.toList := by
  rw [Log.entries_push, inputs, inputs, List.filterMap_append, List.filterMap_cons]
  cases e.action.input? <;> rfl

namespace Machine

/-- A machine with a value in IN has settled. -/
theorem settle_of_needsLoad {m : Machine} (h : m.interrupt = .needsLoad) : m.settle = m := by
  rw [settle, h]

/-- A machine with a value in IN moves it to AC. -/
theorem Advance.of_needsLoad {m m' : Machine} {v : Option Int} {e : LogEntry}
    (h : m.Advance v e m') (hload : m.interrupt = .needsLoad) :
    ∃ old, e.action = .regTransfer .ac .inp old ∧ m'.regs.ac = m.regs.inp := by
  have hsettle := settle_of_needsLoad hload
  cases h with
  | perform _ hidle _ =>
      rw [hsettle, hload] at hidle
      cases hidle
  | takeInput _ _ =>
      rw [hsettle]
      exact ⟨m.regs.ac, rfl, Reg.fit_wide (by decide) (by decide) _⟩
  | receive _ _ hwait =>
      rw [hsettle, hload] at hwait
      cases hwait

end Machine

/-! ## Feeds as queues -/

namespace Feed

/-- Whether the feed is a queue that others may fill. -/
def isQueue : Feed → Bool
  | .buffer _ => true
  | .channel _ => true
  | _ => false

/-- The numbers that wait in a queue, the next one first. -/
def waiting : Feed → List Int
  | .buffer b => b.numbers
  | .channel c => c.numbers
  | _ => []

/-- Whether someone holds the lock of the feed. -/
def locked : Feed → Bool
  | .buffer b => b.locked
  | _ => false

/-- What others may do to a queue, and the numbers that they add to it. The holder of the lock may
add numbers without giving it back. -/
inductive Supply : Feed → List Int → Feed → Prop
  | push {b b' : Buffer} {numbers : List Int} (h : b.push? numbers = some b') :
      Supply (.buffer b) numbers (.buffer b')
  | pushLocked {b : Buffer} (numbers : List Int) (h : b.locked = true) :
      Supply (.buffer b) numbers (.buffer { b with numbers := b.numbers ++ numbers })
  | lock (b : Buffer) : Supply (.buffer b) [] (.buffer b.lock)
  | unlock (b : Buffer) : Supply (.buffer b) [] (.buffer b.unlock)
  | poison (b : Buffer) : Supply (.buffer b) [] (.buffer b.poison)
  | send {c c' : Channel} {numbers : List Int} (h : c.send? numbers = some c') :
      Supply (.channel c) numbers (.channel c')
  | disconnect (c : Channel) : Supply (.channel c) [] (.channel c.disconnect)

variable {feed feed' : Feed} {added : List Int}

/-- Others leave a queue a queue. -/
theorem Supply.isQueue (h : Supply feed added feed') : feed'.isQueue = true := by
  cases h <;> rfl

/-- Others add numbers at the end of the queue, and take none away. -/
theorem Supply.waiting (h : Supply feed added feed') : feed'.waiting = feed.waiting ++ added := by
  cases h with
  | @push b b' _ h =>
      rw [Buffer.push?] at h
      split at h
      · cases h
      · cases h
        rfl
  | @send c c' _ h =>
      rw [Channel.send?] at h
      split at h
      · cases h
        rfl
      · cases h
  | pushLocked _ _ => rfl
  | lock b => exact (List.append_nil b.numbers).symm
  | unlock b => exact (List.append_nil b.numbers).symm
  | poison b => exact (List.append_nil b.numbers).symm
  | disconnect c => exact (List.append_nil c.numbers).symm

/-- A queue that is locked or empty is not ready and stays as it is. Otherwise it answers with
the number that waits first, and that number only is gone. -/
theorem poll_cases (h : feed.isQueue = true) :
    (feed.locked = true ∨ feed.waiting = []) ∧ InputSource.poll feed = (none, feed) ∨
      (feed.locked = false ∧ ∃ n feed', feed.waiting = n :: feed'.waiting ∧
        feed'.isQueue = true ∧ InputSource.poll feed = (some n, feed')) := by
  cases feed with
  | empty => cases h
  | script _ => cases h
  | buffer b =>
      obtain ⟨numbers, locked, poisoned⟩ := b
      cases locked with
      | true => exact .inl ⟨.inl rfl, rfl⟩
      | false =>
          cases numbers with
          | nil => exact .inl ⟨.inr rfl, rfl⟩
          | cons n rest => exact .inr ⟨rfl, n, .buffer ⟨rest, false, poisoned⟩, rfl, rfl, rfl⟩
  | channel c =>
      obtain ⟨numbers, hasSender⟩ := c
      cases numbers with
      | nil => exact .inl ⟨.inr rfl, rfl⟩
      | cons n rest => exact .inr ⟨rfl, n, .channel ⟨rest, hasSender⟩, rfl, rfl, rfl⟩

/-- A question in vain changes nothing. -/
theorem poll_none (h : feed.isQueue = true) (hpoll : InputSource.poll feed = (none, feed')) :
    feed' = feed := by
  rcases poll_cases h with ⟨-, hnone⟩ | ⟨-, n, next, -, -, hsome⟩
  · exact congrArg Prod.snd (hpoll.symm.trans hnone)
  · cases hpoll.symm.trans hsome

/-- An answer takes the number that waits first. -/
theorem poll_some (h : feed.isQueue = true) {n : Int}
    (hpoll : InputSource.poll feed = (some n, feed')) :
    feed.waiting = n :: feed'.waiting ∧ feed'.isQueue = true := by
  rcases poll_cases h with ⟨-, hnone⟩ | ⟨-, k, next, hwaiting, hqueue, hsome⟩
  · cases hpoll.symm.trans hnone
  · cases hpoll.symm.trans hsome
    exact ⟨hwaiting, hqueue⟩

/-- A queue is not ready exactly if it is locked or empty. -/
theorem poll_eq_none_iff (h : feed.isQueue = true) :
    (InputSource.poll feed).1 = none ↔ feed.locked = true ∨ feed.waiting = [] := by
  rcases poll_cases h with ⟨hbusy, hpoll⟩ | ⟨hfree, n, _, hwaiting, -, hpoll⟩
  · rw [hpoll]
    exact ⟨fun _ => hbusy, fun _ => rfl⟩
  · rw [hpoll, hfree, hwaiting]
    simp

end Feed

namespace Simulator

/-! ## Interleavings -/

/-- The second simulator comes out of the first one by forward calls, interleaved with what others
do to its feed, who add the given numbers. What others do while a step or a run is going on comes
between its micro-steps; the tripwire of a run may do all of this itself. -/
inductive Interleaved : List Int → Simulator Feed → Simulator Feed → Prop
  | refl (s : Simulator Feed) : Interleaved [] s s
  | supply {sent added : List Int} {s t : Simulator Feed} {input : Feed}
      (h : Interleaved sent s t) (hsupply : t.input.Supply added input) :
      Interleaved (sent ++ added) s (t.setInput input)
  | microStep {sent : List Int} {s t : Simulator Feed} (h : Interleaved sent s t) :
      Interleaved sent s t.microStep.2
  | step {sent : List Int} {s t : Simulator Feed} (h : Interleaved sent s t) :
      Interleaved sent s t.step.2
  | run {sent : List Int} {s t : Simulator Feed} (h : Interleaved sent s t) (rounds : Nat) :
      Interleaved sent s (t.run rounds).2
  | runWithLimit {sent : List Int} {s t : Simulator Feed} (h : Interleaved sent s t)
      (limit : Nat) : Interleaved sent s (t.runWithLimit limit).2
  | runWhile {sent : List Int} {s t : Simulator Feed} {τ : Type} (h : Interleaved sent s t)
      (tripwire : Tripwire τ Feed) (rounds : Nat) (memory : τ)
      (added : τ × Simulator Feed → List Int)
      (hcalls : ∀ call ∈ tripwireCalls tripwire rounds memory t,
        Interleaved (added call) call.2 (tripwire call.1 call.2).2.2) :
      Interleaved (sent ++ (tripwireCalls tripwire rounds memory t).flatMap added) s
        (Simulator.runWhile tripwire rounds memory t).2.2

section Preserves

variable {τ : Type} {P : List Int → Simulator Feed → Prop} {sent added : List Int}
  {s t : Simulator Feed}

/-- What micro-steps keep a step keeps. -/
theorem step_preserves (hmicro : ∀ sent s, P sent s → P sent s.microStep.2) (hs : P sent s) :
    P sent s.step.2 := by
  have hmoves : Relation.ReflTransGen (Move [.forward] 0) s s.step.2 := moves_step (by decide) s
  generalize s.step.2 = t at hmoves
  induction hmoves with
  | refl => exact hs
  | tail _ hmove ih =>
      cases hmove with
      | microStep _ => exact hmicro sent _ ih
      | _ => contradiction

/-- What micro-steps and the calls of the tripwire keep a run keeps. -/
theorem runWhile_preserves (hmicro : ∀ sent s, P sent s → P sent s.microStep.2)
    (tripwire : Tripwire τ Feed) (rounds : Nat) (memory : τ)
    (added : τ × Simulator Feed → List Int)
    (hcalls : ∀ call ∈ tripwireCalls tripwire rounds memory s, ∀ sent, P sent call.2 →
      P (sent ++ added call) (tripwire call.1 call.2).2.2) (hs : P sent s) :
    P (sent ++ (tripwireCalls tripwire rounds memory s).flatMap added)
      (runWhile tripwire rounds memory s).2.2 := by
  induction rounds generalizing memory sent s with
  | zero =>
      rw [tripwireCalls, runWhile, List.flatMap_nil, List.append_nil]
      exact hs
  | succ rounds ih =>
      rw [tripwireCalls] at hcalls ⊢
      rw [runWhile]
      by_cases hhalted : s.halted = true
      · rw [if_pos hhalted, if_pos hhalted, List.flatMap_nil, List.append_nil]
        exact hs
      · rw [if_neg hhalted] at hcalls ⊢
        rw [if_neg hhalted, List.flatMap_cons, ← List.append_assoc]
        have hfirst := hcalls _ List.mem_cons_self sent hs
        rcases htrip : tripwire memory s with ⟨go, memory', s'⟩
        rw [htrip] at hfirst hcalls
        cases go with
        | false =>
            rw [List.flatMap_nil, List.append_nil]
            exact hfirst
        | true =>
            have hstep := step_preserves hmicro hfirst
            rcases hu : s'.step with ⟨progress, u⟩
            rw [hu] at hstep
            simp only [hu] at hcalls ⊢
            cases progress with
            | false =>
                rw [List.flatMap_nil, List.append_nil]
                exact hstep
            | true =>
                by_cases hbreak : (!u.halted && u.atBreakpoint) = true
                · simp only [hbreak, if_true]
                  rw [List.flatMap_nil, List.append_nil]
                  exact hstep
                · simp only [hbreak] at hcalls ⊢
                  exact ih memory' (fun call hcall => hcalls call (List.mem_cons_of_mem _ hcall))
                    hstep

/-- What micro-steps keep a run keeps, if its tripwire only looks at the simulator. -/
theorem watch_preserves (hmicro : ∀ sent s, P sent s → P sent s.microStep.2)
    (test : Simulator Feed → Bool) (rounds : Nat) (hs : P sent s) :
    P sent (runWhile (watch test) rounds () s).2.2 := by
  have hnone : (tripwireCalls (watch test) rounds () s).flatMap (fun _ => ([] : List Int)) = [] :=
    List.flatMap_eq_nil_iff.mpr fun _ _ => rfl
  have hrun := runWhile_preserves hmicro (watch test) rounds () (fun _ => [])
    (fun call _ sent hcall => by rw [List.append_nil]; exact hcall) hs
  rw [hnone, List.append_nil] at hrun
  exact hrun

/-- What micro-steps keep, and what others do to the feed keeps with the numbers that they add,
every interleaving keeps. -/
theorem Interleaved.preserves (hmicro : ∀ sent s, P sent s → P sent s.microStep.2)
    (hsupply : ∀ sent s added input, P sent s → s.input.Supply added input →
      P (sent ++ added) (s.setInput input))
    (h : Interleaved added s t) (hs : P sent s) : P (sent ++ added) t := by
  induction h generalizing sent with
  | refl s =>
      rw [List.append_nil]
      exact hs
  | supply _ hsupplied ih =>
      rw [← List.append_assoc]
      exact hsupply _ _ _ _ (ih hs) hsupplied
  | microStep _ ih => exact hmicro _ _ (ih hs)
  | step _ ih => exact step_preserves hmicro (ih hs)
  | run _ rounds ih => exact watch_preserves hmicro _ rounds (ih hs)
  | runWithLimit _ limit ih => exact watch_preserves hmicro _ (roundsFor limit) (ih hs)
  | runWhile _ tripwire rounds memory added _ ih ihcalls =>
      rw [← List.append_assoc]
      exact runWhile_preserves hmicro tripwire rounds memory added
        (fun call hcall _ => ihcalls call hcall) (ih hs)

end Preserves

/-! ## Conservation -/

/-- The numbers that were sent are those that the log says were received, and then those that
still wait. -/
structure Conserves (sent : List Int) (s : Simulator Feed) : Prop where
  logging : s.flags.enableLog = true
  queue : s.input.isQueue = true
  taken : ∃ taken, sent = taken ++ s.input.waiting ∧
    inputs s.log.entries = taken.map Word.ofInt

variable {sent added : List Int} {s t : Simulator Feed}

/-- A micro-step takes the number that it records. -/
theorem Conserves.microStep (h : s.Conserves sent) : s.microStep.2.Conserves sent := by
  obtain ⟨hlogging, hqueue, taken, hsent, hinputs⟩ := h
  have hcases := s.microStep_cases
  generalize s.microStep = r at hcases
  cases hcases with
  | halted _ => exact ⟨hlogging, hqueue, taken, hsent, hinputs⟩
  | notReady input _ _ hpoll =>
      obtain rfl := Feed.poll_none hqueue hpoll
      exact ⟨hlogging, hqueue, taken, hsent, hinputs⟩
  | @advance e m' hadv =>
      rw [commitEntry_of_enableLog hlogging]
      refine ⟨hlogging, hqueue, taken, hsent, ?_⟩
      rw [inputs_entries_push, hadv.input?_eq, hinputs]
      exact List.append_nil _
  | @receive n input e m' hpoll hadv =>
      rw [commitEntry_of_enableLog (s := { s with input }) hlogging]
      obtain ⟨hwaiting, hqueue'⟩ := Feed.poll_some hqueue hpoll
      refine ⟨hlogging, hqueue', taken ++ [n], ?_, ?_⟩
      · rw [hsent, hwaiting, List.append_assoc]
        rfl
      · rw [inputs_entries_push, hadv.input?_eq, hinputs, List.map_append]
        rfl

/-- What others add to the feed comes behind the numbers that wait. -/
theorem Conserves.setInput (h : s.Conserves sent) {input : Feed}
    (hsupply : s.input.Supply added input) : (s.setInput input).Conserves (sent ++ added) := by
  obtain ⟨hlogging, _, taken, hsent, hinputs⟩ := h
  refine ⟨hlogging, hsupply.isQueue, taken, ?_, hinputs⟩
  show sent ++ added = taken ++ input.waiting
  rw [hsupply.waiting, hsent, List.append_assoc]

/-! ## Loads -/

/-- A value that was received last stands in IN and is about to go to AC, and the ones before it
have gone there next. -/
structure LoadsInputs (s : Simulator Feed) : Prop where
  newest : ∀ e older new, s.log.recent = e :: older → e.action.input? = some new →
    s.machine.halted = false ∧ s.machine.interrupt = .needsLoad ∧ s.machine.regs.inp = new
  next : ∀ newer e' e older new, s.log.recent = newer ++ e' :: e :: older →
    e.action.input? = some new → ∃ old, e'.action = .regTransfer .ac .inp old

/-- Recording a transition of the machine. -/
theorem LoadsInputs.push (h : s.LoadsInputs) {v : Option Int} {e : LogEntry} {m' : Machine}
    (hadv : s.machine.Advance v e m') (input : Feed) :
    { s with machine := m', log := s.log.push e, input }.LoadsInputs := by
  refine ⟨fun e₁ older new hrecent hnew => ?_, fun newer e' e₁ older new hrecent hnew => ?_⟩
  · obtain ⟨rfl, -⟩ := List.cons.inj hrecent
    rw [hadv.input?_eq] at hnew
    cases hadv with
    | perform _ _ _ => cases hnew
    | takeInput _ _ => cases hnew
    | receive n hrun _ =>
        obtain rfl := Option.some.inj hnew
        have hrun' : s.machine.settle.halted = false := by rw [Machine.settle_halted, hrun]
        exact ⟨hrun', rfl, Reg.fit_wide (by decide) (by decide) _⟩
  · cases newer with
    | nil =>
        obtain ⟨rfl, hrest⟩ := List.cons.inj hrecent
        obtain ⟨-, hload, -⟩ := h.newest e₁ older new hrest hnew
        obtain ⟨old, haction, -⟩ := hadv.of_needsLoad hload
        exact ⟨old, haction⟩
    | cons _ newer =>
        obtain ⟨-, hrest⟩ := List.cons.inj hrecent
        exact h.next newer e' e₁ older new hrest hnew

/-- A micro-step moves a value that was received last to AC. -/
theorem LoadsInputs.microStep (h : s.LoadsInputs) (hlogging : s.flags.enableLog = true) :
    s.microStep.2.LoadsInputs := by
  have hcases := s.microStep_cases
  generalize s.microStep = r at hcases
  cases hcases with
  | halted _ => exact h
  | notReady input _ hwait _ =>
      refine ⟨fun e older new hrecent hnew => ?_, h.next⟩
      -- the machine cannot wait for a value while one is about to go to AC
      obtain ⟨-, hload, -⟩ := h.newest e older new hrecent hnew
      rw [Machine.settle_of_needsLoad hload, hload] at hwait
      cases hwait
  | advance hadv =>
      rw [commitEntry_of_enableLog hlogging]
      exact h.push hadv s.input
  | @receive _ input _ _ _ hadv =>
      rw [commitEntry_of_enableLog (s := { s with input }) hlogging]
      exact h.push hadv input

/-! ## Delivery in order -/

/-- The numbers that were sent to the feed are delivered exactly once and in order. -/
structure DeliversInOrder (sent : List Int) (s : Simulator Feed) : Prop where
  /-- The values that the log says were received are the first numbers modulo `2 ^ 16`. -/
  received : (inputs s.log.entries).map (fun w => (w.toNat : Int)) =
    (sent.take (inputs s.log.entries).length).map (· % 65536)
  /-- The other numbers wait, in the same order. -/
  waiting : s.input.waiting = sent.drop (inputs s.log.entries).length
  /-- A micro-step asks the feed only if the machine waits for a value, and only once. -/
  asks : answersTo Simulator.microStep s =
    if s.machine.halted = false ∧ s.machine.settle.interrupt = .needsValue
    then [(InputSource.poll s.input).1] else []
  /-- The feed is not ready exactly if it is locked or empty. -/
  refuses : (InputSource.poll s.input).1 = none ↔ s.input.locked = true ∨ s.input.waiting = []
  /-- If it is not ready, a micro-step that asks it does nothing but settle the machine. -/
  refused : answersTo Simulator.microStep s = [none] →
    s.microStep = (none, { s with machine := s.machine.settle }) ∧
      s.machine.SameData s.machine.settle
  /-- If it is ready, a micro-step that asks it receives the number that waits first. -/
  accepted : ∀ n, answersTo Simulator.microStep s = [some n] →
    (∃ old, s.microStep.1 = some (.input old (Word.ofInt n))) ∧
      s.input.waiting = n :: s.microStep.2.input.waiting
  /-- After a value was received, the next micro-step moves it to AC. -/
  loads : ∀ e old new, s.log.last? = some e → e.action = .input old new →
    ∃ oldAC, s.microStep.1 = some (.regTransfer .ac .inp oldAC) ∧
      s.microStep.2.machine.regs.ac = new
  /-- The entry after that of a value received is the one of its move to AC. -/
  next : ∀ before e e' after old new, s.log.entries = before ++ e :: e' :: after →
    e.action = .input old new → ∃ oldAC, e'.action = .regTransfer .ac .inp oldAC

/-- If the feed is asked and not ready, nothing happens but that the machine settles. -/
theorem Conserves.microStep_of_refused (h : s.Conserves sent)
    (hrefused : answersTo Simulator.microStep s = [none]) :
    s.microStep = (none, { s with machine := s.machine.settle }) := by
  obtain ⟨hrun, hwait, hanswer⟩ := waits_of_answersTo_microStep hrefused
  rcases hpoll : InputSource.poll s.input with ⟨answer, input⟩
  rw [hpoll] at hanswer
  obtain rfl : answer = none := hanswer
  rw [microStep_of_notReady hrun hwait hpoll, Feed.poll_none h.queue hpoll]

/-- If the feed is asked and ready, the number that waits first is received. -/
theorem Conserves.microStep_of_accepted (h : s.Conserves sent) {n : Int}
    (haccepted : answersTo Simulator.microStep s = [some n]) :
    (∃ old, s.microStep.1 = some (.input old (Word.ofInt n))) ∧
      s.input.waiting = n :: s.microStep.2.input.waiting := by
  obtain ⟨hrun, hwait, hanswer⟩ := waits_of_answersTo_microStep haccepted
  rcases hpoll : InputSource.poll s.input with ⟨answer, input⟩
  rw [hpoll] at hanswer
  obtain rfl : answer = some n := hanswer
  rw [microStep_of_receive hpoll (.receive n hrun hwait), input_commitEntry]
  exact ⟨⟨_, rfl⟩, (Feed.poll_some h.queue hpoll).1⟩

/-- After a value was received, the next micro-step moves it to AC. -/
theorem LoadsInputs.microStep_of_newest (h : s.LoadsInputs) {e : LogEntry} {new : Word}
    (hlast : s.log.last? = some e) (hnew : e.action.input? = some new) :
    ∃ oldAC, s.microStep.1 = some (.regTransfer .ac .inp oldAC) ∧
      s.microStep.2.machine.regs.ac = new := by
  obtain ⟨older, hrecent⟩ := List.head?_eq_some_iff.mp hlast
  obtain ⟨hrun, hload, hinp⟩ := h.newest e older new hrecent hnew
  have hadv := Machine.Advance.takeInput (m := s.machine) hrun
    (by rw [Machine.settle_of_needsLoad hload]; exact hload)
  obtain ⟨old, haction, hac⟩ := hadv.of_needsLoad hload
  rw [microStep_of_advance hadv, commitEntry_eq_commitTrace]
  refine ⟨old, congrArg some haction, ?_⟩
  rw [machine_commitTrace, ← hinp]
  exact hac

/-- A simulator reads from a queue, with an empty log that is on. However its forward calls are
interleaved with what others do to the queue, the numbers that were waiting and those that others
add are delivered exactly once and in order. -/
theorem delivers_in_order {s₀ : Simulator Feed} (hlog : s₀.log = ∅)
    (hlogging : s₀.flags.enableLog = true) (hqueue : s₀.input.isQueue = true)
    (h : Interleaved added s₀ s) : s.DeliversInOrder (s₀.input.waiting ++ added) := by
  have hstart : s₀.Conserves s₀.input.waiting ∧ s₀.LoadsInputs := by
    refine ⟨⟨hlogging, hqueue, [], rfl, by rw [hlog]; rfl⟩, ?_, ?_⟩
    · intro e older new hrecent _
      rw [hlog] at hrecent
      cases hrecent
    · intro newer e' e older new hrecent _
      rw [hlog] at hrecent
      cases newer <;> cases hrecent
  obtain ⟨hconserves, hloads⟩ :=
    h.preserves (P := fun sent s => s.Conserves sent ∧ s.LoadsInputs)
      (fun _ _ h => ⟨h.1.microStep, h.2.microStep h.1.logging⟩)
      (fun _ _ _ _ h hsupply => ⟨h.1.setInput hsupply, h.2.newest, h.2.next⟩) hstart
  obtain ⟨taken, hsent, hinputs⟩ := hconserves.taken
  have hlength : (inputs s.log.entries).length = taken.length := by
    rw [hinputs, List.length_map]
  refine
    { received := ?_
      waiting := ?_
      asks := answersTo_microStep s
      refuses := Feed.poll_eq_none_iff hconserves.queue
      refused := fun hrefused =>
        ⟨hconserves.microStep_of_refused hrefused, s.machine.sameData_settle⟩
      accepted := fun n haccepted => hconserves.microStep_of_accepted haccepted
      loads := fun e old new hlast haction =>
        hloads.microStep_of_newest hlast (by rw [haction]; rfl)
      next := ?_ }
  · rw [hlength, hsent, List.take_left, hinputs, List.map_map]
    exact List.map_congr_left fun n _ => Word.toNat_ofInt_eq_emod n
  · rw [hlength, hsent, List.drop_left]
  · intro before e e' after old new hentries haction
    -- the entries are kept newest first
    have hrecent : s.log.recent = after.reverse ++ e' :: e :: before.reverse := by
      have hreverse := congrArg List.reverse hentries
      rw [Log.entries, List.reverse_reverse] at hreverse
      simpa using hreverse
    exact hloads.next _ e' e _ new hrecent (by rw [haction]; rfl)

/-- A machine waits for a value, and asks in vain while someone holds the lock of the buffer, who
adds two numbers and gives the lock back. The machine receives the first number before the lock
is poisoned, and the second one in a run after that. -/
theorem delivers_in_order_contended :
    let s₀ : Simulator Feed :=
      { machine :=
          { memory := (Memory.zero.set 0 0x5000).set 1 0x7000
            decoded := some .input
            microPC := 7
            interrupt := .needsValue }
        input := .buffer {} }
    let asked := (s₀.setInput (.buffer { locked := true })).microStep.2
    let filled := asked.setInput (.buffer { numbers := [70000, 3], locked := true })
    let served := (filled.setInput (.buffer { numbers := [70000, 3] })).microStep.2
    let s := ((served.setInput (.buffer { numbers := [3], poisoned := true })).run 3).2
    (s₀.log = ∅ ∧ s₀.flags.enableLog = true ∧ s₀.input.isQueue = true ∧
      Interleaved [70000, 3] s₀ s) ∧
      inputs s.log.entries = [4464, 3] ∧ s.DeliversInOrder [70000, 3] := by
  intro s₀ asked filled served s
  have hasked : Interleaved [] s₀ asked := (Interleaved.refl s₀).supply (.lock {}) |>.microStep
  have hfilled : Interleaved [70000, 3] s₀ filled :=
    hasked.supply (.pushLocked (b := { locked := true }) [70000, 3] rfl)
  have hserved : Interleaved [70000, 3] s₀ served :=
    (hfilled.supply (.unlock { numbers := [70000, 3], locked := true })).microStep
  have h : Interleaved [70000, 3] s₀ s := (hserved.supply (.poison { numbers := [3] })).run 3
  refine ⟨⟨rfl, rfl, rfl, h⟩, by decide +kernel, ?_⟩
  exact delivers_in_order rfl rfl rfl h

end Simulator

end Marie
