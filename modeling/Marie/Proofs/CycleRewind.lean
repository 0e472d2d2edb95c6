/-
# Taking back whole cycles

A step back takes back the newest entries of the log down to the one that began a cycle. A step
that begins a cycle records that beginning first and no other one after it, whether it completes the
cycle, or is cut short because the machine halts or the input source is not ready. What is changed
from outside after it does not begin a cycle either. So a step back leads to where the step began.

* `Machine.Advance.begins`, `Machine.Advance.within` : which transitions begin a cycle;
* `Machine.Ledger.between` : the beginning of a cycle is between two instructions;
* `Simulator.stepBack_cases` : what a step back takes away;
* `Simulator.Opened` : one cycle has begun since some moment, and the log leads back there;
* `Simulator.stepBack_cycles` : as many steps back as cycles have begun.
-/
import Marie.Proofs.Consultation
import Marie.Proofs.DecodedCycle

namespace Marie

namespace Machine

/-! ## The beginning of a cycle -/

namespace Advance

variable {m m' : Machine} {v : Option Int} {e : LogEntry}

/-- The transition between two instructions begins a cycle, at the address in PC. -/
theorem begins (h : m.Advance v e m') (hbetween : m.Between) :
    e.action = .stepStart m.regs.pc ∧ m'.microPC = 1 := by
  obtain ⟨hpc, hidle⟩ := hbetween
  have hsettle := settle_of_microPC_eq_zero hpc
  cases h with
  | perform _ _ hperform =>
      rw [hsettle] at hperform
      rcases perform_cases hperform with ⟨hnone, -, -⟩ | ⟨op, m₁, hop, hexecute, rfl⟩
      · simp [nextOp?, hpc, fetchDecode] at hnone
      · obtain rfl : MicroOp.stepStart = op := by simpa [nextOp?, hpc, fetchDecode] using hop
        cases hexecute
        exact ⟨rfl, congrArg (· + 1) hpc⟩
  | takeInput _ hload =>
      rw [hsettle, hidle] at hload
      cases hload
  | receive _ _ hwait =>
      rw [hsettle, hidle] at hwait
      cases hwait

/-- A transition within a cycle does not begin one, and stays within the cycle unless it ends it. -/
theorem within (h : m.Advance v e m') (hpc : m.microPC ≠ 0) :
    e.action.isStepStart = false ∧ (e.action.isStepEnd = false → m'.microPC ≠ 0) := by
  have hsettle : m.settle.microPC ≠ 0 := by
    rcases m.settle_eq_or_fetched with heq | ⟨-, hle⟩
    · rw [heq]
      exact hpc
    · rw [length_fetchDecode] at hle
      omega
  cases h with
  | perform _ _ hperform =>
      rcases perform_cases hperform with ⟨-, rfl, rfl⟩ | ⟨op, m₁, hop, hexecute, rfl⟩
      · exact ⟨rfl, fun hend => by cases hend⟩
      · refine ⟨?_, fun _ => Nat.succ_ne_zero _⟩
        rcases nextOp?_cases hop with ⟨hzero, -⟩ | ⟨-, rfl⟩ | ⟨-, -, hstart, hdecode⟩
        · exact absurd hzero hsettle
        · simp only [execute, decode] at hexecute
          split at hexecute
          · cases hexecute; rfl
          · cases hexecute; rfl
        · exact (execute_of_ne hstart hdecode hexecute).1
  | takeInput _ _ => exact ⟨rfl, fun _ => hsettle⟩
  | receive _ _ _ => exact ⟨rfl, fun _ => hsettle⟩

end Advance

/-- At the beginning of a cycle a machine with a ledger has no request for input. -/
theorem Ledger.between {allowed : List Usage} {es : List LogEntry} {m : Machine}
    (h : m.Ledger allowed es) (hpc : m.microPC = 0) : m.Between := by
  have hidle : Simulator.IdleAtStart m.microPC m.interrupt := by
    clear hpc
    induction h with
    | reset m => exact fun _ => rfl
    | settle _ ih => exact ih.settle
    | advance _ hadv ih => exact (ih.advance hadv).1
    | change _ hchange ih =>
        obtain ⟨hpc, hinterrupt⟩ := Prod.mk.inj hchange.control.1
        rw [hpc, hinterrupt]
        exact ih
  exact ⟨hpc, hidle hpc⟩

/-! ## Taking back down to a beginning -/

variable (m : Machine) {newer older : List LogEntry} {e : LogEntry}

/-- Taking back a cycle goes on beyond entries that do not begin one. -/
theorem rewindCycle_append (hnewer : ∀ e ∈ newer, e.action.isStepStart = false)
    (rest : List LogEntry) : m.rewindCycle (newer ++ rest) = (m.unwind newer).rewindCycle rest := by
  induction newer generalizing m with
  | nil => rfl
  | cons first newer ih =>
      obtain ⟨hfirst, hnewer⟩ := List.forall_mem_cons.mp hnewer
      have hgo : ¬first.action.isStepStart = true := by simp [hfirst]
      exact (if_neg hgo).trans (ih (m.undoEntry first) hnewer)

/-- Taking back a cycle stops at the newest entry that begins one. -/
theorem rewindCycle_of_start (hnewer : ∀ e ∈ newer, e.action.isStepStart = false)
    (hstart : e.action.isStepStart = true) :
    m.rewindCycle (newer ++ e :: older) = (m.unwind (newer ++ [e]), older) := by
  rw [m.rewindCycle_append hnewer, unwind_append_singleton]
  exact if_pos hstart

end Machine

/-- The first entry begins a cycle, and no other one does. -/
def BeginsCycle (es : List LogEntry) : Prop :=
  ∃ e rest, es = e :: rest ∧ e.action.isStepStart = true ∧
    ∀ e' ∈ rest, e'.action.isStepStart = false

/-- Entries, newest first, are cut at the newest one that begins a cycle, or none of them does. -/
theorem exists_newest_start (es : List LogEntry) :
    (∃ newer e older, es = newer ++ e :: older ∧ e.action.isStepStart = true ∧
      ∀ e' ∈ newer, e'.action.isStepStart = false) ∨
    ∀ e ∈ es, e.action.isStepStart = false := by
  induction es with
  | nil => exact .inr (List.forall_mem_nil _)
  | cons first rest ih =>
      cases hfirst : first.action.isStepStart with
      | true => exact .inl ⟨[], first, rest, rfl, hfirst, List.forall_mem_nil _⟩
      | false =>
          rcases ih with ⟨newer, e, older, rfl, hstart, hnewer⟩ | hnone
          · exact .inl ⟨first :: newer, e, older, rfl, hstart,
              List.forall_mem_cons.mpr ⟨hfirst, hnewer⟩⟩
          · exact .inr (List.forall_mem_cons.mpr ⟨hfirst, hnone⟩)

namespace Simulator

variable {σ : Type}

/-- A step back takes away the entries from the newest beginning of a cycle on, or all entries if
there is none, newest first, and tells whether any entry is left. -/
theorem stepBack_cases (s : Simulator σ) :
    ∃ kept removed, s.log.entries = kept ++ removed ∧
      s.stepBack = (!kept.isEmpty, { s with
        machine := s.machine.unwind removed.reverse
        log := .ofEntries kept }) ∧
      (BeginsCycle removed ∨ kept = [] ∧ ∀ e ∈ removed, e.action.isStepStart = false) := by
  rcases exists_newest_start s.log.recent with ⟨newer, e, older, hrecent, hstart, hnewer⟩ | hnone
  · refine ⟨older.reverse, e :: newer.reverse, ?_, ?_, .inl ⟨e, newer.reverse, rfl, hstart, ?_⟩⟩
    · rw [Log.entries, hrecent, List.reverse_append, List.reverse_cons, List.append_assoc,
        List.singleton_append]
    · rw [stepBack, hrecent, Machine.rewindCycle_of_start _ hnewer hstart, List.reverse_cons,
        List.reverse_reverse, List.isEmpty_reverse, Log.ofEntries, List.reverse_reverse]
    · exact fun e' he' => hnewer e' (List.mem_reverse.mp he')
  · refine ⟨[], s.log.entries, rfl, ?_, .inr ⟨rfl, ?_⟩⟩
    · have hall := s.machine.rewindCycle_append hnone []
      rw [List.append_nil] at hall
      rw [stepBack, hall, Log.entries, List.reverse_reverse]
      rfl
    · exact fun e he => hnone e (List.mem_reverse.mp he)

/-! ## One cycle -/

/-- Since the first simulator one cycle has begun: the log has kept its beginning and no other one,
and taking back what is newer leads to the first simulator. -/
structure Opened (s t : Simulator σ) : Prop where
  restores : Restores s t
  opened : ∃ newer e, t.log.recent = newer ++ e :: s.log.recent ∧ e.action.isStepStart = true ∧
    ∀ e' ∈ newer, e'.action.isStepStart = false

/-- A step back leads to where the cycle began. -/
theorem Opened.stepBack {s t : Simulator σ} (h : Opened s t) (hpc : s.machine.microPC = 0) :
    t.stepBack = (!s.log.isEmpty, { t with machine := s.machine, log := s.log }) := by
  obtain ⟨newer, e, hrecent, hstart, hnewer⟩ := h.opened
  obtain ⟨unwound, hunwound, hsettles⟩ := h.restores.restores
  have hsame : newer ++ [e] ++ s.log.recent = unwound ++ s.log.recent := by
    rw [← hunwound, hrecent, List.append_assoc, List.singleton_append]
  obtain rfl := List.append_cancel_right hsame
  rw [Simulator.stepBack, hrecent, Machine.rewindCycle_of_start _ hnewer hstart]
  simp only [hsettles.eq_of_microPC_eq_zero hpc]
  rfl

/-- The kinds of calls that take no entry from the log. -/
def adding : List Usage :=
  [.forward, .poke, .halting, .input]

variable [InputSource σ] {allowed : List Usage} {floor : Nat} {s t u : Simulator σ}

/-- A call that takes no entry from the log does not leave the cycle, unless a micro-step begins
another one. -/
theorem Opened.move (h : Opened s t) (hadding : allowed ⊆ adding)
    (hpc : .forward ∈ allowed → t.machine.microPC ≠ 0) (hmove : Move allowed floor t u) :
    Opened s u := by
  have hflags : u.flags = t.flags := hmove.settings.1 fun ha => by simpa [adding] using hadding ha
  obtain ⟨newer, first, hrecent, hstart, hnewer⟩ := h.opened
  -- an entry that begins no cycle, whose undoing leads back
  have hpush {e : LogEntry} (hlog : u.log = t.log.push e) (hbegins : e.action.isStepStart = false)
      (hrestores : Restores s u) : Opened s u := by
    refine ⟨hrestores, e :: newer, first, ?_, hstart, List.forall_mem_cons.mpr ⟨hbegins, hnewer⟩⟩
    rw [hlog, Log.push, hrecent, List.cons_append]
  have hfits := h.restores.fits
  cases hmove.moved with
  | silent hmachine hlog =>
      refine ⟨h.restores.settle hmachine hlog hflags, newer, first, ?_, hstart, hnewer⟩
      rw [hlog, hrecent]
  | advance ha _ hadv hlog =>
      rw [recorded_of_enableLog h.restores.logging] at hlog
      exact hpush hlog (hadv.within (hpc ha)).1
        (h.restores.push hlog hflags (hadv.fits hfits) (.inr (hadv.undoEntry hfits)))
  | change hchange hlog =>
      rw [recorded_of_enableLog h.restores.logging] at hlog
      exact hpush hlog hchange.within.1
        (h.restores.push hlog hflags (hchange.fits hfits) (.inl (hchange.undoEntry hfits)))
  | back ha _ _ _ => simpa [adding] using hadding ha
  | restart _ ha _ _ _ => simpa [adding] using hadding ha
  | count _ ha _ _ => simpa [adding] using hadding ha

/-- Finishing the cycle does not begin another one. -/
theorem Opened.finishCycle (h : Opened s t) (hpc : t.machine.microPC ≠ 0) :
    Opened s t.finishCycle := by
  have hsubset : [.forward] ⊆ adding := by decide
  have hnext {t t' : Simulator σ} {answer : Option Action} (h : Opened s t)
      (hpc : t.machine.microPC ≠ 0) (hmicro : t.microStep = (answer, t')) : Opened s t' := by
    have hmove : Move [.forward] 0 t t.microStep.2 := .microStep List.mem_cons_self
    rw [hmicro] at hmove
    exact h.move hsubset (fun _ => hpc) hmove
  fun_induction Simulator.finishCycle t with
  | case1 t t' hmicro => exact hnext h hpc hmicro
  | case2 t action t' hmicro _ => exact hnext h hpc hmicro
  | case3 t action t' hmicro hend ih =>
      obtain ⟨v, e, hadv, rfl, -, -⟩ := exists_advance_of_microStep h.restores.logging hmicro
      exact ih (hnext h hpc hmicro) ((hadv.within hpc).2 (by simpa using hend))

/-- A step with progress from between two instructions begins one cycle. -/
theorem opened_step (hfits : s.machine.regs.Fits) (hlogging : s.flags.enableLog = true)
    (hbetween : s.machine.Between) (hstep : s.step.1 = true) : Opened s s.step.2 := by
  rw [fst_step] at hstep
  obtain ⟨action, haction⟩ := Option.isSome_iff_exists.mp hstep
  have hmicro := microStep_eq haction
  obtain ⟨v, e, hadv, rfl, hlog, hflags⟩ := exists_advance_of_microStep hlogging hmicro
  obtain ⟨hbegins, hpc⟩ := hadv.begins hbetween
  have hself : Restores s s := ⟨hfits, hlogging, [], rfl, .refl _⟩
  have hopened : Opened s s.microStep.2 := by
    refine ⟨hself.push hlog hflags (hadv.fits hfits) (.inr (hadv.undoEntry hfits)),
      [], e, congrArg Log.recent hlog, ?_, List.forall_mem_nil _⟩
    rw [hbegins]
    rfl
  have hend : e.action.isStepEnd = false := by
    rw [hbegins]
    rfl
  rw [step_of_microStep hmicro, finishCycle_of_microStep hmicro, if_neg (by simp [hend])]
  exact hopened.finishCycle (by omega)

/-! ## Several cycles -/

/-- The kinds of calls that change the simulator from outside. -/
def outside : List Usage :=
  [.poke, .halting, .input]

/-- Steps that each begin a cycle and make progress, with changes from outside after each of
them. -/
inductive Cycles : Nat → Simulator σ → Simulator σ → Prop
  | zero (s : Simulator σ) : Cycles 0 s s
  | succ {k : Nat} {s t u : Simulator σ} (h : Cycles k s t) (hpc : t.machine.microPC = 0)
      (hstep : t.step.1 = true) (hchanges : History outside 0 t.step.2 u) : Cycles (k + 1) s u

/-- A step back after a cycle and changes from outside leads to where the cycle began. -/
theorem stepBack_cycle {s₀ : Simulator σ} (hstart : s₀.Restarted)
    (hlog : s₀.flags.enableLog = true) (hpast : History faithful 0 s₀ s)
    (hpc : s.machine.microPC = 0) (hstep : s.step.1 = true)
    (hchanges : History outside 0 s.step.2 t) : t.stepBack.2 = s.setInput t.input := by
  have hkeeps := hpast.ledger (by decide) (by decide) hstart hlog
  have hopened : Opened s t :=
    hchanges.preserves
      (fun _ _ hmove hopened => hopened.move (by decide) (fun ha => by simp [outside] at ha) hmove)
      (opened_step hkeeps.ledger.fits hkeeps.logging (hkeeps.ledger.between hpc) hstep)
  have hforward : History [.forward] 0 s s.step.2 := (History.refl s).step List.mem_cons_self
  obtain ⟨hflags, hbreakpoints⟩ := hforward.settings (by decide) (by decide)
  obtain ⟨hflags', hbreakpoints'⟩ := hchanges.settings (by decide) (by decide)
  rw [hopened.stepBack hpc]
  simp only [hflags', hflags, hbreakpoints', hbreakpoints]
  rfl

/-- Steps and changes from outside after a history belong to the history. -/
theorem Cycles.history {s₀ : Simulator σ} {k : Nat} (h : Cycles k s t)
    (hpast : History faithful 0 s₀ s) : History faithful 0 s₀ t := by
  induction h with
  | zero s => exact hpast
  | succ _ _ _ hchanges ih => exact ((ih hpast).step (by decide)).append (by decide) hchanges

/-- As many steps back as cycles have begun lead to where the first of them began, and only the
input source, which a rewind does not touch, is another one. -/
theorem Cycles.stepBack {s₀ : Simulator σ} {k : Nat} (h : Cycles k s t) (hstart : s₀.Restarted)
    (hlog : s₀.flags.enableLog = true) (hpast : History faithful 0 s₀ s) (input : σ) :
    (repeated Simulator.stepBack k (t.setInput input)).2 = s.setInput input := by
  induction h with
  | zero s => rfl
  | @succ k s t u h hpc hstep hchanges ih =>
      have hback := stepBack_cycle hstart hlog (h.history hpast) hpc hstep
        (hchanges.setInput (by decide) input)
      show (repeated Simulator.stepBack k (u.setInput input).stepBack.2).2 = _
      rw [hback]
      exact ih hpast

/-- Take any history from the start of a program with the log on, and after it any number of steps
that each begin a cycle and make progress, whether they complete it or not, and changes from
outside. As many steps back lead to exactly the simulator of that moment, but for the input source.
In general a step back takes away just the entries from the newest beginning of a cycle on, or all
entries if there is none, and tells whether any entry is left. -/
theorem stepBack_cycles {s₀ : Simulator σ} (hstart : s₀.Restarted)
    (hlog : s₀.flags.enableLog = true) (hpast : History faithful 0 s₀ s) {k : Nat}
    (hcycles : Cycles k s t) :
    (repeated Simulator.stepBack k t).2 = { s with input := t.input } ∧
    ∀ u : Simulator σ, ∃ kept removed, u.log.entries = kept ++ removed ∧
      u.stepBack = (!kept.isEmpty, { u with
        machine := u.machine.unwind removed.reverse
        log := .ofEntries kept }) ∧
      (BeginsCycle removed ∨ kept = [] ∧ ∀ e ∈ removed, e.action.isStepStart = false) :=
  ⟨hcycles.stepBack hstart hlog hpast t.input, fun u => u.stepBack_cases⟩

/-- Two steps, of which the second one is suspended in an input instruction, and then changes of
registers and memory. -/
theorem stepBack_cycles_suspended :
    let s₀ : Simulator Feed := (new {} .empty).reset
    let s := (s₀.setMem 0 0xA005).setMem 1 0x5000
    let t := (s.step.2.step.2.setReg .pc 7).setMem 0 0x7000
    (s₀.Restarted ∧ s₀.flags.enableLog = true ∧ History faithful 0 s₀ s ∧ Cycles 2 s t) ∧
    t.awaitingInput = true ∧ (repeated Simulator.stepBack 2 t).2 = { s with input := t.input } ∧
    ∀ u : Simulator Feed, ∃ kept removed, u.log.entries = kept ++ removed ∧
      u.stepBack = (!kept.isEmpty, { u with
        machine := u.machine.unwind removed.reverse
        log := .ofEntries kept }) ∧
      (BeginsCycle removed ∨ kept = [] ∧ ∀ e ∈ removed, e.action.isStepStart = false) := by
  intro s₀ s t
  have hstart : s₀.Restarted := .reset _
  have hpast : History faithful 0 s₀ s :=
    ((History.refl s₀).setMem (by decide) 0 0xA005).setMem (by decide) 1 0x5000
  have hfirst : Cycles 1 s s.step.2 :=
    .succ (.zero s) (by decide +kernel) (by decide +kernel) (.refl _)
  have hcycles : Cycles 2 s t :=
    .succ hfirst (by decide +kernel) (by decide +kernel)
      (((History.refl _).setReg (by decide) .pc 7).setMem (by decide) 0 0x7000)
  exact ⟨⟨hstart, rfl, hpast, hcycles⟩, by decide +kernel,
    stepBack_cycles hstart rfl hpast hcycles⟩

end Simulator

end Marie
