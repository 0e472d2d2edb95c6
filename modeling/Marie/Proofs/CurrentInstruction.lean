/-
# The instruction in progress

Within a cycle PC may be anywhere: the cycle increments it, may jump or skip, and others may set it.
So the address of the instruction in progress is looked up in the log, where the newest beginning of
a cycle is. That one belongs to the cycle in progress, since the log has kept nothing newer that
begins or ends a cycle, and its entry has been there since a micro-step began the cycle with PC at
this address.

* `Machine.Ledger.underway` : within a cycle the log holds its beginning, and no end after it;
* `Simulator.BeganAt` : the moment at which a cycle began;
* `Simulator.RemembersStarts` : every beginning in the log has had its moment;
* `Simulator.currentPC_eq` : the address of the instruction in progress.
-/
import Marie.Proofs.CycleRewind

namespace Marie

/-- The newest beginning of a cycle is what the log finds. -/
theorem Log.lastStart?_eq {log : Log} {newer older : List LogEntry} {e : LogEntry} {pc : Word}
    (hrecent : log.recent = newer ++ e :: older) (hstart : e.action = .stepStart pc)
    (hnewer : ∀ e ∈ newer, e.action.isStepStart = false) : log.lastStart? = some pc := by
  rw [lastStart?, hrecent, List.findSome?_append, List.findSome?_eq_none_iff.mpr ?_,
    Option.none_or, List.findSome?_cons, hstart]
  intro e' he'
  have hother := hnewer e' he'
  cases haction : e'.action with
  | stepStart pc' =>
      rw [haction] at hother
      cases hother
  | _ => rfl

namespace Machine

/-- Within a cycle the log holds its beginning, and nothing newer begins or ends a cycle. -/
theorem Ledger.underway {allowed : List Usage} {es : List LogEntry} {m : Machine}
    (h : m.Ledger allowed es) (hpc : m.microPC ≠ 0) :
    ∃ newer e older, es = newer ++ e :: older ∧ e.action.isStepStart = true ∧
      ∀ e' ∈ newer, e'.action.isStepStart = false ∧ e'.action.isStepEnd = false := by
  induction h with
  | reset m => exact absurd rfl hpc
  | @settle es m _ ih =>
      refine ih fun hzero => hpc ?_
      rw [settle_of_microPC_eq_zero hzero, hzero]
  | @advance es m m' v e h hadv ih =>
      by_cases hzero : m.microPC = 0
      · -- the transition begins the cycle
        refine ⟨[], e, es, rfl, ?_, List.forall_mem_nil _⟩
        rw [(hadv.begins (h.between hzero)).1]
        rfl
      · obtain ⟨newer, first, older, rfl, hstart, hnewer⟩ := ih hzero
        have hend : e.action.isStepEnd = false := by
          by_contra hend
          exact hpc (hadv.between (by simpa using hend)).1
        exact ⟨e :: newer, first, older, rfl, hstart,
          List.forall_mem_cons.mpr ⟨⟨(hadv.within hzero).1, hend⟩, hnewer⟩⟩
  | @change es m m' e _ hchange ih =>
      have hsame : m'.microPC = m.microPC := congrArg Prod.fst hchange.control.1
      obtain ⟨newer, first, older, rfl, hstart, hnewer⟩ := ih (hsame ▸ hpc)
      exact ⟨e :: newer, first, older, rfl, hstart,
        List.forall_mem_cons.mpr ⟨hchange.within, hnewer⟩⟩

end Machine

namespace Simulator

variable {σ : Type} [InputSource σ] {s₀ s t u : Simulator σ}

/-! ## Moments -/

/-- At this moment of a history a micro-step began a cycle at the address in PC, and since then the
log has never been without the entry. -/
structure BeganAt (s₀ u s : Simulator σ) : Prop where
  past : History faithful 0 s₀ u
  start : u.machine.microPC = 0
  begins : u.microStep.1 = some (.stepStart u.machine.regs.pc)
  since : History faithful u.microStep.2.log.size u.microStep.2 s

/-- The entry, with the older ones, is what the log was when it had just been recorded as the
beginning of a cycle at some moment of the history. -/
def Remembered (s₀ s : Simulator σ) (e : LogEntry) (older : List LogEntry) : Prop :=
  ∃ u, BeganAt s₀ u s ∧ u.microStep.2.log.recent = e :: older ∧
    e.action = .stepStart u.machine.regs.pc

/-- Every beginning of a cycle in the log has had its moment. -/
def RemembersStarts (s₀ s : Simulator σ) : Prop :=
  ∀ newer e older, s.log.recent = newer ++ e :: older → e.action.isStepStart = true →
    Remembered s₀ s e older

/-- A beginning that a move leaves in the log keeps its moment. -/
theorem RemembersStarts.of_older (h : RemembersStarts s₀ s) (hmove : Move faithful 0 s t)
    {newer newer' older : List LogEntry} {e : LogEntry} (hs : s.log.recent = newer ++ e :: older)
    (ht : t.log.recent = newer' ++ e :: older) (hstart : e.action.isStepStart = true) :
    Remembered s₀ t e older := by
  obtain ⟨u, hbegan, hlog, haction⟩ := h newer e older hs hstart
  have hsize : u.microStep.2.log.size ≤ t.log.size := by
    rw [Log.size, Log.size, hlog, ht, List.length_append]
    exact Nat.le_add_left _ _
  exact ⟨u, ⟨hbegan.past, hbegan.start, hbegan.begins,
    hbegan.since.snoc (List.Subset.refl _) hmove hsize⟩, hlog, haction⟩

/-- A move with a new entry remembers the beginnings in the log, if it remembers this one. -/
theorem RemembersStarts.push (h : RemembersStarts s₀ s) (hmove : Move faithful 0 s t)
    {e : LogEntry} (hlog : t.log = s.log.push e)
    (hnew : e.action.isStepStart = true → Remembered s₀ t e s.log.recent) :
    RemembersStarts s₀ t := by
  intro newer e' older hrecent hstart
  have hpush : e :: s.log.recent = newer ++ e' :: older := by
    rw [← hrecent, hlog]
    rfl
  cases newer with
  | nil =>
      obtain ⟨rfl, rfl⟩ := List.cons.inj hpush
      exact hnew hstart
  | cons newest newer =>
      obtain ⟨-, hrest⟩ := List.cons.inj hpush
      exact h.of_older hmove hrest hrecent hstart

/-- Every move of a history with the log on remembers the beginnings in the log. -/
theorem RemembersStarts.move (h : RemembersStarts s₀ s) (hpast : History faithful 0 s₀ s)
    (hkeeps : KeepsLedger faithful s) (hmove : Move faithful 0 s t) : RemembersStarts s₀ t := by
  cases hmove.moved with
  | silent _ hlog =>
      intro newer e older hrecent
      exact h.of_older hmove (hlog ▸ hrecent) hrecent
  | @advance v e _ hmicro hadv hlog =>
      rw [recorded_of_enableLog hkeeps.logging] at hlog
      refine h.push hmove hlog fun hstart => ?_
      -- only a transition from between two instructions begins a cycle
      have hpc : s.machine.microPC = 0 := by
        by_contra hpc
        rw [(hadv.within hpc).1] at hstart
        cases hstart
      obtain ⟨haction, -⟩ := hadv.begins (hkeeps.ledger.between hpc)
      refine ⟨s, ⟨hpast, hpc, ?_, ?_⟩, ?_, haction⟩
      · rw [hmicro, haction]
      · rw [hmicro]
        exact .refl t
      · rw [hmicro, hlog]
        rfl
  | @change e hchange hlog =>
      rw [recorded_of_enableLog hkeeps.logging] at hlog
      refine h.push hmove hlog fun hstart => ?_
      rw [hchange.within.1] at hstart
      cases hstart
  | @back newest _ _ hlog _ =>
      intro newer e older hrecent
      have hs : s.log.recent = newest :: newer ++ e :: older := by
        rw [hlog, Log.push, hrecent, List.cons_append]
      exact h.of_older hmove hs hrecent
  | restart _ _ _ hlog _ =>
      intro newer e older hrecent
      rw [hlog] at hrecent
      cases newer <;> cases hrecent
  | count _ ha _ _ => simp [faithful] at ha

/-- Every history with the log on remembers the beginnings in the log. -/
theorem History.remembersStarts (hstart : s₀.Restarted) (hlog : s₀.flags.enableLog = true)
    (h : History faithful 0 s₀ s) : RemembersStarts s₀ s := by
  have hfirst : RemembersStarts s₀ s₀ := by
    intro newer e older hrecent
    rw [hstart.start.1] at hrecent
    cases newer <;> cases hrecent
  -- the history up to each move is part of the invariant
  have hall : History faithful 0 s₀ s ∧ RemembersStarts s₀ s := by
    refine h.preserves (P := fun t => History faithful 0 s₀ t ∧ RemembersStarts s₀ t)
      (fun t u hmove ⟨hpast, hremembers⟩ => ?_) ⟨.refl s₀, hfirst⟩
    have hkeeps := hpast.ledger (by decide) (by decide) hstart hlog
    exact ⟨hpast.snoc (List.Subset.refl _) hmove (Nat.zero_le _),
      hremembers.move hpast hkeeps hmove⟩
  exact hall.2

/-! ## The address of the instruction in progress -/

/-- In every history from the start of a program with the log on, the address of the instruction in
progress is PC between two instructions. Within a cycle it is the value that PC had when the cycle
began: the log has held that beginning ever since, and holds nothing newer that begins or ends a
cycle. The source line is the one that the program gives for this address. -/
theorem currentPC_eq (hstart : s₀.Restarted) (hlog : s₀.flags.enableLog = true)
    (h : History faithful 0 s₀ s) :
    (s.machine.microPC = 0 → s.currentPC = s.machine.regs.pc ∧
      ∀ program : Program, s.currentLine program = program.sourceMap.get? s.machine.regs.pc) ∧
    (s.machine.microPC ≠ 0 → ∃ u newer, BeganAt s₀ u s ∧
      s.log.entries = u.microStep.2.log.entries ++ newer ∧
      (∀ e ∈ newer, e.action.isStepStart = false ∧ e.action.isStepEnd = false) ∧
      s.currentPC = u.machine.regs.pc ∧
      ∀ program : Program, s.currentLine program = program.sourceMap.get? u.machine.regs.pc) := by
  have hline {pc : Word} (hpc : s.currentPC = pc) (program : Program) :
      s.currentLine program = program.sourceMap.get? pc := by
    rw [currentLine, hpc, Program.sourceLine]
  refine ⟨fun hpc => ?_, fun hpc => ?_⟩
  · have hcurrent : s.currentPC = s.machine.regs.pc := if_pos hpc
    exact ⟨hcurrent, hline hcurrent⟩
  · have hkeeps := h.ledger (by decide) (by decide) hstart hlog
    obtain ⟨newer, e, older, hrecent, hbegin, hnewer⟩ := hkeeps.ledger.underway hpc
    obtain ⟨u, hbegan, hbegun, haction⟩ :=
      h.remembersStarts hstart hlog newer e older hrecent hbegin
    have hcurrent : s.currentPC = u.machine.regs.pc := by
      rw [currentPC, if_neg hpc, Log.lastStart?_eq hrecent haction fun e he => (hnewer e he).1,
        Option.getD_some]
    refine ⟨u, newer.reverse, hbegan, ?_, fun e he => hnewer e (List.mem_reverse.mp he),
      hcurrent, hline hcurrent⟩
    rw [Log.entries, Log.entries, hrecent, hbegun, List.reverse_append]

/-- A jump within its cycle, after which PC is set and the machine stopped from outside. The
instruction in progress is still the one at address 0. -/
theorem currentPC_eq_poked_jump :
    let s₀ : Simulator Feed := (new {} .empty).reset
    let r := (repeated microStep 7 (s₀.setMem 0 0x9005)).2
    let s := (((r.setReg .pc 9).setHalted true).setMem 3 1).microStepBack.2
    (s₀.Restarted ∧ s₀.flags.enableLog = true ∧ History faithful 0 s₀ s) ∧
    (s.machine.microPC, r.machine.regs.pc, s.machine.regs.pc, s.halted, s.currentPC) =
      (7, 5, 9, true, 0) ∧
    (s.machine.microPC = 0 → s.currentPC = s.machine.regs.pc ∧
      ∀ program : Program, s.currentLine program = program.sourceMap.get? s.machine.regs.pc) ∧
    (s.machine.microPC ≠ 0 → ∃ u newer, BeganAt s₀ u s ∧
      s.log.entries = u.microStep.2.log.entries ++ newer ∧
      (∀ e ∈ newer, e.action.isStepStart = false ∧ e.action.isStepEnd = false) ∧
      s.currentPC = u.machine.regs.pc ∧
      ∀ program : Program, s.currentLine program = program.sourceMap.get? u.machine.regs.pc) := by
  intro s₀ r s
  have hstart : s₀.Restarted := .reset _
  have hjumped : History faithful 0 s₀ r :=
    ((History.refl s₀).setMem (by decide) 0 0x9005).repeated_microStep (by decide) 7
  have hstopped := (hjumped.setReg (by decide) .pc 9).setHalted (by decide) true
  have h : History faithful 0 s₀ s :=
    (hstopped.setMem (by decide) 3 1).microStepBack (by decide) (Nat.zero_le _)
  exact ⟨⟨hstart, rfl, h⟩, by decide +kernel, currentPC_eq hstart rfl h⟩

end Simulator

end Marie
