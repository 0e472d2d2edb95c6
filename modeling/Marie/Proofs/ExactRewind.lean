/-
# Exact rewinding

Taking back entries until the log is as long as it was at an earlier moment gives the machine of
that moment, whatever was done since: steps, runs, changes from outside and rewinds in any order,
as long as the log was on and never shorter than at that moment.

The invariant ties the present machine to the earlier one through the log: taking back the
entries that are newer than the earlier moment gives the earlier machine, possibly settled
(`Simulator.Restores`). An entry fixes the control itself, so settling is forgotten as soon as
one more entry is taken back.
-/
import Marie.Proofs.Moves

namespace Marie

namespace Machine

/-- Takes back entries, the first one of the list first. -/
def unwind (m : Machine) (entries : List LogEntry) : Machine :=
  entries.foldl undoEntry m

/-- Unwinding from a settled machine ends where unwinding from the machine ends, possibly
settled. -/
theorem unwind_of_settlesTo {m m' : Machine} (h : m.SettlesTo m') (entries : List LogEntry) :
    (m.unwind entries).SettlesTo (m'.unwind entries) := by
  cases entries with
  | nil => exact h
  | cons entry rest =>
      rw [unwind, unwind, List.foldl_cons, List.foldl_cons, h.undoEntry_eq]
      exact .refl _

end Machine

namespace Simulator

variable {σ : Type}

/-- Makes a number of micro-steps back. -/
def rewind (k : Nat) (s : Simulator σ) : Simulator σ :=
  match k with
  | 0 => s
  | k + 1 => rewind k s.microStepBack.2

/-- A simulator to which nothing has happened since a load or a reset. -/
inductive Restarted : Simulator σ → Prop
  | load {r s : Simulator σ} {program : Program} (h : r.load program = .ok s) : Restarted s
  | reset (r : Simulator σ) : Restarted r.reset

/-- At the start of a program the log is empty and the control is at the start of a cycle, with
nothing decoded and no input requested. -/
theorem Restarted.start {s : Simulator σ} (h : s.Restarted) :
    s.log = ∅ ∧ s.machine.regs.Fits ∧ s.machine.microPC = 0 ∧ s.machine.decoded = none ∧
      s.machine.interrupt = .idle := by
  have hreset (m : Machine) : m.reset.regs.Fits := Registers.fits_default.set _ _
  cases h with
  | load h =>
      obtain ⟨memory, _, rfl⟩ := load_eq_ok h
      exact ⟨rfl, hreset _, rfl, rfl, rfl⟩
  | reset r => exact ⟨rfl, hreset _, rfl, rfl, rfl⟩

/-- Making micro-steps back for the newest entries of the log unwinds them. -/
theorem rewind_eq_unwind (s : Simulator σ) (newer older : List LogEntry)
    (h : s.log.recent = newer ++ older) :
    s.rewind newer.length = { s with machine := s.machine.unwind newer, log := ⟨older⟩ } := by
  induction newer generalizing s with
  | nil =>
      rw [List.nil_append] at h
      rw [List.length_nil, rewind, ← h]
      rfl
  | cons entry rest ih =>
      rw [List.cons_append] at h
      have hback : s.microStepBack.2 =
          { s with machine := s.machine.undoEntry entry, log := ⟨rest ++ older⟩ } := by
        rw [microStepBack, h]
      rw [List.length_cons, rewind, hback, ih _ rfl]
      rfl

/-! ## The invariant -/

/-- The log of the second simulator extends the log of the first one, and taking back what is
newer leads to the machine of the first one, possibly settled. -/
structure Restores (s t : Simulator σ) : Prop where
  fits : t.machine.regs.Fits
  logging : t.flags.enableLog = true
  restores : ∃ newer, t.log.recent = newer ++ s.log.recent ∧
    s.machine.SettlesTo (t.machine.unwind newer)

/-- Recording an entry whose undoing leads back to the machine, possibly settled, keeps the
invariant. -/
theorem Restores.push {s t u : Simulator σ} (h : Restores s t) {entry : LogEntry}
    (hlog : u.log = t.log.push entry) (hflags : u.flags = t.flags)
    (hfits : u.machine.regs.Fits) (hundo : t.machine.SettlesTo (u.machine.undoEntry entry)) :
    Restores s u := by
  obtain ⟨newer, hnewer, hsettles⟩ := h.restores
  refine ⟨hfits, by rw [hflags, h.logging], entry :: newer, ?_, ?_⟩
  · rw [hlog, Log.push, hnewer, List.cons_append]
  · exact hsettles.trans (Machine.unwind_of_settlesTo hundo newer)

/-- Settling without recording anything keeps the invariant. -/
theorem Restores.settle {s t u : Simulator σ} (h : Restores s t)
    (hmachine : t.machine.SettlesTo u.machine) (hlog : u.log = t.log)
    (hflags : u.flags = t.flags) : Restores s u := by
  obtain ⟨newer, hnewer, hsettles⟩ := h.restores
  refine ⟨?_, by rw [hflags, h.logging], newer, by rw [hlog, hnewer], ?_⟩
  · rw [(Machine.settlesTo_iff.mp hmachine).1.regs]
    exact h.fits
  · exact hsettles.trans (Machine.unwind_of_settlesTo hmachine newer)

/-- The kinds of calls that can be taken back, and those that take back. -/
def rewindable : List Usage :=
  [.forward, .poke, .halting, .rewind, .input]

variable [InputSource σ]

/-- A move that changes neither the settings nor the number of completed instructions, and does not
go back to the start of a program, keeps the invariant. -/
theorem Restores.move {allowed : List Usage} {s t u : Simulator σ} (h : Restores s t)
    (hsettings : .flags ∉ allowed) (hcount : .count ∉ allowed)
    (hrestart : .restart ∈ allowed → 0 < s.log.size) (hmove : Move allowed s.log.size t u) :
    Restores s u := by
  have hflags : u.flags = t.flags := hmove.settings.1 hsettings
  cases hmove.moved with
  | silent hmachine hlog => exact h.settle hmachine hlog hflags
  | advance _ _ hadv hlog =>
      rw [recorded_of_enableLog h.logging] at hlog
      exact h.push hlog hflags (hadv.fits h.fits) (.inr (hadv.undoEntry h.fits))
  | change hchange hlog =>
      rw [recorded_of_enableLog h.logging] at hlog
      exact h.push hlog hflags (hchange.fits h.fits) (.inl (hchange.undoEntry h.fits))
  | @back e _ hfloor hlog hmachine =>
      obtain ⟨newer, hnewer, hsettles⟩ := h.restores
      rw [hlog, Log.push] at hnewer
      cases newer with
      | nil =>
          -- nothing newer is left, so taking back goes below the floor
          have hsize : s.log.size = u.log.size + 1 := congrArg List.length hnewer.symm
          omega
      | cons newest rest =>
          obtain ⟨rfl, hrest⟩ := List.cons.inj hnewer
          refine ⟨?_, by rw [hflags, h.logging], rest, hrest, ?_⟩
          · rw [hmachine]
            exact Machine.fits_undoEntry h.fits e
          · rw [hmachine]
            exact hsettles
  | restart _ ha hfloor _ _ => exact absurd hfloor (Nat.ne_of_gt (hrestart ha))
  | count _ ha _ _ => exact absurd ha hcount

/-- A chain of moves of these kinds keeps the invariant. -/
theorem Restores.moves {s t u : Simulator σ} (h : Restores s t)
    (hmoves : Relation.ReflTransGen (Move rewindable s.log.size) t u) : Restores s u := by
  induction hmoves with
  | refl => exact h
  | tail _ hlast ih =>
      refine ih.move (by decide) (by decide) (fun ha => ?_) hlast
      simp [rewindable] at ha

/-! ## Rewinding -/

omit [InputSource σ] in
/-- Making micro-steps back until the log is as long as it was at the earlier moment. -/
theorem Restores.rewind {s t : Simulator σ} (h : Restores s t) :
    (t.rewind (t.log.size - s.log.size)).log = s.log ∧
      s.machine.SettlesTo (t.rewind (t.log.size - s.log.size)).machine := by
  obtain ⟨newer, hnewer, hsettles⟩ := h.restores
  have hsize : t.log.size - s.log.size = newer.length := by
    rw [Log.size, Log.size, hnewer, List.length_append, Nat.add_sub_cancel]
  rw [hsize, rewind_eq_unwind t newer s.log.recent hnewer]
  exact ⟨rfl, hsettles⟩

/-- Take a history from the start of a program with the log on, and in it a moment since which
the log never had fewer entries. Making micro-steps back until the log is as long as it was then
gives the log and the data of that moment, and the control of that moment up to one operation
without action. In particular, making micro-steps back until the log is empty gives exactly the
machine at the start of the program. -/
theorem rewind_history {s₀ s t : Simulator σ} (hstart : s₀.Restarted)
    (hlog : s₀.flags.enableLog = true) (hpast : History rewindable 0 s₀ s)
    (hsince : History rewindable s.log.size s t) :
    ((t.rewind (t.log.size - s.log.size)).log = s.log ∧
      s.machine.SameData (t.rewind (t.log.size - s.log.size)).machine ∧
      s.machine.SameControl (t.rewind (t.log.size - s.log.size)).machine) ∧
    ((t.rewind t.log.size).log = ∅ ∧ (t.rewind t.log.size).machine = s₀.machine ∧
      s₀.machine.microPC = 0 ∧ s₀.machine.decoded = none ∧ s₀.machine.interrupt = .idle) := by
  obtain ⟨hempty, hfits, hpc, hdecoded, hidle⟩ := hstart.start
  have hsize : s₀.log.size = 0 := by rw [hempty]; rfl
  have hfirst : Restores s₀ s₀ := ⟨hfits, hlog, [], rfl, .refl _⟩
  have hs : Restores s₀ s := by
    apply hfirst.moves
    rw [hsize]
    exact hpast.moves
  have hthen : Restores s s := ⟨hs.fits, hs.logging, [], rfl, .refl _⟩
  have ht : Restores s₀ t := by
    apply hfirst.moves
    rw [hsize]
    exact (hpast.append (List.Subset.refl _) hsince).moves
  constructor
  -- the invariant is used twice: from the moment in question, and from the start
  · obtain ⟨hlogs, hsettles⟩ := (hthen.moves hsince.moves).rewind
    exact ⟨hlogs, Machine.settlesTo_iff.mp hsettles⟩
  · obtain ⟨hlogs, hsettles⟩ := ht.rewind
    rw [hsize, Nat.sub_zero, hempty] at hlogs
    rw [hsize, Nat.sub_zero] at hsettles
    refine ⟨hlogs, ?_, hpc, hdecoded, hidle⟩
    exact hsettles.eq_of_microPC_eq_zero hpc

/-- A history that changes a register in the middle of a fetch, stops the machine, and takes
the stop back before it rewinds. -/
theorem rewind_history_poked :
    let s₀ : Simulator Script := (new {} (.const 42)).reset
    let s := s₀.microStep.2
    let t := ((s.microStep.2.setReg .pc 0x1234).setHalted true).microStepBack.2
    (s₀.Restarted ∧ s₀.flags.enableLog = true ∧ History rewindable 0 s₀ s ∧
      History rewindable s.log.size s t) ∧ s.log.size = 1 ∧ t.log.size = 3 ∧
    ((t.rewind (t.log.size - s.log.size)).log = s.log ∧
      s.machine.SameData (t.rewind (t.log.size - s.log.size)).machine ∧
      s.machine.SameControl (t.rewind (t.log.size - s.log.size)).machine) ∧
    ((t.rewind t.log.size).log = ∅ ∧ (t.rewind t.log.size).machine = s₀.machine ∧
      s₀.machine.microPC = 0 ∧ s₀.machine.decoded = none ∧ s₀.machine.interrupt = .idle) := by
  intro s₀ s t
  have hstart : s₀.Restarted := .reset _
  have hlog : s₀.flags.enableLog = true := rfl
  have hpast : History rewindable 0 s₀ s := .microStep (.refl s₀) (by decide)
  have hpoked : History rewindable 1 s s.microStep.2 := .microStep (.refl s) (by decide)
  have hstopped := (hpoked.setReg (by decide) .pc 0x1234).setHalted (by decide) true
  have hsince : History rewindable s.log.size s t := hstopped.microStepBack (by decide) (by decide)
  exact ⟨⟨hstart, hlog, hpast, hsince⟩, by decide, by decide,
    rewind_history hstart hlog hpast hsince⟩

end Simulator

end Marie
