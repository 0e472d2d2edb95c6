/-
# Rewinding while the log is off

A rewind does not ask whether the log is on: it takes back the newest entry that there is. While
the log is off no entry is added, so all entries are from before it was switched off, and what was
done since then is not taken back with them.

* `Simulator.rewind_of_logging_off` : while the log is off it only loses entries, and rewinds do
  nothing exactly if none is left;
* `Simulator.rewind_mixes_states` : an entry from before and a change from after the log was
  switched off lead to a state in which the machine has never been.
-/
import Marie.Proofs.ExactRewind

namespace Marie.Simulator

variable {σ : Type}

/-! ## Rewinds that do nothing -/

/-- A micro-step back does nothing exactly if the log is empty. -/
theorem microStepBack_eq_self_iff (s : Simulator σ) : s.microStepBack = (none, s) ↔ s.log = ∅ := by
  obtain ⟨machine, ⟨entries⟩, flags, breakpoints, input⟩ := s
  cases entries with
  | nil => exact ⟨fun _ => rfl, fun _ => rfl⟩
  | cons entry rest =>
      constructor
      · intro h
        cases congrArg Prod.fst h
      · intro h
        cases congrArg Log.recent h

/-- A step back does nothing exactly if the log is empty. -/
theorem stepBack_eq_self_iff (s : Simulator σ) : s.stepBack = (false, s) ↔ s.log = ∅ := by
  obtain ⟨machine, ⟨entries⟩, flags, breakpoints, input⟩ := s
  cases entries with
  | nil => exact ⟨fun _ => rfl, fun _ => rfl⟩
  | cons entry rest =>
      constructor
      · intro h
        -- a step back takes away one entry at least
        have hrest : (machine.rewindCycle (entry :: rest)).2 = entry :: rest :=
          congrArg (fun result => result.2.log.recent) h
        have hle := length_rewindCycle_le machine (entry :: rest)
        rw [hrest, List.length_cons] at hle
        omega
      · intro h
        cases congrArg Log.recent h

/-! ## What the log keeps while it is off -/

/-- All kinds of calls but those that change the settings. -/
def steady : List Usage :=
  [.forward, .poke, .halting, .rewind, .input, .restart, .breakpoints, .count]

/-- The log is off, and holds no other entries than those. -/
structure KeepsOff (entries : List LogEntry) (s : Simulator σ) : Prop where
  off : s.flags.enableLog = false
  suffix : s.log.recent <:+ entries

variable {entries : List LogEntry} {s t : Simulator σ}

variable [InputSource σ]

/-- A move that does not change the settings adds no entry while the log is off. -/
theorem KeepsOff.move {floor : Nat} (h : s.KeepsOff entries) (hmove : Move steady floor s t) :
    t.KeepsOff entries := by
  obtain ⟨hoff, hsuffix⟩ := h
  have hrecorded (e : LogEntry) : s.recorded e = s.log := if_neg (by simp [hoff])
  refine ⟨by rw [hmove.settings.1 (by decide), hoff], ?_⟩
  cases hmove.moved with
  | silent _ hlog =>
      rw [hlog]
      exact hsuffix
  | advance _ _ _ hlog =>
      rw [hlog, hrecorded]
      exact hsuffix
  | change _ hlog =>
      rw [hlog, hrecorded]
      exact hsuffix
  | back _ _ hlog _ =>
      rw [hlog] at hsuffix
      exact (List.suffix_cons _ _).trans hsuffix
  | restart _ _ _ hlog _ =>
      rw [hlog]
      exact List.nil_suffix
  | count _ _ hlog _ =>
      rw [hlog]
      exact hsuffix

/-- From any moment at which the log is off, and until it is switched on again, the log only loses
entries, at the recent end or all of them. Rewinds do nothing exactly if no entry is left. So they
do nothing if the log was empty when it was switched off, or has been emptied since. -/
theorem rewind_of_logging_off (hoff : s.flags.enableLog = false) (h : History steady 0 s t) :
    t.flags.enableLog = false ∧ t.log.recent <:+ s.log.recent ∧
      (t.microStepBack = (none, t) ↔ t.log = ∅) ∧ (t.stepBack = (false, t) ↔ t.log = ∅) ∧
      (s.log = ∅ → t.microStepBack = (none, t) ∧ t.stepBack = (false, t)) := by
  have hkeeps : t.KeepsOff s.log.recent :=
    h.preserves (fun _ _ hmove hkeeps => hkeeps.move hmove) ⟨hoff, List.suffix_rfl⟩
  refine ⟨hkeeps.off, hkeeps.suffix, t.microStepBack_eq_self_iff, t.stepBack_eq_self_iff, ?_⟩
  intro hempty
  have hnone : t.log = ∅ := by
    have hsuffix := hkeeps.suffix
    rw [hempty] at hsuffix
    exact congrArg Log.mk (List.suffix_nil.mp hsuffix)
  exact ⟨t.microStepBack_eq_self_iff.mpr hnone, t.stepBack_eq_self_iff.mpr hnone⟩

/-- The log is switched off after a step, and then another step is made and a register set. -/
theorem rewind_of_logging_off_stepped :
    let s₀ : Simulator Feed := ((new {} .empty).setMem 0 0xA005).step.2
    let s := { s₀ with flags := { s₀.flags with enableLog := false } }
    let t := (s.step.2.setReg .mbr 9).microStepBack.2
    (s.flags.enableLog = false ∧ History steady 0 s t) ∧ s.log.size = 9 ∧ t.log.size = 8 ∧
    t.flags.enableLog = false ∧ t.log.recent <:+ s.log.recent ∧
      (t.microStepBack = (none, t) ↔ t.log = ∅) ∧ (t.stepBack = (false, t) ↔ t.log = ∅) ∧
      (s.log = ∅ → t.microStepBack = (none, t) ∧ t.stepBack = (false, t)) := by
  intro s₀ s t
  have hoff : s.flags.enableLog = false := rfl
  have h : History steady 0 s t :=
    (((History.refl s).step (by decide)).setReg (by decide) .mbr 9).microStepBack (by decide)
      (Nat.zero_le _)
  exact ⟨⟨hoff, h⟩, by decide +kernel, by decide +kernel, rewind_of_logging_off hoff h⟩

/-- The accumulator is set to 5 with the log on, and MBR to 9 with the log off. A micro-step back
is not without effect, although the log is off: it takes back the first change and leaves the
second one, and so leads to a state in which the machine has never been. -/
theorem rewind_mixes_states :
    let s₀ : Simulator Feed := (new {} .empty).reset
    let s := s₀.setReg .ac 5
    let t := { s with flags := { s.flags with enableLog := false } }
    let u := t.setReg .mbr 9
    (s₀.Restarted ∧ History Usage.all 0 s₀ u) ∧ u.flags.enableLog = false ∧
      u.microStepBack.1 = some (.regSet .ac 0 5) ∧
      (u.machine.regs.ac, u.machine.regs.mbr) = (5, 9) ∧
      (u.microStepBack.2.machine.regs.ac, u.microStepBack.2.machine.regs.mbr) = (0, 9) ∧
      u.stepBack.2.machine = u.microStepBack.2.machine ∧
      ∀ r ∈ [s₀, s, t, u], r.machine ≠ u.microStepBack.2.machine := by
  intro s₀ s t u
  have hs : History Usage.all 0 s₀ s := (History.refl s₀).setReg (Usage.mem_all _) .ac 5
  have hu : History Usage.all 0 s₀ u :=
    (hs.setFlags (Usage.mem_all _) _).setReg (Usage.mem_all _) .mbr 9
  refine ⟨⟨.reset _, hu⟩, rfl, rfl, by decide, by decide, rfl, ?_⟩
  intro r hr hsame
  -- MBR tells the first three apart, and the accumulator the last one
  have hmbr := congrArg (fun m => (m.regs.ac, m.regs.mbr)) hsame
  simp only [List.mem_cons, List.not_mem_nil, or_false] at hr
  rcases hr with rfl | rfl | rfl | rfl
  all_goals exact absurd hmbr (by decide)

end Marie.Simulator
