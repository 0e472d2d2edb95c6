/-
# The start of a program

Loading a program and going back to its start put PC to its origin and clear the other registers.
The origin stays what it is until another program is loaded, so this holds of every reset up to
then. One program has an origin that is no address, and is loaded all the same: the one without
words right behind the last address.

* `Program.PastMemory` : this program;
* `Machine.AtOrigin` : the machine is at the start of its program;
* `Simulator.LoadedLast` : a program is the one that has been loaded last, whatever has happened
  since;
* `Simulator.starts_at_origin` : what holds of any other program, and `Simulator.load_past_memory`,
  what happens to this one.
-/
import Marie.Proofs.Frame

namespace Marie

/-- The program has no words, and its origin is the number behind the last address. -/
structure Program.PastMemory (program : Program) : Prop where
  origin : program.origin = 0x1000
  words : program.words = []

/-- PC stands at the origin, which is an address, and the other registers are 0. -/
structure Machine.AtOrigin (m : Machine) : Prop where
  valid : m.origin.toNat ≤ 0xFFF
  pc : m.regs.pc = m.origin
  others : ∀ reg, reg ≠ .pc → m.regs.get reg = 0

/-- All calls but loads and resets. -/
def Usage.going : List Usage :=
  [.forward, .poke, .halting, .rewind, .input, .breakpoints, .flags, .count]

/-! ## Resets -/

/-- Going to the start of a program clears the registers but PC. -/
theorem Machine.get_reset (m : Machine) (reg : Reg) :
    m.reset.regs.get reg = if reg = .pc then Word.low12 m.origin else 0 := by
  have hzero : ({} : Registers).get reg = 0 := by cases reg <;> rfl
  rw [reset, Registers.get_set, hzero]
  split
  · exact Reg.fit_pc m.origin
  · rfl

/-- If the origin is an address, the machine goes there. -/
theorem Machine.reset_atOrigin {m : Machine} (hvalid : m.origin.toNat ≤ 0xFFF) :
    m.reset.AtOrigin := by
  refine ⟨hvalid, ?_, fun reg hpc => ?_⟩
  · have hpc := m.get_reset .pc
    rwa [if_pos rfl, Word.low12_eq_self (Nat.lt_succ_of_le hvalid)] at hpc
  · rw [get_reset, if_neg hpc]

/-! ## Origins -/

/-- Taking back an action leaves the origin as it is. -/
theorem Machine.origin_undo (m : Machine) (action : Action) :
    (m.undo action).origin = m.origin := by
  cases action <;> rfl

/-- A change from outside leaves the origin as it is. -/
theorem Machine.Change.origin_eq {allowed : List Usage} {m m' : Machine} {e : LogEntry}
    (h : m.Change allowed e m') : m'.origin = m.origin := by
  cases h <;> rfl

namespace Simulator

variable {σ : Type}

/-- A program that is loaded fits in memory, and the machine is at its start. -/
theorem reset_of_load {s t : Simulator σ} {program : Program} (h : s.load program = .ok t) :
    program.origin.toNat + program.words.length ≤ memorySize ∧
      t.machine.origin = program.origin ∧ t.machine = t.machine.reset := by
  obtain ⟨memory, hmemory, rfl⟩ := load_eq_ok h
  refine ⟨?_, rfl, rfl⟩
  rw [← Memory.load?_isSome, hmemory]
  rfl

/-- The origin of a program that is loaded is an address, with one exception. -/
theorem origin_le_of_load {s t : Simulator σ} {program : Program} (h : s.load program = .ok t) :
    program.origin.toNat ≤ 0xFFF ∨ program.PastMemory := by
  have hfits : program.origin.toNat + program.words.length ≤ 4096 := (reset_of_load h).1
  by_cases horigin : program.origin.toNat ≤ 0xFFF
  · exact .inl horigin
  · refine .inr ⟨UInt16.toNat_inj.mp ?_, List.eq_nil_of_length_eq_zero (by omega)⟩
    show program.origin.toNat = 4096
    omega

/-! ## Histories of a program -/

variable [InputSource σ]

/-- Only loading a program changes the origin. -/
theorem Move.origin_eq {allowed : List Usage} {floor : Nat} {s t : Simulator σ}
    (h : Move allowed floor s t) (hrestart : .restart ∉ allowed) :
    t.machine.origin = s.machine.origin := by
  cases h.moved with
  | silent hmachine _ => exact (Machine.settlesTo_iff.mp hmachine).1.origin
  | @advance _ e _ _ hadv _ =>
      -- no action names the origin as the cell that it changes
      refine hadv.effect.frame .origin ?_
      cases e.action <;> simp [Action.cell?]
  | change hchange _ => exact hchange.origin_eq
  | back _ _ _ hmachine =>
      rw [hmachine]
      exact s.machine.origin_undo _
  | restart _ ha _ _ _ => exact absurd ha hrestart
  | count _ _ _ hmachine => rw [hmachine]

/-- A move loads a program, goes back to the start of one, or does neither. -/
theorem Move.load_or_reset {allowed : List Usage} {floor : Nat} {s t : Simulator σ}
    (h : Move allowed floor s t) :
    (∃ program, s.load program = .ok t) ∨ t = s.reset ∨ Move Usage.going floor s t := by
  cases h with
  | load _ _ hload => exact .inl ⟨_, hload⟩
  | reset _ _ => exact .inr (.inl rfl)
  | microStep _ => exact .inr (.inr (.microStep (by decide)))
  | setReg _ reg w => exact .inr (.inr (.setReg (by decide) reg w))
  | setMem _ addr w => exact .inr (.inr (.setMem (by decide) addr w))
  | setHalted _ halt => exact .inr (.inr (.setHalted (by decide) halt))
  | microStepBack _ hfloor => exact .inr (.inr (.microStepBack (by decide) hfloor))
  | setInput _ input => exact .inr (.inr (.setInput (by decide) input))
  | setBreakpoints _ breakpoints => exact .inr (.inr (.setBreakpoints (by decide) breakpoints))
  | setFlags _ flags => exact .inr (.inr (.setFlags (by decide) flags))
  | setCount _ count => exact .inr (.inr (.setCount (by decide) count))

/-- The program is the one that has been loaded last: since then the simulator has gone back to its
start any number of times, and has made any moves besides. -/
inductive LoadedLast (program : Program) : Simulator σ → Prop
  | load {s t : Simulator σ} (hload : s.load program = .ok t) : LoadedLast program t
  | reset {s : Simulator σ} (h : LoadedLast program s) : LoadedLast program s.reset
  | move {s t : Simulator σ} (h : LoadedLast program s) (hmove : Move Usage.going 0 s t) :
      LoadedLast program t

namespace LoadedLast

variable {program : Program} {s t : Simulator σ}

/-- The origin is that of the program. -/
theorem origin_eq (h : t.LoadedLast program) : t.machine.origin = program.origin := by
  induction h with
  | load hload => exact (reset_of_load hload).2.1
  | reset _ ih => exact ih
  | move _ hmove ih => exact (hmove.origin_eq (by decide)).trans ih

/-- The program has been loaded. -/
theorem exists_load (h : t.LoadedLast program) :
    ∃ before after : Simulator σ, before.load program = .ok after := by
  induction h with
  | load hload => exact ⟨_, _, hload⟩
  | reset _ ih => exact ih
  | move _ _ ih => exact ih

/-- Its origin is an address, with one exception. -/
theorem origin_le (h : t.LoadedLast program) :
    t.machine.origin.toNat ≤ 0xFFF ∨ program.PastMemory := by
  obtain ⟨before, after, hload⟩ := h.exists_load
  rw [h.origin_eq]
  exact origin_le_of_load hload

/-- Calls that are no loads and resets keep it so. -/
theorem calls (h : s.LoadedLast program) (hcalls : History Usage.going 0 s t) :
    t.LoadedLast program :=
  hcalls.preserves (fun _ _ hmove h => h.move hmove) h

/-- Whatever happens later, some program is the one that has been loaded last. -/
theorem of_history (h : s.LoadedLast program) (hlater : History Usage.all 0 s t) :
    ∃ last, t.LoadedLast last := by
  refine hlater.preserves (P := fun u => ∃ last, u.LoadedLast last) ?_ ⟨_, h⟩
  rintro u v hmove ⟨last, hlast⟩
  rcases hmove.load_or_reset with ⟨next, hload⟩ | rfl | hgoing
  · exact ⟨next, .load hload⟩
  · exact ⟨last, .reset hlast⟩
  · exact ⟨last, .move hlast hgoing⟩

end LoadedLast

/-- A program that is loaded starts at its origin, and so it does after each reset until another
program is loaded. Whatever happens, the origin is an address, unless the program that has been
loaded last is the empty one behind the last address. -/
theorem starts_at_origin {program : Program} (hinside : ¬ program.PastMemory) :
    (∀ s t : Simulator σ, s.load program = .ok t →
      t.machine.origin = program.origin ∧ t.machine.AtOrigin) ∧
    (∀ t : Simulator σ, t.LoadedLast program →
      t.machine.origin = program.origin ∧ t.reset.machine.AtOrigin) ∧
    ∀ s t u : Simulator σ, s.load program = .ok t → History Usage.all 0 t u →
      ∃ last, u.LoadedLast last ∧ (u.machine.origin.toNat ≤ 0xFFF ∨ last.PastMemory) := by
  refine ⟨fun s t hload => ?_, fun t h => ?_, fun s t u hload hlater => ?_⟩
  · obtain ⟨-, horigin, hreset⟩ := reset_of_load hload
    have hvalid := (origin_le_of_load hload).resolve_right hinside
    refine ⟨horigin, ?_⟩
    rw [hreset]
    exact Machine.reset_atOrigin (horigin ▸ hvalid)
  · have hvalid := h.origin_le.resolve_right hinside
    exact ⟨h.origin_eq, Machine.reset_atOrigin hvalid⟩
  · have hloaded : t.LoadedLast program := .load hload
    obtain ⟨last, hlast⟩ := hloaded.of_history hlater
    exact ⟨last, hlast, hlast.origin_le⟩

/-- A program whose only word stands at the last address starts there, also after a step. -/
theorem starts_at_origin_last_address :
    ¬ ({ origin := 0xFFF, words := [0x7000] } : Program).PastMemory ∧
      ∃ t : Simulator Feed,
        (Simulator.new {} Feed.empty).load { origin := 0xFFF, words := [0x7000] } = .ok t ∧
          t.machine.AtOrigin ∧ t.step.2.reset.machine.AtOrigin := by
  have hinside : ¬ ({ origin := 0xFFF, words := [0x7000] } : Program).PastMemory :=
    fun h => absurd h.origin (by decide)
  have hload := load_of_fits (Simulator.new {} Feed.empty)
    { origin := 0xFFF, words := [0x7000] } (by decide)
  obtain ⟨hstart, hreset, -⟩ := starts_at_origin (σ := Feed) hinside
  refine ⟨hinside, _, hload, (hstart _ _ hload).2, (hreset _ ?_).2⟩
  exact LoadedLast.calls (.load hload) (.step (.refl _) (by decide))

omit [InputSource σ] in
/-- The empty program behind the last address is loaded, and the machine starts at address 0. -/
theorem load_past_memory (s : Simulator σ) {program : Program} (h : program.PastMemory) :
    ∃ t, s.load program = .ok t ∧ t.machine.origin = 0x1000 ∧ t.machine.regs.pc = 0 := by
  have hfits : program.origin.toNat + program.words.length ≤ memorySize := by
    rw [h.origin, h.words]
    decide
  refine ⟨_, load_of_fits s program hfits, h.origin, ?_⟩
  show Word.low12 program.origin = 0
  rw [h.origin]
  decide

/-- A simulator with nothing loaded takes it as well, and then its origin is no address. -/
theorem loads_empty_program_past_memory :
    ∃ t : Simulator Feed, (Simulator.new {} Feed.empty).load { origin := 0x1000 } = .ok t ∧
      ¬ t.machine.origin.toNat ≤ 0xFFF ∧ t.machine.regs.pc ≠ t.machine.origin := by
  have hpast : ({ origin := 0x1000 } : Program).PastMemory := ⟨rfl, rfl⟩
  obtain ⟨t, hload, horigin, hpc⟩ := (Simulator.new {} Feed.empty).load_past_memory hpast
  refine ⟨t, hload, ?_, ?_⟩
  · rw [horigin]
    decide
  · rw [hpc, horigin]
    decide

end Simulator

end Marie
