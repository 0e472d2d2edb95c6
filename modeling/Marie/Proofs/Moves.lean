/-
# What a move does

There are eleven kinds of moves, but little that one of them can do to the machine and its log. A
move changes nothing, or adds one entry for what it changes, or takes one entry back, or goes to the
start of a program. Whatever holds of the machine and its log in every history needs no more cases
than these.

* `Machine.Change` : a change from outside with its entry, as `Machine.Advance` is a transition
  with its entry;
* `Simulator.Move.moved` : what a move does, said once for all later proofs;
* `Simulator.Move.settings` : a move leaves the settings and the breakpoints as they are, unless it
  is there to change them.
-/
import Marie.Proofs.History
import Marie.Proofs.Undo

namespace Marie

namespace Machine

/-! ## Changes from outside -/

/-- A change of the machine from outside with its log entry. -/
inductive Change (allowed : List Usage) (m : Machine) : LogEntry → Machine → Prop
  | setReg (ha : .poke ∈ allowed) (reg : Reg) (w : Word) :
      Change allowed m ⟨.regSet reg (m.regs.get reg) (reg.fit w), m.microPC, m.interrupt⟩
        { m with regs := m.regs.set reg w }
  | setMem (ha : .poke ∈ allowed) (addr w : Word) :
      Change allowed m ⟨.memSet (Word.low12 addr) (m.memory.get addr) w, m.microPC, m.interrupt⟩
        { m with memory := m.memory.set addr w }
  | setHalted (ha : .halting ∈ allowed) (halt : Bool) (hne : m.halted ≠ halt) :
      Change allowed m ⟨.halt halt none, m.microPC, m.interrupt⟩ { m with halted := halt }

namespace Change

variable {allowed : List Usage} {m m' : Machine} {e : LogEntry}

/-- After a change the registers fit again. -/
theorem fits (h : Change allowed m e m') (hfits : m.regs.Fits) : m'.regs.Fits := by
  cases h with
  | setReg _ reg w => exact hfits.set reg w
  | setMem _ _ _ => exact hfits
  | setHalted _ _ _ => exact hfits

/-- Taking back a change gives the machine before it. -/
theorem undoEntry (h : Change allowed m e m') (hfits : m.regs.Fits) : m'.undoEntry e = m := by
  rw [undoEntry_eq_moveTo]
  cases h with
  | setReg _ reg w => rw [undo_regSet hfits, moveTo_self]
  | setMem _ addr w => rw [undo_memSet, moveTo_self]
  | setHalted _ halt hne => rw [undo_halt hne, moveTo_self]

/-- A change leaves the control as it is, and its entry keeps it. -/
theorem control (h : Change allowed m e m') :
    (m'.microPC, m'.interrupt) = (m.microPC, m.interrupt) ∧
      (e.microPC, e.interrupt) = (m.microPC, m.interrupt) := by
  cases h <;> exact ⟨rfl, rfl⟩

/-- A change neither begins a cycle nor ends one. -/
theorem within (h : Change allowed m e m') :
    e.action.isStepStart = false ∧ e.action.isStepEnd = false := by
  cases h <;> exact ⟨rfl, rfl⟩

end Change

end Machine

namespace Simulator

variable {σ : Type}

/-! ## The log -/

/-- The log with one more entry, if it is on. -/
def recorded (s : Simulator σ) (e : LogEntry) : Log :=
  if s.flags.enableLog then s.log.push e else s.log

theorem recorded_of_enableLog {s : Simulator σ} (h : s.flags.enableLog = true) (e : LogEntry) :
    s.recorded e = s.log.push e :=
  if_pos h

/-- Committing an action records its entry. -/
theorem log_commit (s : Simulator σ) (microPC : Nat) (interrupt : Interrupt) (action : Action)
    (machine : Machine) :
    (s.commit microPC interrupt action machine).log = s.recorded ⟨action, microPC, interrupt⟩ := by
  unfold commit recorded
  split <;> rfl

/-! ## Moves -/

variable [InputSource σ] {allowed : List Usage} {floor : Nat} {s t : Simulator σ}

/-- What a move may have done to the machine and to the log. -/
inductive Moved (allowed : List Usage) (floor : Nat) (s t : Simulator σ) : Prop
  /-- Nothing, but the machine may have settled. -/
  | silent (hmachine : s.machine.SettlesTo t.machine) (hlog : t.log = s.log)
  /-- A micro-step has made a transition. -/
  | advance {v : Option Int} {e : LogEntry} (ha : .forward ∈ allowed)
      (hmicro : s.microStep = (some e.action, t)) (hadv : s.machine.Advance v e t.machine)
      (hlog : t.log = s.recorded e)
  /-- The machine has been changed from outside. -/
  | change {e : LogEntry} (hchange : s.machine.Change allowed e t.machine)
      (hlog : t.log = s.recorded e)
  /-- The newest entry has been taken back. -/
  | back {e : LogEntry} (ha : .rewind ∈ allowed) (hfloor : floor ≤ t.log.size)
      (hlog : s.log = t.log.push e) (hmachine : t.machine = s.machine.undoEntry e)
  /-- The machine is at the start of a program. -/
  | restart (m : Machine) (ha : .restart ∈ allowed) (hfloor : floor = 0) (hlog : t.log = ∅)
      (hmachine : t.machine = m.reset)
  /-- The number of completed instructions has been set. -/
  | count (n : Nat) (ha : .count ∈ allowed) (hlog : t.log = s.log)
      (hmachine : t.machine = { s.machine with count := n })

/-- What a micro-step does, seen as a move. -/
theorem moved_microStep (ha : .forward ∈ allowed) (s : Simulator σ) :
    Moved allowed floor s s.microStep.2 := by
  have hcases := s.microStep_cases
  generalize hmicro : s.microStep = result at hcases
  cases hcases with
  | halted _ => exact .silent (.refl _) rfl
  | notReady _ _ _ _ => exact .silent s.machine.settlesTo_settle rfl
  | advance hadv =>
      refine .advance (v := none) ha hmicro ?_ (s.log_commit _ _ _ _)
      rw [commitEntry, machine_commit]
      exact hadv
  | @receive n input _ _ _ hadv =>
      refine .advance (v := some n) ha hmicro ?_ (log_commit { s with input } _ _ _ _)
      rw [commitEntry, machine_commit]
      exact hadv

/-- What a poke does, seen as a move. -/
theorem moved_poke {action : Action} {m' : Machine}
    (h : s.machine.Change allowed ⟨action, s.machine.microPC, s.machine.interrupt⟩ m') :
    Moved allowed floor s (s.poke action m') := by
  refine .change ?_ (s.log_commit _ _ _ _)
  rw [poke, machine_commit]
  exact h

/-- What a move does. -/
theorem Move.moved (h : Move allowed floor s t) : Moved allowed floor s t := by
  cases h with
  | microStep ha => exact moved_microStep ha s
  | setReg ha reg w => exact moved_poke (.setReg ha reg w)
  | setMem ha addr w => exact moved_poke (.setMem ha addr w)
  | setHalted ha halt =>
      rw [Simulator.setHalted]
      split
      · exact .silent (.refl _) rfl
      · rename_i hne
        exact moved_poke (.setHalted ha halt hne)
  | microStepBack ha hfloor =>
      rw [Simulator.microStepBack] at hfloor ⊢
      split
      · exact .silent (.refl _) rfl
      · rename_i entry rest hrecent
        rw [hrecent] at hfloor
        exact .back ha hfloor (congrArg Log.mk hrecent) rfl
  | setInput _ _ => exact .silent (.refl _) rfl
  | load ha hfloor hload =>
      obtain ⟨memory, _, rfl⟩ := load_eq_ok hload
      exact .restart _ ha hfloor rfl rfl
  | reset ha hfloor => exact .restart _ ha hfloor rfl rfl
  | setBreakpoints _ _ => exact .silent (.refl _) rfl
  | setFlags _ _ => exact .silent (.refl _) rfl
  | setCount ha count => exact .count count ha rfl rfl

/-! ## Settings -/

omit [InputSource σ] in
/-- Committing an action leaves the settings and the breakpoints as they are. -/
theorem settings_commit (s : Simulator σ) (microPC : Nat) (interrupt : Interrupt)
    (action : Action) (machine : Machine) :
    (s.commit microPC interrupt action machine).flags = s.flags ∧
      (s.commit microPC interrupt action machine).breakpoints = s.breakpoints := by
  unfold commit
  split <;> exact ⟨rfl, rfl⟩

/-- A micro-step leaves the settings and the breakpoints as they are. -/
theorem settings_microStep (s : Simulator σ) :
    s.microStep.2.flags = s.flags ∧ s.microStep.2.breakpoints = s.breakpoints := by
  have hcases := s.microStep_cases
  generalize s.microStep = result at hcases
  cases hcases with
  | halted _ => exact ⟨rfl, rfl⟩
  | notReady _ _ _ _ => exact ⟨rfl, rfl⟩
  | advance _ => exact s.settings_commit _ _ _ _
  | @receive _ input _ _ _ _ => exact settings_commit { s with input } _ _ _ _

/-- A move leaves the settings and the breakpoints as they are, unless it is there to change
them. -/
theorem Move.settings (h : Move allowed floor s t) :
    (.flags ∉ allowed → t.flags = s.flags) ∧
      (.breakpoints ∉ allowed → t.breakpoints = s.breakpoints) := by
  cases h with
  | microStep _ => exact s.settings_microStep.imp (fun h _ => h) fun h _ => h
  | setReg _ _ _ => exact (s.settings_commit _ _ _ _).imp (fun h _ => h) fun h _ => h
  | setMem _ _ _ => exact (s.settings_commit _ _ _ _).imp (fun h _ => h) fun h _ => h
  | setHalted _ _ =>
      rw [Simulator.setHalted]
      split
      · exact ⟨fun _ => rfl, fun _ => rfl⟩
      · exact (s.settings_commit _ _ _ _).imp (fun h _ => h) fun h _ => h
  | microStepBack _ _ =>
      rw [Simulator.microStepBack]
      split <;> exact ⟨fun _ => rfl, fun _ => rfl⟩
  | load _ _ hload =>
      obtain ⟨memory, _, rfl⟩ := load_eq_ok hload
      exact ⟨fun _ => rfl, fun _ => rfl⟩
  | setFlags ha _ => exact ⟨fun hflags => absurd ha hflags, fun _ => rfl⟩
  | setBreakpoints ha _ => exact ⟨fun _ => rfl, fun hbreakpoints => absurd ha hbreakpoints⟩
  | _ => exact ⟨fun _ => rfl, fun _ => rfl⟩

/-- A history leaves the settings and the breakpoints as they are, unless its calls are there to
change them. -/
theorem History.settings (h : History allowed floor s t) (hflags : .flags ∉ allowed)
    (hbreakpoints : .breakpoints ∉ allowed) :
    t.flags = s.flags ∧ t.breakpoints = s.breakpoints := by
  refine h.preserves (P := fun u => u.flags = s.flags ∧ u.breakpoints = s.breakpoints)
    (fun r u hmove hsame => ?_) ⟨rfl, rfl⟩
  obtain ⟨hsameFlags, hsameBreakpoints⟩ := hmove.settings
  exact ⟨(hsameFlags hflags).trans hsame.1, (hsameBreakpoints hbreakpoints).trans hsame.2⟩

end Simulator

end Marie
