/-
# Watching the log

A client of a watcher keeps a copy of the log, which it brings up to date whenever it polls. The
watcher knows nothing of the log but its length at the last poll, so the client is right exactly
if the log has become shorter since, or still begins with what the client holds.

* `LogClient.held_poll_eq_iff` : when a poll makes the copy right;
* `LogClient.held_eq_entries` : the copy stays right as long as the log, if it falls below its
  length at a poll, is still below it at the next one;
* `LogClient.held_ne_entries_regrown` : a log that has grown again in between is taken for
  unchanged.
-/
import Marie.Proofs.Moves
import Mathlib.Data.List.Infix

namespace Marie

/-! ## Clients -/

/-- A client of a watcher, with its copy of the log. -/
structure LogClient where
  watcher : LogWatcher := {}
  /-- The copy of the entries, oldest first. -/
  held : List LogEntry := []
deriving DecidableEq, Repr

/-- A copy of a log after the change. -/
def LogDelta.apply (delta : LogDelta) (held : List LogEntry) : List LogEntry :=
  match delta with
  | .unchanged => held
  | .appended entries => held ++ entries
  | .cleared entries => entries

namespace LogClient

/-- The client asks its watcher what has changed, and brings its copy up to date. -/
def poll (c : LogClient) (log : Log) : LogClient where
  watcher := (c.watcher.poll log).2
  held := (c.watcher.poll log).1.apply c.held

/-- The watcher has seen as many entries as the client holds. -/
def InStep (c : LogClient) : Prop :=
  c.watcher.seen = c.held.length

/-- A new client is in step. -/
theorem inStep_new : ({} : LogClient).InStep :=
  rfl

variable {c : LogClient}

/-- A poll replaces the copy if the log is shorter, and else adds what is beyond its length. -/
theorem held_poll (h : c.InStep) (log : Log) :
    (c.poll log).held =
      if log.size < c.held.length then log.entries
      else c.held ++ log.entries.drop c.held.length := by
  have hsize : log.entries.length = log.size := List.length_reverse
  rw [poll, LogWatcher.poll, h]
  rcases Nat.lt_trichotomy log.size c.held.length with hlt | heq | hgt
  · rw [if_neg (by omega), if_neg (by omega), if_pos hlt]
    rfl
  · rw [if_pos heq, if_neg (by omega), List.drop_of_length_le (by omega), List.append_nil]
    rfl
  · rw [if_neg (by omega), if_pos hgt, if_neg (by omega)]
    rfl

/-- After a poll the copy is as long as the log. -/
theorem length_held_poll (h : c.InStep) (log : Log) : (c.poll log).held.length = log.size := by
  have hsize : log.entries.length = log.size := List.length_reverse
  rw [held_poll h]
  split
  · exact hsize
  · rw [List.length_append, List.length_drop]
    omega

/-- A poll keeps the watcher in step. -/
theorem inStep_poll (h : c.InStep) (log : Log) : (c.poll log).InStep :=
  (length_held_poll h log).symm

/-- After a poll the copy is right exactly if the log is shorter than the copy was, or begins
with it. -/
theorem held_poll_eq_iff (h : c.InStep) (log : Log) :
    (c.poll log).held = log.entries ↔
      log.size < c.held.length ∨ c.held <+: log.entries := by
  rw [held_poll h]
  split
  · rename_i hlt
    simp [hlt]
  · rename_i hge
    rw [← List.prefix_iff_eq_append]
    simp [hge]

end LogClient

namespace Simulator

variable {σ : Type} [InputSource σ]

/-! ## What stays of the log -/

omit [InputSource σ] in
/-- Recording an entry leaves the entries that are there. -/
theorem prefix_log_recorded (s : Simulator σ) (e : LogEntry) :
    s.log.entries <+: (s.recorded e).entries := by
  unfold recorded
  split
  · rw [Log.entries_push]
    exact List.prefix_append _ _
  · exact List.prefix_rfl

/-- A move leaves the entries below the floor. -/
theorem Move.prefix_log {allowed : List Usage} {floor : Nat} {s t : Simulator σ}
    {kept : List LogEntry} (hlength : kept.length ≤ floor) (hmove : Move allowed floor s t)
    (h : kept <+: s.log.entries) : kept <+: t.log.entries := by
  cases hmove.moved with
  | silent _ hlog =>
      rw [hlog]
      exact h
  | advance _ _ _ hlog =>
      rw [hlog]
      exact h.trans (s.prefix_log_recorded _)
  | change _ hlog =>
      rw [hlog]
      exact h.trans (s.prefix_log_recorded _)
  | back _ hfloor hlog _ =>
      have hprefix : t.log.entries <+: s.log.entries := by
        rw [hlog, Log.entries_push]
        exact List.prefix_append _ _
      refine List.prefix_of_prefix_length_le h hprefix ?_
      rw [Log.entries, List.length_reverse]
      exact Nat.le_trans hlength hfloor
  | restart _ _ hfloor _ _ =>
      have hnil : kept = [] := List.eq_nil_of_length_eq_zero (by omega)
      rw [hnil]
      exact List.nil_prefix
  | count _ _ hlog _ =>
      rw [hlog]
      exact h

/-- If the log never gets shorter than it was, it still begins as it was. -/
theorem History.prefix_log {allowed : List Usage} {s t : Simulator σ}
    (h : History allowed s.log.size s t) : s.log.entries <+: t.log.entries := by
  have hlength : s.log.entries.length ≤ s.log.size := Nat.le_of_eq List.length_reverse
  exact h.preserves (fun _ _ hmove => hmove.prefix_log hlength) List.prefix_rfl

/-! ## Polls -/

/-- A client that has just polled the simulator, and has polled it before as well with the given
calls between two polls. -/
inductive PolledBy (calls : Simulator σ → Simulator σ → Prop) : LogClient → Simulator σ → Prop
  | first (s : Simulator σ) : PolledBy calls (LogClient.poll {} s.log) s
  | next {c : LogClient} {s t : Simulator σ} (h : PolledBy calls c s) (hcalls : calls s t) :
      PolledBy calls (c.poll t.log) t

/-- The calls leave the log at its length or above it all the time, or in the end below it. -/
def Tracked (s t : Simulator σ) : Prop :=
  History Usage.all s.log.size s t ∨ History Usage.all 0 s t ∧ t.log.size < s.log.size

end Simulator

namespace LogClient

variable {σ : Type} {c : LogClient} {s t : Simulator σ}

/-- After every poll the watcher is in step, whatever the calls are. -/
theorem inStep_of_polledBy {calls : Simulator σ → Simulator σ → Prop}
    (h : Simulator.PolledBy calls c s) : c.InStep ∧ c.held.length = s.log.size := by
  induction h with
  | first s => exact ⟨inStep_poll inStep_new s.log, length_held_poll inStep_new s.log⟩
  | @next c s t _ _ ih => exact ⟨inStep_poll ih.1 t.log, length_held_poll ih.1 t.log⟩

variable [InputSource σ]

/-- Calls that the watcher keeps track of make no poll miss a change. -/
theorem held_poll_of_tracked (h : c.InStep) (hheld : c.held = s.log.entries)
    (hcalls : s.Tracked t) : (c.poll t.log).held = t.log.entries := by
  rw [held_poll_eq_iff h, hheld]
  rcases hcalls with hkept | ⟨-, hlt⟩
  · exact .inr hkept.prefix_log
  · left
    rw [Log.entries, List.length_reverse]
    exact hlt

/-- If all calls are tracked, then after every poll the client holds the log. -/
theorem held_of_polledBy_tracked (h : Simulator.PolledBy Simulator.Tracked c s) :
    c.held = s.log.entries := by
  induction h with
  | first s => exact (held_poll_eq_iff inStep_new s.log).mpr (.inr List.nil_prefix)
  | next h hcalls ih => exact held_poll_of_tracked (inStep_of_polledBy h).1 ih hcalls

/-- Whatever happens between the polls, the client holds as many entries as the log has. Its next
poll gives it the log exactly if the log has become shorter or begins with what the client holds.
If between any two polls the log never is shorter than at the first of them, or ends up shorter,
then the client holds the log after every poll. -/
theorem held_eq_entries (h : Simulator.PolledBy (Simulator.History Usage.all 0) c s) :
    c.held.length = s.log.size ∧
      (∀ t : Simulator σ, (c.poll t.log).held = t.log.entries ↔
        t.log.size < s.log.size ∨ c.held <+: t.log.entries) ∧
      (Simulator.PolledBy Simulator.Tracked c s → c.held = s.log.entries) := by
  obtain ⟨hstep, hlength⟩ := inStep_of_polledBy h
  refine ⟨hlength, fun t => ?_, held_of_polledBy_tracked⟩
  rw [held_poll_eq_iff hstep, hlength]

open Simulator (History PolledBy Tracked)

/-- A client polls after a micro-step, after calls that never leave fewer entries than that, and
after the program has begun anew. -/
theorem held_eq_entries_restarted :
    let s : Simulator Feed := (Simulator.new {} .empty).microStep.2
    let t := s.microStep.2.microStepBack.2.setReg .ac 5
    let u := t.reset.microStep.2
    let c := ((poll {} s.log).poll t.log).poll u.log
    (PolledBy (History Usage.all 0) c u ∧ PolledBy Tracked c u) ∧
      s.log.size = 1 ∧ t.log.size = 2 ∧ u.log.size = 1 ∧
      c.held.length = u.log.size ∧
      (∀ v : Simulator Feed, (c.poll v.log).held = v.log.entries ↔
        v.log.size < u.log.size ∨ c.held <+: v.log.entries) ∧
      c.held = u.log.entries := by
  intro s t u c
  have hst (floor : Nat) (hfloor : floor ≤ 1) : History Usage.all floor s t :=
    (((History.refl s).microStep (Usage.mem_all _)).microStepBack (Usage.mem_all _)
      hfloor).setReg (Usage.mem_all _) .ac 5
  have htu : History Usage.all 0 t u :=
    ((History.refl t).reset (Usage.mem_all _) rfl).microStep (Usage.mem_all _)
  have hall : PolledBy (History Usage.all 0) c u :=
    ((PolledBy.first s).next (hst 0 (by omega))).next htu
  have htracked : PolledBy Tracked c u :=
    ((PolledBy.first s).next (.inl (hst 1 (Nat.le_refl 1)))).next (.inr ⟨htu, by decide⟩)
  obtain ⟨hlength, hnext, hheld⟩ := held_eq_entries hall
  exact ⟨⟨hall, htracked⟩, by decide, by decide, by decide, hlength, hnext, hheld htracked⟩

/-- A micro-step is taken back, and then a register is set. The log has one entry as before, so
the watcher reports no change, and the client goes on holding the entry that was taken back. -/
theorem held_ne_entries_regrown :
    let s : Simulator Feed := (Simulator.new {} .empty).microStep.2
    let t := s.microStepBack.2.setReg .ac 5
    let c := poll {} s.log
    PolledBy (History Usage.all 0) (c.poll t.log) t ∧ (c.watcher.poll t.log).1 = .unchanged ∧
      (c.poll t.log).held = [⟨.stepStart 0, 0, .idle⟩] ∧
      t.log.entries = [⟨.regSet .ac 0 5, 0, .idle⟩] ∧ (c.poll t.log).held ≠ t.log.entries := by
  intro s t c
  have hst : History Usage.all 0 s t :=
    ((History.refl s).microStepBack (Usage.mem_all _) (Nat.zero_le _)).setReg
      (Usage.mem_all _) .ac 5
  exact ⟨(PolledBy.first s).next hst, by decide, by decide, by decide, by decide⟩

end LogClient

end Marie
