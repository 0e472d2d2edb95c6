/-
# Ledgers

The log accounts for the machine. Whatever calls were made since the start of a program, rewinds
among them, the transitions and changes that the log still holds lead to the machine, one after
the other, without any rewind. A fact about a machine and its log can therefore be proved as if
there were no rewinds.

* `Machine.Ledger.tail` : taking back the newest entry leaves a ledger of the entries before it;
* `Simulator.History.ledger` : every history with the log on keeps a ledger.
-/
import Marie.Proofs.ExactRewind

namespace Marie

namespace Machine

/-! ## Ledgers -/

/-- The entries, newest first, are those of transitions and changes that lead to the machine from
the start of some program. In between the machine may settle. -/
inductive Ledger (allowed : List Usage) : List LogEntry → Machine → Prop
  | reset (m : Machine) : Ledger allowed [] m.reset
  | settle {es : List LogEntry} {m : Machine} (h : Ledger allowed es m) :
      Ledger allowed es m.settle
  | advance {es : List LogEntry} {m m' : Machine} {v : Option Int} {e : LogEntry}
      (h : Ledger allowed es m) (hadv : m.Advance v e m') : Ledger allowed (e :: es) m'
  | change {es : List LogEntry} {m m' : Machine} {e : LogEntry}
      (h : Ledger allowed es m) (hchange : m.Change allowed e m') : Ledger allowed (e :: es) m'

namespace Ledger

variable {allowed : List Usage} {es : List LogEntry} {e : LogEntry} {m : Machine}

/-- The registers of the machine fit. -/
theorem fits (h : Ledger allowed es m) : m.regs.Fits := by
  induction h with
  | reset m => exact Registers.fits_default.set _ _
  | @settle _ m _ ih =>
      rw [m.sameData_settle.regs]
      exact ih
  | advance _ hadv ih => exact hadv.fits ih
  | change _ hchange ih => exact hchange.fits ih

/-- Taking back the newest entry leaves a ledger of the entries before it. -/
theorem tail (h : Ledger allowed (e :: es) m) : Ledger allowed es (m.undoEntry e) := by
  generalize hall : e :: es = all at h
  -- the machine may have settled any number of times since the newest entry
  induction h with
  | reset m => cases hall
  | settle _ ih =>
      rw [undoEntry_settle]
      exact ih hall
  | advance h hadv _ =>
      cases hall
      rw [hadv.undoEntry h.fits]
      exact h.settle
  | change h hchange _ =>
      cases hall
      rw [hchange.undoEntry h.fits]
      exact h

end Ledger

end Machine

namespace Simulator

variable {σ : Type}

/-- The log is on, and is a ledger of the machine. -/
structure KeepsLedger (allowed : List Usage) (s : Simulator σ) : Prop where
  logging : s.flags.enableLog = true
  ledger : s.machine.Ledger allowed s.log.recent

variable {allowed : List Usage} {s t : Simulator σ}

/-- At the start of a program nothing has to be accounted for. -/
theorem Restarted.keepsLedger (hstart : s.Restarted) (hlog : s.flags.enableLog = true) :
    KeepsLedger allowed s := by
  cases hstart with
  | load h =>
      obtain ⟨memory, _, rfl⟩ := load_eq_ok h
      exact ⟨hlog, .reset _⟩
  | reset r => exact ⟨hlog, .reset _⟩

variable [InputSource σ]

/-- Every move that changes neither the settings nor the number of completed instructions keeps
the ledger. -/
theorem KeepsLedger.move {floor : Nat} (hflags : .flags ∉ allowed) (hcount : .count ∉ allowed)
    (h : KeepsLedger allowed s) (hmove : Move allowed floor s t) : KeepsLedger allowed t := by
  obtain ⟨hlogging, hledger⟩ := h
  refine ⟨by rw [hmove.settings.1 hflags, hlogging], ?_⟩
  cases hmove.moved with
  | silent hmachine hlog =>
      rw [hlog]
      rcases hmachine with heq | heq
      · rw [heq]
        exact hledger
      · rw [heq]
        exact hledger.settle
  | advance _ _ hadv hlog =>
      rw [hlog, recorded_of_enableLog hlogging]
      exact hledger.advance hadv
  | change hchange hlog =>
      rw [hlog, recorded_of_enableLog hlogging]
      exact hledger.change hchange
  | back _ _ hlog hmachine =>
      rw [hlog] at hledger
      rw [hmachine]
      exact hledger.tail
  | restart m _ _ hlog hmachine =>
      rw [hlog, hmachine]
      exact .reset m
  | count _ ha _ _ => exact absurd ha hcount

/-- Every history from the start of a program, with the log on, keeps a ledger. -/
theorem History.ledger {floor : Nat} (hflags : .flags ∉ allowed) (hcount : .count ∉ allowed)
    (hstart : s.Restarted) (hlog : s.flags.enableLog = true) (h : History allowed floor s t) :
    KeepsLedger allowed t :=
  h.preserves (fun _ _ hmove hkeeps => hkeeps.move hflags hcount hmove) (hstart.keepsLedger hlog)

end Simulator

end Marie
