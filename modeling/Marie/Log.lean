/-
# The action log

The log lists the recorded actions. Entries are added and taken back at its recent end, so it
is kept with the newest entry first.

A reader that shows the log as it grows keeps only the number of entries it has seen, and asks
at any time what changed since (`LogWatcher.poll`).
-/
import Marie.Action

namespace Marie

/-- The recorded actions. -/
structure Log where
  /-- The entries, newest first. -/
  recent : List LogEntry := []
deriving DecidableEq, Repr

namespace Log

instance : EmptyCollection Log :=
  ⟨{}⟩

/-- The entries, oldest first. -/
def entries (log : Log) : List LogEntry :=
  log.recent.reverse

/-- The number of entries. -/
def size (log : Log) : Nat :=
  log.recent.length

/-- Whether there are no entries. -/
def isEmpty (log : Log) : Bool :=
  log.recent.isEmpty

/-- The newest entry. -/
def last? (log : Log) : Option LogEntry :=
  log.recent.head?

/-- Adds an entry. -/
def push (log : Log) (entry : LogEntry) : Log :=
  ⟨entry :: log.recent⟩

/-- The address at which the newest recorded cycle began. -/
def lastStart? (log : Log) : Option Word :=
  log.recent.findSome? fun entry =>
    match entry.action with
    | .stepStart pc => some pc
    | _ => none

/-- The log with the given entries, oldest first. -/
def ofEntries (entries : List LogEntry) : Log :=
  ⟨entries.reverse⟩

@[simp]
theorem entries_push (log : Log) (entry : LogEntry) :
    (log.push entry).entries = log.entries ++ [entry] := by
  simp [push, entries]

@[simp]
theorem entries_ofEntries (entries : List LogEntry) : (ofEntries entries).entries = entries := by
  simp [ofEntries, Log.entries]

@[simp]
theorem ofEntries_entries (log : Log) : ofEntries log.entries = log := by
  simp [ofEntries, entries]

@[simp]
theorem size_push (log : Log) (entry : LogEntry) : (log.push entry).size = log.size + 1 :=
  rfl

end Log

/-- What changed in a log. -/
inductive LogDelta where
  /-- Nothing. -/
  | unchanged
  /-- Entries were added at the end. -/
  | appended (entries : List LogEntry)
  /-- The log became shorter; these are all its entries now. -/
  | cleared (entries : List LogEntry)
deriving DecidableEq, Repr

/-- A reader of a log, who remembers how many entries it has seen. -/
structure LogWatcher where
  seen : Nat := 0
deriving DecidableEq, Repr

/-- What changed in a log since the reader last asked. -/
def LogWatcher.poll (watcher : LogWatcher) (log : Log) : LogDelta × LogWatcher :=
  let delta :=
    if log.size = watcher.seen then .unchanged
    else if watcher.seen < log.size then .appended (log.entries.drop watcher.seen)
    else .cleared log.entries
  (delta, ⟨log.size⟩)

end Marie
