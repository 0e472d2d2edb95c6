/-
# Input sources

Whatever the machine asks for its input is an input source: asked once, it answers with a
number or is not ready, and goes on to its next state. Four kinds are given: a source that is
never ready, a script that fixes the answer to each question, a buffer that can be locked, and
a channel that can lose its sender.
-/
namespace Marie

/-- A source of numbers that may not be ready. -/
class InputSource (σ : Type) where
  /-- The answer to one question, and the state of the source after it. -/
  poll : σ → Option Int × σ

/-- Answers fixed in advance. -/
structure Script where
  /-- The answer to each question, counted from 0. -/
  answer : Nat → Option Int
  /-- The number of questions so far. -/
  polls : Nat := 0

namespace Script

/-- The script that always answers with the same number. -/
def const (n : Int) : Script where
  answer _ := some n

/-- The script that answers with each number once, and then is never ready. -/
def list (numbers : List Int) : Script where
  answer i := numbers[i]?

/-- The script that is not ready at every other question, beginning with the first, and else
answers with the next number. -/
def flaky (numbers : List Int) : Script where
  answer i := if i % 2 = 0 then none else numbers[i / 2]?

instance : InputSource Script where
  poll script := (script.answer script.polls, { script with polls := script.polls + 1 })

end Script

/-- A queue of numbers that others may fill, and may lock for themselves. -/
structure Buffer where
  /-- The numbers that wait, the next one first. -/
  numbers : List Int := []
  /-- Whether someone holds the lock. -/
  locked : Bool := false
  /-- Whether someone failed while holding the lock. -/
  poisoned : Bool := false
deriving DecidableEq, Repr

namespace Buffer

/-- Adds numbers at the end, unless the buffer is locked. -/
def push? (buffer : Buffer) (numbers : List Int) : Option Buffer :=
  if buffer.locked then none
  else some { buffer with numbers := buffer.numbers ++ numbers }

/-- Takes the lock. -/
def lock (buffer : Buffer) : Buffer :=
  { buffer with locked := true }

/-- Gives the lock back. -/
def unlock (buffer : Buffer) : Buffer :=
  { buffer with locked := false }

/-- Notes that someone failed while holding the lock. The numbers stay as they are. -/
def poison (buffer : Buffer) : Buffer :=
  { buffer with poisoned := true }

/-- A locked buffer is not ready; an unlocked one gives its numbers in order, also after someone
failed while holding the lock. -/
instance : InputSource Buffer where
  poll buffer :=
    if buffer.locked then (none, buffer)
    else match buffer.numbers with
      | [] => (none, buffer)
      | n :: rest => (some n, { buffer with numbers := rest })

end Buffer

/-- A queue of numbers with a sender, who may go away. -/
structure Channel where
  /-- The numbers that wait, the next one first. -/
  numbers : List Int := []
  /-- Whether there still is a sender. -/
  hasSender : Bool := true
deriving DecidableEq, Repr

namespace Channel

/-- Adds numbers at the end, if there is a sender. -/
def send? (channel : Channel) (numbers : List Int) : Option Channel :=
  if channel.hasSender then some { channel with numbers := channel.numbers ++ numbers }
  else none

/-- Drops the sender. What was sent stays. -/
def disconnect (channel : Channel) : Channel :=
  { channel with hasSender := false }

instance : InputSource Channel where
  poll channel :=
    match channel.numbers with
    | [] => (none, channel)
    | n :: rest => (some n, { channel with numbers := rest })

end Channel

/-- An input source of any of the four kinds. -/
inductive Feed where
  /-- Never ready. -/
  | empty
  | script (script : Script)
  | buffer (buffer : Buffer)
  | channel (channel : Channel)

namespace Feed

instance : Inhabited Feed :=
  ⟨.empty⟩

instance : InputSource Feed where
  poll
    | .empty => (none, .empty)
    | .script s => let (answer, s) := InputSource.poll s; (answer, .script s)
    | .buffer b => let (answer, b) := InputSource.poll b; (answer, .buffer b)
    | .channel c => let (answer, c) := InputSource.poll c; (answer, .channel c)

end Feed

end Marie
