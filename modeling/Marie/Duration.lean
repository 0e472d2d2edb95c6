/-
# Durations

A length of time in seconds and nanoseconds, shown in the largest unit that does not come out
below one.
-/
namespace Marie

/-- The number of nanoseconds in a second. -/
def nanosPerSecond : Nat := 1000000000

/-- A length of time. -/
structure Duration where
  /-- The whole seconds. -/
  secs : UInt64
  /-- The nanoseconds beside them. -/
  nanos : Nat
  nanos_lt : nanos < nanosPerSecond := by decide
deriving DecidableEq, Repr

namespace Duration

/-- A number of whole seconds. -/
def seconds (secs : UInt64) : Duration where
  secs
  nanos := 0

/-- A number of milliseconds below a thousand. -/
def millis (n : Fin 1000) : Duration where
  secs := 0
  nanos := n.val * 1000000
  nanos_lt := by have := n.isLt; simp only [nanosPerSecond]; omega

/-- The duration of some seconds and any number of nanoseconds, of which the full seconds are
carried, unless there are too many. -/
def carry? (secs nanos : Nat) : Option Duration :=
  if secs + nanos / nanosPerSecond < UInt64.size then
    some {
      secs := UInt64.ofNat (secs + nanos / nanosPerSecond)
      nanos := nanos % nanosPerSecond
      nanos_lt := Nat.mod_lt _ (by decide) }
  else none

/-- A decimal fraction of the given number of places, without zeros at its end and with the
point in front, unless nothing is left of it. -/
def fraction (places n : Nat) : String :=
  let digits := (toString n).toList.leftpad places '0'
  let kept := (digits.reverse.dropWhile (· == '0')).reverse
  if kept.isEmpty then "" else "." ++ String.ofList kept

/-- The duration in its unit. -/
def text (d : Duration) : String :=
  if d.secs ≠ 0 then toString d.secs.toNat ++ fraction 9 d.nanos ++ "s"
  else if d.nanos ≥ 1000000 then
    toString (d.nanos / 1000000) ++ fraction 6 (d.nanos % 1000000) ++ "ms"
  else if d.nanos ≥ 1000 then
    toString (d.nanos / 1000) ++ fraction 3 (d.nanos % 1000) ++ "µs"
  else toString d.nanos ++ "ns"

end Duration

end Marie
