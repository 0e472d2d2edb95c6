/-
# JSON of settings and snapshots

Settings and snapshots are records of their fields. A duration is a record of its seconds and
nanoseconds, and the registers are a list of words.
-/
import Marie.Json.Action
import Marie.Simulator.Basic
import Marie.WordFormat

namespace Marie

open Json

instance : JsonFormat WordFormat :=
  named WordFormat.all WordFormat.name

/-- A duration has no other fields than its two. Full seconds among the nanoseconds are carried
when it is read. -/
instance : JsonFormat Duration where
  write d := .obj [("secs", .nat d.secs.toNat), ("nanos", .nat d.nanos)]
  read j := do
    let ms ← j.record? ["secs", "nanos"]
    guard (ms.all fun m => m.1 == "secs" || m.1 == "nanos")
    Duration.carry? (← (← ms.lookup "secs").natBelow? UInt64.size)
      (← (← ms.lookup "nanos").natBelow? UInt32.size)

instance : JsonFormat Flags where
  write flags :=
    .obj [("enable_log", JsonFormat.write flags.enableLog),
      ("run_interval", JsonFormat.write flags.runInterval)]
  read j := do
    let ms ← j.record? ["enable_log", "run_interval"]
    return { enableLog := ← field? ms "enable_log", runInterval := ← field? ms "run_interval" }

/-- The registers are the list of their seven words. -/
instance : JsonFormat Registers where
  write regs := JsonFormat.write regs.toList
  read j := do Registers.ofList? (← JsonFormat.read j)

instance : JsonFormat Snapshot where
  write s :=
    .obj [("memory", JsonFormat.write s.memory), ("registers", JsonFormat.write s.registers),
      ("halted", JsonFormat.write s.halted)]
  read j := do
    let ms ← j.record? ["memory", "registers", "halted"]
    return {
      memory := ← field? ms "memory"
      registers := ← field? ms "registers"
      halted := ← field? ms "halted" }

end Marie
