/-
# Programs, settings and snapshots come back from JSON

Records of fixed fields are written with these fields in their order, and their readers look at no
others (`Json.Record`). For each of them there is one lemma that says what is read as it
(`Duration.read_eq_some_iff` and so on), from which both directions follow.

* `Duration.carried`, `Flags.rewrite_carried` : where the nanoseconds that are read make up seconds,
  these are carried;
* `Program.lossless` : a program comes back, if the lines of its source map have 64 bits;
* `json_lossless` : all formats together.
-/
import Marie.Proofs.JsonActions
import Mathlib.Algebra.Group.Nat.Defs

namespace Marie

open Json

/-! ## Records of fixed fields -/

/-- The format of records of the given fields. -/
structure Json.Record (α : Type) [JsonFormat α] (fields : List String) : Prop where
  /-- What is written has the fields in their order. -/
  writes : ∀ a : α, ∃ ms, JsonFormat.write a = .obj ms ∧ ms.map (·.1) = fields
  /-- Members of other names are not seen. -/
  drops : ∀ ms, (JsonFormat.read (.obj (ms.filter fun m => fields.contains m.1)) : Option α) =
    JsonFormat.read (.obj ms)

/-- A format is one of records if it writes the fields and its reader looks only at these. -/
theorem Json.Record.of_finish {α : Type} [JsonFormat α] {fields : List String}
    (finish : List (String × Json) → Option α)
    (hwrite : ∀ a : α, ∃ ms, JsonFormat.write a = .obj ms ∧ ms.map (·.1) = fields)
    (hread : ∀ j, JsonFormat.read j = j.record? fields >>= finish)
    (hfinish : ∀ {ms ms'}, (∀ name ∈ fields, ms.lookup name = ms'.lookup name) →
      finish ms = finish ms') :
    Record α fields where
  writes := hwrite
  drops ms := by
    rw [hread, hread]
    exact hfinish fun name hname => lookup_filter hname ms

/-- The value under a field of a record. -/
def Json.member? (fields : List String) (name : String) (j : Json) : Option Json :=
  j.record? fields >>= fun ms => ms.lookup name

/-! ## Durations and settings -/

namespace Duration

/-- A duration is what its own parts make. -/
theorem carry?_parts (d : Duration) : carry? d.secs.toNat d.nanos = some d := by
  have hsecs : d.secs.toNat + d.nanos / nanosPerSecond = d.secs.toNat := by
    rw [Nat.div_eq_of_lt d.nanos_lt, Nat.add_zero]
  rw [carry?, if_pos (by rw [hsecs]; exact d.secs.toNat_lt)]
  simp only [hsecs, Nat.mod_eq_of_lt d.nanos_lt, UInt64.ofNat_toNat]

/-- What is read as a duration. -/
theorem read_eq_some_iff {j : Json} {d : Duration} : JsonFormat.read j = some d ↔
    ∃ ms secs nanos, j.record? ["secs", "nanos"] = some ms ∧
      (ms.all fun m => m.1 == "secs" || m.1 == "nanos") = true ∧
      (ms.lookup "secs" = some (.nat secs) ∧ secs < UInt64.size) ∧
      (ms.lookup "nanos" = some (.nat nanos) ∧ nanos < UInt32.size) ∧
      carry? secs nanos = some d := by
  simp only [JsonFormat.read, Option.bind_eq_bind, Option.bind_eq_some_iff,
    natBelow?_eq_some_iff, Option.guard_eq_some']
  constructor
  · rintro ⟨ms, hms, ⟨⟩, hall, _, hsecs, secs, ⟨hlt, rfl⟩, _, hnanos, nanos, ⟨hlt', rfl⟩, h⟩
    exact ⟨ms, secs, nanos, hms, hall, ⟨hsecs, hlt⟩, ⟨hnanos, hlt'⟩, h⟩
  · rintro ⟨ms, secs, nanos, hms, hall, ⟨hsecs, hlt⟩, ⟨hnanos, hlt'⟩, h⟩
    exact ⟨ms, hms, (), hall, _, hsecs, secs, ⟨hlt, rfl⟩, _, hnanos, nanos, ⟨hlt', rfl⟩, h⟩

instance : JsonFormat.Faithful Duration where
  read_write d := by
    have hnanos : d.nanos < UInt32.size := Nat.lt_trans d.nanos_lt (by decide)
    exact read_eq_some_iff.mpr ⟨_, _, _, rfl, rfl, ⟨rfl, d.secs.toNat_lt⟩, ⟨rfl, hnanos⟩,
      carry?_parts d⟩

/-- A duration is written with the full seconds among its nanoseconds carried. -/
theorem write_of_carry? {secs nanos : Nat} {d : Duration} (h : carry? secs nanos = some d) :
    JsonFormat.write d = .obj [("secs", .nat (secs + nanos / nanosPerSecond)),
      ("nanos", .nat (nanos % nanosPerSecond))] := by
  rw [carry?] at h
  split at h
  · rename_i hlt
    rw [← Option.some_inj.mp h]
    show Json.obj [("secs", .nat (UInt64.ofNat _).toNat), ("nanos", .nat _)] = _
    rw [UInt64.toNat_ofNat_of_lt' hlt]
  · cases h

/-- A duration is read from seconds and nanoseconds, if there are not too many of them. -/
theorem exists_read {secs nanos : Nat} (hnanos : nanos < UInt32.size)
    (hsecs : secs + nanos / nanosPerSecond < UInt64.size) :
    ∃ d, JsonFormat.read (.obj [("secs", .nat secs), ("nanos", .nat nanos)]) = some d ∧
      carry? secs nanos = some d := by
  have hlt : secs < UInt64.size := Nat.lt_of_le_of_lt (Nat.le_add_right _ _) hsecs
  obtain ⟨d, hd⟩ : ∃ d, carry? secs nanos = some d := ⟨_, if_pos hsecs⟩
  exact ⟨d, read_eq_some_iff.mpr ⟨_, _, _, rfl, rfl, ⟨rfl, hlt⟩, ⟨rfl, hnanos⟩, hd⟩, hd⟩

/-- A duration that was read is written with the full seconds among its nanoseconds carried. -/
theorem carried {j : Json} {d : Duration} (h : JsonFormat.read j = some d) :
    ∃ secs nanos : Nat, j.member? ["secs", "nanos"] "secs" = some (.nat secs) ∧
      j.member? ["secs", "nanos"] "nanos" = some (.nat nanos) ∧
      JsonFormat.write d = .obj [("secs", .nat (secs + nanos / nanosPerSecond)),
        ("nanos", .nat (nanos % nanosPerSecond))] := by
  obtain ⟨ms, secs, nanos, hms, -, ⟨hsecs, -⟩, ⟨hnanos, -⟩, hcarry⟩ := read_eq_some_iff.mp h
  refine ⟨secs, nanos, ?_, ?_, ?_⟩
  · rw [member?, hms, Option.bind_eq_bind, Option.bind_some, hsecs]
  · rw [member?, hms, Option.bind_eq_bind, Option.bind_some, hnanos]
  · exact write_of_carry? hcarry

end Duration

namespace Flags

/-- What is read as settings. -/
theorem read_eq_some_iff {j : Json} {flags : Flags} : JsonFormat.read j = some flags ↔
    ∃ ms, j.record? ["enable_log", "run_interval"] = some ms ∧
      field? ms "enable_log" = some flags.enableLog ∧
      field? ms "run_interval" = some flags.runInterval := by
  simp only [JsonFormat.read, Option.bind_eq_bind, Option.bind_eq_some_iff]
  constructor
  · rintro ⟨ms, hms, enableLog, hlog, runInterval, hinterval, ⟨⟩⟩
    exact ⟨ms, hms, hlog, hinterval⟩
  · rintro ⟨ms, hms, hlog, hinterval⟩
    exact ⟨ms, hms, _, hlog, _, hinterval, rfl⟩

/-- The interval of settings that were read was read from their member. -/
theorem exists_interval {j : Json} {flags : Flags} (h : JsonFormat.read j = some flags) :
    ∃ interval, j.member? ["enable_log", "run_interval"] "run_interval" = some interval ∧
      JsonFormat.read interval = some flags.runInterval := by
  obtain ⟨ms, hms, -, hfield⟩ := read_eq_some_iff.mp h
  obtain ⟨interval, hlookup, hinterval⟩ := field?_eq_some_iff.mp hfield
  exact ⟨interval, by rw [member?, hms, Option.bind_eq_bind, Option.bind_some, hlookup], hinterval⟩

/-- Settings are rewritten with the full seconds of their interval carried. -/
theorem rewrite_carried (enableLog : Bool) {secs nanos : Nat} (hnanos : nanos < UInt32.size)
    (hsecs : secs + nanos / nanosPerSecond < UInt64.size) :
    rewrite Flags (.obj [("enable_log", .bool enableLog),
        ("run_interval", .obj [("secs", .nat secs), ("nanos", .nat nanos)])]) =
      some (.obj [("enable_log", .bool enableLog),
        ("run_interval", .obj [("secs", .nat (secs + nanos / nanosPerSecond)),
          ("nanos", .nat (nanos % nanosPerSecond))])]) := by
  obtain ⟨d, hread, hcarry⟩ := Duration.exists_read hnanos hsecs
  have hflags : JsonFormat.read (.obj [("enable_log", .bool enableLog),
      ("run_interval", .obj [("secs", .nat secs), ("nanos", .nat nanos)])]) =
      some (Flags.mk enableLog d) := read_eq_some_iff.mpr ⟨_, rfl, rfl, hread⟩
  rw [rewrite, hflags, Option.map_some, ← Duration.write_of_carry? hcarry]
  rfl

instance : JsonFormat.Faithful Flags where
  read_write flags := by
    refine read_eq_some_iff.mpr ⟨_, rfl, ?_, ?_⟩
    · exact JsonFormat.Faithful.read_write flags.enableLog
    · exact JsonFormat.Faithful.read_write flags.runInterval

/-- Settings are records of two fields. -/
theorem record : Record Flags ["enable_log", "run_interval"] := by
  refine Record.of_finish _ (fun _ => ⟨_, rfl, rfl⟩) (fun _ => rfl) ?_
  intro ms ms' h
  rw [List.forall_mem_cons, List.forall_mem_cons] at h
  simp only [field?, h]

/-- Full seconds among the nanoseconds are carried, and the unknown field is dropped. -/
example : rewrite Flags (.obj [("enable_log", .bool true), ("speed", .nat 9),
      ("run_interval", .obj [("nanos", .nat 2500000000), ("secs", .nat 1)])]) =
    some (.obj [("enable_log", .bool true),
      ("run_interval", .obj [("secs", .nat 3), ("nanos", .nat 500000000)])]) := by
  rfl

end Flags

/-! ## Snapshots -/

instance : JsonFormat.Faithful Registers where
  read_write regs := by
    show (JsonFormat.read (JsonFormat.write regs.toList)).bind Registers.ofList? = some regs
    rw [JsonFormat.Faithful.read_write, Option.bind_some, Registers.ofList?_toList]

namespace Snapshot

/-- What is read as a snapshot. -/
theorem read_eq_some_iff {j : Json} {s : Snapshot} : JsonFormat.read j = some s ↔
    ∃ ms, j.record? ["memory", "registers", "halted"] = some ms ∧
      field? ms "memory" = some s.memory ∧ field? ms "registers" = some s.registers ∧
      field? ms "halted" = some s.halted := by
  simp only [JsonFormat.read, Option.bind_eq_bind, Option.bind_eq_some_iff]
  constructor
  · rintro ⟨ms, hms, memory, hmemory, registers, hregisters, halted, hhalted, ⟨⟩⟩
    exact ⟨ms, hms, hmemory, hregisters, hhalted⟩
  · rintro ⟨ms, hms, hmemory, hregisters, hhalted⟩
    exact ⟨ms, hms, _, hmemory, _, hregisters, _, hhalted, rfl⟩

instance : JsonFormat.Faithful Snapshot where
  read_write s := by
    refine read_eq_some_iff.mpr ⟨_, rfl, ?_, ?_, ?_⟩
    · exact JsonFormat.Faithful.read_write s.memory
    · exact JsonFormat.Faithful.read_write s.registers
    · exact JsonFormat.Faithful.read_write s.halted

/-- Snapshots are records of three fields. -/
theorem record : Record Snapshot ["memory", "registers", "halted"] := by
  refine Record.of_finish _ (fun _ => ⟨_, rfl, rfl⟩) (fun _ => rfl) ?_
  intro ms ms' h
  rw [List.forall_mem_cons, List.forall_mem_cons, List.forall_mem_cons] at h
  simp only [field?, h]

end Snapshot

/-! ## Programs -/

namespace Program

/-- What is read as a program. -/
theorem read_eq_some_iff {j : Json} {program : Program} : JsonFormat.read j = some program ↔
    ∃ ms, j.record? ["origin", "program", "symbols", "source_map"] = some ms ∧
      field? ms "origin" = some program.origin ∧ field? ms "program" = some program.words ∧
      (ms.lookup "symbols" >>= Table.ofJson? some) = some program.symbols ∧
      (ms.lookup "source_map" >>= Table.ofJson? addressKey?) = some program.sourceMap := by
  simp only [JsonFormat.read, Option.bind_eq_bind, Option.bind_eq_some_iff]
  constructor
  · rintro ⟨ms, hms, origin, horigin, words, hwords, labels, hlabels, symbols, hsymbols, lines,
      hlines, sourceMap, hsourceMap, ⟨⟩⟩
    exact ⟨ms, hms, horigin, hwords, ⟨labels, hlabels, hsymbols⟩, lines, hlines, hsourceMap⟩
  · rintro ⟨ms, hms, horigin, hwords, ⟨labels, hlabels, hsymbols⟩, lines, hlines, hsourceMap⟩
    exact ⟨ms, hms, _, horigin, _, hwords, labels, hlabels, _, hsymbols, lines, hlines, _,
      hsourceMap, rfl⟩

/-- A program loses nothing, if its source lines have 64 bits. -/
theorem lossless :
    Lossless Program fun program => ∀ e ∈ program.sourceMap.entries, e.2 < UInt64.size := by
  apply Lossless.of_read_write
  · intro program h
    refine read_eq_some_iff.mpr ⟨_, rfl, ?_, ?_, ?_, ?_⟩
    · exact JsonFormat.Faithful.read_write program.origin
    · exact JsonFormat.Faithful.read_write program.words
    · exact Table.ofJson?_toJson (fun _ => rfl) fun _ _ => JsonFormat.Faithful.read_write _
    · exact Table.ofJson?_toJson addressKey?_addressKey fun e he => read_write_nat (h e he)
  · intro j program h e he
    obtain ⟨ms, -, -, -, -, hsourceMap⟩ := read_eq_some_iff.mp h
    obtain ⟨table, -, htable⟩ := Option.bind_eq_some_iff.mp hsourceMap
    obtain ⟨item, hitem⟩ := Table.exists_of_mem_ofJson? htable he
    exact lt_of_read_nat hitem

/-- Programs are records of four fields. -/
theorem record : Record Program ["origin", "program", "symbols", "source_map"] := by
  refine Record.of_finish _ (fun _ => ⟨_, rfl, rfl⟩) (fun _ => rfl) ?_
  intro ms ms' h
  rw [List.forall_mem_cons, List.forall_mem_cons, List.forall_mem_cons, List.forall_mem_cons] at h
  simp only [field?, h]

end Program

/-! ## The formats together -/

/-- Nothing is lost on the way through JSON. Every value comes back, where a natural number has
64 bits, and whatever is read is written in a form that is read as the same value and written
again as it is. What is written for it has the fields of its type only, with null for what was
missing, and the full seconds of a duration carried; any number of nanoseconds that is read is
carried, unless the seconds become too many. -/
theorem json_lossless :
    ((Lossless Reg fun _ => True) ∧ (Lossless Opcode fun _ => True) ∧
      (Lossless ArithOp fun _ => True) ∧ (Lossless Condition fun _ => True) ∧
      (Lossless Fault fun _ => True) ∧ (Lossless Interrupt fun _ => True) ∧
      (Lossless WordFormat fun _ => True) ∧ (Lossless Action fun _ => True) ∧
      (Lossless LogEntry fun entry => entry.microPC < UInt64.size) ∧
      (Lossless Log fun log => ∀ entry ∈ log.entries, entry.microPC < UInt64.size) ∧
      (Lossless Flags fun _ => True) ∧ (Lossless Snapshot fun _ => True) ∧
      (Lossless Program fun program => ∀ e ∈ program.sourceMap.entries, e.2 < UInt64.size)) ∧
    (Tagged Action Json.str? [] ∧
      Tagged LogEntry LogEntry.typeName? ["micro_pc", "interrupt"] ∧
      Record Flags ["enable_log", "run_interval"] ∧
      Record Snapshot ["memory", "registers", "halted"] ∧
      Record Program ["origin", "program", "symbols", "source_map"]) ∧
    (∀ (j : Json) (flags : Flags), JsonFormat.read j = some flags →
      ∃ (interval : Json) (secs nanos : Nat),
        j.member? ["enable_log", "run_interval"] "run_interval" = some interval ∧
        interval.member? ["secs", "nanos"] "secs" = some (.nat secs) ∧
        interval.member? ["secs", "nanos"] "nanos" = some (.nat nanos) ∧
        (JsonFormat.write flags).member? ["enable_log", "run_interval"] "run_interval" =
          some (.obj [("secs", .nat (secs + nanos / nanosPerSecond)),
            ("nanos", .nat (nanos % nanosPerSecond))])) ∧
    ∀ (enableLog : Bool) (secs nanos : Nat), nanos < UInt32.size →
      secs + nanos / nanosPerSecond < UInt64.size →
      rewrite Flags (.obj [("enable_log", .bool enableLog),
          ("run_interval", .obj [("secs", .nat secs), ("nanos", .nat nanos)])]) =
        some (.obj [("enable_log", .bool enableLog),
          ("run_interval", .obj [("secs", .nat (secs + nanos / nanosPerSecond)),
            ("nanos", .nat (nanos % nanosPerSecond))])]) := by
  refine ⟨⟨.of_faithful Reg, .of_faithful Opcode, .of_faithful ArithOp, .of_faithful Condition,
    .of_faithful Fault, .of_faithful Interrupt, .of_faithful WordFormat, .of_faithful Action,
    LogEntry.lossless, Log.lossless, .of_faithful Flags, .of_faithful Snapshot,
    Program.lossless⟩, ⟨Action.tagged, LogEntry.tagged, Flags.record, Snapshot.record,
    Program.record⟩, ?_, fun enableLog _ _ => Flags.rewrite_carried enableLog⟩
  intro j flags h
  obtain ⟨interval, hinterval, hread⟩ := Flags.exists_interval h
  obtain ⟨secs, nanos, hsecs, hnanos, hwritten⟩ := Duration.carried hread
  exact ⟨interval, secs, nanos, hinterval, hsecs, hnanos, congrArg some hwritten⟩

/-- A log entry with the greatest index comes back, and of the greatest number of nanoseconds
four seconds are carried. -/
theorem json_lossless_greatest :
    let entry : LogEntry := ⟨.halt true (some (.unsupportedOpcode 15)), 2 ^ 64 - 1, .needsLoad⟩
    entry.microPC < UInt64.size ∧ JsonFormat.read (JsonFormat.write entry) = some entry ∧
      4294967295 < UInt32.size ∧
      rewrite Flags (.obj [("enable_log", .bool true),
          ("run_interval", .obj [("secs", .nat 1), ("nanos", .nat 4294967295)])]) =
        some (.obj [("enable_log", .bool true),
          ("run_interval", .obj [("secs", .nat 5), ("nanos", .nat 294967295)])]) := by
  intro entry
  obtain ⟨⟨-, -, -, -, -, -, -, -, hentry, -⟩, -, -, hcarried⟩ := json_lossless
  have hindex : entry.microPC < UInt64.size := by decide
  exact ⟨hindex, hentry.read_write entry hindex, by decide,
    hcarried true 1 4294967295 (by decide) (by decide)⟩

end Marie
