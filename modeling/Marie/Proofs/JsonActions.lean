/-
# Actions and logs come back from JSON

An action is a record with its type among the members, and a log entry has the fields of the
entry beside these. The reader looks up the fields of the type and no others
(`Action.ofMembers?_congr`), and finds in what was written for an action the action, whatever
stands behind it (`Action.exists_type`). So the fields of the entry do not disturb those of the
action, nor the other way round (`LogEntry.lookup_members`).

* `Action.tagged`, `LogEntry.tagged` : which members are written for a value that was read, and
  which members the reader drops;
* `LogEntry.lossless`, `Log.lossless` : entries and logs come back, if their indices have 64
  bits.
-/
import Marie.Proofs.JsonFormats
import Mathlib.Tactic.FinCases

namespace Marie

open Json

/-! ## Values in the fields of an action -/

/-- A format that never writes a name above an empty object. -/
class JsonFormat.Unwrapped (α : Type) [JsonFormat α] : Prop where
  unwrapName_write : ∀ a : α, (JsonFormat.write a).unwrapName = JsonFormat.write a

attribute [simp] JsonFormat.Unwrapped.unwrapName_write

instance : JsonFormat.Unwrapped Bool where
  unwrapName_write _ := rfl

instance : JsonFormat.Unwrapped UInt16 where
  unwrapName_write _ := rfl

instance : JsonFormat.Unwrapped Reg where
  unwrapName_write _ := rfl

instance : JsonFormat.Unwrapped Opcode where
  unwrapName_write _ := rfl

instance : JsonFormat.Unwrapped ArithOp where
  unwrapName_write _ := rfl

instance : JsonFormat.Unwrapped Condition where
  unwrapName_write _ := rfl

instance : JsonFormat.Unwrapped (Option Opcode) where
  unwrapName_write op := by cases op <;> rfl

instance : JsonFormat.Unwrapped (Option Fault) where
  unwrapName_write fault := by rcases fault with _ | _ | _ <;> rfl

/-! ## Records with a type -/

/-- The fields of an action that may be missing, each with its type. -/
def Action.optionalFields : List (String × String) :=
  [("decode", "old"), ("halt", "fault")]

/-- The type that the members of a record name. -/
def Json.typeOf? (typeName? : Json → Option String) (ms : List (String × Json)) :
    Option String :=
  ms.lookup "type" >>= typeName?

/-- The format of records that have a type of action and its fields, and then other fields of
their own. -/
structure Json.Tagged (α : Type) [JsonFormat α] (typeName? : Json → Option String)
    (others : List String) : Prop where
  /-- What is written has the type that was read, its fields and the others in this order, and
  null in an optional field that was missing. -/
  writes : ∀ {ms} {a : α}, JsonFormat.read (.obj ms) = some a →
    ∃ type fields written, typeOf? typeName? ms = some type ∧ (type, fields) ∈ Action.types ∧
      JsonFormat.write a = .obj written ∧
      written.map (·.1) = "type" :: fields ++ others ∧
      written.lookup "type" = some (.str type) ∧
      ∀ field, (type, field) ∈ Action.optionalFields → ms.lookup field = none →
        written.lookup field = some .null
  /-- Members of other names are not seen. -/
  drops : ∀ {type fields ms}, (type, fields) ∈ Action.types →
    typeOf? typeName? ms = some type →
    (JsonFormat.read (.obj (ms.filter fun m => ("type" :: fields ++ others).contains m.1)) :
      Option α) = JsonFormat.read (.obj ms)
  /-- An optional field that is missing is read as null. -/
  fills : ∀ {type field ms}, (type, field) ∈ Action.optionalFields →
    typeOf? typeName? ms = some type → ms.lookup field = none →
    (JsonFormat.read (.obj (ms ++ [(field, .null)])) : Option α) = JsonFormat.read (.obj ms)

namespace Action

/-! ## Actions -/

/-- Taking a name out of its object does not change the names of the members. -/
theorem lookup_unwrapped (ms : List (String × Json)) (name : String) :
    (ms.map fun m => (m.1, m.2.unwrapName)).lookup name = (ms.lookup name).map unwrapName := by
  induction ms with
  | nil => rfl
  | cons m rest ih =>
      rw [List.map_cons, List.lookup_cons, List.lookup_cons, ih]
      cases name == m.1 <;> rfl

/-- The action of a type depends on the fields of the type only. -/
theorem ofMembers?_congr {type : String} {fields : List String} (htype : (type, fields) ∈ types)
    {ms ms' : List (String × Json)} (h : ∀ name ∈ fields, ms.lookup name = ms'.lookup name) :
    ofMembers? type ms = ofMembers? type ms' := by
  have hlookup : ∀ name ∈ fields, (ms.map fun m => (m.1, m.2.unwrapName)).lookup name =
      (ms'.map fun m => (m.1, m.2.unwrapName)).lookup name := by
    intro name hname
    rw [lookup_unwrapped, lookup_unwrapped, h name hname]
  -- one case for each type, whose reader looks up the fields of the list
  simp only [types] at htype
  fin_cases htype <;> simp_all [ofMembers?, field?, optionalField?]

/-- The members of an action name its type, and the action comes back from them, whatever
stands behind them. -/
theorem exists_type (action : Action) :
    ∃ type, action.members.lookup "type" = some (.str type) ∧
      ∀ more, ofMembers? type (action.members ++ more) = some action := by
  cases action <;> refine ⟨_, rfl, fun more => ?_⟩ <;>
    simp [members, ofMembers?, field?, optionalField?, List.lookup_cons]

/-- Only the types in the list have actions. -/
theorem exists_fields {type : String} {ms : List (String × Json)} {action : Action}
    (h : ofMembers? type ms = some action) : ∃ fields, (type, fields) ∈ types := by
  unfold ofMembers? at h
  split at h
  -- the last case is that of all other types
  case h_15 => cases h
  all_goals simp [types]

/-- An action that was read has the type that it was read as, and the fields of it. -/
theorem members_of_ofMembers? {type : String} {fields : List String}
    (htype : (type, fields) ∈ types) {ms : List (String × Json)} {action : Action}
    (h : ofMembers? type ms = some action) :
    action.members.map (·.1) = "type" :: fields ∧
      action.members.lookup "type" = some (.str type) := by
  simp only [types] at htype
  fin_cases htype <;>
    simp only [ofMembers?, Option.bind_eq_bind, Option.bind_eq_some_iff] at h <;> grind [members]

/-- A missing optional field is read as null. -/
theorem ofMembers?_missing {type field : String} (hfield : (type, field) ∈ optionalFields)
    {ms : List (String × Json)} (hmissing : ms.lookup field = none) :
    ofMembers? type (ms ++ [(field, .null)]) = ofMembers? type ms := by
  have hnull : unwrapName .null = .null := rfl
  have hread : ∀ (α : Type) [JsonFormat α],
      (JsonFormat.read .null : Option (Option α)) = some none := fun _ _ => rfl
  simp only [optionalFields] at hfield
  fin_cases hfield <;>
    simp [ofMembers?, field?, optionalField?, lookup_unwrapped, List.lookup_append,
      List.lookup_cons, hmissing, hnull, hread]

/-- A missing optional field is written as null. -/
theorem lookup_members_missing {type field : String} (hfield : (type, field) ∈ optionalFields)
    {ms : List (String × Json)} (hmissing : ms.lookup field = none) {action : Action}
    (h : ofMembers? type ms = some action) : action.members.lookup field = some .null := by
  simp only [optionalFields] at hfield
  fin_cases hfield
  · simp only [ofMembers?, optionalField?, lookup_unwrapped, hmissing, Option.bind_eq_bind,
      Option.bind_eq_some_iff] at h
    obtain ⟨old, hold, opcode, -, haction⟩ := h
    obtain rfl : none = old := Option.some_inj.mp hold
    obtain rfl : decode none opcode = action := Option.some_inj.mp haction
    rfl
  · simp only [ofMembers?, optionalField?, lookup_unwrapped, hmissing, Option.bind_eq_bind,
      Option.bind_eq_some_iff] at h
    obtain ⟨stops, -, fault, hfault, haction⟩ := h
    obtain rfl : none = fault := Option.some_inj.mp hfault
    obtain rfl : halt stops none = action := Option.some_inj.mp haction
    rfl

end Action

/-! ## Reading by type -/

/-- A format is tagged if it writes the action and then its other fields, and if it reads the
action of the type and then looks only at these. -/
theorem Json.Tagged.of_finish {α : Type} [JsonFormat α] {typeName? : Json → Option String}
    {others : List String} (action : α → Action)
    (finish : List (String × Json) → Action → Option α)
    (hwrite : ∀ a : α, ∃ more, JsonFormat.write a = .obj ((action a).members ++ more) ∧
      more.map (·.1) = others)
    (hread : ∀ ms, JsonFormat.read (.obj ms) =
      typeOf? typeName? ms >>= fun type => Action.ofMembers? type ms >>= finish ms)
    (hfinish : ∀ {ms ms'}, (∀ name ∈ others, ms.lookup name = ms'.lookup name) →
      finish ms = finish ms')
    (haction : ∀ {ms act a}, finish ms act = some a → action a = act)
    (hothers : ∀ field ∈ Action.optionalFields, field.2 ∉ others) :
    Tagged α typeName? others where
  writes := by
    intro ms a h
    rw [hread] at h
    obtain ⟨type, htypeOf, h⟩ := Option.bind_eq_some_iff.mp h
    obtain ⟨act, hact, ha⟩ := Option.bind_eq_some_iff.mp h
    obtain ⟨fields, htype⟩ := Action.exists_fields hact
    obtain ⟨hnames, hlookup⟩ := Action.members_of_ofMembers? htype hact
    obtain ⟨more, hwritten, hmore⟩ := hwrite a
    rw [haction ha] at hwritten
    refine ⟨type, fields, _, htypeOf, htype, hwritten, ?_, ?_, ?_⟩
    · rw [List.map_append, hnames, hmore]
    · rw [List.lookup_append, hlookup, Option.some_or]
    · intro field hfield hmissing
      rw [List.lookup_append, Action.lookup_members_missing hfield hmissing hact, Option.some_or]
  drops := by
    intro type fields ms htype htypeOf
    have hlookup : ∀ name ∈ "type" :: fields ++ others,
        (ms.filter fun m => ("type" :: fields ++ others).contains m.1).lookup name =
          ms.lookup name :=
      fun name hname => lookup_filter hname ms
    have hkept : typeOf? typeName?
        (ms.filter fun m => ("type" :: fields ++ others).contains m.1) = some type := by
      rw [← htypeOf, typeOf?, typeOf?, hlookup "type" (by simp)]
    rw [hread, hread, hkept, htypeOf, Option.bind_eq_bind, Option.bind_some, Option.bind_some,
      hfinish fun name hname => hlookup name (by simp [hname]),
      Action.ofMembers?_congr htype fun name hname => hlookup name (by simp [hname])]
  fills := by
    intro type field ms hfield htypeOf hmissing
    have hlookup : ∀ name, name ≠ field → (ms ++ [(field, Json.null)]).lookup name =
        ms.lookup name := by
      intro name hne
      rw [List.lookup_append, List.lookup_cons, beq_eq_false_iff_ne.mpr hne]
      exact Option.or_none
    have hne : "type" ≠ field := by
      rintro rfl
      simp [Action.optionalFields] at hfield
    have hkept : typeOf? typeName? (ms ++ [(field, Json.null)]) = some type := by
      rw [← htypeOf, typeOf?, typeOf?, hlookup "type" hne]
    have hsame : finish (ms ++ [(field, Json.null)]) = finish ms := by
      apply hfinish
      intro name hname
      apply hlookup
      rintro rfl
      exact hothers _ hfield hname
    rw [hread, hread, hkept, htypeOf, Option.bind_eq_bind, Option.bind_some, Option.bind_some,
      Action.ofMembers?_missing hfield hmissing, hsame]

namespace Action

/-- The reader of actions reads the fields of the type. -/
theorem read_obj (ms : List (String × Json)) : JsonFormat.read (.obj ms) =
    typeOf? Json.str? ms >>= fun type => ofMembers? type ms :=
  (Option.bind_assoc _ _ _).symm

instance : JsonFormat.Faithful Action where
  read_write action := by
    obtain ⟨type, hlookup, hback⟩ := action.exists_type
    have htypeOf : typeOf? Json.str? action.members = some type := by
      rw [typeOf?, hlookup]
      rfl
    have hmembers := hback []
    rw [List.append_nil] at hmembers
    show JsonFormat.read (.obj action.members) = some action
    rw [read_obj, htypeOf, Option.bind_eq_bind, Option.bind_some, hmembers]

/-- An action is written with its type and the fields of it, and nothing else is read. -/
theorem tagged : Tagged Action Json.str? [] := by
  apply Tagged.of_finish id fun _ => some
  · exact fun action => ⟨[], by rw [List.append_nil]; rfl, rfl⟩
  · intro ms
    simp only [read_obj, Option.bind_eq_bind, Option.bind_fun_some]
  · exact fun _ => rfl
  · exact fun h => (Option.some_inj.mp h).symm
  · exact fun _ _ => List.not_mem_nil

/-- The missing field becomes null, and the unknown field is dropped. -/
example : rewrite Action (.obj [("speed", .nat 9), ("opcode", .str "Add"),
      ("type", .str "decode")]) =
    some (.obj [("type", .str "decode"), ("old", .null), ("opcode", .str "Add")]) := by
  rfl

end Action

/-! ## Log entries and logs -/

namespace LogEntry

/-- No field of an action has the name of one of the entry. -/
theorem lookup_members (action : Action) :
    action.members.lookup "micro_pc" = none ∧ action.members.lookup "interrupt" = none := by
  cases action <;> exact ⟨rfl, rfl⟩

/-- The entry of an action that was read, with the fields that stand beside it. -/
def beside? (ms : List (String × Json)) (action : Action) : Option LogEntry :=
  return { action, microPC := ← field? ms "micro_pc", interrupt := ← field? ms "interrupt" }

/-- The reader of entries reads the action of the type, and then the fields beside it. -/
theorem read_obj (ms : List (String × Json)) : JsonFormat.read (.obj ms) =
    typeOf? typeName? ms >>= fun type => Action.ofMembers? type ms >>= beside? ms :=
  (Option.bind_assoc _ _ _).symm

/-- An entry comes back if its index has 64 bits. -/
theorem read_write {entry : LogEntry} (h : entry.microPC < UInt64.size) :
    JsonFormat.read (JsonFormat.write entry) = some entry := by
  obtain ⟨type, hlookup, hback⟩ := entry.action.exists_type
  obtain ⟨hmicroPC, hinterrupt⟩ := lookup_members entry.action
  have htypeOf : typeOf? typeName? (entry.action.members ++
      [("micro_pc", JsonFormat.write entry.microPC),
       ("interrupt", JsonFormat.write entry.interrupt)]) = some type := by
    rw [typeOf?, List.lookup_append, hlookup]
    rfl
  refine (read_obj _).trans ?_
  rw [htypeOf, Option.bind_eq_bind, Option.bind_some, hback, Option.bind_eq_bind,
    Option.bind_some]
  simp [beside?, field?, List.lookup_append, List.lookup_cons, hmicroPC, hinterrupt,
    read_write_nat h]

/-- An entry has the type and the fields of its action, and then its own. -/
theorem tagged : Tagged LogEntry typeName? ["micro_pc", "interrupt"] := by
  apply Tagged.of_finish LogEntry.action beside?
  · exact fun entry => ⟨_, rfl, rfl⟩
  · exact read_obj
  · intro ms ms' h
    funext action
    simp only [beside?, field?, h "micro_pc" (by simp), h "interrupt" (by simp)]
  · intro ms action entry h
    simp only [beside?, Option.bind_eq_bind, Option.bind_eq_some_iff] at h
    obtain ⟨microPC, -, interrupt, -, hentry⟩ := h
    rw [← Option.some_inj.mp hentry]
  · decide

/-- The index of an entry that was read has 64 bits. -/
theorem lt_of_read {j : Json} {entry : LogEntry} (h : JsonFormat.read j = some entry) :
    entry.microPC < UInt64.size := by
  cases j with
  | obj ms =>
      -- the reader is a chain of answers, of which only the one for the index counts
      rw [read_obj] at h
      obtain ⟨type, -, h⟩ := Option.bind_eq_some_iff.mp h
      obtain ⟨action, -, h⟩ := Option.bind_eq_some_iff.mp h
      obtain ⟨microPC, hmicroPC, h⟩ := Option.bind_eq_some_iff.mp h
      obtain ⟨interrupt, -, hentry⟩ := Option.bind_eq_some_iff.mp h
      obtain ⟨item, -, hitem⟩ := field?_eq_some_iff.mp hmicroPC
      rw [← Option.some_inj.mp hentry]
      exact lt_of_read_nat hitem
  | _ => cases h

/-- Entries lose nothing, if their indices have 64 bits. -/
theorem lossless : Lossless LogEntry fun entry => entry.microPC < UInt64.size :=
  .of_read_write (fun _ => read_write) fun _ _ => lt_of_read

end LogEntry

/-- A log loses nothing, if the indices of its entries have 64 bits. -/
theorem Log.lossless :
    Lossless Log fun log => ∀ entry ∈ log.entries, entry.microPC < UInt64.size := by
  apply Lossless.of_read_write
  · intro log h
    have hentries := read_write_list fun entry hentry => LogEntry.read_write (h entry hentry)
    show (JsonFormat.read (JsonFormat.write log.entries)).map Log.ofEntries = some log
    rw [hentries, Option.map_some, ofEntries_entries]
  · intro j log h entry hentry
    obtain ⟨entries, hread, rfl⟩ := Option.map_eq_some_iff.mp h
    rw [entries_ofEntries] at hentry
    obtain ⟨item, hitem⟩ := exists_of_mem_read hread hentry
    exact LogEntry.lt_of_read hitem

end Marie
