/-
# What is written is read back

A format is faithful if it reads back every value from what it writes for it
(`JsonFormat.Faithful`). Formats of names, lists, optional values and tables are faithful if
their parts are. Then nothing is lost on the way through JSON (`Json.Lossless`).

* `natBelow?_eq_some_iff` : natural numbers come back up to a bound, which every number that
  was read keeps;
* `faithful_named`, `read_write_list`, `faithful_option` : the parts decide;
* `addressKey?_addressKey` : an address comes back from its decimal key;
* `Table.ofJson?_toJson` : a table comes back from its object, whatever its keys are written as;
* `lookup_filter` : members of other names do not matter to a look-up.
-/
import Marie.Json.Program
import Marie.Json.Simulator
import Marie.Proofs.Tables
import Mathlib.Data.List.Basic

namespace Marie

/-- A format that reads back each value from what it writes for it. -/
class JsonFormat.Faithful (α : Type) [JsonFormat α] : Prop where
  read_write : ∀ a : α, JsonFormat.read (JsonFormat.write a) = some a

attribute [simp] JsonFormat.Faithful.read_write

namespace Json

/-- What is written for the value that is read as one of a type. -/
def rewrite (α : Type) [JsonFormat α] (j : Json) : Option Json :=
  (JsonFormat.read j : Option α).map JsonFormat.write

/-- Nothing is lost on the way through JSON: every value in range comes back, and whatever is
read is in range and is written in a form that stays as it is. -/
structure Lossless (α : Type) [JsonFormat α] (inRange : α → Prop) : Prop where
  read_write : ∀ a : α, inRange a → JsonFormat.read (JsonFormat.write a) = some a
  inRange_of_read : ∀ (j : Json) (a : α), JsonFormat.read j = some a → inRange a
  canonical : ∀ j written : Json, rewrite α j = some written →
    (JsonFormat.read written : Option α) = JsonFormat.read j ∧ rewrite α written = some written

/-- It is enough that the values in range come back and that only such values are read. -/
theorem Lossless.of_read_write {α : Type} [JsonFormat α] {inRange : α → Prop}
    (hwrite : ∀ a : α, inRange a → JsonFormat.read (JsonFormat.write a) = some a)
    (hread : ∀ (j : Json) (a : α), JsonFormat.read j = some a → inRange a) :
    Lossless α inRange where
  read_write := hwrite
  inRange_of_read := hread
  canonical j written h := by
    obtain ⟨a, ha, rfl⟩ := Option.map_eq_some_iff.mp h
    have hback := hwrite a (hread j a ha)
    exact ⟨hback.trans ha.symm, by rw [rewrite, hback, Option.map_some]⟩

/-- A faithful format loses nothing. -/
theorem Lossless.of_faithful (α : Type) [JsonFormat α] [JsonFormat.Faithful α] :
    Lossless α fun _ => True :=
  .of_read_write (fun a _ => JsonFormat.Faithful.read_write a) fun _ _ _ => trivial

/-! ## Numbers -/

/-- A value is a natural number below the bound just if it is written as one. -/
theorem natBelow?_eq_some_iff {bound n : Nat} {j : Json} :
    j.natBelow? bound = some n ↔ n < bound ∧ j = .nat n := by
  constructor
  · intro h
    rw [natBelow?] at h
    split at h
    · rename_i i hint
      split at h
      · rename_i hrange
        obtain rfl : i.toNat = n := Option.some_inj.mp h
        unfold int? at hint
        split at hint
        · rw [Option.some_inj.mp hint, nat, int, Int.toNat_of_nonneg hrange.1]
          exact ⟨by omega, rfl⟩
        · cases hint
      · cases h
    · cases h
  · rintro ⟨hn, rfl⟩
    have hrange : (0 : Int) ≤ n ∧ (n : Int) < bound := by omega
    simp only [natBelow?, nat, int, int?, if_pos hrange, Int.toNat_natCast]

@[simp]
theorem natBelow?_nat {bound n : Nat} (h : n < bound) : (Json.nat n).natBelow? bound = some n :=
  natBelow?_eq_some_iff.mpr ⟨h, rfl⟩

/-- A natural number of 64 bits comes back. -/
theorem read_write_nat {n : Nat} (h : n < UInt64.size) :
    JsonFormat.read (JsonFormat.write n) = some n :=
  natBelow?_nat h

/-- A natural number that was read has 64 bits. -/
theorem lt_of_read_nat {j : Json} {n : Nat} (h : JsonFormat.read j = some n) :
    n < UInt64.size :=
  (natBelow?_eq_some_iff.mp h).1

instance : JsonFormat.Faithful Bool where
  read_write _ := rfl

instance : JsonFormat.Faithful UInt8 where
  read_write n := by
    show ((Json.nat n.toNat).natBelow? UInt8.size).map UInt8.ofNat = some n
    rw [natBelow?_nat n.toNat_lt, Option.map_some, UInt8.ofNat_toNat]

instance : JsonFormat.Faithful UInt16 where
  read_write n := by
    show ((Json.nat n.toNat).natBelow? UInt16.size).map UInt16.ofNat = some n
    rw [natBelow?_nat n.toNat_lt, Option.map_some, UInt16.ofNat_toNat]

/-! ## Names -/

/-- A format of names is faithful if each value is the first one with its name. -/
theorem faithful_named {α : Type} {all : List α} {name : α → String}
    (hfirst : ∀ a, (all.find? fun b => name b == name a) = some a) :
    @JsonFormat.Faithful α (named all name) :=
  @JsonFormat.Faithful.mk α (named all name) hfirst

instance : JsonFormat.Faithful Reg :=
  faithful_named fun reg => by cases reg <;> rfl

instance : JsonFormat.Faithful Opcode :=
  faithful_named fun op => by cases op <;> rfl

instance : JsonFormat.Faithful ArithOp :=
  faithful_named fun op => by cases op <;> rfl

instance : JsonFormat.Faithful Condition :=
  faithful_named fun cond => by cases cond <;> rfl

instance : JsonFormat.Faithful Interrupt :=
  faithful_named fun interrupt => by cases interrupt <;> rfl

instance : JsonFormat.Faithful WordFormat :=
  faithful_named fun form => by cases form <;> rfl

instance : JsonFormat.Faithful Fault where
  read_write fault := by
    cases fault with
    | unsupportedOpcode bits =>
      show (JsonFormat.read (JsonFormat.write bits)).map Fault.unsupportedOpcode = _
      rw [JsonFormat.Faithful.read_write, Option.map_some]
    | unsupportedSkipCond operand =>
      show (JsonFormat.read (JsonFormat.write operand)).map Fault.unsupportedSkipCond = _
      rw [JsonFormat.Faithful.read_write, Option.map_some]

/-! ## Lists and optional values -/

/-- If each item comes back from what is written for it, the list does. -/
theorem mapM_map_eq_some {α β : Type} {write : α → β} {read : β → Option α} {items : List α}
    (h : ∀ a ∈ items, read (write a) = some a) : (items.map write).mapM read = some items := by
  induction items with
  | nil => rfl
  | cons a rest ih =>
      have hrest := ih fun b hb => h b (List.mem_cons_of_mem _ hb)
      simp [h a List.mem_cons_self, hrest]

/-- Each item of a list that was read was read from one of the values. -/
theorem exists_of_mem_mapM {α β : Type} {read : β → Option α} {js : List β} {items : List α}
    (h : js.mapM read = some items) {a : α} (ha : a ∈ items) : ∃ j ∈ js, read j = some a := by
  induction js generalizing items with
  | nil =>
      obtain rfl : [] = items := Option.some_inj.mp h
      cases ha
  | cons j rest ih =>
      simp only [List.mapM_cons, Option.bind_eq_bind, Option.bind_eq_some_iff] at h
      obtain ⟨b, hb, others, hothers, hitems⟩ := h
      obtain rfl : b :: others = items := Option.some_inj.mp hitems
      rcases List.mem_cons.mp ha with rfl | ha
      · exact ⟨j, List.mem_cons_self, hb⟩
      · obtain ⟨k, hk, hread⟩ := ih hothers ha
        exact ⟨k, List.mem_cons_of_mem _ hk, hread⟩

variable {α : Type} [JsonFormat α]

/-- A list comes back if its items do. -/
theorem read_write_list {items : List α}
    (h : ∀ a ∈ items, JsonFormat.read (JsonFormat.write a) = some a) :
    JsonFormat.read (JsonFormat.write items) = some items :=
  mapM_map_eq_some h

/-- Each item of a list that was read was itself read. -/
theorem exists_of_mem_read {j : Json} {items : List α} (h : JsonFormat.read j = some items)
    {a : α} (ha : a ∈ items) : ∃ item : Json, JsonFormat.read item = some a := by
  cases j with
  | arr js =>
      obtain ⟨item, -, hitem⟩ := exists_of_mem_mapM h ha
      exact ⟨item, hitem⟩
  | _ => cases h

instance [JsonFormat.Faithful α] : JsonFormat.Faithful (List α) where
  read_write _ := read_write_list fun _ _ => JsonFormat.Faithful.read_write _

/-- What may be missing comes back, if null stands for no value. -/
theorem faithful_option [JsonFormat.Faithful α] (hnull : ∀ a : α, JsonFormat.write a ≠ .null) :
    JsonFormat.Faithful (Option α) where
  read_write opt := by
    cases opt with
    | none => rfl
    | some a =>
      have hread : JsonFormat.read (JsonFormat.write a) = some a :=
        JsonFormat.Faithful.read_write a
      show JsonFormat.read (JsonFormat.write a) = some (some a)
      cases hwrite : (JsonFormat.write a : Json) with
      | null => exact absurd hwrite (hnull a)
      | _ =>
        rw [hwrite] at hread
        exact congrArg (Option.map some) hread

instance : JsonFormat.Faithful (Option Opcode) :=
  faithful_option fun _ => nofun

instance : JsonFormat.Faithful (Option Fault) :=
  faithful_option fun fault => by cases fault <;> nofun

/-! ## Members of an object -/

/-- The value of a field is read from the member of its name. -/
theorem field?_eq_some_iff {ms : List (String × Json)} {name : String} {a : α} :
    field? ms name = some a ↔ ∃ j, ms.lookup name = some j ∧ JsonFormat.read j = some a := by
  unfold field?
  cases ms.lookup name with
  | none => exact iff_of_false nofun fun ⟨_, hnone, _⟩ => nomatch hnone
  | some j => simp

/-- A look-up does not see the members that a filter by name takes out. -/
theorem lookup_filter {fields : List String} {name : String} (hname : name ∈ fields)
    (ms : List (String × Json)) :
    (ms.filter fun m => fields.contains m.1).lookup name = ms.lookup name := by
  induction ms with
  | nil => rfl
  | cons m rest ih =>
      by_cases hm : fields.contains m.1
      · rw [List.filter_cons, if_pos hm, List.lookup_cons, List.lookup_cons, ih]
      · have hne : (name == m.1) = false := by
          rw [beq_eq_false_iff_ne]
          rintro rfl
          exact hm (List.contains_iff_mem.mpr hname)
        rw [List.filter_cons, if_neg hm, List.lookup_cons, hne, ih]

end Json

/-! ## Addresses as keys -/

/-- Only zero begins with the digit zero. -/
theorem Numeral.eq_zero_of_head?_digits {base n : Nat} (hlo : 2 ≤ base) (hhi : base ≤ 16)
    (h : (digits base n).head? = some '0') : n = 0 := by
  induction n using Nat.strongRecOn with
  | ind n ih =>
      rw [digits] at h
      split at h
      · have hzero : digitChar n = '0' := by simpa using h
        have hvalue := digitValue?_digitChar (n := n) (by omega)
        rw [hzero] at hvalue
        exact (Option.some_inj.mp hvalue).symm
      · rename_i hbase
        rw [List.head?_append_of_ne_nil _ (digits_ne_nil _ _)] at h
        have hquot := ih (n / base) (Nat.div_lt_self (by omega) (by omega)) h
        have := Nat.div_eq_zero_iff.mp hquot
        omega

/-- A number comes back from its decimal digits. -/
theorem plainNat?_digits (n : Nat) : plainNat? (Numeral.digits 10 n) = some n := by
  have hdigits : (Numeral.digits 10 n).all Numeral.isDecimalDigit = true :=
    List.all_eq_true.mpr fun c hc => Numeral.isDigit_of_mem_digits hc
  have hplain : ¬((Numeral.digits 10 n).length ≠ 1 ∧ (Numeral.digits 10 n).head? = some '0') := by
    rintro ⟨hlength, hhead⟩
    obtain rfl := Numeral.eq_zero_of_head?_digits (by decide) (by decide) hhead
    exact hlength (by rw [Numeral.digits]; rfl)
  rw [plainNat?, hdigits, if_neg (by simp [Numeral.digits_ne_nil]), if_neg hplain,
    Numeral.value_digits (by decide) (by decide)]

/-- An address comes back from its key. -/
theorem addressKey?_addressKey (addr : Word) : addressKey? (addressKey addr) = some addr := by
  rw [addressKey?, addressKey, String.toList_ofList, plainNat?_digits]
  simp only
  rw [if_pos addr.toNat_lt, UInt16.ofNat_toNat]

/-! ## Tables -/

namespace Table

variable {κ α : Type} [Ord κ] [Std.TransOrd κ] [JsonFormat α]

/-- A table comes back from its object, if its keys and its values do. -/
theorem ofJson?_toJson [Std.LawfulEqOrd κ] {key : κ → String} {key? : String → Option κ}
    (hkey : ∀ k, key? (key k) = some k) {table : Table κ α}
    (hvalue : ∀ e ∈ table.entries, JsonFormat.read (JsonFormat.write e.2) = some e.2) :
    ofJson? key? (table.toJson key) = some table := by
  have hentries : (table.entries.map fun e => (key e.1, JsonFormat.write e.2)).mapM
      (fun m => do return (← key? m.1, ← JsonFormat.read m.2)) = some table.entries := by
    apply Json.mapM_map_eq_some
    intro e he
    simp [hkey, hvalue e he]
  rw [toJson, ofJson?, hentries]
  exact congrArg some (ofList_entries table)

/-- Each value of a table that was read was itself read. -/
theorem exists_of_mem_ofJson? {key? : String → Option κ} {j : Json} {table : Table κ α}
    (h : ofJson? key? j = some table) {e : κ × α} (he : e ∈ table.entries) :
    ∃ item : Json, JsonFormat.read item = some e.2 := by
  unfold ofJson? at h
  split at h
  · rename_i ms
    obtain ⟨entries, hentries, htable⟩ := Option.bind_eq_some_iff.mp h
    obtain rfl : ofList entries = table := Option.some_inj.mp htable
    obtain ⟨m, -, hm⟩ := Json.exists_of_mem_mapM hentries (mem_of_mem_ofList he)
    simp only [Option.bind_eq_bind, Option.bind_eq_some_iff] at hm
    obtain ⟨k, -, v, hv, hpair⟩ := hm
    obtain rfl : (k, v) = e := Option.some_inj.mp hpair
    exact ⟨m.2, hv⟩
  · cases h

end Table

end Marie
