/-
# Sorted tables

A finite map as the list of its entries in strictly ascending order of the keys. So the order
of the entries belongs to the table, and two tables with the same entries are equal.

* `Table.get?_insert` says what one insertion does to every key.
-/

namespace Marie

/-- A finite map whose entries are listed by ascending key. -/
structure Table (κ α : Type) [Ord κ] where
  entries : List (κ × α) := []
  ascending : entries.Pairwise fun a b => compare a.1 b.1 = .lt := by exact List.Pairwise.nil

namespace Table

variable {κ α : Type} [Ord κ]

instance : EmptyCollection (Table κ α) :=
  ⟨{}⟩

instance : Inhabited (Table κ α) :=
  ⟨∅⟩

/-- Tables with the same entries are the same. -/
@[ext]
theorem ext_entries {a b : Table κ α} (h : a.entries = b.entries) : a = b := by
  cases a; cases b; simp_all

instance [DecidableEq κ] [DecidableEq α] : DecidableEq (Table κ α) := fun a b =>
  if h : a.entries = b.entries then isTrue (ext_entries h)
  else isFalse fun hab => h (hab ▸ rfl)

/-- The value of the entry with the given key in a list of entries. -/
def find? (key : κ) : List (κ × α) → Option α
  | [] => none
  | (k, v) :: rest => if compare key k = .eq then some v else find? key rest

/-- The value under a key. -/
def get? (table : Table κ α) (key : κ) : Option α :=
  find? key table.entries

/-- Puts an entry at its place in a list of entries, instead of one with the same key. -/
def insertEntry (key : κ) (value : α) : List (κ × α) → List (κ × α)
  | [] => [(key, value)]
  | (k, v) :: rest =>
    match compare key k with
    | .lt => (key, value) :: (k, v) :: rest
    | .eq => (key, value) :: rest
    | .gt => (k, v) :: insertEntry key value rest

/-- An entry after an insertion is the new one or an old one. -/
theorem mem_insertEntry {key : κ} {value : α} {e : κ × α} {entries : List (κ × α)}
    (h : e ∈ insertEntry key value entries) : e = (key, value) ∨ e ∈ entries := by
  induction entries with
  | nil => simpa [insertEntry] using h
  | cons head rest ih =>
    obtain ⟨k, v⟩ := head
    simp only [insertEntry] at h
    split at h
    · simpa using h
    · rcases List.mem_cons.1 h with h | h
      · exact .inl h
      · exact .inr (List.mem_cons_of_mem _ h)
    · rcases List.mem_cons.1 h with h | h
      · exact .inr (h ▸ List.mem_cons_self)
      · rcases ih h with h | h
        · exact .inl h
        · exact .inr (List.mem_cons_of_mem _ h)

/-- An insertion keeps the keys ascending. -/
theorem ascending_insertEntry [Std.TransOrd κ] (key : κ) (value : α) {entries : List (κ × α)}
    (h : entries.Pairwise fun a b => compare a.1 b.1 = .lt) :
    (insertEntry key value entries).Pairwise fun a b => compare a.1 b.1 = .lt := by
  induction entries with
  | nil => simp [insertEntry]
  | cons head rest ih =>
    obtain ⟨k, v⟩ := head
    obtain ⟨hhead, hrest⟩ := List.pairwise_cons.1 h
    simp only [insertEntry]
    split
    · rename_i hlt
      refine List.pairwise_cons.2 ⟨fun e he => ?_, h⟩
      rcases List.mem_cons.1 he with rfl | he
      · exact hlt
      · exact Std.TransCmp.lt_trans hlt (hhead e he)
    · rename_i heq
      refine List.pairwise_cons.2 ⟨fun e he => ?_, hrest⟩
      exact Std.TransCmp.lt_of_eq_of_lt heq (hhead e he)
    · rename_i hgt
      refine List.pairwise_cons.2 ⟨fun e he => ?_, ih hrest⟩
      rcases mem_insertEntry he with rfl | he
      · exact Std.OrientedCmp.lt_of_gt hgt
      · exact hhead e he

/-- Puts a value under a key, instead of the one that was there. -/
def insert [Std.TransOrd κ] (table : Table κ α) (key : κ) (value : α) : Table κ α where
  entries := insertEntry key value table.entries
  ascending := ascending_insertEntry key value table.ascending

/-- The table with the given entries; of two with the same key the later one counts. -/
def ofList [Std.TransOrd κ] (entries : List (κ × α)) : Table κ α :=
  entries.foldl (fun table e => table.insert e.1 e.2) ∅

/-- The first key, in ascending order, whose value passes the test. -/
def firstKey? (table : Table κ α) (test : α → Bool) : Option κ :=
  (table.entries.find? fun e => test e.2).map (·.1)

theorem find?_insertEntry [Std.TransOrd κ] (key : κ) (value : α) (entries : List (κ × α))
    (other : κ) :
    find? other (insertEntry key value entries) =
      if compare other key = .eq then some value else find? other entries := by
  induction entries with
  | nil => simp [insertEntry, find?]
  | cons head rest ih =>
    obtain ⟨k, v⟩ := head
    simp only [insertEntry]
    split
    · rfl
    · rename_i heq
      by_cases h : compare other key = .eq
      · simp [find?, h]
      · have hk : compare other k ≠ .eq := fun hk =>
          h (Std.TransCmp.eq_trans hk (Std.OrientedCmp.eq_symm heq))
        simp [find?, h, hk]
    · rename_i hgt
      simp only [find?, ih]
      by_cases h : compare other key = .eq
      · have hk : compare other k = .gt := Std.TransCmp.gt_of_eq_of_gt h hgt
        simp [h, hk]
      · simp [h]

/-- After an insertion the key has the new value, and the others have what they had. -/
theorem get?_insert [Std.TransOrd κ] (table : Table κ α) (key : κ) (value : α) (other : κ) :
    (table.insert key value).get? other =
      if compare other key = .eq then some value else table.get? other :=
  find?_insertEntry key value table.entries other

@[simp]
theorem get?_empty (key : κ) : (∅ : Table κ α).get? key = none :=
  rfl

end Table

end Marie
