/-
# Look-ups in tables

A table is fixed by its look-ups: two tables in which every key has the same value are equal
(`Table.ext_get?`), because their entries stand in the order of the keys. A table that is made
from a list of entries has these entries, if no key has two values (`Table.get?_ofList`), so
that it comes back from its own entries (`Table.ofList_entries`).
-/
import Marie.Table
import Mathlib.Data.List.Induction

namespace Marie.Table

variable {κ α : Type} [Ord κ] [Std.LawfulEqOrd κ]

/-- In ascending entries a look-up finds the entry of the key. -/
theorem find?_eq_some_iff [Std.OrientedOrd κ] {entries : List (κ × α)}
    (hascending : entries.Pairwise fun a b => compare a.1 b.1 = .lt) {key : κ} {v : α} :
    find? key entries = some v ↔ (key, v) ∈ entries := by
  induction entries with
  | nil => simp [find?]
  | cons e rest ih =>
      obtain ⟨hhead, hrest⟩ := List.pairwise_cons.mp hascending
      obtain ⟨k, w⟩ := e
      rw [find?, List.mem_cons]
      by_cases hkey : key = k
      · rw [if_pos (Std.compare_eq_iff_eq.mpr hkey), Option.some_inj]
        constructor
        · rintro rfl
          exact .inl (by rw [hkey])
        · rintro (hsame | hlater)
          · cases hsame
            rfl
          · -- a later key is greater
            have hlt := hhead _ hlater
            rw [← hkey, Std.compare_eq_iff_eq.mpr rfl] at hlt
            cases hlt
      · rw [if_neg (mt Std.compare_eq_iff_eq.mp hkey), ih hrest]
        constructor
        · exact .inr
        · rintro (hsame | hlater)
          · cases hsame
            exact absurd rfl hkey
          · exact hlater

/-- A look-up finds the entry of the key. -/
theorem get?_eq_some_iff [Std.OrientedOrd κ] {table : Table κ α} {key : κ} {v : α} :
    table.get? key = some v ↔ (key, v) ∈ table.entries :=
  find?_eq_some_iff table.ascending

/-- Tables in which every key has the same value are the same. -/
theorem ext_get? [Std.OrientedOrd κ] {a b : Table κ α}
    (h : ∀ key v, a.get? key = some v ↔ b.get? key = some v) : a = b := by
  have hnodup : ∀ table : Table κ α, table.entries.Nodup := by
    intro table
    apply table.ascending.imp
    rintro x y hlt rfl
    rw [Std.compare_eq_iff_eq.mpr rfl] at hlt
    cases hlt
  have hperm : a.entries.Perm b.entries := by
    rw [List.perm_ext_iff_of_nodup (hnodup a) (hnodup b)]
    rintro ⟨key, v⟩
    rw [← get?_eq_some_iff, ← get?_eq_some_iff]
    exact h key v
  apply ext_entries
  refine hperm.eq_of_pairwise ?_ a.ascending b.ascending
  intro x y _ _ hlt hgt
  rw [Std.OrientedCmp.gt_of_lt hlt] at hgt
  cases hgt

/-- A table made from entries holds them, if no key has two values. -/
theorem get?_ofList [Std.TransOrd κ] {entries : List (κ × α)}
    (hunique : ∀ key v w, (key, v) ∈ entries → (key, w) ∈ entries → v = w) (key : κ) (v : α) :
    (ofList entries).get? key = some v ↔ (key, v) ∈ entries := by
  -- induction from the end, since of two entries with one key the last one counts
  induction entries using List.reverseRecOn with
  | nil => simp [ofList]
  | append_singleton entries e ih =>
      have hprefix := ih fun key v w hv hw =>
        hunique key v w (List.mem_append_left _ hv) (List.mem_append_left _ hw)
      have hlast : ofList (entries ++ [e]) = (ofList entries).insert e.1 e.2 := by
        rw [ofList, List.foldl_append]
        rfl
      rw [hlast, get?_insert]
      by_cases hkey : key = e.1
      · have he : (key, e.2) ∈ entries ++ [e] := by simp [hkey]
        rw [if_pos (Std.compare_eq_iff_eq.mpr hkey), Option.some_inj]
        constructor
        · rintro rfl
          exact he
        · intro hv
          exact hunique key e.2 v he hv
      · rw [if_neg (mt Std.compare_eq_iff_eq.mp hkey), hprefix, List.mem_append, List.mem_singleton]
        constructor
        · exact .inl
        · rintro (hv | rfl)
          · exact hv
          · exact absurd rfl hkey

/-- A table comes back from its entries. -/
theorem ofList_entries [Std.TransOrd κ] (table : Table κ α) : ofList table.entries = table := by
  apply ext_get?
  intro key v
  refine (get?_ofList ?_ key v).trans get?_eq_some_iff.symm
  intro key v w hv hw
  rw [← get?_eq_some_iff] at hv hw
  exact Option.some_inj.mp (hv.symm.trans hw)

omit [Std.LawfulEqOrd κ] in
/-- An entry of a table made from a list is one of the list. -/
theorem mem_of_mem_ofList [Std.TransOrd κ] {entries : List (κ × α)} {e : κ × α}
    (h : e ∈ (ofList entries).entries) : e ∈ entries := by
  induction entries using List.reverseRecOn with
  | nil => exact h
  | append_singleton entries last ih =>
      rw [ofList, List.foldl_append] at h
      rcases mem_insertEntry h with rfl | h
      · exact List.mem_append_right _ List.mem_cons_self
      · exact List.mem_append_left _ (ih h)

end Marie.Table
