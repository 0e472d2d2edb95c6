/-
# Digits in groups

What grouped digits look like is said without the loop that cuts them: the groups of a text are
what lies between its spaces, the first one may be short, and all others are whole.

* `leadSize_iff` : the first group has what whole groups leave over, and one digit at least;
* `eq_groupsOf_iff` : a text that is not empty is cut into groups from the right in one way only;
* `splitOn_grouped` : between the spaces of grouped digits stand these groups;
* `GroupsFromRight` : how a text shows digits in groups that are counted from the right;
* `grouped_from_right` : grouped digits are shown like that, and in no other text;
* `WordFormat.groupsFromRight_chars` : words in octal and in binary.
-/
import Marie.WordFormat

namespace Marie

namespace Text

variable {size : Nat} {text digits shown : List Char} {groups : List (List Char)}

/-! ## Whole pieces -/

/-- The first piece of a text, and the pieces of the rest. -/
theorem chunks_of_ne_nil (hsize : 1 ≤ size) (hne : text ≠ []) :
    chunks size text = text.take size :: chunks size (text.drop size) := by
  obtain ⟨c, cs, rfl⟩ := List.exists_cons_of_ne_nil hne
  rw [chunks, if_neg (by omega)]

/-- A text whose length is a multiple of the size is cut into whole pieces. -/
theorem length_of_mem_chunks (hsize : 1 ≤ size) (hdvd : size ∣ text.length) :
    ∀ piece ∈ chunks size text, piece.length = size := by
  fun_induction chunks size text with
  | case1 => simp
  | case2 => omega
  | case3 c cs hne ih =>
      have hle : size ≤ (c :: cs).length := Nat.le_of_dvd (Nat.succ_pos _) hdvd
      have hrest : size ∣ ((c :: cs).drop size).length := by
        rw [List.length_drop]
        exact Nat.dvd_sub hdvd (Nat.dvd_refl size)
      exact List.forall_mem_cons.mpr ⟨List.length_take_of_le hle, ih hrest⟩

/-- Whole pieces in a row are cut where they meet. -/
theorem chunks_flatten (hsize : 1 ≤ size) {pieces : List (List Char)}
    (h : ∀ piece ∈ pieces, piece.length = size) : chunks size pieces.flatten = pieces := by
  induction pieces with
  | nil => rw [List.flatten_nil, chunks]
  | cons piece pieces ih =>
      obtain ⟨hpiece, hpieces⟩ := List.forall_mem_cons.mp h
      have hne : piece ++ pieces.flatten ≠ [] := by
        apply List.append_ne_nil_of_left_ne_nil
        exact List.ne_nil_of_length_pos (by omega)
      rw [List.flatten_cons, chunks_of_ne_nil hsize hne, List.take_left' hpiece,
        List.drop_left' hpiece, ih hpieces]

/-- The length of whole pieces in a row. -/
theorem length_flatten_of_whole {pieces : List (List Char)}
    (h : ∀ piece ∈ pieces, piece.length = size) :
    pieces.flatten.length = pieces.length * size := by
  rw [List.length_flatten, List.map_congr_left h, List.map_const', List.sum_replicate_nat]

/-! ## The groups of digits -/

/-- The first group has what whole groups leave over, and one digit at least. -/
theorem leadSize_iff (hsize : 1 ≤ size) (hne : text ≠ []) {n : Nat} :
    leadSize size text = n ↔ (1 ≤ n ∧ n ≤ size) ∧ ∃ k, text.length = n + k * size := by
  have hlength := List.length_pos_iff.mpr hne
  have hdivide := Nat.mod_add_div' text.length size
  have hless := Nat.mod_lt text.length hsize
  unfold leadSize
  constructor
  · rintro rfl
    split
    · -- nothing is left over: the first group is whole, and there is one fewer behind it
      rename_i hmultiple
      have hgroups : 1 ≤ text.length / size :=
        Nat.div_pos (Nat.le_of_dvd hlength (Nat.dvd_of_mod_eq_zero hmultiple)) hsize
      obtain ⟨k, hk⟩ := Nat.exists_eq_add_of_le' hgroups
      rw [hk, Nat.succ_mul] at hdivide
      exact ⟨⟨hsize, Nat.le_refl size⟩, k, by omega⟩
    · exact ⟨by omega, text.length / size, hdivide.symm⟩
  · rintro ⟨⟨hpos, hle⟩, k, hk⟩
    rw [hk, Nat.add_mul_mod_self_right]
    rcases Nat.lt_or_eq_of_le hle with hlt | rfl
    · rw [Nat.mod_eq_of_lt hlt, if_neg (by omega)]
    · rw [Nat.mod_self, if_pos rfl]

/-- The groups that digits are cut into. -/
def groupsOf (size : Nat) (digits : List Char) : List (List Char) :=
  digits.take (leadSize size digits) :: chunks size (digits.drop (leadSize size digits))

/-- The groups in a row are the digits. -/
theorem flatten_groupsOf (size : Nat) (digits : List Char) :
    (groupsOf size digits).flatten = digits := by
  rw [groupsOf, List.flatten_cons, flatten_chunks, List.take_append_drop]

/-- Groups are counted from the right if the first has from one digit to a whole group, and all
others are whole. -/
def CountedFromRight (size : Nat) : List (List Char) → Prop
  | [] => False
  | first :: rest =>
      (1 ≤ first.length ∧ first.length ≤ size) ∧ ∀ group ∈ rest, group.length = size

theorem CountedFromRight.nil_notMem (hsize : 1 ≤ size) (h : CountedFromRight size groups) :
    [] ∉ groups := by
  intro hnil
  cases groups with
  | nil => exact h
  | cons first rest =>
      obtain ⟨⟨hfirst, -⟩, hrest⟩ := h
      rcases List.mem_cons.mp hnil with rfl | hnil
      · exact absurd hfirst (by simp)
      · have hempty := hrest [] hnil
        rw [List.length_nil] at hempty
        omega

/-- A text that is not empty is cut into groups from the right in one way only. -/
theorem eq_groupsOf_iff (hsize : 1 ≤ size) (hne : text ≠ []) :
    groups = groupsOf size text ↔ CountedFromRight size groups ∧ groups.flatten = text := by
  constructor
  · rintro rfl
    obtain ⟨hlead, k, hk⟩ := (leadSize_iff hsize hne).mp rfl
    have hfirst : (text.take (leadSize size text)).length = leadSize size text :=
      List.length_take_of_le (by omega)
    have hdvd : size ∣ (text.drop (leadSize size text)).length := by
      rw [List.length_drop, hk, Nat.add_sub_cancel_left]
      exact Nat.dvd_mul_left size k
    exact ⟨⟨by rwa [hfirst], length_of_mem_chunks hsize hdvd⟩, flatten_groupsOf size text⟩
  · rintro ⟨hcounted, htext⟩
    cases groups with
    | nil => exact hcounted.elim
    | cons first rest =>
        obtain ⟨hfirst, hrest⟩ := hcounted
        rw [List.flatten_cons] at htext
        -- the number of digits alone decides where the first group ends
        have hlength : text.length = first.length + rest.length * size := by
          rw [← htext, List.length_append, length_flatten_of_whole hrest]
        have hlead := (leadSize_iff hsize hne).mpr ⟨hfirst, rest.length, hlength⟩
        rw [groupsOf, hlead, ← htext, List.take_left, List.drop_left, chunks_flatten hsize hrest]

/-! ## Spaces -/

/-- Pieces that are joined by spaces are the first one, and a space before each of the others. -/
theorem intercalate_space (piece : List Char) (pieces : List (List Char)) :
    [' '].intercalate (piece :: pieces) = piece ++ pieces.flatMap (' ' :: ·) := by
  induction pieces generalizing piece with
  | nil => simp
  | cons next pieces ih => simp [List.intercalate_cons_cons, ih]

/-- What lies between the spaces of a text, in a row, is the text without its spaces. -/
theorem flatten_splitOn (text : List Char) :
    (text.splitOn ' ').flatten = text.filter (· ≠ ' ') := by
  induction text with
  | nil => rfl
  | cons c cs ih =>
      rw [List.splitOn_cons_eq_if_modifyHead]
      by_cases hc : c = ' '
      · rw [if_pos (by simpa using hc), List.filter_cons_of_neg (by simpa using hc), ← ih]
        rfl
      · obtain ⟨first, rest, hsplit⟩ := List.exists_cons_of_ne_nil (List.splitOn_ne_nil ' ' cs)
        rw [if_neg (by simpa using hc), List.filter_cons_of_pos (by simpa using hc), ← ih, hsplit]
        rfl

/-- Between the spaces of grouped digits stand their groups. -/
theorem splitOn_grouped (size : Nat) (hspace : ' ' ∉ digits) :
    (grouped size digits).splitOn ' ' = groupsOf size digits := by
  have hgroups : ∀ group ∈ groupsOf size digits, ' ' ∉ group := by
    intro group hgroup h
    have hmem := List.mem_flatten_of_mem hgroup h
    rw [flatten_groupsOf] at hmem
    exact hspace hmem
  rw [grouped, ← intercalate_space]
  exact List.splitOn_intercalate ' ' hgroups (List.cons_ne_nil _ _)

/-- The spaces of a text stand between other characters, one at a time. -/
structure Spaced (text : List Char) : Prop where
  /-- No space is in front. -/
  not_leading : text.head? ≠ some ' '
  /-- No space is at the end. -/
  not_trailing : text.getLast? ≠ some ' '
  /-- No space follows another one. -/
  not_doubled : ¬ [' ', ' '] <:+: text

/-- A space that is in front, at the end or behind another one leaves an empty group. -/
theorem spaced_of_nil_notMem (h : [] ∉ text.splitOn ' ') : Spaced text where
  not_leading hhead := by
    obtain ⟨after, rfl⟩ := List.head?_eq_some_iff.mp hhead
    rw [← List.nil_append (' ' :: after), List.splitOn_append_cons_self] at h
    exact h (List.mem_append_left _ (List.mem_singleton_self []))
  not_trailing hlast := by
    obtain ⟨before, rfl⟩ := List.getLast?_eq_some_iff.mp hlast
    rw [List.splitOn_append_cons_self] at h
    exact h (List.mem_append_right _ (List.mem_singleton_self []))
  not_doubled := by
    rintro ⟨before, after, rfl⟩
    have hgap : before ++ [' ', ' '] ++ after = (before ++ [' ']) ++ ' ' :: after := by simp
    rw [hgap, List.splitOn_append_cons_self, List.splitOn_append_cons_self] at h
    exact h (List.mem_append_left _ (List.mem_append_right _ (List.mem_singleton_self [])))

/-! ## Grouped digits -/

/-- How a text shows digits in groups of a size that are counted from the right. -/
structure GroupsFromRight (size : Nat) (digits shown : List Char) : Prop where
  /-- The text without its spaces is the digits. -/
  digits_eq : shown.filter (· ≠ ' ') = digits
  spaced : Spaced shown
  /-- Unless there are no digits, what lies between the spaces is counted from the right. -/
  counted : digits ≠ [] → CountedFromRight size (shown.splitOn ' ')

/-- No digits are shown as the empty text: a text of spaces alone has one in front. -/
theorem groupsFromRight_nil_iff : GroupsFromRight size [] shown ↔ shown = [] := by
  constructor
  · intro h
    cases shown with
    | nil => rfl
    | cons c cs =>
        have hspace := List.filter_eq_nil_iff.mp h.digits_eq c List.mem_cons_self
        obtain rfl : c = ' ' := by simpa using hspace
        exact absurd rfl h.spaced.not_leading
  · rintro rfl
    exact ⟨rfl, ⟨by simp, by simp, by simp⟩, fun hne => absurd rfl hne⟩

/-- There is one text that shows digits in groups from the right. -/
theorem groupsFromRight_iff (hsize : 1 ≤ size) (hspace : ' ' ∉ digits) :
    GroupsFromRight size digits shown ↔ shown = grouped size digits := by
  by_cases hne : digits = []
  · rw [hne, grouped_nil, groupsFromRight_nil_iff]
  constructor
  · intro h
    have hsplit : shown.splitOn ' ' = groupsOf size digits :=
      (eq_groupsOf_iff hsize hne).mpr ⟨h.counted hne, by rw [flatten_splitOn, h.digits_eq]⟩
    have hjoin : [' '].intercalate (shown.splitOn ' ') = shown := List.intercalate_splitOn ' '
    rw [← hjoin, hsplit, grouped, ← intercalate_space, groupsOf]
  · rintro rfl
    obtain ⟨hcounted, hflatten⟩ :=
      (eq_groupsOf_iff hsize hne).mp (splitOn_grouped size hspace)
    refine ⟨?_, spaced_of_nil_notMem (hcounted.nil_notMem hsize), fun _ => hcounted⟩
    rw [← flatten_splitOn, hflatten]

/-- Digits of any number are shown in groups of any size but zero: what is shown is the digits
but for its spaces, none of which is in front, at the end or behind another one; the first group
has from one digit to a whole group, and all others are whole. No other text shows the digits like
that, and no digits are shown as the empty text. -/
theorem grouped_from_right (hsize : 1 ≤ size) (hdigits : ∀ c ∈ digits, c.isDigit = true) :
    GroupsFromRight size digits (grouped size digits) ∧
      (∀ shown, GroupsFromRight size digits shown → shown = grouped size digits) ∧
      grouped size [] = [] := by
  have hspace : ' ' ∉ digits := fun h => absurd (hdigits ' ' h) (by decide)
  exact ⟨(groupsFromRight_iff hsize hspace).mpr rfl,
    fun _ => (groupsFromRight_iff hsize hspace).mp, grouped_nil size⟩

/-- Of eight digits in groups of four the first group is whole, with no space in front of it. -/
theorem grouped_from_right_whole :
    1 ≤ 4 ∧ (∀ c ∈ "10000001".toList, c.isDigit = true) ∧
      GroupsFromRight 4 "10000001".toList "1000 0001".toList ∧
      ∀ shown, GroupsFromRight 4 "10000001".toList shown → shown = "1000 0001".toList := by
  have hdigits : ∀ c ∈ "10000001".toList, c.isDigit = true := List.all_eq_true.mp (by decide)
  have hshown : grouped 4 "10000001".toList = "1000 0001".toList := by cbv
  obtain ⟨hgroups, honly, -⟩ := grouped_from_right (by decide : 1 ≤ 4) hdigits
  rw [hshown] at hgroups honly
  exact ⟨by decide, hdigits, hgroups, honly⟩

end Text

/-! ## Words in octal and in binary -/

namespace WordFormat

/-- Words are shown in octal in groups of three digits, and in binary in groups of four. -/
theorem groupsFromRight_chars (w : Word) :
    Text.GroupsFromRight 3 (Numeral.digits 8 w.toNat) (oct.chars w) ∧
      Text.GroupsFromRight 4 (Numeral.digits 2 w.toNat) (bin.chars w) := by
  have hspace (radix : Radix) : ' ' ∉ Numeral.digits radix.base w.toNat := by
    intro h
    have hdigit : Numeral.isDigit radix ' ' = true := Numeral.isDigit_of_mem_digits h
    cases radix <;> exact absurd hdigit (by decide)
  exact ⟨(Text.groupsFromRight_iff (by decide) (hspace .octal)).mpr rfl,
    (Text.groupsFromRight_iff (by decide) (hspace .binary)).mpr rfl⟩

end WordFormat

end Marie
