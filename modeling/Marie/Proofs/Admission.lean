/-
# Sources that can be laid out

The layout of a source meets no problem exactly if its lines, read as a whole, have none. Both
sides are compared line by line: `Cursor.Admits` says, for the lines that are left, what holds of
a whole source, together with what the lines before have left behind in the cursor.

* `Cursor.exists_lays_iff` : there is a layout without problems exactly if the cursor admits the
  lines.
-/
import Marie.Proofs.Layout
import Mathlib.Tactic.ByContra

namespace Marie.Cursor

open Source

/-! ## Lines and cursor -/

/-- The label of a statement is new. -/
theorem duplicate?_eq_none_iff {cursor : Cursor} {statement : Statement} :
    cursor.duplicate? statement = none ↔
      ∀ label, statement.label = some label → cursor.labels.lookup label = none := by
  unfold duplicate?
  cases statement.label with
  | none => simp
  | some label => simp

/-- The labels after a statement are those before it and its own. -/
theorem lookup_define_eq_none_iff {cursor : Cursor} {line : Nat} {statement : Statement}
    {label : String} :
    (cursor.define line statement).labels.lookup label = none ↔
      statement.label ≠ some label ∧ cursor.labels.lookup label = none := by
  unfold define
  cases hlabel : statement.label with
  | none => simp
  | some own =>
      rw [List.lookup_cons, ne_eq, Option.some_inj]
      by_cases heq : label = own
      · simp [heq]
      · have hne : (label == own) = false := by simpa using heq
        simp only [hne]
        exact ⟨fun h => ⟨fun h' => heq h'.symm, h⟩, fun h => h.2⟩

/-- The lines that are left have no problem, and agree with what is known of the lines before
them. -/
structure Admits (cursor : Cursor) (lines : List NumberedLine) : Prop where
  parses : ∀ l ∈ readLines lines, ∃ line, l.2 = .ok line
  orgFirst : (readLines lines).Pairwise MayPrecede
  orgEarly : (cursor.origin = none ∧ cursor.size = 0) ∨ ∀ l ∈ readLines lines, org? l = none
  distinct : (Source.labels lines).Nodup
  fresh : ∀ label ∈ Source.labels lines, cursor.labels.lookup label = none
  fits : (cursor.originOf lines).toNat + cursor.size + (body lines).length ≤ memorySize

section

variable {cursor : Cursor} {line : Nat} {rest : List NumberedLine} {statement : Statement}

/-- Behind an origin or a statement no line gives the origin. -/
theorem no_org_behind {l : NumberedLine} (horder : (l :: readLines rest).Pairwise MayPrecede)
    (hl : org? l ≠ none ∨ statement? l ≠ none) :
    ∀ b ∈ readLines rest, org? b = none := by
  intro b hb
  by_contra hsome
  have hnone := (List.pairwise_cons.mp horder).1 b hb (Option.isSome_iff_ne_none.mpr hsome)
  rcases hl with hl | hl
  · exact hl hnone.1
  · exact hl hnone.2

/-- Any line may stand before lines that do not give the origin. -/
theorem pairwise_mayPrecede_cons {l : NumberedLine}
    (hnone : ∀ b ∈ readLines rest, org? b = none)
    (horder : (readLines rest).Pairwise MayPrecede) :
    (l :: readLines rest).Pairwise MayPrecede := by
  refine List.pairwise_cons.mpr ⟨fun b hb hsome => ?_, horder⟩
  rw [hnone b hb] at hsome
  cases hsome

/-- Labels are new and different exactly if the first one is new, and the others are different
and new after it. -/
theorem new_labels_iff (line : Nat) {labels : List String} :
    ((statement.label.toList ++ labels).Nodup ∧
        ∀ label ∈ statement.label.toList ++ labels, cursor.labels.lookup label = none) ↔
      cursor.duplicate? statement = none ∧ labels.Nodup ∧
        ∀ label ∈ labels, (cursor.define line statement).labels.lookup label = none := by
  rw [duplicate?_eq_none_iff, List.nodup_append]
  constructor
  · rintro ⟨⟨-, hnodup, hapart⟩, hfresh⟩
    refine ⟨fun label hlabel => hfresh label (by simp [hlabel]), hnodup, ?_⟩
    intro label hlabel
    rw [lookup_define_eq_none_iff]
    refine ⟨fun hsame => ?_, hfresh label (List.mem_append_right _ hlabel)⟩
    exact hapart label (by simp [hsame]) label hlabel rfl
  · rintro ⟨hnew, hnodup, hfresh⟩
    refine ⟨⟨?_, hnodup, ?_⟩, ?_⟩
    · cases statement.label <;> simp
    · rintro label hown label' hlabel' rfl
      have hother := (lookup_define_eq_none_iff.mp (hfresh label hlabel')).1
      exact hother (by simpa using hown)
    · intro label hlabel
      rcases List.mem_append.mp hlabel with hown | hlabel
      · exact hnew label (by simpa using hown)
      · exact (lookup_define_eq_none_iff.mp (hfresh label hlabel)).2

/-- Nothing is left. -/
theorem admits_nil : cursor.Admits [] ↔ cursor.address ≤ memorySize := by
  have horigin : cursor.originOf [] = cursor.origin.getD 0 := originOf_of_no_org (by simp)
  constructor
  · intro h
    have hfits := h.fits
    rw [horigin] at hfits
    exact hfits
  · intro h
    refine ⟨by simp, .nil, .inr (by simp), .nil, by simp [Source.labels, statements], ?_⟩
    rw [horigin]
    exact h

/-- A line that says nothing. -/
theorem admits_blank : cursor.Admits ((line, .ok .blank) :: rest) ↔ cursor.Admits rest := by
  constructor
  · rintro ⟨hparses, horder, hearly, hdistinct, hfresh, hfits⟩
    rw [readLines_blank] at hparses horder hearly
    exact ⟨(List.forall_mem_cons.mp hparses).2, (List.pairwise_cons.mp horder).2,
      hearly.imp_right fun h => (List.forall_mem_cons.mp h).2, hdistinct, hfresh, hfits⟩
  · rintro ⟨hparses, horder, hearly, hdistinct, hfresh, hfits⟩
    refine ⟨?_, ?_, hearly.imp_right ?_, hdistinct, hfresh, hfits⟩
    · rw [readLines_blank]
      exact List.forall_mem_cons.mpr ⟨⟨_, rfl⟩, hparses⟩
    · rw [readLines_blank]
      exact List.pairwise_cons.mpr ⟨fun b _ _ => ⟨rfl, rfl⟩, horder⟩
    · intro h
      rw [readLines_blank]
      exact List.forall_mem_cons.mpr ⟨rfl, h⟩

/-- A line that gives the origin. -/
theorem admits_org {addr : Word} : cursor.Admits ((line, .ok (.org addr)) :: rest) ↔
    (cursor.origin = none ∧ cursor.size = 0) ∧
      { cursor with origin := some addr }.Admits rest := by
  have horigin : cursor.origin = none →
      cursor.originOf ((line, .ok (.org addr)) :: rest) = addr := by
    intro hnone
    rw [originOf, hnone]
    rfl
  constructor
  · rintro ⟨hparses, horder, hearly, hdistinct, hfresh, hfits⟩
    rw [readLines_org] at hparses horder hearly
    have hnone := no_org_behind horder (.inl (Option.some_ne_none addr))
    have hfirst : cursor.origin = none ∧ cursor.size = 0 := by
      rcases hearly with hfirst | hall
      · exact hfirst
      · cases (List.forall_mem_cons.mp hall).1
    refine ⟨hfirst, (List.forall_mem_cons.mp hparses).2, (List.pairwise_cons.mp horder).2,
      .inr hnone, hdistinct, hfresh, ?_⟩
    rw [horigin hfirst.1] at hfits
    rw [originOf_of_no_org hnone]
    exact hfits
  · rintro ⟨hfirst, hparses, horder, hearly, hdistinct, hfresh, hfits⟩
    have hnone : ∀ l ∈ readLines rest, org? l = none := by
      rcases hearly with ⟨hsome, -⟩ | hnone
      · cases hsome
      · exact hnone
    refine ⟨?_, ?_, .inl hfirst, hdistinct, hfresh, ?_⟩
    · rw [readLines_org]
      exact List.forall_mem_cons.mpr ⟨⟨_, rfl⟩, hparses⟩
    · rw [readLines_org]
      exact pairwise_mayPrecede_cons hnone horder
    · rw [originOf_of_no_org hnone] at hfits
      rw [horigin hfirst.1]
      exact hfits

/-- A statement that does not end the source. -/
theorem admits_statement (hend : statement.isEnd = false) :
    cursor.Admits ((line, .ok (.statement statement)) :: rest) ↔
      cursor.duplicate? statement = none ∧ cursor.address < memorySize ∧
        { cursor.define line statement with size := cursor.size + 1 }.Admits rest := by
  have hread := readLines_statement line rest hend
  have hlabels := labels_statement line rest hend
  have hbody : (body ((line, .ok (.statement statement)) :: rest)).length =
      (body rest).length + 1 := by
    rw [body_statement line rest hend]
    rfl
  constructor
  · rintro ⟨hparses, horder, -, hdistinct, hfresh, hfits⟩
    rw [hread] at hparses horder
    rw [hlabels] at hdistinct hfresh
    have hnone := no_org_behind horder (.inr (Option.some_ne_none (line, statement)))
    obtain ⟨hnew, hdistinct, hfresh⟩ := (new_labels_iff line).mp ⟨hdistinct, hfresh⟩
    rw [originOf_statement hend hnone, hbody] at hfits
    -- there is a cell left for the word, since the words behind it fit as well
    refine ⟨hnew, by unfold address; omega, (List.forall_mem_cons.mp hparses).2,
      (List.pairwise_cons.mp horder).2, .inr hnone, hdistinct, hfresh, ?_⟩
    rw [originOf_of_no_org hnone]
    simp only [define_origin]
    omega
  · rintro ⟨hnew, -, hparses, horder, hearly, hdistinct, hfresh, hfits⟩
    -- after this statement it is too late for an origin
    have hnone : ∀ l ∈ readLines rest, org? l = none := by
      rcases hearly with ⟨-, hsize⟩ | hnone
      · simp at hsize
      · exact hnone
    rw [originOf_of_no_org hnone] at hfits
    simp only [define_origin] at hfits
    obtain ⟨hdistinct, hfresh⟩ := (new_labels_iff line).mpr ⟨hnew, hdistinct, hfresh⟩
    refine ⟨?_, ?_, .inr ?_, ?_, ?_, ?_⟩
    · rw [hread]
      exact List.forall_mem_cons.mpr ⟨⟨_, rfl⟩, hparses⟩
    · rw [hread]
      exact pairwise_mayPrecede_cons hnone horder
    · rw [hread]
      exact List.forall_mem_cons.mpr ⟨rfl, hnone⟩
    · rw [hlabels]
      exact hdistinct
    · rw [hlabels]
      exact hfresh
    · rw [originOf_statement hend hnone, hbody]
      omega

/-- The statement that ends the source. -/
theorem admits_end (hend : statement.isEnd = true) :
    cursor.Admits ((line, .ok (.statement statement)) :: rest) ↔
      cursor.duplicate? statement = none ∧ cursor.address ≤ memorySize := by
  have hread := readLines_end line rest hend
  have hlabels := labels_end line rest hend
  have hnone : ∀ l ∈ readLines ((line, .ok (.statement statement)) :: rest), org? l = none := by
    rw [hread]
    exact List.forall_mem_singleton.mpr rfl
  have hbody : (body ((line, .ok (.statement statement)) :: rest)).length = 0 := by
    rw [body_end line rest hend]
    rfl
  constructor
  · rintro ⟨-, -, -, -, hfresh, hfits⟩
    rw [originOf_end hend, hbody] at hfits
    rw [hlabels] at hfresh
    refine ⟨duplicate?_eq_none_iff.mpr fun label hlabel => ?_, hfits⟩
    exact hfresh label (by simp [hlabel])
  · rintro ⟨hnew, haddr⟩
    refine ⟨?_, ?_, .inr hnone, ?_, ?_, ?_⟩
    · rw [hread]
      exact List.forall_mem_singleton.mpr ⟨_, rfl⟩
    · rw [hread]
      exact List.pairwise_singleton _ _
    · rw [hlabels]
      cases statement.label <;> simp
    · rw [hlabels]
      intro label hlabel
      exact duplicate?_eq_none_iff.mp hnew label (by simpa using hlabel)
    · rw [originOf_end hend, hbody]
      exact haddr

/-! ## Existence -/

theorem exists_lays_blank :
    (∃ ps, cursor.Lays ((line, .ok .blank) :: rest) ps) ↔ ∃ ps, cursor.Lays rest ps := by
  constructor
  · rintro ⟨ps, h⟩
    cases h with
    | blank h => exact ⟨ps, h⟩
  · rintro ⟨ps, h⟩
    exact ⟨ps, .blank h⟩

theorem exists_lays_org {addr : Word} :
    (∃ ps, cursor.Lays ((line, .ok (.org addr)) :: rest) ps) ↔
      (cursor.origin = none ∧ cursor.size = 0) ∧
        ∃ ps, { cursor with origin := some addr }.Lays rest ps := by
  constructor
  · rintro ⟨ps, h⟩
    cases h with
    | org horigin hsize h => exact ⟨⟨horigin, hsize⟩, _, h⟩
  · rintro ⟨⟨horigin, hsize⟩, ps, h⟩
    exact ⟨_, .org horigin hsize h⟩

theorem exists_lays_statement (hend : statement.isEnd = false) :
    (∃ ps, cursor.Lays ((line, .ok (.statement statement)) :: rest) ps) ↔
      cursor.duplicate? statement = none ∧ cursor.address < memorySize ∧
        ∃ ps, { cursor.define line statement with size := cursor.size + 1 }.Lays rest ps := by
  constructor
  · rintro ⟨ps, h⟩
    cases h with
    | placed hnew _ hfits h => exact ⟨hnew, hfits, _, h⟩
    | stop _ hstop => simp [hend] at hstop
  · rintro ⟨hnew, hfits, ps, h⟩
    exact ⟨_, .placed hnew hend hfits h⟩

theorem exists_lays_end (hend : statement.isEnd = true) :
    (∃ ps, cursor.Lays ((line, .ok (.statement statement)) :: rest) ps) ↔
      cursor.duplicate? statement = none := by
  constructor
  · rintro ⟨ps, h⟩
    cases h with
    | placed _ hgo => simp [hend] at hgo
    | stop hnew _ => exact hnew
  · intro hnew
    exact ⟨_, .stop hnew hend⟩

end

/-- There is a layout without problems exactly if the lines have none. -/
theorem exists_lays_iff {cursor : Cursor} {lines : List NumberedLine}
    (horg : ∀ l ∈ lines, ∀ addr, org? l = some addr → addr.toNat < memorySize)
    (haddr : cursor.address ≤ memorySize) :
    (∃ ps, cursor.Lays lines ps) ↔ cursor.Admits lines := by
  -- the bound on the address is what a source that is at its end still has to know
  induction lines generalizing cursor with
  | nil => exact ⟨fun _ => admits_nil.mpr haddr, fun _ => ⟨[], .nil cursor⟩⟩
  | cons l rest ih =>
      obtain ⟨line, result⟩ := l
      obtain ⟨hhead, hrest⟩ := List.forall_mem_cons.mp horg
      cases result with
      | error e =>
          constructor
          · rintro ⟨ps, h⟩
            cases h
          · intro h
            obtain ⟨said, hsaid⟩ := h.parses (line, .error e) (by simp)
            cases hsaid
      | ok said =>
          cases said with
          | blank => rw [exists_lays_blank, admits_blank, ih hrest haddr]
          | org addr =>
              rw [exists_lays_org, admits_org]
              apply and_congr_right
              rintro ⟨-, hsize⟩
              apply ih hrest
              show addr.toNat + cursor.size ≤ memorySize
              rw [hsize]
              exact Nat.le_of_lt (hhead addr rfl)
          | statement statement =>
              cases hend : statement.isEnd with
              | true =>
                  rw [exists_lays_end hend, admits_end hend]
                  exact ⟨fun hnew => ⟨hnew, haddr⟩, fun h => h.1⟩
              | false =>
                  rw [exists_lays_statement hend, admits_statement hend]
                  apply and_congr_right
                  intro _
                  apply and_congr_right
                  intro hfits
                  apply ih hrest
                  simp only [address, define_origin]
                  exact hfits

end Marie.Cursor
