/-
# The end of a source

What comes after the line that ends a source has no influence on the result, with one exception:
a line whose label is defined already is reported as a duplicate before it is looked at as the end,
and then the pass goes on behind it.

* `layoutFrom_end_cases` : the lines behind the end change nothing, or the end is reported;
* `assemble_eq_of_end` : the program never depends on these lines, nor do the problems, if the
  label of the end is new;
* `assemble_relabelled_end` : with a label that is not new the problems do depend on them.
-/
import Marie.Assembly
import Marie.Proofs.Admission

namespace Marie

open Source

/-! ## Labels along the layout -/

namespace Cursor

variable {cursor : Cursor}

/-- An origin directive leaves the labels alone. -/
@[simp]
theorem labels_placeOrg (addr : Word) : (cursor.placeOrg addr).2.labels = cursor.labels := by
  unfold placeOrg
  split <;> rfl

/-- A statement adds its own label to the labels, or none. -/
theorem labels_placeStatement (line : Nat) (statement : Statement) :
    (cursor.placeStatement line statement).2.labels = cursor.labels ∨
      (cursor.placeStatement line statement).2.labels =
        (cursor.define line statement).labels := by
  unfold placeStatement
  split
  · exact .inl rfl
  · right
    simp only
    split
    · rfl
    · split
      · rfl
      · split <;> rfl

/-- A label that is known after a statement was known before it or is that of the statement. -/
theorem known_of_placeStatement {line : Nat} {statement : Statement} {label : String}
    (h : (cursor.placeStatement line statement).2.labels.lookup label ≠ none) :
    statement.label = some label ∨ cursor.labels.lookup label ≠ none := by
  rcases labels_placeStatement line statement with hsame | hdefine
  · exact .inr (by rwa [hsame] at h)
  · rw [hdefine, ne_eq, lookup_define_eq_none_iff, not_and_or, not_not] at h
    exact h

end Cursor

/-- One of the lines has a statement with the label. -/
def Source.Labels (lines : List NumberedLine) (label : String) : Prop :=
  ∃ l ∈ lines, ∃ s, statement? l = some s ∧ s.2.label = some label

theorem Source.Labels.tail {l : NumberedLine} {lines : List NumberedLine} {label : String}
    (h : Labels lines label) : Labels (l :: lines) label := by
  obtain ⟨l', hl', hlabel⟩ := h
  exact ⟨l', List.mem_cons_of_mem _ hl', hlabel⟩

/-! ## Lines behind the end -/

/-- A problem that is reported of later lines is reported. -/
theorem Layout.mem_errors_cons {e : AssemblyError} {p : Nat × Placement}
    {ps : List (Nat × Placement)} (h : e ∈ errors ps) : e ∈ errors (p :: ps) := by
  obtain ⟨q, hq, he⟩ := List.mem_filterMap.mp h
  exact List.mem_filterMap.mpr ⟨q, List.mem_cons_of_mem _ hq, he⟩

section

variable {statement : Statement}

/-- What comes behind a line that ends the source changes nothing, or the label of that line is
defined before it, and this is reported whatever comes behind it. -/
theorem layoutFrom_end_cases (line : Nat) (hend : statement.isEnd = true) (cursor : Cursor)
    (before : List NumberedLine) :
    (∀ rest rest', layoutFrom cursor (before ++ (line, .ok (.statement statement)) :: rest) =
        layoutFrom cursor (before ++ (line, .ok (.statement statement)) :: rest')) ∨
      ∃ label first, statement.label = some label ∧
        (cursor.labels.lookup label ≠ none ∨ Labels before label) ∧
        ∀ rest, ⟨.duplicateLabel label first, line⟩ ∈ Layout.errors
          (layoutFrom cursor (before ++ (line, .ok (.statement statement)) :: rest)) := by
  induction before generalizing cursor with
  | nil =>
      cases hnew : cursor.duplicate? statement with
      | none =>
          left
          intro rest rest'
          simp only [List.nil_append, layoutFrom, Cursor.placeStatement_of_isEnd hnew hend]
          rfl
      | some known =>
          right
          obtain ⟨label, hlabel, hknown⟩ := Option.bind_eq_some_iff.mp hnew
          obtain ⟨first, hfirst, rfl⟩ := Option.map_eq_some_iff.mp hknown
          refine ⟨label, first, hlabel, .inl (by rw [hfirst]; exact Option.some_ne_none _), ?_⟩
          intro rest
          simp [layoutFrom, Cursor.placeStatement, hnew, Layout.errors, Placement.problem?]
  | cons l before ih =>
      obtain ⟨number, result⟩ := l
      cases result with
      | error e =>
          rcases ih cursor with hsame | ⟨label, first, hlabel, hknown, herror⟩
          · exact .inl fun rest rest' => congrArg (List.cons _) (hsame rest rest')
          · exact .inr ⟨label, first, hlabel, hknown.imp_right .tail,
              fun rest => Layout.mem_errors_cons (herror rest)⟩
      | ok said =>
          cases said with
          | blank =>
              rcases ih cursor with hsame | ⟨label, first, hlabel, hknown, herror⟩
              · exact .inl hsame
              · exact .inr ⟨label, first, hlabel, hknown.imp_right .tail, herror⟩
          | org addr =>
              rcases ih (cursor.placeOrg addr).2 with
                hsame | ⟨label, first, hlabel, hknown, herror⟩
              · exact .inl fun rest rest' => congrArg (List.cons _) (hsame rest rest')
              · rw [Cursor.labels_placeOrg] at hknown
                exact .inr ⟨label, first, hlabel, hknown.imp_right .tail,
                  fun rest => Layout.mem_errors_cons (herror rest)⟩
          | statement own =>
              simp only [List.cons_append, layoutFrom]
              cases hstop : (cursor.placeStatement number own).1.isStop with
              | true =>
                  -- the source has ended before
                  exact .inl fun _ _ => rfl
              | false =>
                  simp only [Bool.false_eq_true, if_false]
                  rcases ih (cursor.placeStatement number own).2 with
                    hsame | ⟨label, first, hlabel, hknown, herror⟩
                  · exact .inl fun rest rest' => congrArg (List.cons _) (hsame rest rest')
                  · refine .inr ⟨label, first, hlabel, ?_,
                      fun rest => Layout.mem_errors_cons (herror rest)⟩
                    rcases hknown with hknown | hknown
                    · rcases Cursor.known_of_placeStatement hknown with hown | hknown
                      · exact .inr ⟨_, List.mem_cons_self, _, rfl, hown⟩
                      · exact .inl hknown
                    · exact .inr hknown.tail

/-- With a problem in the layout there is no program. -/
theorem assembleLines_ne_ok {lines : List NumberedLine} {e : AssemblyError}
    (h : e ∈ Layout.errors (layout lines)) (program : Program) :
    assembleLines lines ≠ .ok program := by
  have hne := List.ne_nil_of_mem (List.mem_append_left (encodingErrors (layout lines)) h)
  have hsome := List.isEmpty_eq_false_iff.mpr hne
  simp only [assembleLines, hsome]
  exact fun heq => nomatch heq

/-- Assembling lines, the lines behind the end change nothing, or the label of the end is defined
before it and there is no program. -/
theorem assembleLines_end_cases (line : Nat) (hend : statement.isEnd = true)
    (before : List NumberedLine) :
    (∀ rest rest', assembleLines (before ++ (line, .ok (.statement statement)) :: rest) =
        assembleLines (before ++ (line, .ok (.statement statement)) :: rest')) ∨
      ∃ label, statement.label = some label ∧ Labels before label ∧
        ∀ rest program,
          assembleLines (before ++ (line, .ok (.statement statement)) :: rest) ≠ .ok program := by
  rcases layoutFrom_end_cases line hend {} before with
    hsame | ⟨label, first, hlabel, hknown, herror⟩
  · left
    intro rest rest'
    rw [assembleLines, layout, hsame rest rest']
    rfl
  · right
    refine ⟨label, hlabel, hknown.resolve_left (fun h => h rfl), ?_⟩
    exact fun rest program => assembleLines_ne_ok (herror rest) program

end

/-! ## Sources -/

/-- No earlier line has the label of the statement. -/
def Statement.IsNewAfter (statement : Statement) (before : List (List Char)) : Prop :=
  ∀ label, statement.label = some label → ∀ text ∈ before, ∀ earlier,
    Line.parse text = .ok (.statement earlier) → earlier.label ≠ some label

/-- Lines of a text with their numbers, counted from 1, and what each says. -/
def numberedLines (texts : List (List Char)) : List NumberedLine :=
  ((texts.map Line.parse).zipIdx 1).map fun (line, n) => (n, line)

/-- A source that goes on after some lines has these lines at its beginning. -/
theorem exists_sourceLines_eq {source : String} {before rest : List (List Char)}
    {last : List Char} (h : Text.lines source.toList = before ++ last :: rest) :
    ∃ behind, sourceLines source =
      numberedLines before ++ (before.length + 1, Line.parse last) :: behind := by
  refine ⟨((rest.map Line.parse).zipIdx (before.length + 2)).map fun (line, n) => (n, line), ?_⟩
  rw [sourceLines, h, numberedLines, List.map_append, List.zipIdx_append, List.map_append,
    List.map_cons, List.zipIdx_cons, List.length_map, Nat.add_comm 1]
  rfl

/-- A label of the numbered lines is that of a statement among them. -/
theorem exists_statement_of_labels {texts : List (List Char)} {label : String}
    (h : Labels (numberedLines texts) label) :
    ∃ text ∈ texts, ∃ statement, Line.parse text = .ok (.statement statement) ∧
      statement.label = some label := by
  obtain ⟨l, hl, s, hs, hlabel⟩ := h
  obtain ⟨⟨result, n⟩, hresult, rfl⟩ := List.mem_map.mp hl
  obtain ⟨text, htext, hparse⟩ := List.mem_map.mp (List.fst_mem_of_mem_zipIdx hresult)
  refine ⟨text, htext, s.2, ?_, hlabel⟩
  rw [hparse]
  unfold statement? at hs
  split at hs
  · rename_i heq
    cases heq
    cases hs
    rfl
  · cases hs

/-- The end cuts the source. Of two sources with the same lines up to one that ends the source,
one has a program exactly if the other has, and then it is the same; and if no earlier line has
the label of that line, they have the same problems as well. -/
theorem assemble_eq_of_end {a b : String} {before rest rest' : List (List Char)}
    {last : List Char} {statement : Statement}
    (ha : Text.lines a.toList = before ++ last :: rest)
    (hb : Text.lines b.toList = before ++ last :: rest')
    (hlast : Line.parse last = .ok (.statement statement)) (hend : statement.isEnd = true) :
    (∀ program, assemble a = .ok program ↔ assemble b = .ok program) ∧
      (statement.IsNewAfter before → assemble a = assemble b) := by
  obtain ⟨behind, ha⟩ := exists_sourceLines_eq ha
  obtain ⟨behind', hb⟩ := exists_sourceLines_eq hb
  rw [assemble, assemble, ha, hb, hlast]
  rcases assembleLines_end_cases (before.length + 1) hend (numberedLines before) with
    hsame | ⟨label, hlabel, hknown, hnone⟩
  · rw [hsame behind behind']
    exact ⟨fun _ => Iff.rfl, fun _ => rfl⟩
  · refine ⟨fun program => iff_of_false (hnone _ _) (hnone _ _), fun hnew => ?_⟩
    obtain ⟨text, htext, earlier, hparse, hearlier⟩ := exists_statement_of_labels hknown
    exact absurd hearlier (hnew label hlabel text htext earlier hparse)

/-- A source with a line that says nothing, and two problems more behind its end. -/
theorem assemble_eq_of_end_loop :
    let before := ["Org 100".toList, "Loop, Load Loop".toList, ", ,".toList]
    let statement : Statement := ⟨some "Stop", "end", none⟩
    let a := "Org 100\nLoop, Load Loop\n, ,\nStop, End\nLoop, Foo\nEnd"
    let b := "Org 100\nLoop, Load Loop\n, ,\nStop, End"
    Text.lines a.toList = before ++ "Stop, End".toList :: ["Loop, Foo".toList, "End".toList] ∧
      Text.lines b.toList = before ++ "Stop, End".toList :: [] ∧
      Line.parse "Stop, End".toList = .ok (.statement statement) ∧ statement.isEnd = true ∧
      statement.IsNewAfter before ∧ assemble a = assemble b := by
  have hlast : Line.parse "Stop, End".toList = .ok (.statement ⟨some "Stop", "end", none⟩) := by
    decide +kernel
  have horg : Line.parse "Org 100".toList = .ok (.org 0x100) := by decide +kernel
  have hloop : Line.parse "Loop, Load Loop".toList =
      .ok (.statement ⟨some "Loop", "load", some "Loop"⟩) := by decide +kernel
  have hcommas : Line.parse ", ,".toList = .error .incorrectForm := by decide +kernel
  intro before statement a b
  have ha : Text.lines a.toList =
      before ++ "Stop, End".toList :: ["Loop, Foo".toList, "End".toList] := by decide +kernel
  have hb : Text.lines b.toList = before ++ "Stop, End".toList :: [] := by decide +kernel
  have hnew : statement.IsNewAfter before := by
    intro label hlabel text htext earlier hparse
    cases hlabel
    rcases List.mem_cons.mp htext with rfl | htext
    · rw [horg] at hparse
      cases hparse
    · rcases List.mem_cons.mp htext with rfl | htext
      · rw [hloop] at hparse
        cases hparse
        decide
      · rw [List.mem_singleton.mp htext, hcommas] at hparse
        cases hparse
  exact ⟨ha, hb, hlast, rfl, hnew, (assemble_eq_of_end ha hb hlast rfl).2 hnew⟩

/-- A line whose label is defined already does not end the source. What comes behind it is still
assembled, and its problems are reported. -/
theorem assemble_relabelled_end :
    Line.parse "A, Dec 1".toList = .ok (.statement ⟨some "A", "dec", some "1"⟩) ∧
      Line.parse "A, End".toList = .ok (.statement ⟨some "A", "end", none⟩) ∧
      Text.lines "A, Dec 1\nA, End".toList = ["A, Dec 1".toList, "A, End".toList] ∧
      Text.lines "A, Dec 1\nA, End\nFoo".toList =
        ["A, Dec 1".toList, "A, End".toList, "Foo".toList] ∧
      assemble "A, Dec 1\nA, End" = .error [⟨.duplicateLabel "A" 1, 2⟩] ∧
      assemble "A, Dec 1\nA, End\nFoo" =
        .error [⟨.duplicateLabel "A" 1, 2⟩, ⟨.unknownOperator "foo", 3⟩] := by
  have hshort : sourceLines "A, Dec 1\nA, End" =
      [(1, .ok (.statement ⟨some "A", "dec", some "1"⟩)),
        (2, .ok (.statement ⟨some "A", "end", none⟩))] := by decide +kernel
  have hlong : sourceLines "A, Dec 1\nA, End\nFoo" =
      [(1, .ok (.statement ⟨some "A", "dec", some "1"⟩)),
        (2, .ok (.statement ⟨some "A", "end", none⟩)),
        (3, .ok (.statement ⟨none, "foo", none⟩))] := by decide +kernel
  refine ⟨by decide +kernel, by decide +kernel, by decide +kernel, by decide +kernel, ?_, ?_⟩
  · rw [assemble, hshort]
    rfl
  · rw [assemble, hlong]
    rfl

end Marie
