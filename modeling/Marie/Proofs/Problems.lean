/-
# The list of problems

Where a source makes up no program, the list of its problems is complete and in order. The
problems with the structure of the source come first and those with single statements behind
them, each in the order of the lines, and no line has two.

* `Cursor.Places` : the five things that can become of a statement;
* `mem_layoutFrom_iff` : which lines the first pass looks at, and with which cursor;
* `Source.lookup_labels_along` : the cursor knows the labels of the lines behind it;
* `assemble_reports` : what the list of problems says.
-/
import Marie.Proofs.SourceEnd
import Mathlib.Data.List.Nodup

namespace Marie

open Source

namespace Cursor

/-! ## One line -/

/-- What can become of a statement, and the cursor behind it. -/
inductive Places (cursor : Cursor) (line : Nat) (statement : Statement) :
    Placement × Cursor → Prop
  | duplicate {label : String} {first : Nat} (hlabel : statement.label = some label)
      (hknown : cursor.labels.lookup label = some first) :
      Places cursor line statement (.refused (.duplicateLabel label first), cursor)
  | stop (hnew : cursor.duplicate? statement = none) (hend : statement.isEnd = true) :
      Places cursor line statement (.stop cursor.addr? statement, cursor.define line statement)
  | placed (hnew : cursor.duplicate? statement = none) (hend : statement.isEnd = false)
      {addr : Word} (haddr : cursor.addr? = some addr) :
      Places cursor line statement (.placed addr statement,
        { cursor.define line statement with size := cursor.size + 1 })
  | dropped (hnew : cursor.duplicate? statement = none) (hend : statement.isEnd = false)
      (hfull : cursor.full = true) :
      Places cursor line statement (.dropped statement, cursor.define line statement)
  | tooLarge (hnew : cursor.duplicate? statement = none) (hend : statement.isEnd = false)
      (hfull : cursor.full = false) :
      Places cursor line statement (.refused .programTooLarge,
        { cursor.define line statement with full := true })

theorem places_placeStatement (cursor : Cursor) (line : Nat) (statement : Statement) :
    cursor.Places line statement (cursor.placeStatement line statement) := by
  unfold placeStatement
  split
  · rename_i label first hknown
    obtain ⟨own, hlabel, hlookup⟩ := Option.bind_eq_some_iff.mp hknown
    obtain ⟨n, hn, heq⟩ := Option.map_eq_some_iff.mp hlookup
    cases heq
    exact .duplicate hlabel hn
  · rename_i hnew
    simp only
    split
    · rename_i hend
      rw [define_addr?]
      exact .stop hnew hend
    · rename_i hend
      have hend : statement.isEnd = false := by simpa using hend
      split
      · rename_i addr haddr
        rw [define_addr?] at haddr
        rw [define_size]
        exact .placed hnew hend haddr
      · split
        · rename_i hfull
          rw [define_full] at hfull
          exact .dropped hnew hend hfull
        · rename_i hfull
          rw [define_full] at hfull
          exact .tooLarge hnew hend (by simpa using hfull)

/-- An origin directive does not end the source. -/
theorem isStop_placeOrg (cursor : Cursor) (addr : Word) :
    (cursor.placeOrg addr).1.isStop = false := by
  unfold placeOrg
  split <;> rfl

/-- A statement ends the source if it is the one for that and its label is new. -/
theorem isStop_placeStatement_iff {cursor : Cursor} {line : Nat} {statement : Statement} :
    (cursor.placeStatement line statement).1.isStop = true ↔
      statement.isEnd = true ∧ cursor.duplicate? statement = none := by
  have hplaces := cursor.places_placeStatement line statement
  generalize cursor.placeStatement line statement = decided at hplaces
  cases hplaces with
  | duplicate hlabel hknown =>
      simp [Placement.isStop, duplicate?, hlabel, hknown]
  | stop hnew hend => simp [Placement.isStop, hnew, hend]
  | placed _ hend => simp [Placement.isStop, hend]
  | dropped _ hend => simp [Placement.isStop, hend]
  | tooLarge _ hend => simp [Placement.isStop, hend]

/-- What becomes of a line, unless it is blank. -/
def decision? (cursor : Cursor) : NumberedLine → Option Placement
  | (_, .ok .blank) => none
  | (_, .ok (.org addr)) => some (cursor.placeOrg addr).1
  | (line, .ok (.statement statement)) => some (cursor.placeStatement line statement).1
  | (_, .error e) => some (.refused (.ofLineError e))

/-- The cursor behind a line. -/
def pass (cursor : Cursor) : NumberedLine → Cursor
  | (_, .ok .blank) => cursor
  | (_, .ok (.org addr)) => (cursor.placeOrg addr).2
  | (line, .ok (.statement statement)) => (cursor.placeStatement line statement).2
  | (_, .error _) => cursor

/-- The cursor behind some lines. -/
def along (cursor : Cursor) (lines : List NumberedLine) : Cursor :=
  lines.foldl pass cursor

/-- The line ends the source. -/
def Stops (cursor : Cursor) (l : NumberedLine) : Prop :=
  ∃ placement, cursor.decision? l = some placement ∧ placement.isStop = true

variable {cursor : Cursor} {l : NumberedLine} {rest : List NumberedLine}

/-- The line that ends the source is the last one of the layout. -/
theorem layoutFrom_of_stops {placement : Placement} (h : cursor.decision? l = some placement)
    (hstop : placement.isStop = true) : layoutFrom cursor (l :: rest) = [(l.1, placement)] := by
  obtain ⟨line, result⟩ := l
  cases result with
  | error e =>
      cases h
      cases hstop
  | ok said =>
      cases said with
      | blank => cases h
      | org addr =>
          cases h
          rw [isStop_placeOrg] at hstop
          cases hstop
      | statement statement =>
          cases h
          rw [layoutFrom_statement, hstop]
          rfl

/-- Behind any other line the layout goes on. -/
theorem layoutFrom_of_not_stops (h : ¬ cursor.Stops l) :
    layoutFrom cursor (l :: rest) =
      ((cursor.decision? l).map (l.1, ·)).toList ++ layoutFrom (cursor.pass l) rest := by
  obtain ⟨line, result⟩ := l
  cases result with
  | error e => rfl
  | ok said =>
      cases said with
      | blank => rfl
      | org addr => rfl
      | statement statement =>
          have hgo : (cursor.placeStatement line statement).1.isStop = false := by
            rw [Bool.eq_false_iff]
            exact fun hstop => h ⟨_, rfl, hstop⟩
          rw [layoutFrom_statement, hgo]
          rfl

/-! ## The lines that are looked at -/

/-- The line is looked at, and `before` are the lines before it: none of them ends the source. -/
def LooksAt (cursor : Cursor) (lines before : List NumberedLine) (l : NumberedLine) : Prop :=
  before ++ [l] <+: lines ∧ ∀ b x, b ++ [x] <+: before → ¬ (cursor.along b).Stops x

variable {lines before : List NumberedLine} {x y : NumberedLine}

/-- The first line is looked at. -/
theorem looksAt_nil_iff : cursor.LooksAt (x :: rest) [] l ↔ l = x := by
  unfold LooksAt
  rw [List.nil_append, List.cons_prefix_cons]
  constructor
  · exact fun h => h.1.1
  · intro h
    refine ⟨⟨h, List.nil_prefix⟩, fun b x hb => ?_⟩
    simp at hb

/-- Later lines are looked at if the first one does not end the source. -/
theorem looksAt_cons_iff : cursor.LooksAt (x :: rest) (y :: before) l ↔
    y = x ∧ ¬ cursor.Stops x ∧ (cursor.pass x).LooksAt rest before l := by
  unfold LooksAt
  rw [List.cons_append, List.cons_prefix_cons]
  constructor
  · rintro ⟨⟨rfl, hreached⟩, hgo⟩
    refine ⟨rfl, hgo [] y (by simp), hreached, fun b z hb => ?_⟩
    exact hgo (y :: b) z (List.cons_prefix_cons.mpr ⟨rfl, hb⟩)
  · rintro ⟨rfl, hfirst, hreached, hgo⟩
    refine ⟨⟨rfl, hreached⟩, fun b z hb => ?_⟩
    cases b with
    | nil =>
        obtain ⟨rfl, -⟩ := List.cons_prefix_cons.mp hb
        exact hfirst
    | cons w b =>
        obtain ⟨rfl, hbehind⟩ := List.cons_prefix_cons.mp hb
        exact hgo b z hbehind

/-- A layout has the decisions about the lines that are looked at, each of them made with the
cursor behind the lines before. -/
theorem mem_layoutFrom_iff {line : Nat} {placement : Placement} :
    (line, placement) ∈ layoutFrom cursor lines ↔
      ∃ before l, cursor.LooksAt lines before l ∧ l.1 = line ∧
        (cursor.along before).decision? l = some placement := by
  induction lines generalizing cursor with
  | nil => simp [layoutFrom, LooksAt]
  | cons x rest ih =>
      by_cases hstops : cursor.Stops x
      · obtain ⟨last, hlast, hstop⟩ := hstops
        rw [layoutFrom_of_stops hlast hstop, List.mem_singleton]
        constructor
        · intro h
          cases h
          exact ⟨[], x, looksAt_nil_iff.mpr rfl, rfl, hlast⟩
        · rintro ⟨before, l, hlooks, rfl, hdecision⟩
          cases before with
          | nil =>
              obtain rfl := looksAt_nil_iff.mp hlooks
              rw [show placement = last from Option.some_inj.mp (hdecision.symm.trans hlast)]
          | cons y before =>
              exact absurd ⟨last, hlast, hstop⟩ (looksAt_cons_iff.mp hlooks).2.1
      · rw [layoutFrom_of_not_stops hstops, List.mem_append, ih, Option.mem_toList,
          Option.map_eq_some_iff]
        constructor
        · rintro (⟨own, hown, heq⟩ | ⟨before, l, hlooks, rfl, hdecision⟩)
          · cases heq
            exact ⟨[], x, looksAt_nil_iff.mpr rfl, rfl, hown⟩
          · exact ⟨x :: before, l, looksAt_cons_iff.mpr ⟨rfl, hstops, hlooks⟩, rfl, hdecision⟩
        · rintro ⟨before, l, hlooks, rfl, hdecision⟩
          cases before with
          | nil =>
              obtain rfl := looksAt_nil_iff.mp hlooks
              exact .inl ⟨placement, hdecision, rfl⟩
          | cons y before =>
              obtain ⟨rfl, -, hlooks⟩ := looksAt_cons_iff.mp hlooks
              exact .inr ⟨before, l, hlooks, rfl, hdecision⟩

/-- The lines of a layout stand in the source in the same order. -/
theorem sublist_layoutFrom (cursor : Cursor) (lines : List NumberedLine) :
    ((layoutFrom cursor lines).map Prod.fst).Sublist (lines.map Prod.fst) := by
  induction lines generalizing cursor with
  | nil => exact .slnil
  | cons x rest ih =>
      by_cases hstops : cursor.Stops x
      · obtain ⟨last, hlast, hstop⟩ := hstops
        rw [layoutFrom_of_stops hlast hstop]
        exact (List.nil_sublist _).cons_cons x.1
      · rw [layoutFrom_of_not_stops hstops]
        cases cursor.decision? x with
        | none => exact (ih _).cons x.1
        | some placement => exact (ih _).cons_cons x.1

end Cursor

/-! ## Labels and their first lines -/

namespace Source

/-- The number of the first line with a statement that has the label. -/
def firstLine? (lines : List NumberedLine) (label : String) : Option Nat :=
  ((lines.filterMap statement?).find? fun s => s.2.label == some label).map Prod.fst

theorem firstLine?_append (lines rest : List NumberedLine) (label : String) :
    firstLine? (lines ++ rest) label = (firstLine? lines label).or (firstLine? rest label) := by
  simp [firstLine?, List.filterMap_append, List.find?_append, Option.map_or]

end Source

namespace Cursor

variable {cursor : Cursor} {line : Nat} {statement : Statement}

/-- A new label gets the line of its statement, and the others keep theirs. -/
theorem lookup_define (hnew : cursor.duplicate? statement = none) (label : String) :
    (cursor.define line statement).labels.lookup label =
      (cursor.labels.lookup label).or (firstLine? [(line, .ok (.statement statement))] label) := by
  have hfirst : firstLine? [(line, .ok (.statement statement))] label =
      if statement.label = some label then some line else none := by
    by_cases hlabel : statement.label = some label <;>
      simp [firstLine?, statement?, hlabel]
  rw [hfirst]
  unfold define
  cases hlabel : statement.label with
  | none => simp
  | some own =>
      have hunknown : cursor.labels.lookup own = none := by
        simpa [duplicate?, hlabel] using hnew
      rw [List.lookup_cons]
      by_cases hown : own = label
      · rw [← hown, hunknown]
        simp
      · have hne : (label == own) = false := by simpa using fun h => hown h.symm
        simp [hne, hown]

/-- A line adds its label to the labels, if it is new. -/
theorem lookup_labels_pass (cursor : Cursor) (l : NumberedLine) (label : String) :
    (cursor.pass l).labels.lookup label =
      (cursor.labels.lookup label).or (firstLine? [l] label) := by
  obtain ⟨line, result⟩ := l
  cases result with
  | error e => exact Option.or_none.symm
  | ok said =>
      cases said with
      | blank => exact Option.or_none.symm
      | org addr =>
          show (cursor.placeOrg addr).2.labels.lookup label = _
          rw [labels_placeOrg]
          exact Option.or_none.symm
      | statement statement =>
          have hplaces := cursor.places_placeStatement line statement
          show (cursor.placeStatement line statement).2.labels.lookup label = _
          generalize cursor.placeStatement line statement = decided at hplaces ⊢
          cases hplaces with
          | @duplicate own first hlabel hknown =>
              by_cases hown : own = label
              · rw [← hown, hknown]
                rfl
              · have hother : firstLine? [(line, .ok (.statement statement))] label = none := by
                  simp [firstLine?, statement?, hlabel, hown]
                rw [hother]
                exact Option.or_none.symm
          | stop hnew => exact lookup_define hnew label
          | placed hnew => exact lookup_define hnew label
          | dropped hnew => exact lookup_define hnew label
          | tooLarge hnew => exact lookup_define hnew label

/-- The labels that are known behind some lines are those of the lines, each with its first
line. -/
theorem lookup_labels_along (cursor : Cursor) (before : List NumberedLine) (label : String) :
    (cursor.along before).labels.lookup label =
      (cursor.labels.lookup label).or (firstLine? before label) := by
  induction before generalizing cursor with
  | nil => exact Option.or_none.symm
  | cons x before ih =>
      show ((cursor.pass x).along before).labels.lookup label = _
      rw [ih, lookup_labels_pass, Option.or_assoc, ← firstLine?_append, List.singleton_append]

end Cursor

/-! ## Where the source ends -/

namespace Source

/-- The line ends the source, where `before` are the lines before it: it has a statement that ends
the source, whose label, if it has one, is on none of them. -/
def Ends (before : List NumberedLine) (l : NumberedLine) : Prop :=
  ∃ s, statement? l = some s ∧ s.2.isEnd = true ∧
    ∀ label, s.2.label = some label → firstLine? before label = none

/-- The line is looked at, and `before` are the lines before it: none of them ends the source. -/
def LooksAt (lines before : List NumberedLine) (l : NumberedLine) : Prop :=
  before ++ [l] <+: lines ∧ ∀ b x, b ++ [x] <+: before → ¬ Ends b x

theorem lookup_labels_start (before : List NumberedLine) (label : String) :
    (({} : Cursor).along before).labels.lookup label = firstLine? before label :=
  (Cursor.lookup_labels_along {} before label).trans Option.none_or

/-- The pass ends with the line that ends the source. -/
theorem stops_iff_ends {before : List NumberedLine} {l : NumberedLine} :
    (({} : Cursor).along before).Stops l ↔ Ends before l := by
  obtain ⟨line, result⟩ := l
  unfold Cursor.Stops Ends
  cases result with
  | error e => simp [Cursor.decision?, statement?, Placement.isStop]
  | ok said =>
      cases said with
      | blank => simp [Cursor.decision?, statement?]
      | org addr => simp [Cursor.decision?, statement?, Cursor.isStop_placeOrg]
      | statement statement =>
          have hnew := @Cursor.duplicate?_eq_none_iff (({} : Cursor).along before) statement
          simp only [lookup_labels_start] at hnew
          simp only [Cursor.decision?, Option.some_inj, exists_eq_left', statement?, ← hnew,
            Cursor.isStop_placeStatement_iff]

/-- The first pass looks at the lines up to the one that ends the source. -/
theorem looksAt_iff {lines before : List NumberedLine} {l : NumberedLine} :
    ({} : Cursor).LooksAt lines before l ↔ LooksAt lines before l := by
  simp only [Cursor.LooksAt, stops_iff_ends]
  rfl

end Source

/-! ## Problems of the first pass -/

/-- The three ways in which a line is malformed are three problems. -/
theorem AssemblyProblem.ofLineError_injective : Function.Injective ofLineError := by
  intro e e' h
  cases e <;> cases e' <;> first | rfl | cases h

namespace Cursor

/-- The line is refused with the problem. -/
inductive Refuses (cursor : Cursor) : NumberedLine → AssemblyProblem → Prop
  | org {line : Nat} {addr : Word} : Refuses cursor (line, .ok (.org addr)) .unexpectedOrg
  | malformed {line : Nat} {e : LineError} {problem : AssemblyProblem}
      (h : problem = .ofLineError e) : Refuses cursor (line, .error e) problem
  | duplicate {line : Nat} {statement : Statement} {label : String} {first : Nat}
      (hlabel : statement.label = some label)
      (hknown : cursor.labels.lookup label = some first) :
      Refuses cursor (line, .ok (.statement statement)) (.duplicateLabel label first)
  | tooLarge {line : Nat} {statement : Statement} (hfull : cursor.full = false)
      (hafter : (cursor.pass (line, .ok (.statement statement))).full = true) :
      Refuses cursor (line, .ok (.statement statement)) .programTooLarge

variable {cursor : Cursor} {l : NumberedLine} {problem : AssemblyProblem}

theorem refuses_of_decision? (h : cursor.decision? l = some (.refused problem)) :
    cursor.Refuses l problem := by
  obtain ⟨line, result⟩ := l
  cases result with
  | error e =>
      cases h
      exact .malformed rfl
  | ok said =>
      cases said with
      | blank => cases h
      | org addr =>
          have h : (cursor.placeOrg addr).1 = .refused problem := Option.some_inj.mp h
          unfold placeOrg at h
          split at h
          · cases h
          · cases h
            exact .org
      | statement statement =>
          have hplaces := cursor.places_placeStatement line statement
          have hpass : cursor.pass (line, .ok (.statement statement)) =
              (cursor.placeStatement line statement).2 := rfl
          have h : (cursor.placeStatement line statement).1 = .refused problem :=
            Option.some_inj.mp h
          generalize cursor.placeStatement line statement = decided at hplaces hpass h
          cases hplaces with
          | duplicate hlabel hknown =>
              cases h
              exact .duplicate hlabel hknown
          | stop => cases h
          | placed => cases h
          | dropped => cases h
          | tooLarge _ _ hfull =>
              cases h
              exact .tooLarge hfull (by rw [hpass])

/-- A line is refused as a duplicate if it has a label that is known. -/
theorem decision?_eq_duplicate_iff {label : String} {first : Nat} :
    cursor.decision? l = some (.refused (.duplicateLabel label first)) ↔
      ∃ statement, l.2 = .ok (.statement statement) ∧ statement.label = some label ∧
        cursor.labels.lookup label = some first := by
  constructor
  · intro h
    cases refuses_of_decision? h with
    | duplicate hlabel hknown => exact ⟨_, rfl, hlabel, hknown⟩
    | @malformed _ e _ hproblem => cases e <;> cases hproblem
  · obtain ⟨line, result⟩ := l
    rintro ⟨statement, rfl, hlabel, hknown⟩
    have hduplicate : cursor.duplicate? statement = some (label, first) := by
      simp [duplicate?, hlabel, hknown]
    simp [decision?, placeStatement, hduplicate]

/-- A line is refused as malformed if it says nothing. -/
theorem decision?_eq_malformed_iff {e : LineError} :
    cursor.decision? l = some (.refused (.ofLineError e)) ↔ l.2 = .error e := by
  constructor
  · intro h
    have hrefuses := refuses_of_decision? h
    generalize hproblem : AssemblyProblem.ofLineError e = problem at hrefuses
    cases hrefuses with
    | malformed hother => rw [AssemblyProblem.ofLineError_injective (hproblem.trans hother)]
    | _ => cases e <;> cases hproblem
  · obtain ⟨line, result⟩ := l
    rintro rfl
    rfl

/-- The first pass finds problems with the structure. -/
theorem Refuses.structural (h : cursor.Refuses l problem) : problem.isStructural = true := by
  cases h with
  | @malformed _ e _ h =>
      rw [h]
      cases e <;> rfl
  | _ => rfl

/-- Only the line that finds memory full says so. -/
theorem full_of_tooLarge (h : cursor.decision? l = some (.refused .programTooLarge)) :
    cursor.full = false ∧ (cursor.pass l).full = true := by
  cases refuses_of_decision? h with
  | tooLarge hfull hafter => exact ⟨hfull, hafter⟩
  | @malformed _ e _ hproblem => cases e <;> cases hproblem

/-- Once memory is full, it stays so. -/
theorem full_pass (h : cursor.full = true) : (cursor.pass l).full = true := by
  obtain ⟨line, result⟩ := l
  cases result with
  | error e => exact h
  | ok said =>
      cases said with
      | blank => exact h
      | org addr =>
          show (cursor.placeOrg addr).2.full = true
          unfold placeOrg
          split <;> exact h
      | statement statement =>
          have hplaces := cursor.places_placeStatement line statement
          show (cursor.placeStatement line statement).2.full = true
          generalize cursor.placeStatement line statement = decided at hplaces ⊢
          cases hplaces <;> simp [h]

end Cursor

namespace Layout

variable {ps : List (Nat × Placement)}

theorem mem_errors_iff {e : AssemblyError} :
    e ∈ errors ps ↔ (e.line, .refused e.problem) ∈ ps := by
  unfold errors
  rw [List.mem_filterMap]
  constructor
  · rintro ⟨⟨line, placement⟩, hp, he⟩
    obtain ⟨problem, hproblem, rfl⟩ := Option.map_eq_some_iff.mp he
    cases placement <;> cases hproblem
    exact hp
  · intro h
    exact ⟨_, h, rfl⟩

theorem mem_statements_iff {s : Nat × Statement} :
    s ∈ statements ps ↔ ∃ addr, (s.1, .placed addr s.2) ∈ ps := by
  unfold statements
  rw [List.mem_filterMap]
  constructor
  · rintro ⟨⟨line, placement⟩, hp, hs⟩
    obtain ⟨statement, hstatement, rfl⟩ := Option.map_eq_some_iff.mp hs
    cases placement <;> cases hstatement
    exact ⟨_, hp⟩
  · rintro ⟨addr, h⟩
    exact ⟨_, h, rfl⟩

/-- In a layout whose lines ascend the problems are in the order of the lines. -/
theorem pairwise_errors (h : ps.Pairwise fun p q => p.1 < q.1) :
    (errors ps).Pairwise fun e f => e.line < f.line := by
  rw [errors, List.pairwise_filterMap]
  refine h.imp ?_
  intro p q hlt e he f hf
  obtain ⟨problem, -, rfl⟩ := Option.map_eq_some_iff.mp he
  obtain ⟨problem', -, rfl⟩ := Option.map_eq_some_iff.mp hf
  exact hlt

/-- In a layout whose lines ascend the statements are in the order of the lines. -/
theorem pairwise_statements (h : ps.Pairwise fun p q => p.1 < q.1) :
    (statements ps).Pairwise fun s t => s.1 < t.1 := by
  rw [statements, List.pairwise_filterMap]
  refine h.imp ?_
  intro p q hlt s hs t ht
  obtain ⟨statement, -, rfl⟩ := Option.map_eq_some_iff.mp hs
  obtain ⟨statement', -, rfl⟩ := Option.map_eq_some_iff.mp ht
  exact hlt

/-- The complaint about the size of the program uses up the one that is left. -/
theorem countP_decision?_le (cursor : Cursor) (l : NumberedLine) :
    (errors ((cursor.decision? l).map (l.1, ·)).toList).countP (·.problem = .programTooLarge) +
      (if (cursor.pass l).full then 0 else 1) ≤ if cursor.full then 0 else 1 := by
  have hkeeps : (if (cursor.pass l).full then 0 else 1) ≤ if cursor.full then 0 else 1 := by
    cases hfull : cursor.full with
    | true => simp [Cursor.full_pass hfull]
    | false => split <;> decide
  cases hdecision : cursor.decision? l with
  | none => simpa [errors] using hkeeps
  | some placement =>
      cases placement with
      | refused problem =>
          by_cases hlarge : problem = .programTooLarge
          · subst hlarge
            obtain ⟨hfull, hafter⟩ := Cursor.full_of_tooLarge hdecision
            simp [errors, Placement.problem?, hfull, hafter]
          · simpa [errors, Placement.problem?, hlarge] using hkeeps
      | _ => simpa [errors, Placement.problem?] using hkeeps

/-- The first pass complains about the size of the program at most once. -/
theorem countP_tooLarge_le (cursor : Cursor) (lines : List NumberedLine) :
    (errors (layoutFrom cursor lines)).countP (·.problem = .programTooLarge) ≤
      if cursor.full then 0 else 1 := by
  induction lines generalizing cursor with
  | nil => exact Nat.zero_le _
  | cons x rest ih =>
      by_cases hstops : cursor.Stops x
      · obtain ⟨last, hlast, hstop⟩ := hstops
        rw [Cursor.layoutFrom_of_stops hlast hstop]
        cases last <;> cases hstop
        exact Nat.zero_le _
      · rw [Cursor.layoutFrom_of_not_stops hstops, errors, List.filterMap_append,
          List.countP_append]
        exact Nat.le_trans (Nat.add_le_add_left (ih _) _) (countP_decision?_le cursor x)

end Layout

/-! ## Problems of the second pass -/

section

variable {ps : List (Nat × Placement)}

theorem mem_encodingErrors_iff {e : AssemblyError} :
    e ∈ encodingErrors ps ↔ ∃ statement, (e.line, statement) ∈ Layout.statements ps ∧
      statement.encode (Layout.symbols ps) = .error e.problem := by
  unfold encodingErrors encodings
  rw [List.filterMap_map, List.mem_filterMap]
  constructor
  · rintro ⟨⟨line, statement⟩, hs, he⟩
    cases hencode : statement.encode (Layout.symbols ps) with
    | ok w => simp [hencode] at he
    | error problem =>
        obtain rfl : ⟨problem, line⟩ = e := by simpa [hencode] using he
        exact ⟨statement, hs, hencode⟩
  · rintro ⟨statement, hs, hencode⟩
    exact ⟨_, hs, by simp [hencode]⟩

/-- In a layout whose lines ascend the problems of the second pass are in the order of the lines. -/
theorem pairwise_encodingErrors (h : ps.Pairwise fun p q => p.1 < q.1) :
    (encodingErrors ps).Pairwise fun e f => e.line < f.line := by
  have hlines : (encodings ps).Pairwise fun p q => p.1 < q.1 :=
    List.pairwise_map.mpr (Layout.pairwise_statements h)
  rw [encodingErrors, List.pairwise_filterMap]
  refine hlines.imp ?_
  rintro ⟨line, result⟩ ⟨line', result'⟩ hlt e he f hf
  cases result with
  | ok w => cases he
  | error problem =>
      cases result' with
      | ok w => cases hf
      | error problem' =>
          cases he
          cases hf
          exact hlt

end

/-! ## All problems -/

namespace Source

/-- The problems are those that are to be reported of the lines. -/
structure Reports (lines : List NumberedLine) (errors : List AssemblyError) : Prop where
  nonempty : errors ≠ []
  /-- The problems with the structure come first, and each part is in the order of the lines. -/
  parts : ∃ structural encoding, errors = structural ++ encoding ∧
    (∀ e ∈ structural, e.problem.isStructural = true) ∧
    (∀ e ∈ encoding, e.problem.isStructural = false) ∧
    structural.Pairwise (fun e f => e.line < f.line) ∧
    encoding.Pairwise (fun e f => e.line < f.line)
  onePerLine : (errors.map (·.line)).Nodup
  /-- A problem names a line of the source that is not blank. -/
  existing : ∀ e ∈ errors, ∃ result, (e.line, result) ∈ lines ∧ result ≠ .ok .blank
  tooLarge : errors.countP (·.problem = .programTooLarge) ≤ 1
  /-- A label that a line before has is reported, with the first such line. -/
  duplicates : ∀ label first line, ⟨.duplicateLabel label first, line⟩ ∈ errors ↔
    first < line ∧ firstLine? lines label = some first ∧ ∃ before statement,
      LooksAt lines before (line, .ok (.statement statement)) ∧ statement.label = some label
  /-- A line that says nothing is reported, if it is looked at. -/
  malformed : ∀ line e, ⟨.ofLineError e, line⟩ ∈ errors ↔
    ∃ before, LooksAt lines before (line, .error e)
  /-- A statement that gets an address, but has no word, is reported. -/
  unencoded : ∀ line problem, problem.isStructural = false →
    (⟨problem, line⟩ ∈ errors ↔ ∃ statement, (line, statement) ∈ Layout.statements (layout lines) ∧
      statement.encode (Layout.symbols (layout lines)) = .error problem)

variable {lines : List NumberedLine}

/-- The first pass refuses lines that it looks at. -/
theorem mem_layout_errors_iff {e : AssemblyError} :
    e ∈ Layout.errors (layout lines) ↔ ∃ before l, LooksAt lines before l ∧ l.1 = e.line ∧
      (({} : Cursor).along before).decision? l = some (.refused e.problem) := by
  rw [Layout.mem_errors_iff, layout, Cursor.mem_layoutFrom_iff]
  simp only [looksAt_iff]

theorem structural_of_mem {e : AssemblyError} (h : e ∈ Layout.errors (layout lines)) :
    e.problem.isStructural = true := by
  obtain ⟨before, l, -, -, hdecision⟩ := mem_layout_errors_iff.mp h
  exact (Cursor.refuses_of_decision? hdecision).structural

theorem not_structural_of_mem {ps : List (Nat × Placement)} {e : AssemblyError}
    (h : e ∈ encodingErrors ps) : e.problem.isStructural = false := by
  obtain ⟨statement, -, hencode⟩ := mem_encodingErrors_iff.mp h
  exact Statement.encode_not_structural hencode

/-- Problems with the structure are those of the first pass. -/
theorem mem_append_iff_of_structural {e : AssemblyError} (h : e.problem.isStructural = true) :
    e ∈ Layout.errors (layout lines) ++ encodingErrors (layout lines) ↔
      e ∈ Layout.errors (layout lines) := by
  rw [List.mem_append, or_iff_left]
  intro hencoding
  rw [not_structural_of_mem hencoding] at h
  cases h

/-- The other problems are those of the second pass. -/
theorem mem_append_iff_of_not_structural {e : AssemblyError}
    (h : e.problem.isStructural = false) :
    e ∈ Layout.errors (layout lines) ++ encodingErrors (layout lines) ↔
      e ∈ encodingErrors (layout lines) := by
  rw [List.mem_append, or_iff_right]
  intro hstructural
  rw [structural_of_mem hstructural] at h
  cases h

/-- In ascending lines a line that is looked at has a label from a line before exactly if the first
line with it comes before. -/
theorem firstLine?_eq_some_iff (hlines : lines.Pairwise fun l m => l.1 < m.1)
    {before : List NumberedLine} {line first : Nat} {statement : Statement} {label : String}
    (hreached : before ++ [(line, .ok (.statement statement))] <+: lines)
    (hlabel : statement.label = some label) :
    firstLine? before label = some first ↔
      first < line ∧ firstLine? lines label = some first := by
  obtain ⟨rest, rfl⟩ := hreached
  have hown : firstLine? [(line, .ok (.statement statement))] label = some line := by
    simp [firstLine?, statement?, hlabel]
  rw [firstLine?_append, firstLine?_append, hown]
  constructor
  · intro hfirst
    refine ⟨?_, by rw [hfirst]; rfl⟩
    -- the line of a label is that of a line before
    obtain ⟨s, hs, rfl⟩ := Option.map_eq_some_iff.mp hfirst
    obtain ⟨l, hl, hstatement⟩ := List.mem_filterMap.mp (List.mem_of_find?_eq_some hs)
    have hnumber : s.1 = l.1 := fst_of_statement? hstatement
    have hapart := (List.pairwise_append.mp (List.pairwise_append.mp hlines).1).2.2
    rw [hnumber]
    exact hapart l hl _ List.mem_cons_self
  · rintro ⟨hlt, hfirst⟩
    cases hbefore : firstLine? before label with
    | some n => simpa [hbefore] using hfirst
    | none =>
        obtain rfl : line = first := by simpa [hbefore] using hfirst
        exact absurd hlt (Nat.lt_irrefl _)

/-- A line with a decision is a line of the source that is not blank. -/
theorem exists_line_of_mem_layout {line : Nat} {placement : Placement}
    (h : (line, placement) ∈ layout lines) :
    ∃ result, (line, result) ∈ lines ∧ result ≠ .ok .blank := by
  obtain ⟨before, l, ⟨hreached, -⟩, rfl, hdecision⟩ := Cursor.mem_layoutFrom_iff.mp h
  refine ⟨l.2, hreached.subset (List.mem_append_right _ List.mem_cons_self), ?_⟩
  obtain ⟨line, result⟩ := l
  rintro rfl
  cases hdecision

/-- No line has two problems: one that is refused has no statement to be encoded. -/
theorem nodup_lines {ps : List (Nat × Placement)} (h : ps.Pairwise fun p q => p.1 < q.1) :
    ((Layout.errors ps ++ encodingErrors ps).map (·.line)).Nodup := by
  have hfirst : ((Layout.errors ps).map (·.line)).Nodup :=
    List.pairwise_map.mpr ((Layout.pairwise_errors h).imp Nat.ne_of_lt)
  have hsecond : ((encodingErrors ps).map (·.line)).Nodup :=
    List.pairwise_map.mpr ((pairwise_encodingErrors h).imp Nat.ne_of_lt)
  have hlines : (ps.map Prod.fst).Nodup := List.pairwise_map.mpr (h.imp Nat.ne_of_lt)
  rw [List.map_append]
  refine List.nodup_append.mpr ⟨hfirst, hsecond, ?_⟩
  intro line hrefused line' hunencoded hsameLine
  obtain ⟨e, he, rfl⟩ := List.mem_map.mp hrefused
  obtain ⟨f, hf, rfl⟩ := List.mem_map.mp hunencoded
  obtain ⟨statement, hs, -⟩ := mem_encodingErrors_iff.mp hf
  obtain ⟨addr, hplaced⟩ := Layout.mem_statements_iff.mp hs
  have hsame := List.inj_on_of_nodup_map hlines (Layout.mem_errors_iff.mp he) hplaced hsameLine
  have hplacement : Placement.refused e.problem = .placed addr statement :=
    congrArg Prod.snd hsame
  cases hplacement

/-- Lines that make up no program have their problems reported. -/
theorem reports_of_error (hlines : lines.Pairwise fun l m => l.1 < m.1)
    {errors : List AssemblyError} (h : assembleLines lines = .error errors) :
    Reports lines errors := by
  have hplacements : (layout lines).Pairwise fun p q => p.1 < q.1 :=
    List.pairwise_map.mp ((List.pairwise_map.mpr hlines).sublist
      (Cursor.sublist_layoutFrom {} lines))
  have hne : errors ≠ [] ∧
      errors = Layout.errors (layout lines) ++ encodingErrors (layout lines) := by
    simp only [assembleLines] at h
    split at h
    · cases h
    · rename_i hnonempty
      cases h
      exact ⟨by simpa using hnonempty, rfl⟩
  obtain ⟨hne, rfl⟩ := hne
  refine ⟨hne, ⟨_, _, rfl, ?_, ?_, Layout.pairwise_errors hplacements,
    pairwise_encodingErrors hplacements⟩, ?_, ?_, ?_, ?_, ?_, ?_⟩
  · exact fun e he => structural_of_mem he
  · exact fun e he => not_structural_of_mem he
  · exact nodup_lines hplacements
  · intro e he
    rcases List.mem_append.mp he with he | he
    · exact exists_line_of_mem_layout (Layout.mem_errors_iff.mp he)
    · obtain ⟨statement, hs, -⟩ := mem_encodingErrors_iff.mp he
      obtain ⟨addr, hplaced⟩ := Layout.mem_statements_iff.mp hs
      exact exists_line_of_mem_layout hplaced
  · have hsecond : (encodingErrors (layout lines)).countP (·.problem = .programTooLarge) = 0 := by
      rw [List.countP_eq_zero]
      intro e he hlarge
      have hother := not_structural_of_mem he
      rw [of_decide_eq_true hlarge] at hother
      cases hother
    rw [List.countP_append, hsecond]
    exact Layout.countP_tooLarge_le {} lines
  · intro label first line
    rw [mem_append_iff_of_structural rfl, mem_layout_errors_iff]
    simp only [Cursor.decision?_eq_duplicate_iff, lookup_labels_start]
    constructor
    · rintro ⟨before, ⟨line, result⟩, hlooks, rfl, statement, rfl, hlabel, hfirst⟩
      obtain ⟨hlt, hfirst⟩ := (firstLine?_eq_some_iff hlines hlooks.1 hlabel).mp hfirst
      exact ⟨hlt, hfirst, before, statement, hlooks, hlabel⟩
    · rintro ⟨hlt, hfirst, before, statement, hlooks, hlabel⟩
      have hbefore := (firstLine?_eq_some_iff hlines hlooks.1 hlabel).mpr ⟨hlt, hfirst⟩
      exact ⟨before, _, hlooks, rfl, statement, rfl, hlabel, hbefore⟩
  · intro line e
    have hstructural : (AssemblyProblem.ofLineError e).isStructural = true := by
      cases e <;> rfl
    rw [mem_append_iff_of_structural hstructural, mem_layout_errors_iff]
    simp only [Cursor.decision?_eq_malformed_iff]
    constructor
    · rintro ⟨before, ⟨line, result⟩, hlooks, rfl, rfl⟩
      exact ⟨before, hlooks⟩
    · rintro ⟨before, hlooks⟩
      exact ⟨before, _, hlooks, rfl, rfl⟩
  · intro line problem hother
    rw [mem_append_iff_of_not_structural hother, mem_encodingErrors_iff]

end Source

/-- Where a source makes up no program, its problems are reported: completely, in order, and at most
one for each line. -/
theorem assemble_reports {source : String} {errors : List AssemblyError}
    (h : assemble source = .error errors) : Source.Reports (sourceLines source) errors :=
  Source.reports_of_error (Source.pairwise_sourceLines source) h

/-- A source with problems of all sorts. Its fourth line would end it, but has the label of the
second one. -/
theorem assemble_reports_relabelled_end :
    let source := "Org FFE\nA, Load B\n1A, Halt\nA, End\nFoo A\nHalt\nHalt\n\n" ++
      "Load X Y\nOrg 100\nLast, End\nFoo"
    let errors : List AssemblyError :=
      [⟨.labelStartsWithDigit, 3⟩, ⟨.duplicateLabel "A" 2, 4⟩, ⟨.programTooLarge, 6⟩,
        ⟨.incorrectForm, 9⟩, ⟨.unexpectedOrg, 10⟩, ⟨.unknownLabel "B", 2⟩,
        ⟨.unknownOperator "foo", 5⟩]
    assemble source = .error errors ∧ Source.Reports (sourceLines source) errors := by
  intro source errors
  have hlines : sourceLines source =
      [(1, .ok (.org 0xFFE)), (2, .ok (.statement ⟨some "A", "load", some "B"⟩)),
        (3, .error .labelStartsWithDigit), (4, .ok (.statement ⟨some "A", "end", none⟩)),
        (5, .ok (.statement ⟨none, "foo", some "A"⟩)),
        (6, .ok (.statement ⟨none, "halt", none⟩)), (7, .ok (.statement ⟨none, "halt", none⟩)),
        (8, .ok .blank), (9, .error .incorrectForm), (10, .ok (.org 0x100)),
        (11, .ok (.statement ⟨some "Last", "end", none⟩)),
        (12, .ok (.statement ⟨none, "foo", none⟩))] := by decide +kernel
  have h : assemble source = .error errors := by
    rw [assemble, hlines]
    rfl
  exact ⟨h, assemble_reports h⟩

end Marie
