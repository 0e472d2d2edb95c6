/-
# Line numbers

What a source means does not depend on how its lines are numbered, and so not on blank lines and
comments between them. Of two sources whose other lines say the same, both make up the same
program or both have the same problems, apart from the numbers of the lines in the source map and
in the problems; and these belong to lines in the same place.

* `layoutFrom_alike` : two layouts of lines that say the same go the same way;
* `layoutFrom_solid` : blank lines leave no trace;
* `assembleLines_alike` : both passes over lines that say the same;
* `assemble_alike` : two sources.
-/
import Marie.Assembly
import Marie.Proofs.Layout

namespace Marie

variable {R : Nat → Nat → Prop}

/-! ## Problems, placements and cursors -/

/-- Problems that differ at most in the line that they point back to. -/
inductive AssemblyProblem.Alike (R : Nat → Nat → Prop) :
    AssemblyProblem → AssemblyProblem → Prop
  | same {problem : AssemblyProblem} (h : ∀ label line, problem ≠ .duplicateLabel label line) :
      Alike R problem problem
  | duplicateLabel (label : String) {line line' : Nat} (h : R line line') :
      Alike R (.duplicateLabel label line) (.duplicateLabel label line')

/-- The same problem on lines that belong together. -/
structure AssemblyError.Alike (R : Nat → Nat → Prop) (e f : AssemblyError) : Prop where
  problem : e.problem.Alike R f.problem
  line : R e.line f.line

/-- The same decision about lines that belong together. -/
inductive Placement.Alike (R : Nat → Nat → Prop) : Placement → Placement → Prop
  | accepted {placement : Placement} (h : placement.problem? = none) :
      Alike R placement placement
  | refused {problem problem' : AssemblyProblem} (h : problem.Alike R problem') :
      Alike R (.refused problem) (.refused problem')

theorem Placement.Alike.isStop_eq {p q : Placement} (h : p.Alike R q) : p.isStop = q.isStop := by
  cases h <;> rfl

/-- Layouts that have come to the same point, apart from the lines of the labels. -/
structure Cursor.Alike (R : Nat → Nat → Prop) (c d : Cursor) : Prop where
  origin : c.origin = d.origin
  size : c.size = d.size
  full : c.full = d.full
  labels : List.Forall₂ (fun x y => x.1 = y.1 ∧ R x.2 y.2) c.labels d.labels

namespace Cursor

variable {c d : Cursor} {line line' : Nat}

theorem Alike.address_eq (h : c.Alike R d) : c.address = d.address := by
  rw [address, address, h.origin, h.size]

theorem Alike.addr?_eq (h : c.Alike R d) : c.addr? = d.addr? := by
  rw [addr?, addr?, h.address_eq]

/-- Tables of lines under the same names have them for the same names, on lines that belong
together. -/
theorem lookup_alike {xs ys : List (String × Nat)}
    (h : List.Forall₂ (fun x y => x.1 = y.1 ∧ R x.2 y.2) xs ys) (label : String) :
    (xs.lookup label = none ∧ ys.lookup label = none) ∨
      ∃ n m, xs.lookup label = some n ∧ ys.lookup label = some m ∧ R n m := by
  induction h with
  | nil => exact .inl ⟨rfl, rfl⟩
  | @cons x y xs ys hhead _ ih =>
      obtain ⟨own, n⟩ := x
      obtain ⟨own', m⟩ := y
      obtain ⟨rfl, hline⟩ := hhead
      rw [List.lookup_cons, List.lookup_cons]
      cases label == own with
      | true => exact .inr ⟨n, m, rfl, rfl, hline⟩
      | false => exact ih

/-- A label is known to both cursors or to none. -/
theorem Alike.duplicate?_cases (h : c.Alike R d) (statement : Statement) :
    (c.duplicate? statement = none ∧ d.duplicate? statement = none) ∨
      ∃ label n m, c.duplicate? statement = some (label, n) ∧
        d.duplicate? statement = some (label, m) ∧ R n m := by
  unfold duplicate?
  cases statement.label with
  | none => exact .inl ⟨rfl, rfl⟩
  | some label =>
      rcases lookup_alike h.labels label with ⟨hn, hm⟩ | ⟨n, m, hn, hm, hline⟩
      · exact .inl ⟨by simp [hn], by simp [hm]⟩
      · exact .inr ⟨label, n, m, by simp [hn], by simp [hm], hline⟩

theorem Alike.define (h : c.Alike R d) (hline : R line line') (statement : Statement) :
    (c.define line statement).Alike R (d.define line' statement) := by
  unfold Cursor.define
  cases statement.label with
  | none => exact h
  | some label => exact ⟨h.origin, h.size, h.full, .cons ⟨rfl, hline⟩ h.labels⟩

/-- Both cursors decide the same about an origin directive. -/
theorem Alike.placeOrg (h : c.Alike R d) (addr : Word) :
    (c.placeOrg addr).1.Alike R (d.placeOrg addr).1 ∧
      (c.placeOrg addr).2.Alike R (d.placeOrg addr).2 := by
  unfold Cursor.placeOrg
  rw [← h.origin, ← h.size]
  split
  · exact ⟨.accepted rfl, ⟨rfl, rfl, h.full, h.labels⟩⟩
  · exact ⟨.refused (.same (by simp)), h⟩

/-- Both cursors decide the same about a statement. -/
theorem Alike.placeStatement (h : c.Alike R d) (hline : R line line') (statement : Statement) :
    (c.placeStatement line statement).1.Alike R (d.placeStatement line' statement).1 ∧
      (c.placeStatement line statement).2.Alike R (d.placeStatement line' statement).2 := by
  unfold Cursor.placeStatement
  rcases h.duplicate?_cases statement with ⟨hn, hm⟩ | ⟨label, n, m, hn, hm, hfirst⟩
  · rw [hn, hm]
    have hdefine := h.define hline statement
    simp only [← hdefine.addr?_eq, ← hdefine.full]
    cases statement.isEnd with
    | true => exact ⟨.accepted rfl, hdefine⟩
    | false =>
        cases (c.define line statement).addr? with
        | some addr =>
            exact ⟨.accepted rfl,
              ⟨hdefine.origin, congrArg (· + 1) hdefine.size, rfl, hdefine.labels⟩⟩
        | none =>
            cases hfull : (c.define line statement).full with
            | true => exact ⟨.accepted rfl, hdefine⟩
            | false =>
                exact ⟨.refused (.same (by simp)),
                  ⟨hdefine.origin, hdefine.size, rfl, hdefine.labels⟩⟩
  · rw [hn, hm]
    exact ⟨.refused (.duplicateLabel label hfirst), h⟩

end Cursor

/-! ## Layouts -/

/-- Entries of two layouts that belong together. -/
structure Layout.Alike (R : Nat → Nat → Prop) (p q : Nat × Placement) : Prop where
  line : R p.1 q.1
  placement : p.2.Alike R q.2

/-- Lines that say the same are laid out in the same way. -/
theorem layoutFrom_alike {c d : Cursor} {lines lines' : List NumberedLine} (hcursor : c.Alike R d)
    (hlines : List.Forall₂ (fun l m => R l.1 m.1 ∧ l.2 = m.2) lines lines') :
    List.Forall₂ (Layout.Alike R) (layoutFrom c lines) (layoutFrom d lines') := by
  induction hlines generalizing c d with
  | nil => exact .nil
  | @cons l m rest rest' hhead _ ih =>
      obtain ⟨line, result⟩ := l
      obtain ⟨line', result'⟩ := m
      obtain ⟨hline, rfl⟩ := hhead
      cases result with
      | error e =>
          refine .cons ⟨hline, .refused (.same ?_)⟩ (ih hcursor)
          cases e <;> simp [AssemblyProblem.ofLineError]
      | ok said =>
          cases said with
          | blank => exact ih hcursor
          | org addr =>
              obtain ⟨hplacement, hafter⟩ := hcursor.placeOrg addr
              exact .cons ⟨hline, hplacement⟩ (ih hafter)
          | statement statement =>
              obtain ⟨hplacement, hafter⟩ := hcursor.placeStatement hline statement
              rw [layoutFrom_statement, layoutFrom_statement, ← hplacement.isStop_eq]
              refine .cons ⟨hline, hplacement⟩ ?_
              cases (c.placeStatement line statement).1.isStop with
              | true => exact .nil
              | false => exact ih hafter

/-- The lines that are not blank. -/
def Source.solid (lines : List NumberedLine) : List NumberedLine :=
  lines.filter fun
    | (_, .ok .blank) => false
    | _ => true

/-- Blank lines leave no trace in a layout. -/
theorem layoutFrom_solid (cursor : Cursor) (lines : List NumberedLine) :
    layoutFrom cursor (Source.solid lines) = layoutFrom cursor lines := by
  induction lines generalizing cursor with
  | nil => rfl
  | cons l rest ih =>
      obtain ⟨line, result⟩ := l
      cases result with
      | error e => exact congrArg (List.cons _) (ih cursor)
      | ok said =>
          cases said with
          | blank => exact ih cursor
          | org addr => exact congrArg (List.cons _) (ih _)
          | statement statement =>
              rw [layoutFrom_statement, ← ih]
              rfl

/-! ## What is read off from layouts -/

section

variable {ps qs : List (Nat × Placement)}

/-- What does not depend on line numbers is the same in layouts that belong together. -/
theorem filterMap_eq_of_alike {α : Type} {f : Placement → Option α}
    (hf : ∀ problem, f (.refused problem) = none) (h : List.Forall₂ (Layout.Alike R) ps qs) :
    ps.filterMap (fun p => f p.2) = qs.filterMap (fun q => f q.2) := by
  induction h with
  | nil => rfl
  | @cons p q ps qs hhead _ ih =>
      obtain ⟨line, placement⟩ := p
      obtain ⟨line', placement'⟩ := q
      have hsame : f placement = f placement' := by
        cases hhead.placement with
        | accepted => rfl
        | refused => rw [hf, hf]
      rw [List.filterMap_cons, List.filterMap_cons, hsame, ih]

theorem Layout.origin_eq_of_alike (h : List.Forall₂ (Layout.Alike R) ps qs) :
    Layout.origin ps = Layout.origin qs := by
  rw [Layout.origin, Layout.origin, ← List.head?_filterMap, ← List.head?_filterMap,
    filterMap_eq_of_alike (fun _ => rfl) h]

theorem Layout.symbols_eq_of_alike (h : List.Forall₂ (Layout.Alike R) ps qs) :
    Layout.symbols ps = Layout.symbols qs := by
  rw [Layout.symbols, Layout.symbols, filterMap_eq_of_alike (fun _ => rfl) h]

/-- The problems of layouts that belong together are the same, on lines that belong together. -/
theorem Layout.errors_alike (h : List.Forall₂ (Layout.Alike R) ps qs) :
    List.Forall₂ (AssemblyError.Alike R) (Layout.errors ps) (Layout.errors qs) := by
  refine List.rel_filterMap ?_ h
  rintro ⟨line, placement⟩ ⟨line', placement'⟩ ⟨hline, hplacement⟩
  cases hplacement with
  | accepted hnone => simp [hnone]
  | refused hproblem => exact .some ⟨hproblem, hline⟩

/-- The statements of layouts that belong together are the same, on lines that belong together. -/
theorem Layout.statements_alike (h : List.Forall₂ (Layout.Alike R) ps qs) :
    List.Forall₂ (fun s t => R s.1 t.1 ∧ s.2 = t.2) (Layout.statements ps)
      (Layout.statements qs) := by
  refine List.rel_filterMap ?_ h
  rintro ⟨line, placement⟩ ⟨line', placement'⟩ ⟨hline, hplacement⟩
  cases hplacement with
  | accepted =>
      cases hstatement : placement.statement? with
      | none => simp [hstatement]
      | some statement => simpa [hstatement] using hline
  | refused => exact .none

/-- Tables with the same keys, whose values belong together. -/
def Table.Alike {κ : Type} [Ord κ] (R : Nat → Nat → Prop) (t u : Table κ Nat) : Prop :=
  List.Forall₂ (fun x y => x.1 = y.1 ∧ R x.2 y.2) t.entries u.entries

/-- Values that belong together are put at the same place under one key. -/
theorem Table.insertEntry_alike {κ : Type} [Ord κ] {key : κ} {n m : Nat} (hline : R n m)
    {xs ys : List (κ × Nat)} (h : List.Forall₂ (fun x y => x.1 = y.1 ∧ R x.2 y.2) xs ys) :
    List.Forall₂ (fun x y => x.1 = y.1 ∧ R x.2 y.2) (insertEntry key n xs)
      (insertEntry key m ys) := by
  induction h with
  | nil => exact .cons ⟨rfl, hline⟩ .nil
  | @cons x y xs ys hhead htail ih =>
      obtain ⟨k, v⟩ := x
      obtain ⟨k', w⟩ := y
      obtain ⟨rfl, hvalue⟩ := hhead
      rw [insertEntry, insertEntry]
      cases compare key k with
      | lt => exact .cons ⟨rfl, hline⟩ (.cons ⟨rfl, hvalue⟩ htail)
      | eq => exact .cons ⟨rfl, hline⟩ htail
      | gt => exact .cons ⟨rfl, hvalue⟩ ih

/-- The source maps of layouts that belong together have the same addresses, with lines that
belong together. -/
theorem Layout.sourceMap_alike (h : List.Forall₂ (Layout.Alike R) ps qs) :
    (Layout.sourceMap ps).Alike R (Layout.sourceMap qs) := by
  have hentries : List.Forall₂ (fun x y => x.1 = y.1 ∧ R x.2 y.2)
      (ps.filterMap fun p => p.2.addr?.map (·, p.1))
      (qs.filterMap fun q => q.2.addr?.map (·, q.1)) := by
    refine List.rel_filterMap ?_ h
    rintro ⟨line, placement⟩ ⟨line', placement'⟩ ⟨hline, hplacement⟩
    cases hplacement with
    | accepted =>
        cases haddr : placement.addr? with
        | none => simp [haddr]
        | some addr => simpa [haddr] using hline
    | refused => exact .none
  have hstart : (∅ : Table Word Nat).Alike R ∅ := List.Forall₂.nil
  refine List.rel_foldl (P := Table.Alike R) ?_ hstart hentries
  rintro t u htables ⟨addr, n⟩ ⟨addr', m⟩ ⟨rfl, hline⟩
  exact Table.insertEntry_alike hline htables

/-! ## The second pass -/

/-- The problems of the second pass are the same, on lines that belong together. -/
theorem encodingErrors_alike (h : List.Forall₂ (Layout.Alike R) ps qs) :
    List.Forall₂ (AssemblyError.Alike R) (encodingErrors ps) (encodingErrors qs) := by
  rw [encodingErrors, encodingErrors, encodings, encodings, Layout.symbols_eq_of_alike h,
    List.filterMap_map, List.filterMap_map]
  refine List.rel_filterMap ?_ (Layout.statements_alike h)
  rintro ⟨line, statement⟩ ⟨line', statement'⟩ ⟨hline, rfl⟩
  cases hencode : statement.encode (Layout.symbols qs) with
  | ok w => simp [hencode]
  | error problem =>
      have hother : ∀ label line, problem ≠ .duplicateLabel label line := by
        rintro label line rfl
        cases Statement.encode_not_structural hencode
      simpa [hencode] using ⟨.same hother, hline⟩

/-- The words of the second pass are the same. -/
theorem encodedWords_eq_of_alike (h : List.Forall₂ (Layout.Alike R) ps qs) :
    encodedWords ps = encodedWords qs := by
  rw [encodedWords, encodedWords, encodings, encodings, Layout.symbols_eq_of_alike h,
    List.filterMap_map, List.filterMap_map, ← List.forall₂_eq_eq_eq]
  refine List.rel_filterMap ?_ (Layout.statements_alike h)
  rintro ⟨line, statement⟩ ⟨line', statement'⟩ ⟨-, rfl⟩
  cases hencode : statement.encode (Layout.symbols qs) with
  | ok w => simp [hencode]
  | error problem => simp [hencode]

end

/-! ## Both passes -/

/-- Both have failed with the same problems on lines that belong together, or both are the same
program, apart from the lines of its addresses. -/
inductive AssembledAlike (R : Nat → Nat → Prop) :
    Except (List AssemblyError) Program → Except (List AssemblyError) Program → Prop
  | ok {p q : Program} (origin : p.origin = q.origin) (words : p.words = q.words)
      (symbols : p.symbols = q.symbols) (sourceMap : p.sourceMap.Alike R q.sourceMap) :
      AssembledAlike R (.ok p) (.ok q)
  | error {es fs : List AssemblyError} (h : List.Forall₂ (AssemblyError.Alike R) es fs) :
      AssembledAlike R (.error es) (.error fs)

/-- Lines that say the same are assembled in the same way. -/
theorem assembleLines_alike {lines lines' : List NumberedLine}
    (h : List.Forall₂ (fun l m => R l.1 m.1 ∧ l.2 = m.2) lines lines') :
    AssembledAlike R (assembleLines lines) (assembleLines lines') := by
  have hlayout : List.Forall₂ (Layout.Alike R) (layout lines) (layout lines') :=
    layoutFrom_alike ⟨rfl, rfl, rfl, .nil⟩ h
  have herrors := List.rel_append (Layout.errors_alike hlayout) (encodingErrors_alike hlayout)
  have hempty : (Layout.errors (layout lines) ++ encodingErrors (layout lines)).isEmpty =
      (Layout.errors (layout lines') ++ encodingErrors (layout lines')).isEmpty := by
    rw [Bool.eq_iff_iff, List.isEmpty_iff_length_eq_zero, List.isEmpty_iff_length_eq_zero,
      herrors.length_eq]
  unfold assembleLines
  simp only [hempty]
  split
  · exact .ok (Layout.origin_eq_of_alike hlayout) (encodedWords_eq_of_alike hlayout)
      (Layout.symbols_eq_of_alike hlayout) (Layout.sourceMap_alike hlayout)
  · exact .error herrors

theorem assembleLines_solid (lines : List NumberedLine) :
    assembleLines (Source.solid lines) = assembleLines lines := by
  rw [assembleLines, layout, layoutFrom_solid]
  rfl

/-! ## Sources -/

/-- The numbers are those of lines in the same place, blank lines apart: for some `k` they are the
numbers of the `k`-th line that is not blank. -/
def Source.SamePlace (lines lines' : List NumberedLine) (n m : Nat) : Prop :=
  ∃ (k : Nat) (l l' : NumberedLine),
    (solid lines)[k]? = some l ∧ (solid lines')[k]? = some l' ∧ l.1 = n ∧ l'.1 = m

/-- Two sources that say the same, blank lines apart, have the same program or the same problems,
apart from the numbers of the lines. These are the numbers of lines in the same place. -/
theorem assemble_alike {a b : String}
    (h : (Source.solid (sourceLines a)).map Prod.snd =
      (Source.solid (sourceLines b)).map Prod.snd) :
    AssembledAlike (Source.SamePlace (sourceLines a) (sourceLines b)) (assemble a)
      (assemble b) := by
  rw [assemble, assemble, ← assembleLines_solid (sourceLines a),
    ← assembleLines_solid (sourceLines b)]
  apply assembleLines_alike
  have hlength := congrArg List.length h
  rw [List.length_map, List.length_map] at hlength
  refine List.forall₂_of_length_eq_of_get hlength ?_
  intro k hk hk'
  refine ⟨⟨k, _, _, List.getElem?_eq_getElem hk, List.getElem?_eq_getElem hk', rfl, rfl⟩, ?_⟩
  have hsame : ((Source.solid (sourceLines a)).map Prod.snd)[k]? =
      ((Source.solid (sourceLines b)).map Prod.snd)[k]? := by rw [h]
  simpa [hk, hk'] using hsame

/-- A source with three problems, once as it is, and once with blank lines, comments, other spacing,
other letters in the operators and other line ends. -/
theorem assemble_alike_relaid :
    let a := "Org 100\nA, Dec 1\nA, Halt\nLoad B\nHalt 5"
    let b := "/ top\r\n\r\n  ORG 100 / start\r\n\tA,dec 1\r\n/\r\nA, HALT/again\r\n" ++
      "  load   B\r\n\r\nhalt 5\r\n"
    (Source.solid (sourceLines a)).map Prod.snd = (Source.solid (sourceLines b)).map Prod.snd ∧
      AssembledAlike (Source.SamePlace (sourceLines a) (sourceLines b)) (assemble a)
        (assemble b) ∧
      assemble a = .error [⟨.duplicateLabel "A" 2, 3⟩, ⟨.unknownLabel "B", 4⟩,
        ⟨.unexpectedOperand "halt" "5", 5⟩] ∧
      assemble b = .error [⟨.duplicateLabel "A" 4, 6⟩, ⟨.unknownLabel "B", 7⟩,
        ⟨.unexpectedOperand "halt" "5", 9⟩] := by
  intro a b
  have ha : sourceLines a =
      [(1, .ok (.org 0x100)), (2, .ok (.statement ⟨some "A", "dec", some "1"⟩)),
        (3, .ok (.statement ⟨some "A", "halt", none⟩)),
        (4, .ok (.statement ⟨none, "load", some "B"⟩)),
        (5, .ok (.statement ⟨none, "halt", some "5"⟩))] := by decide +kernel
  have hb : sourceLines b =
      [(1, .ok .blank), (2, .ok .blank), (3, .ok (.org 0x100)),
        (4, .ok (.statement ⟨some "A", "dec", some "1"⟩)), (5, .ok .blank),
        (6, .ok (.statement ⟨some "A", "halt", none⟩)),
        (7, .ok (.statement ⟨none, "load", some "B"⟩)), (8, .ok .blank),
        (9, .ok (.statement ⟨none, "halt", some "5"⟩))] := by decide +kernel
  have h : (Source.solid (sourceLines a)).map Prod.snd =
      (Source.solid (sourceLines b)).map Prod.snd := by
    rw [ha, hb]
    rfl
  refine ⟨h, assemble_alike h, ?_, ?_⟩
  · rw [assemble, ha]
    rfl
  · rw [assemble, hb]
    rfl

end Marie
