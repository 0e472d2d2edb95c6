/-
# Layouts without problems

The relation `Cursor.Lays` goes through the lines of a source as their layout does, but has no
case for a problem. So an induction on it has only the four ways in which a line can be fine.

* `Cursor.lays_of_errors`, `Cursor.Lays.layoutFrom_eq` : the relation holds where the layout
  reports nothing;
* `Cursor.Lays.entries` : it gives each statement the address of its index.
-/
import Marie.Proofs.SourceReading

namespace Marie

open Source

/-- A statement is laid out as its decision says, and the lines behind it unless it ends the
source. -/
theorem layoutFrom_statement (cursor : Cursor) (line : Nat) (statement : Statement)
    (rest : List NumberedLine) :
    layoutFrom cursor ((line, .ok (.statement statement)) :: rest) =
      (line, (cursor.placeStatement line statement).1) ::
        if (cursor.placeStatement line statement).1.isStop then []
        else layoutFrom (cursor.placeStatement line statement).2 rest :=
  rfl

namespace Cursor

/-- The layout of the lines from a cursor on, if there is no problem with any of them. -/
inductive Lays : Cursor → List NumberedLine → List (Nat × Placement) → Prop
  | nil (cursor : Cursor) : Lays cursor [] []
  | blank {cursor : Cursor} {line : Nat} {rest : List NumberedLine}
      {ps : List (Nat × Placement)} (h : Lays cursor rest ps) :
      Lays cursor ((line, .ok .blank) :: rest) ps
  | org {cursor : Cursor} {line : Nat} {addr : Word} {rest : List NumberedLine}
      {ps : List (Nat × Placement)} (horigin : cursor.origin = none) (hsize : cursor.size = 0)
      (h : Lays { cursor with origin := some addr } rest ps) :
      Lays cursor ((line, .ok (.org addr)) :: rest) ((line, .origin addr) :: ps)
  | placed {cursor : Cursor} {line : Nat} {statement : Statement} {rest : List NumberedLine}
      {ps : List (Nat × Placement)} (hnew : cursor.duplicate? statement = none)
      (hend : statement.isEnd = false) (hfits : cursor.address < memorySize)
      (h : Lays { cursor.define line statement with size := cursor.size + 1 } rest ps) :
      Lays cursor ((line, .ok (.statement statement)) :: rest)
        ((line, .placed (UInt16.ofNat cursor.address) statement) :: ps)
  | stop {cursor : Cursor} {line : Nat} {statement : Statement} {rest : List NumberedLine}
      (hnew : cursor.duplicate? statement = none) (hend : statement.isEnd = true) :
      Lays cursor ((line, .ok (.statement statement)) :: rest)
        [(line, .stop cursor.addr? statement)]

/-! ## The cursor after a label -/

section

variable (cursor : Cursor) (line : Nat) (statement : Statement)

@[simp]
theorem define_origin : (cursor.define line statement).origin = cursor.origin := by
  unfold define
  split <;> rfl

@[simp]
theorem define_size : (cursor.define line statement).size = cursor.size := by
  unfold define
  split <;> rfl

@[simp]
theorem define_full : (cursor.define line statement).full = cursor.full := by
  unfold define
  split <;> rfl

@[simp]
theorem define_address : (cursor.define line statement).address = cursor.address := by
  simp [address]

@[simp]
theorem define_addr? : (cursor.define line statement).addr? = cursor.addr? := by
  simp [addr?]

end

section

variable {cursor : Cursor} {line : Nat} {statement : Statement}

theorem addr?_of_lt (h : cursor.address < memorySize) :
    cursor.addr? = some (UInt16.ofNat cursor.address) :=
  if_pos h

theorem addr?_of_le (h : memorySize ≤ cursor.address) : cursor.addr? = none :=
  if_neg (Nat.not_lt.mpr h)

/-! ## Decisions -/

/-- An origin that comes first is accepted. -/
theorem placeOrg_of_first (horigin : cursor.origin = none) (hsize : cursor.size = 0)
    (addr : Word) : cursor.placeOrg addr = (.origin addr, { cursor with origin := some addr }) := by
  simp [placeOrg, horigin, hsize]

/-- An origin that does not come first is refused. -/
theorem placeOrg_of_late (h : ¬ (cursor.origin = none ∧ cursor.size = 0)) (addr : Word) :
    cursor.placeOrg addr = (.refused .unexpectedOrg, cursor) := by
  have hlate : (cursor.origin.isNone && cursor.size == 0) = false := by
    rw [Bool.eq_false_iff]
    intro hfirst
    rw [Bool.and_eq_true, Option.isNone_iff_eq_none, beq_iff_eq] at hfirst
    exact h hfirst
  rw [placeOrg, hlate]
  rfl

/-- The end of the source, with a new label or none. -/
theorem placeStatement_of_isEnd (hnew : cursor.duplicate? statement = none)
    (hend : statement.isEnd = true) :
    cursor.placeStatement line statement =
      (.stop cursor.addr? statement, cursor.define line statement) := by
  simp [placeStatement, hnew, hend]

/-- A statement that fits in memory, with a new label or none. -/
theorem placeStatement_of_lt (hnew : cursor.duplicate? statement = none)
    (hend : statement.isEnd = false) (hfits : cursor.address < memorySize) :
    cursor.placeStatement line statement =
      (.placed (UInt16.ofNat cursor.address) statement,
        { cursor.define line statement with size := cursor.size + 1 }) := by
  simp [placeStatement, hnew, hend, addr?_of_lt hfits]

/-- Any other statement is a problem, unless memory was full before. -/
theorem placeStatement_cases (hfull : cursor.full = false) (line : Nat) (statement : Statement) :
    (cursor.duplicate? statement = none ∧
      (statement.isEnd = true ∨ statement.isEnd = false ∧ cursor.address < memorySize)) ∨
    ∃ problem after, cursor.placeStatement line statement = (.refused problem, after) := by
  cases hnew : cursor.duplicate? statement with
  | some first => exact .inr ⟨_, _, by rw [placeStatement, hnew]⟩
  | none =>
      cases hend : statement.isEnd with
      | true => exact .inl ⟨rfl, .inl rfl⟩
      | false =>
          by_cases hfits : cursor.address < memorySize
          · exact .inl ⟨rfl, .inr ⟨rfl, hfits⟩⟩
          · have haddr := addr?_of_le (Nat.not_lt.mp hfits)
            refine .inr ⟨.programTooLarge, { cursor.define line statement with full := true }, ?_⟩
            simp [placeStatement, hnew, hend, haddr, hfull]

/-! ## Problems -/

theorem errors_cons {line : Nat} {placement : Placement} {ps : List (Nat × Placement)}
    (h : Layout.errors ((line, placement) :: ps) = []) :
    placement.problem? = none ∧ Layout.errors ps = [] := by
  cases hproblem : placement.problem? with
  | none => exact ⟨rfl, by simpa [Layout.errors, hproblem] using h⟩
  | some problem => simp [Layout.errors, hproblem] at h

/-- Where the layout reports nothing, it is a layout without problems. -/
theorem lays_of_errors {cursor : Cursor} {lines : List NumberedLine}
    (hfull : cursor.full = false) (h : Layout.errors (layoutFrom cursor lines) = []) :
    cursor.Lays lines (layoutFrom cursor lines) := by
  -- a cursor that is full has reported it already, so it never is
  induction lines generalizing cursor with
  | nil => exact .nil cursor
  | cons l rest ih =>
      obtain ⟨line, result⟩ := l
      cases result with
      | error e => cases (errors_cons h).1
      | ok said =>
          cases said with
          | blank => exact .blank (ih hfull h)
          | org addr =>
              rw [layoutFrom] at h ⊢
              by_cases hfirst : cursor.origin = none ∧ cursor.size = 0
              · rw [placeOrg_of_first hfirst.1 hfirst.2] at h ⊢
                exact .org hfirst.1 hfirst.2 (ih hfull (errors_cons h).2)
              · rw [placeOrg_of_late hfirst] at h
                cases (errors_cons h).1
          | statement statement =>
              rw [layoutFrom] at h ⊢
              rcases placeStatement_cases hfull line statement with
                ⟨hnew, hend | ⟨hend, hfits⟩⟩ | ⟨problem, after, hrefused⟩
              · rw [placeStatement_of_isEnd hnew hend]
                exact .stop hnew hend
              · rw [placeStatement_of_lt hnew hend hfits] at h ⊢
                exact .placed hnew hend hfits (ih (by simp [hfull]) (errors_cons h).2)
              · rw [hrefused] at h
                cases (errors_cons h).1

end

/-- A layout without problems is the layout, and it reports nothing. -/
theorem Lays.layoutFrom_eq {cursor : Cursor} {lines : List NumberedLine}
    {ps : List (Nat × Placement)} (h : cursor.Lays lines ps) :
    layoutFrom cursor lines = ps ∧ Layout.errors ps = [] := by
  induction h with
  | nil cursor => exact ⟨rfl, rfl⟩
  | blank h ih => exact ih
  | org horigin hsize h ih =>
      refine ⟨?_, ih.2⟩
      rw [layoutFrom, placeOrg_of_first horigin hsize]
      exact congrArg _ ih.1
  | placed hnew hend hfits h ih =>
      refine ⟨?_, ih.2⟩
      rw [layoutFrom, placeStatement_of_lt hnew hend hfits]
      exact congrArg _ ih.1
  | stop hnew hend =>
      refine ⟨?_, rfl⟩
      rw [layoutFrom, placeStatement_of_isEnd hnew hend]
      rfl

/-! ## What the layout says -/

/-- The origin of the program when the lines are read from a cursor on. -/
def originOf (cursor : Cursor) (lines : List NumberedLine) : Word :=
  (cursor.origin.or ((readLines lines).findSome? org?)).getD 0

/-- Where no line gives the origin, it is the one of the cursor. -/
theorem originOf_of_no_org {cursor : Cursor} {lines : List NumberedLine}
    (h : ∀ l ∈ readLines lines, org? l = none) : cursor.originOf lines = cursor.origin.getD 0 := by
  rw [originOf, List.findSome?_eq_none_iff.mpr h, Option.or_none]

/-- A statement leaves the origin to the cursor, if no line behind it gives one. -/
theorem originOf_statement {cursor : Cursor} {line : Nat} {statement : Statement}
    {rest : List NumberedLine} (hend : statement.isEnd = false)
    (h : ∀ l ∈ readLines rest, org? l = none) :
    cursor.originOf ((line, .ok (.statement statement)) :: rest) = cursor.origin.getD 0 := by
  apply originOf_of_no_org
  rw [readLines_statement _ _ hend]
  exact List.forall_mem_cons.mpr ⟨rfl, h⟩

/-- The statement that ends the source leaves the origin to the cursor. -/
theorem originOf_end {cursor : Cursor} {line : Nat} {statement : Statement}
    {rest : List NumberedLine} (hend : statement.isEnd = true) :
    cursor.originOf ((line, .ok (.statement statement)) :: rest) = cursor.origin.getD 0 := by
  apply originOf_of_no_org
  rw [readLines_end _ _ hend]
  exact List.forall_mem_singleton.mpr rfl

/-- The address with a number, if memory reaches so far. -/
def cellAt (n : Nat) : Option Word :=
  if n < memorySize then some (UInt16.ofNat n) else none

/-- The statement of a line with the address that it has got. -/
def addressed? : Nat × Placement → Option (Nat × Option Word × Statement)
  | (line, .placed addr statement) => some (line, some addr, statement)
  | (line, .stop addr statement) => some (line, addr, statement)
  | _ => none

variable {cursor : Cursor} {lines : List NumberedLine} {ps : List (Nat × Placement)}

/-- Where the origin is known or a statement has come, no line gives the origin. -/
theorem Lays.no_org (h : cursor.Lays lines ps) (hlate : cursor.origin ≠ none ∨ cursor.size ≠ 0) :
    ∀ l ∈ readLines lines, org? l = none := by
  induction h with
  | nil cursor => simp
  | blank h ih =>
      rw [readLines_blank]
      exact List.forall_mem_cons.mpr ⟨rfl, ih hlate⟩
  | org horigin hsize h ih =>
      rcases hlate with hlate | hlate
      · exact absurd horigin hlate
      · exact absurd hsize hlate
  | placed hnew hend hfits h ih =>
      rw [readLines_statement _ _ hend]
      exact List.forall_mem_cons.mpr ⟨rfl, ih (.inr (by simp))⟩
  | stop hnew hend =>
      rw [readLines_end _ _ hend]
      exact List.forall_mem_singleton.mpr rfl

/-- The origin of the layout is the first that a line gives. -/
theorem Lays.origin (h : cursor.Lays lines ps) :
    ps.findSome? (fun p => p.2.origin?) = (readLines lines).findSome? org? := by
  induction h with
  | nil cursor => rfl
  | blank h ih => exact ih
  | org horigin hsize h ih => rfl
  | placed hnew hend hfits h ih =>
      rw [readLines_statement _ _ hend]
      exact ih
  | stop hnew hend =>
      rw [readLines_end _ _ hend]
      rfl

/-- The statements of the layout are those that become words. -/
theorem Lays.statements (h : cursor.Lays lines ps) : Layout.statements ps = body lines := by
  induction h with
  | nil cursor => rfl
  | blank h ih => exact ih
  | org horigin hsize h ih => exact ih
  | placed hnew hend hfits h ih =>
      rw [body_statement _ _ hend, ← ih]
      rfl
  | stop hnew hend =>
      rw [body_end _ _ hend]
      rfl

/-- The statements have their addresses in a row, from the one of the cursor on. -/
theorem Lays.entries (h : cursor.Lays lines ps) :
    ps.filterMap addressed? =
      ((Source.statements lines).zipIdx ((cursor.originOf lines).toNat + cursor.size)).map
        fun (s, n) => (s.1, cellAt n, s.2) := by
  induction h with
  | nil cursor => rfl
  | blank h ih => exact ih
  | @org cursor line addr rest ps horigin hsize h ih =>
      have hsame : cursor.originOf ((line, .ok (.org addr)) :: rest) =
          { cursor with origin := some addr }.originOf rest := by
        rw [originOf, horigin]
        rfl
      rw [hsame]
      exact ih
  | @placed cursor line statement rest ps hnew hend hfits h ih =>
      -- with a statement placed the origin is settled, so the addresses behind go on from here
      have hnone := h.no_org (.inr (by simp))
      have hcell : cellAt cursor.address = some (UInt16.ofNat cursor.address) := if_pos hfits
      rw [originOf_of_no_org hnone, define_origin] at ih
      rw [statements_statement _ _ hend, List.zipIdx_cons, List.map_cons,
        originOf_statement hend hnone]
      show _ = (line, cellAt cursor.address, statement) :: _
      rw [hcell]
      exact congrArg (List.cons _) ih
  | @stop cursor line statement rest hnew hend =>
      rw [statements_end _ _ hend, originOf_end hend]
      rfl

end Cursor

end Marie
