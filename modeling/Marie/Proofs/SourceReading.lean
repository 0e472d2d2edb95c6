/-
# What a source says

A reading of a source that does not go through its lines with a cursor. It looks at the lines up
to the first one that ends the source as a whole, and says when they make up a program
(`Source.WellFormed`) and which program that is (`Source.Describes`).
-/
import Marie.Assembly
import Marie.Proofs.Encoding
import Mathlib.Data.List.Forall2

namespace Marie

namespace Source

/-- The statement on a line, with the number of the line. -/
def statement? : NumberedLine → Option (Nat × Statement)
  | (line, .ok (.statement statement)) => some (line, statement)
  | _ => none

/-- The address that a line gives as the origin. -/
def org? : NumberedLine → Option Word
  | (_, .ok (.org addr)) => some addr
  | _ => none

/-- Whether a line ends the source. -/
def isEnd (l : NumberedLine) : Bool :=
  (statement? l).any fun s => s.2.isEnd

/-- The lines that are read: those up to the first one that ends the source, with that one. -/
def readLines : List NumberedLine → List NumberedLine
  | [] => []
  | l :: rest => if isEnd l then [l] else l :: readLines rest

/-- The statements that are read. The one that ends the source is the last of them, if there is
one. -/
def statements (lines : List NumberedLine) : List (Nat × Statement) :=
  (readLines lines).filterMap statement?

/-- The statements that become words. -/
def body (lines : List NumberedLine) : List (Nat × Statement) :=
  (statements lines).filter fun s => !s.2.isEnd

/-- The labels of the statements. -/
def labels (lines : List NumberedLine) : List String :=
  (statements lines).filterMap fun s => s.2.label

/-- The origin of the program, which is 0 if no line gives one. -/
def origin (lines : List NumberedLine) : Word :=
  ((readLines lines).findSome? org?).getD 0

/-- The statement with the index `i` stands at the address. The one that ends the source has an
address too, unless it comes right after the last cell of memory. -/
def StandsAt (lines : List NumberedLine) (i : Nat) (addr : Word) : Prop :=
  addr.toNat = (origin lines).toNat + i ∧ addr.toNat < memorySize

/-- The source defines the label as the address. -/
def Defines (lines : List NumberedLine) (label : String) (addr : Word) : Prop :=
  ∃ i s, (statements lines)[i]? = some s ∧ s.2.label = some label ∧ StandsAt lines i addr

/-- One line may stand before another one. Only blank lines may stand before the one that gives
the origin. -/
def MayPrecede (a b : NumberedLine) : Prop :=
  (org? b).isSome → org? a = none ∧ statement? a = none

/-- The lines make up a program. -/
structure WellFormed (lines : List NumberedLine) : Prop where
  /-- Every line can be read. -/
  parses : ∀ l ∈ readLines lines, ∃ line, l.2 = .ok line
  /-- Before a line that gives the origin there is neither another one nor a statement. -/
  orgFirst : (readLines lines).Pairwise MayPrecede
  /-- No label is defined twice. -/
  distinct : (labels lines).Nodup
  /-- The words fit in memory. -/
  fits : (origin lines).toNat + (body lines).length ≤ memorySize
  /-- Every statement stands for a word. -/
  encodes : ∀ s ∈ body lines, ∃ w, Encodes (Defines lines) s.2 w

/-- The program is the one that the lines make up. -/
structure Describes (lines : List NumberedLine) (program : Program) : Prop where
  origin : program.origin = origin lines
  /-- There is one word for each statement, in their order. -/
  words : List.Forall₂ (fun s w => Encodes (Defines lines) s.2 w) (body lines) program.words
  /-- The symbol table has the labels of the source with their addresses, and no others. -/
  symbols : ∀ label addr, program.lookupLabel label = some addr ↔ Defines lines label addr
  /-- The source map has the addresses of the statements with their lines, and no others. -/
  sourceMap : ∀ addr line, program.sourceLine addr = some line ↔
    ∃ i s, (statements lines)[i]? = some s ∧ s.1 = line ∧ StandsAt lines i addr

/-- A statement has the number of its line. -/
theorem fst_of_statement? {l : NumberedLine} {s : Nat × Statement} (h : statement? l = some s) :
    s.1 = l.1 := by
  obtain ⟨line, result⟩ := l
  unfold statement? at h
  split at h
  · rename_i heq
    cases heq
    cases h
    rfl
  · cases h

/-- The lines of a source are numbered in their order. -/
theorem pairwise_sourceLines (source : String) :
    (sourceLines source).Pairwise fun l m => l.1 < m.1 := by
  rw [sourceLines, List.pairwise_map]
  exact List.pairwise_map.mp (by rw [List.zipIdx_map_snd]; exact List.pairwise_lt_range' 1)

/-! ## Reading line by line -/

section

variable (line : Nat) (rest : List NumberedLine)

@[simp]
theorem readLines_nil : readLines [] = [] :=
  rfl

@[simp]
theorem readLines_blank :
    readLines ((line, .ok .blank) :: rest) = (line, .ok .blank) :: readLines rest :=
  rfl

@[simp]
theorem readLines_org (addr : Word) :
    readLines ((line, .ok (.org addr)) :: rest) = (line, .ok (.org addr)) :: readLines rest :=
  rfl

@[simp]
theorem readLines_error (e : LineError) :
    readLines ((line, .error e) :: rest) = (line, .error e) :: readLines rest :=
  rfl

variable {statement : Statement}

/-- A statement that does not end the source. -/
theorem readLines_statement (hend : statement.isEnd = false) :
    readLines ((line, .ok (.statement statement)) :: rest) =
      (line, .ok (.statement statement)) :: readLines rest := by
  simp [readLines, isEnd, statement?, hend]

theorem statements_statement (hend : statement.isEnd = false) :
    statements ((line, .ok (.statement statement)) :: rest) =
      (line, statement) :: statements rest := by
  rw [statements, readLines_statement line rest hend]
  rfl

theorem body_statement (hend : statement.isEnd = false) :
    body ((line, .ok (.statement statement)) :: rest) = (line, statement) :: body rest := by
  rw [body, statements_statement line rest hend, List.filter_cons_of_pos (by simp [hend])]
  rfl

theorem labels_statement (hend : statement.isEnd = false) :
    labels ((line, .ok (.statement statement)) :: rest) =
      statement.label.toList ++ labels rest := by
  rw [labels, statements_statement line rest hend, List.filterMap_cons]
  cases statement.label <;> rfl

/-- The statement that ends the source. -/
theorem readLines_end (hend : statement.isEnd = true) :
    readLines ((line, .ok (.statement statement)) :: rest) =
      [(line, .ok (.statement statement))] := by
  simp [readLines, isEnd, statement?, hend]

theorem statements_end (hend : statement.isEnd = true) :
    statements ((line, .ok (.statement statement)) :: rest) = [(line, statement)] := by
  rw [statements, readLines_end line rest hend]
  rfl

theorem body_end (hend : statement.isEnd = true) :
    body ((line, .ok (.statement statement)) :: rest) = [] := by
  rw [body, statements_end line rest hend, List.filter_cons_of_neg (by simp [hend])]
  rfl

theorem labels_end (hend : statement.isEnd = true) :
    labels ((line, .ok (.statement statement)) :: rest) = statement.label.toList := by
  rw [labels, statements_end line rest hend, List.filterMap_cons]
  cases statement.label <;> rfl

end

end Source

end Marie
