/-
# Labels and lines of assembled programs

The tables of an assembled program can be read both ways. No two labels have one address and no
two addresses one line, since a statement has one address and one line and at most one label, and
different statements differ in all of these.

* `Table.firstKey?_eq_some_iff` : looking for a value finds its key, if it has only one;
* `Source.statements_eq` : the statements that become words, and the one that ends the source;
* `assembled_queries` : what the queries of an assembled program answer.
-/
import Marie.Breakpoint
import Marie.Proofs.Loading

namespace Marie

/-! ## Keys of a value -/

/-- Looking for a value finds its key, if it has only one. -/
theorem Table.firstKey?_eq_some_iff {κ α : Type} [Ord κ] [Std.LawfulEqOrd κ] [Std.OrientedOrd κ]
    [BEq α] [LawfulBEq α] {table : Table κ α} {v : α}
    (hunique : ∀ key key', table.get? key = some v → table.get? key' = some v → key = key')
    {key : κ} : table.firstKey? (· == v) = some key ↔ table.get? key = some v := by
  have hsound {found : κ × α} (hfound : table.entries.find? (fun e => e.2 == v) = some found) :
      table.get? found.1 = some v := by
    have hvalue : found.2 = v := by simpa using List.find?_some hfound
    rw [get?_eq_some_iff, ← hvalue]
    exact List.mem_of_find?_eq_some hfound
  constructor
  · intro h
    obtain ⟨found, hfound, rfl⟩ := Option.map_eq_some_iff.mp h
    exact hsound hfound
  · intro h
    cases hfound : table.entries.find? (fun e => e.2 == v) with
    | none =>
        have hno := List.find?_eq_none.mp hfound (key, v) (get?_eq_some_iff.mp h)
        simp at hno
    | some found =>
        rw [firstKey?, hfound, hunique key found.1 h (hsound hfound)]
        rfl

/-! ## Statements and their lines -/

namespace Source

variable {lines : List NumberedLine}

/-- The statement that ends the source, with its line. -/
def ending? (lines : List NumberedLine) : Option (Nat × Statement) :=
  (lines.find? isEnd).bind statement?

/-- The statements that are read are those that become words, and behind them the one that ends
the source. -/
theorem statements_eq (lines : List NumberedLine) :
    statements lines = body lines ++ (ending? lines).toList := by
  induction lines with
  | nil => rfl
  | cons l rest ih =>
      obtain ⟨line, result⟩ := l
      cases result with
      | error e => exact ih
      | ok said =>
          cases said with
          | blank => exact ih
          | org addr => exact ih
          | statement statement =>
              cases hend : statement.isEnd with
              | true =>
                  have hfirst : ending? ((line, .ok (.statement statement)) :: rest) =
                      some (line, statement) := by
                    simp [ending?, isEnd, statement?, hend]
                  rw [statements_end _ _ hend, body_end _ _ hend, hfirst]
                  rfl
              | false =>
                  have hlater : ending? ((line, .ok (.statement statement)) :: rest) =
                      ending? rest := by
                    simp [ending?, isEnd, statement?, hend]
                  rw [statements_statement _ _ hend, body_statement _ _ hend, hlater, ih]
                  rfl

/-- Behind the statements that become words there is only the one that ends the source. -/
theorem getElem?_statements_iff {i : Nat} {s : Nat × Statement} (hi : (body lines).length ≤ i) :
    (statements lines)[i]? = some s ↔ i = (body lines).length ∧ ending? lines = some s := by
  rw [statements_eq, List.getElem?_append_right hi]
  cases ending? lines with
  | none => simp
  | some last =>
      constructor
      · intro h
        obtain ⟨hlt, rfl⟩ := List.getElem?_eq_some_iff.mp h
        simp only [Option.toList_some, List.length_singleton] at hlt
        exact ⟨by omega, by simp⟩
      · rintro ⟨rfl, hlast⟩
        rw [Nat.sub_self, ← hlast]
        rfl

/-- The lines that are read stand in the source in the same order. -/
theorem readLines_sublist (lines : List NumberedLine) : (readLines lines).Sublist lines := by
  induction lines with
  | nil => exact .slnil
  | cons l rest ih =>
      rw [readLines]
      split
      · exact (List.nil_sublist rest).cons_cons l
      · exact ih.cons_cons l

/-- Where the numbers of the lines ascend, those of the statements do. -/
theorem pairwise_statements (hlines : lines.Pairwise fun l m => l.1 < m.1) :
    (statements lines).Pairwise fun s t => s.1 < t.1 := by
  rw [statements, List.pairwise_filterMap]
  apply (hlines.sublist (readLines_sublist lines)).imp
  intro l m hlt s hs t ht
  rw [fst_of_statement? hs, fst_of_statement? ht]
  exact hlt

/-- In ascending lines a later statement stands on a later line. -/
theorem line_lt_of_index_lt (hlines : lines.Pairwise fun l m => l.1 < m.1) {i j : Nat}
    {s t : Nat × Statement} (hi : (statements lines)[i]? = some s)
    (hj : (statements lines)[j]? = some t) (hlt : i < j) : s.1 < t.1 := by
  obtain ⟨hi', rfl⟩ := List.getElem?_eq_some_iff.mp hi
  obtain ⟨hj', rfl⟩ := List.getElem?_eq_some_iff.mp hj
  exact List.pairwise_iff_getElem.mp (pairwise_statements hlines) i j hi' hj' hlt

end Source

/-! ## Queries -/

/-- The queries of a program by label and by address are inverse to each other, and so are those
by address and by line. -/
structure Program.ReadsBothWays (program : Program) : Prop where
  labels : ∀ label addr,
    program.lookupLabel label = some addr ↔ program.labelAt addr = some label
  lines : ∀ addr line,
    program.sourceLine addr = some line ↔ program.lookupLine line = some addr
  breakpoints : ∀ addr line,
    program.lookupLine line = some addr ↔ Breakpoint.line program line = some (.pc addr)
  /-- Higher addresses have later lines. -/
  ascending : ∀ addr addr' line line', program.sourceLine addr = some line →
    program.sourceLine addr' = some line' → addr < addr' → line < line'

/-- An address that is not that of a word of the program. -/
def Program.Outside (program : Program) (addr : Word) : Prop :=
  addr.toNat < program.origin.toNat ∨ program.stop ≤ addr.toNat

namespace Source

/-- The tables of the program cover its words. Besides them they know at most the address after
the last word, and that only if it is an address of memory and the source has a statement that
ends it: its line is then that of the statement, and its label that of the statement, if there is
one. -/
structure Covers (lines : List NumberedLine) (program : Program) : Prop where
  words : ∀ addr : Word, program.origin ≤ addr → addr.toNat < program.stop →
    ∃ line, program.sourceLine addr = some line
  outsideLines : ∀ addr, program.Outside addr → ∀ line, program.sourceLine addr = some line ↔
    addr.toNat = program.stop ∧ program.stop < 4096 ∧
      ∃ statement, ending? lines = some (line, statement)
  outsideLabels : ∀ addr, program.Outside addr → ∀ label,
    program.lookupLabel label = some addr ↔
      addr.toNat = program.stop ∧ program.stop < 4096 ∧
        ∃ line statement, ending? lines = some (line, statement) ∧ statement.label = some label

variable {lines : List NumberedLine} {program : Program}

/-- The program that a source makes up ends after as many words as it has statements. -/
theorem Describes.stop_eq (h : Describes lines program) :
    program.stop = (Source.origin lines).toNat + (body lines).length := by
  rw [Program.stop, Program.size, ← h.words.length_eq, h.origin]

/-- Of the statements that become no words at most the one that ends the source has an address,
which is the one after the last word. -/
theorem Describes.standsAt_outside_iff (h : Describes lines program) {i : Nat}
    {s : Nat × Statement} {addr : Word} (hout : program.Outside addr) :
    (statements lines)[i]? = some s ∧ StandsAt lines i addr ↔
      i = (body lines).length ∧ ending? lines = some s ∧ addr.toNat = program.stop ∧
        program.stop < 4096 := by
  have hstop := h.stop_eq
  constructor
  · rintro ⟨hi, haddr, hlt⟩
    have hbehind : (body lines).length ≤ i := by
      unfold Program.Outside at hout
      rw [h.origin] at hout
      omega
    obtain ⟨rfl, hend⟩ := (getElem?_statements_iff hbehind).mp hi
    have hlast : addr.toNat = program.stop := haddr.trans hstop.symm
    refine ⟨rfl, hend, hlast, ?_⟩
    rw [← hlast]
    exact hlt
  · rintro ⟨rfl, hend, haddr, hlt⟩
    refine ⟨(getElem?_statements_iff (Nat.le_refl _)).mpr ⟨rfl, hend⟩, haddr.trans hstop, ?_⟩
    rw [haddr]
    exact hlt

/-- The program that lines make up can be read both ways, if the lines are numbered in their
order. -/
theorem Describes.readsBothWays (h : Describes lines program)
    (hlines : lines.Pairwise fun l m => l.1 < m.1) : program.ReadsBothWays := by
  have hascending : ∀ addr addr' line line', program.sourceLine addr = some line →
      program.sourceLine addr' = some line' → addr < addr' → line < line' := by
    intro addr addr' line line' hline hline' hlt
    obtain ⟨i, s, hi, rfl, hstands⟩ := (h.sourceMap addr line).mp hline
    obtain ⟨j, t, hj, rfl, hstands'⟩ := (h.sourceMap addr' line').mp hline'
    have hlt : addr.toNat < addr'.toNat := hlt
    have haddr := hstands.1
    have haddr' := hstands'.1
    exact line_lt_of_index_lt hlines hi hj (by omega)
  -- statements at one address are the same, so they have the same label
  have hlabel {addr : Word} : ∀ label label', program.lookupLabel label = some addr →
      program.lookupLabel label' = some addr → label = label' := by
    intro label label' hl hl'
    obtain ⟨i, s, hi, hs, hstands⟩ := (h.symbols label addr).mp hl
    obtain ⟨j, t, hj, ht, hstands'⟩ := (h.symbols label' addr).mp hl'
    obtain rfl := hstands.index_eq hstands'
    rw [hi] at hj
    cases hj
    exact Option.some_inj.mp (hs.symm.trans ht)
  have hline {line : Nat} : ∀ addr addr', program.sourceLine addr = some line →
      program.sourceLine addr' = some line → addr = addr' := by
    intro addr addr' hl hl'
    rcases Nat.lt_trichotomy addr.toNat addr'.toNat with hlt | heq | hgt
    · exact absurd (hascending _ _ _ _ hl hl' hlt) (Nat.lt_irrefl _)
    · exact UInt16.toNat_inj.mp heq
    · exact absurd (hascending _ _ _ _ hl' hl hgt) (Nat.lt_irrefl _)
  refine ⟨?_, ?_, ?_, hascending⟩
  · intro label addr
    exact (Table.firstKey?_eq_some_iff hlabel).symm
  · intro addr line
    exact (Table.firstKey?_eq_some_iff hline).symm
  · intro addr line
    rw [Breakpoint.line, Option.map_eq_some_iff]
    constructor
    · exact fun hl => ⟨addr, hl, rfl⟩
    · rintro ⟨own, hl, heq⟩
      cases heq
      exact hl

/-- The tables of the program that lines make up cover its words, and at most the end of the
source besides. -/
theorem Describes.covers (h : Describes lines program) (hwell : WellFormed lines) :
    Covers lines program := by
  have hstop := h.stop_eq
  refine ⟨?_, ?_, ?_⟩
  · intro addr horigin hlt
    have horigin : program.origin.toNat ≤ addr.toNat := horigin
    have hfits := hwell.fits
    rw [h.origin] at horigin
    have hi : addr.toNat - (Source.origin lines).toNat < (body lines).length := by omega
    obtain ⟨s, hs⟩ :
        ∃ s, (statements lines)[addr.toNat - (Source.origin lines).toNat]? = some s := by
      rw [statements_eq, List.getElem?_append_left hi]
      exact ⟨_, List.getElem?_eq_getElem hi⟩
    refine ⟨s.1, (h.sourceMap addr s.1).mpr ⟨_, s, hs, rfl, ?_, ?_⟩⟩
    · omega
    · omega
  · intro addr hout line
    rw [h.sourceMap]
    constructor
    · rintro ⟨i, s, hi, rfl, hstands⟩
      obtain ⟨-, hend, haddr, hlt⟩ := (h.standsAt_outside_iff hout).mp ⟨hi, hstands⟩
      exact ⟨haddr, hlt, s.2, hend⟩
    · rintro ⟨haddr, hlt, statement, hend⟩
      obtain ⟨hi, hstands⟩ := (h.standsAt_outside_iff hout).mpr ⟨rfl, hend, haddr, hlt⟩
      exact ⟨_, _, hi, rfl, hstands⟩
  · intro addr hout label
    rw [h.symbols]
    constructor
    · rintro ⟨i, s, hi, hlabel, hstands⟩
      obtain ⟨-, hend, haddr, hlt⟩ := (h.standsAt_outside_iff hout).mp ⟨hi, hstands⟩
      exact ⟨haddr, hlt, s.1, s.2, hend, hlabel⟩
    · rintro ⟨haddr, hlt, line, statement, hend, hlabel⟩
      obtain ⟨hi, hstands⟩ := (h.standsAt_outside_iff hout).mpr ⟨rfl, hend, haddr, hlt⟩
      exact ⟨_, _, hi, hlabel, hstands⟩

end Source

/-- The program of a source can be read both ways, and its tables cover its words and at most the
end of the source besides. -/
theorem assembled_queries {source : String} {program : Program}
    (h : assemble source = .ok program) :
    program.ReadsBothWays ∧ Source.Covers (sourceLines source) program := by
  rcases assembleLines_cases Source.sourceLines_org_lt with
    ⟨hwell, own, hown, hdescribes⟩ | ⟨-, errors, herrors, -⟩
  · rw [assemble, hown] at h
    cases h
    exact ⟨hdescribes.readsBothWays (Source.pairwise_sourceLines source),
      hdescribes.covers hwell⟩
  · rw [assemble, herrors] at h
    cases h

/-- A program whose source ends with a label, and goes on behind its end. -/
theorem assembled_queries_labelled_end :
    let source := "Org 100\n\nLoop, Load X / again\nJump Loop\nX, Dec -1\nLast, End\nMore, End"
    let program : Program :=
      { origin := 0x100, words := [0x1102, 0x9100, 0xFFFF]
        symbols := .ofList [("Loop", 0x100), ("X", 0x102), ("Last", 0x103)]
        sourceMap := .ofList [(0x100, 3), (0x101, 4), (0x102, 5), (0x103, 6)] }
    assemble source = .ok program ∧ program.stop = 0x103 ∧
      program.ReadsBothWays ∧ Source.Covers (sourceLines source) program := by
  intro source program
  have hlines : sourceLines source =
      [(1, .ok (.org 0x100)), (2, .ok .blank),
        (3, .ok (.statement ⟨some "Loop", "load", some "X"⟩)),
        (4, .ok (.statement ⟨none, "jump", some "Loop"⟩)),
        (5, .ok (.statement ⟨some "X", "dec", some "-1"⟩)),
        (6, .ok (.statement ⟨some "Last", "end", none⟩)),
        (7, .ok (.statement ⟨some "More", "end", none⟩))] := by decide +kernel
  have h : assemble source = .ok program := by
    rw [assemble, hlines]
    rfl
  exact ⟨h, rfl, assembled_queries h⟩

end Marie
