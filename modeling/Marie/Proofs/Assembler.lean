/-
# The assembler is correct

Assembling a source succeeds exactly if the lines of the source make up a program, and gives that
program.

* `Cursor.Lays.get?_symbols`, `Cursor.Lays.get?_sourceMap` : the tables of a layout without
  problems;
* `Source.Describes.unique` : the description leaves no choice;
* `assembleLines_cases` : both passes over a list of lines;
* `assemble_correct` : the whole assembler.
-/
import Marie.Assembly
import Marie.Proofs.Admission
import Marie.Proofs.Tables
import Mathlib.Algebra.Group.Nat.Defs

namespace Marie

open Source

/-! ## Addresses of statements -/

namespace Source

variable {lines : List NumberedLine}

/-- Statements at the same address are the same. -/
theorem StandsAt.index_eq {i j : Nat} {addr : Word} (hi : StandsAt lines i addr)
    (hj : StandsAt lines j addr) : i = j := by
  have hsame := hi.1.symm.trans hj.1
  omega

/-- A statement has one address. -/
theorem StandsAt.addr_eq {i : Nat} {addr addr' : Word} (h : StandsAt lines i addr)
    (h' : StandsAt lines i addr') : addr = addr' :=
  UInt16.toNat_inj.mp (h.1.trans h'.1.symm)

/-- If the labels differ, a label belongs to one statement. -/
theorem index_eq_of_label (hdistinct : (labels lines).Nodup) {i j : Nat} {s t : Nat × Statement}
    {label : String} (hi : (statements lines)[i]? = some s) (hj : (statements lines)[j]? = some t)
    (hs : s.2.label = some label) (ht : t.2.label = some label) : i = j := by
  rw [labels, List.Nodup, List.pairwise_filterMap, List.pairwise_iff_getElem] at hdistinct
  obtain ⟨hilt, hi⟩ := List.getElem?_eq_some_iff.mp hi
  obtain ⟨hjlt, hj⟩ := List.getElem?_eq_some_iff.mp hj
  rcases Nat.lt_trichotomy i j with hlt | heq | hgt
  · have hne := hdistinct i j hilt hjlt hlt label (by rw [hi, hs]) label (by rw [hj, ht])
    exact absurd rfl hne
  · exact heq
  · have hne := hdistinct j i hjlt hilt hgt label (by rw [hj, ht]) label (by rw [hi, hs])
    exact absurd rfl hne

/-- If the labels differ, a label has one address. -/
theorem Defines.addr_eq (hdistinct : (labels lines).Nodup) {label : String} {addr addr' : Word}
    (h : Defines lines label addr) (h' : Defines lines label addr') : addr = addr' := by
  obtain ⟨i, s, hi, hs, hstands⟩ := h
  obtain ⟨j, t, hj, ht, hstands'⟩ := h'
  obtain rfl := index_eq_of_label hdistinct hi hj hs ht
  exact hstands.addr_eq hstands'

/-- Lines whose labels differ describe one program. -/
theorem Describes.unique (hdistinct : (labels lines).Nodup) {p q : Program}
    (hp : Describes lines p) (hq : Describes lines q) : p = q := by
  have hwords : p.words = q.words := by
    refine List.right_unique_forall₂' ?_ hp.words hq.words
    intro s w w' hw hw'
    exact hw.unique (fun _ _ _ h h' => h.addr_eq hdistinct h') hw'
  have hsymbols : p.symbols = q.symbols :=
    Table.ext_get? fun label addr => (hp.symbols label addr).trans (hq.symbols label addr).symm
  have hlines : p.sourceMap = q.sourceMap :=
    Table.ext_get? fun addr line => (hp.sourceMap addr line).trans (hq.sourceMap addr line).symm
  have horigin : p.origin = q.origin := hp.origin.trans hq.origin.symm
  cases p
  cases q
  simp only at horigin hwords hsymbols hlines
  rw [horigin, hwords, hsymbols, hlines]

end Source

namespace Cursor

/-- The address with a number is the number, and lies in memory. -/
theorem cellAt_eq_some_iff {n : Nat} {addr : Word} :
    cellAt n = some addr ↔ addr.toNat = n ∧ addr.toNat < memorySize := by
  unfold cellAt
  constructor
  · intro h
    split at h
    · rename_i hlt
      cases h
      have hvalue : (UInt16.ofNat n).toNat = n :=
        UInt16.toNat_ofNat_of_lt' (Nat.lt_trans hlt (by decide))
      exact ⟨hvalue, by rw [hvalue]; exact hlt⟩
    · cases h
  · rintro ⟨rfl, hlt⟩
    rw [if_pos hlt, UInt16.ofNat_toNat]

variable {lines : List NumberedLine} {ps : List (Nat × Placement)}

/-- The cursor at the beginning of a source knows no origin. -/
theorem originOf_start (lines : List NumberedLine) :
    ({} : Cursor).originOf lines = Source.origin lines :=
  rfl

/-- The entries of a layout are the statements with their addresses. -/
theorem Lays.mem_entries_iff (h : Lays {} lines ps) {line : Nat} {addr : Option Word}
    {statement : Statement} :
    (line, addr, statement) ∈ ps.filterMap addressed? ↔
      ∃ i, (Source.statements lines)[i]? = some (line, statement) ∧
        addr = cellAt ((Source.origin lines).toNat + i) := by
  rw [h.entries, originOf_start, List.mem_map]
  constructor
  · rintro ⟨⟨⟨line, statement⟩, n⟩, hmem, heq⟩
    cases heq
    obtain ⟨hle, hi⟩ := List.mk_mem_zipIdx_iff_le_and_getElem?_sub.mp hmem
    exact ⟨_, hi, congrArg cellAt (Nat.add_sub_cancel' hle).symm⟩
  · rintro ⟨i, hi, rfl⟩
    exact ⟨((line, statement), _), List.mk_add_mem_zipIdx_iff_getElem?.mpr hi, rfl⟩

/-- A layout defines the labels of its entries. -/
theorem symbol?_eq_bind (p : Nat × Placement) :
    p.2.symbol? = (addressed? p).bind fun e => e.2.1.bind fun a => e.2.2.label.map (·, a) := by
  obtain ⟨line, placement⟩ := p
  cases placement with
  | stop addr statement => cases addr <;> rfl
  | _ => rfl

/-- A layout gives a line the address of its entry. -/
theorem addr?_eq_bind (p : Nat × Placement) :
    p.2.addr?.map (·, p.1) = (addressed? p).bind fun e => e.2.1.map (·, e.1) := by
  obtain ⟨line, placement⟩ := p
  cases placement with
  | _ => rfl

/-- The labels of a layout are those that the source defines. -/
theorem Lays.mem_symbols_iff (h : Lays {} lines ps) {label : String} {addr : Word} :
    (label, addr) ∈ ps.filterMap (fun p => p.2.symbol?) ↔ Defines lines label addr := by
  simp only [symbol?_eq_bind]
  rw [← List.filterMap_filterMap, List.mem_filterMap]
  constructor
  · rintro ⟨⟨line, a, statement⟩, hentry, hsymbol⟩
    obtain ⟨i, hi, rfl⟩ := h.mem_entries_iff.mp hentry
    obtain ⟨a, ha, hlabel⟩ := Option.bind_eq_some_iff.mp hsymbol
    obtain ⟨own, hown, hpair⟩ := Option.map_eq_some_iff.mp hlabel
    cases hpair
    exact ⟨i, _, hi, hown, cellAt_eq_some_iff.mp ha⟩
  · rintro ⟨i, ⟨line, statement⟩, hi, hlabel, hstands⟩
    refine ⟨(line, some addr, statement), h.mem_entries_iff.mpr ⟨i, hi, ?_⟩, ?_⟩
    · exact (cellAt_eq_some_iff.mpr hstands).symm
    · show statement.label.map (·, addr) = some (label, addr)
      rw [show statement.label = some label from hlabel]
      rfl

/-- The addresses of a layout are those of the statements, with their lines. -/
theorem Lays.mem_sourceMap_iff (h : Lays {} lines ps) {addr : Word} {line : Nat} :
    (addr, line) ∈ ps.filterMap (fun p => p.2.addr?.map (·, p.1)) ↔
      ∃ i s, (Source.statements lines)[i]? = some s ∧ s.1 = line ∧ StandsAt lines i addr := by
  simp only [addr?_eq_bind]
  rw [← List.filterMap_filterMap, List.mem_filterMap]
  constructor
  · rintro ⟨⟨line, a, statement⟩, hentry, haddr⟩
    obtain ⟨i, hi, rfl⟩ := h.mem_entries_iff.mp hentry
    obtain ⟨a, ha, hpair⟩ := Option.map_eq_some_iff.mp haddr
    cases hpair
    exact ⟨i, _, hi, rfl, cellAt_eq_some_iff.mp ha⟩
  · rintro ⟨i, ⟨line, statement⟩, hi, rfl, hstands⟩
    refine ⟨(line, some addr, statement), h.mem_entries_iff.mpr ⟨i, hi, ?_⟩, rfl⟩
    exact (cellAt_eq_some_iff.mpr hstands).symm

/-- The symbol table has the labels of the source with their addresses, and no others. -/
theorem Lays.get?_symbols (h : Lays {} lines ps) (hdistinct : (Source.labels lines).Nodup)
    (label : String) (addr : Word) :
    (Layout.symbols ps).get? label = some addr ↔ Defines lines label addr := by
  rw [Layout.symbols, Table.get?_ofList, h.mem_symbols_iff]
  intro label a b ha hb
  exact (h.mem_symbols_iff.mp ha).addr_eq hdistinct (h.mem_symbols_iff.mp hb)

/-- The source map has the addresses of the statements with their lines, and no others. -/
theorem Lays.get?_sourceMap (h : Lays {} lines ps) (addr : Word) (line : Nat) :
    (Layout.sourceMap ps).get? addr = some line ↔
      ∃ i s, (Source.statements lines)[i]? = some s ∧ s.1 = line ∧ StandsAt lines i addr := by
  rw [Layout.sourceMap, Table.get?_ofList, h.mem_sourceMap_iff]
  intro addr a b ha hb
  obtain ⟨i, s, hi, rfl, hstands⟩ := h.mem_sourceMap_iff.mp ha
  obtain ⟨j, t, hj, rfl, hstands'⟩ := h.mem_sourceMap_iff.mp hb
  obtain rfl := hstands.index_eq hstands'
  rw [hi] at hj
  cases hj
  rfl

end Cursor

/-! ## The second pass -/

section

variable {ps : List (Nat × Placement)}

/-- The second pass reports nothing exactly if every statement has a word. -/
theorem encodingErrors_eq_nil_iff :
    encodingErrors ps = [] ↔
      ∀ s ∈ Layout.statements ps, ∃ w, s.2.encode (Layout.symbols ps) = .ok w := by
  rw [encodingErrors, encodings, List.filterMap_eq_nil_iff, List.forall_mem_map]
  constructor
  · intro h s hs
    have hnone := h s hs
    cases hencode : s.2.encode (Layout.symbols ps) with
    | ok w => exact ⟨w, rfl⟩
    | error problem => simp [hencode] at hnone
  · intro h s hs
    obtain ⟨w, hw⟩ := h s hs
    simp only [hw]

/-- If every statement has a word, the second pass makes these words in their order. -/
theorem forall₂_encodedWords
    (h : ∀ s ∈ Layout.statements ps, ∃ w, s.2.encode (Layout.symbols ps) = .ok w) :
    List.Forall₂ (fun s w => s.2.encode (Layout.symbols ps) = .ok w) (Layout.statements ps)
      (encodedWords ps) := by
  rw [encodedWords, encodings]
  generalize Layout.statements ps = statements at h
  induction statements with
  | nil => exact .nil
  | cons s rest ih =>
      obtain ⟨⟨w, hw⟩, hrest⟩ := List.forall_mem_cons.mp h
      simp only [List.map_cons, List.filterMap_cons, hw]
      exact .cons hw (ih hrest)

end

/-! ## Both passes -/

section

variable {lines : List NumberedLine}

/-- The first pass reports nothing exactly if the lines can be laid out. -/
theorem layout_errors_eq_nil_iff
    (horg : ∀ l ∈ lines, ∀ addr, org? l = some addr → addr.toNat < memorySize) :
    Layout.errors (layout lines) = [] ↔ ({} : Cursor).Admits lines := by
  rw [← Cursor.exists_lays_iff horg (by decide)]
  constructor
  · intro h
    exact ⟨_, Cursor.lays_of_errors rfl h⟩
  · rintro ⟨ps, h⟩
    obtain ⟨rfl, herrors⟩ := h.layoutFrom_eq
    exact herrors

/-- What the second pass makes of a layout without problems is what its statements stand for. -/
theorem encode_eq_ok_iff_encodes {ps : List (Nat × Placement)} (h : ({} : Cursor).Lays lines ps)
    (hdistinct : (Source.labels lines).Nodup) (statement : Statement) (w : Word) :
    statement.encode (Layout.symbols ps) = .ok w ↔ Encodes (Defines lines) statement w := by
  have hsymbols := h.get?_symbols hdistinct
  have hlabels : tableLabels (Layout.symbols ps) = Defines lines := by
    funext label addr
    exact propext (hsymbols label addr)
  rw [Statement.encode_eq_ok_iff, hlabels]
  intro label addr hget
  obtain ⟨i, s, -, -, hstands⟩ := (hsymbols label addr).mp hget
  exact hstands.2

/-- The lines make up a program exactly if they can be laid out and every statement stands for a
word. -/
theorem wellFormed_iff_admits :
    WellFormed lines ↔ ({} : Cursor).Admits lines ∧
      ∀ s ∈ body lines, ∃ w, Encodes (Defines lines) s.2 w := by
  constructor
  · rintro ⟨hparses, horder, hdistinct, hfits, hencodes⟩
    exact ⟨⟨hparses, horder, .inl ⟨rfl, rfl⟩, hdistinct, fun _ _ => rfl, hfits⟩, hencodes⟩
  · rintro ⟨⟨hparses, horder, -, hdistinct, -, hfits⟩, hencodes⟩
    exact ⟨hparses, horder, hdistinct, hfits, hencodes⟩

/-- The program of a layout without problems is the one that the lines make up. -/
theorem describes_ofLayout {ps : List (Nat × Placement)} (h : ({} : Cursor).Lays lines ps)
    (hwell : WellFormed lines) : Describes lines (.ofLayout ps) := by
  have hencode := encode_eq_ok_iff_encodes h hwell.distinct
  refine ⟨?_, ?_, h.get?_symbols hwell.distinct, h.get?_sourceMap⟩
  · show (ps.findSome? fun p => p.2.origin?).getD 0 = Source.origin lines
    rw [h.origin]
    rfl
  · have hwords : ∀ s ∈ Layout.statements ps, ∃ w, s.2.encode (Layout.symbols ps) = .ok w := by
      intro s hs
      rw [h.statements] at hs
      obtain ⟨w, hw⟩ := hwell.encodes s hs
      exact ⟨w, (hencode s.2 w).mpr hw⟩
    rw [← h.statements]
    exact (forall₂_encodedWords hwords).imp fun s w hw => (hencode s.2 w).mp hw

/-- Both passes report nothing exactly if the lines make up a program. -/
theorem errors_eq_nil_iff
    (horg : ∀ l ∈ lines, ∀ addr, org? l = some addr → addr.toNat < memorySize) :
    Layout.errors (layout lines) ++ encodingErrors (layout lines) = [] ↔ WellFormed lines := by
  rw [List.append_eq_nil_iff, layout_errors_eq_nil_iff horg, wellFormed_iff_admits]
  -- the second pass is right about the labels once the first one has met no problem
  apply and_congr_right
  intro hadmits
  have hlays : ({} : Cursor).Lays lines (layout lines) :=
    Cursor.lays_of_errors rfl ((layout_errors_eq_nil_iff horg).mpr hadmits)
  have hencode := encode_eq_ok_iff_encodes hlays hadmits.distinct
  rw [encodingErrors_eq_nil_iff, hlays.statements]
  simp only [hencode]

/-- Assembling lines succeeds with the program that they make up, or reports problems if they
make up none. -/
theorem assembleLines_cases
    (horg : ∀ l ∈ lines, ∀ addr, org? l = some addr → addr.toNat < memorySize) :
    (WellFormed lines ∧ ∃ program, assembleLines lines = .ok program ∧
        Describes lines program) ∨
      ¬ WellFormed lines ∧ ∃ errors, assembleLines lines = .error errors ∧ errors ≠ [] := by
  by_cases hwell : WellFormed lines
  · have hnone := (errors_eq_nil_iff horg).mpr hwell
    have hfirst := (List.append_eq_nil_iff.mp hnone).1
    refine .inl ⟨hwell, .ofLayout (layout lines), ?_,
      describes_ofLayout (Cursor.lays_of_errors rfl hfirst) hwell⟩
    rw [assembleLines, hnone]
    rfl
  · have hsome := mt (errors_eq_nil_iff horg).mp hwell
    refine .inr ⟨hwell, _, ?_, hsome⟩
    have hempty := List.isEmpty_eq_false_iff.mpr hsome
    simp only [assembleLines, hempty]
    rfl

end

/-! ## Sources -/

/-- A row of digits stands for a number with as many digits. -/
theorem Numeral.value_lt {radix : Radix} {text : List Char}
    (h : ∀ c ∈ text, isDigit radix c = true) :
    value radix.base text < radix.base ^ text.length := by
  induction text using List.reverseRecOn with
  | nil => simp [value]
  | append_singleton text c ih =>
      have hprefix := ih fun c' hc' => h c' (List.mem_append_left _ hc')
      obtain ⟨n, hn, hlt⟩ := isDigit_iff.mp (h c (by simp))
      rw [value_append_singleton, hn, List.length_append, List.length_singleton, Nat.pow_succ]
      simp only [Option.getD_some]
      calc value radix.base text * radix.base + n
          < value radix.base text * radix.base + radix.base := Nat.add_lt_add_left hlt _
        _ = (value radix.base text + 1) * radix.base := (Nat.succ_mul _ _).symm
        _ ≤ radix.base ^ text.length * radix.base := Nat.mul_le_mul_right _ hprefix

/-- An origin directive gives an address in memory, since it gives it in three hexadecimal
digits. -/
theorem Line.orgAddress?_lt {ps : List Piece} {addr : Word} (h : orgAddress? ps = some addr) :
    addr.toNat < memorySize := by
  unfold orgAddress? at h
  split at h
  · rename_i keyword digits
    split at h
    · rename_i hform
      simp only [Bool.and_eq_true, beq_iff_eq, List.all_eq_true] at hform
      obtain ⟨⟨-, hlength⟩, hdigits⟩ := hform
      have hlt : Numeral.value 16 digits < 16 ^ digits.length := Numeral.value_lt hdigits
      rw [hlength] at hlt
      cases h
      rw [UInt16.toNat_ofNat_of_lt' (Nat.lt_trans hlt (by decide))]
      exact hlt
    · cases h
  · cases h

/-- A line of source gives an origin in memory. -/
theorem Line.parse_org_lt {text : List Char} {addr : Word}
    (h : Line.parse text = .ok (.org addr)) : addr.toNat < memorySize := by
  have hparts : ∀ label ps, ofParts label ps ≠ .ok (.org addr) := by
    intro label ps hparts
    unfold ofParts at hparts
    split at hparts
    · cases hparts
    · split at hparts <;> cases hparts
  simp only [parse, ofLexemes] at h
  split at h
  · cases h
  · split at h
    · rename_i addr' horg
      cases h
      exact orgAddress?_lt horg
    · split at h
      · exact absurd h (hparts _ _)
      · split at h
        · cases h
        · exact absurd h (hparts _ _)

/-- The assembler is correct. It succeeds exactly if the lines of the source make up a program,
and gives this program; otherwise it reports at least one problem. -/
theorem assemble_correct (source : String) :
    (WellFormed (sourceLines source) ∧ ∃ program, assemble source = .ok program ∧
        Describes (sourceLines source) program) ∨
      ¬ WellFormed (sourceLines source) ∧
        ∃ errors, assemble source = .error errors ∧ errors ≠ [] := by
  apply assembleLines_cases
  intro l hl addr haddr
  obtain ⟨⟨result, n⟩, hresult, rfl⟩ := List.mem_map.mp hl
  have hparsed : result = .ok (.org addr) := by
    cases result with
    | error e => cases haddr
    | ok line =>
        cases line with
        | org own =>
            cases haddr
            rfl
        | blank => cases haddr
        | statement s => cases haddr
  have hmem := List.fst_mem_of_mem_zipIdx hresult
  obtain ⟨text, -, htext⟩ := List.mem_map.mp hmem
  exact Line.parse_org_lt (htext.trans hparsed)

end Marie
