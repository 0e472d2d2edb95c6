/-
# Numbers that are entered

A number comes into the machine as a literal of a source, as a value in one of the forms for
people, or as a value that is typed for a register or a cell of memory. Each of these readers has
its own limits and its own way with blank characters and marks of the base, and yet they take the
same texts for the same words.

* `Text.Strips` : a text without the blank characters around it, which is what `Text.trim` leaves;
* `TypedNumeral`, `TypesWord` : what a user may type for a number, and `typedWord?_eq_some_iff`, by
  which this is what is read;
* `Enters` : a text is a literal of a word, which is what each reader looks for;
* `entries_agree` : assembling, reading and setting agree on all texts of one word.
-/
import Marie.Proofs.LineGrammar
import Marie.Simulator.Poke
import Marie.WordFormat
import Mathlib.Tactic.TFAE

namespace Marie

/-! ## Blank characters around a text -/

namespace Text

/-- The second text is the first one without the blank characters at its two ends. -/
inductive Strips : List Char → List Char → Prop
  | intro {left core right : List Char} (hleft : ∀ c ∈ left, isBlank c = true)
      (hright : ∀ c ∈ right, isBlank c = true)
      (hfirst : ∀ c, core.head? = some c → isBlank c = false)
      (hlast : ∀ c, core.getLast? = some c → isBlank c = false) :
      Strips (left ++ (core ++ right)) core

theorem trimLeft_append {left : List Char} (hleft : ∀ c ∈ left, isBlank c = true)
    (text : List Char) : trimLeft (left ++ text) = trimLeft text :=
  List.dropWhile_append_of_pos hleft

/-- A text that begins with no blank character stays as it is. -/
theorem trimLeft_eq_self {text : List Char}
    (hfirst : ∀ c, text.head? = some c → isBlank c = false) : trimLeft text = text := by
  cases text with
  | nil => rfl
  | cons c text => exact List.dropWhile_cons_of_neg (by simp [hfirst c rfl])

theorem isBlank_of_head?_trimLeft {text : List Char} {c : Char}
    (h : (trimLeft text).head? = some c) : isBlank c = false := by
  have hhead := List.head?_dropWhile_not isBlank text
  rw [trimLeft] at h
  simpa [h] using hhead

/-- The blank characters at the front, and the rest. -/
theorem exists_trimLeft (text : List Char) :
    ∃ left, (∀ c ∈ left, isBlank c = true) ∧ text = left ++ trimLeft text :=
  ⟨text.takeWhile isBlank, fun _ hc => List.mem_takeWhile_imp hc,
    List.takeWhile_append_dropWhile.symm⟩

/-- What is left of a text between blank characters is what `trim` leaves. -/
theorem strips_iff {text core : List Char} : Strips text core ↔ trim text = core := by
  constructor
  · rintro ⟨hleft, hright, hfirst, hlast⟩
    rename_i left right
    rw [trim, trimLeft_append hleft]
    cases core with
    | nil =>
        have hnil : trimLeft right = [] := List.dropWhile_eq_nil_iff.mpr hright
        rw [List.nil_append, hnil]
        rfl
    | cons c core =>
        have hfront : trimLeft (c :: core ++ right) = c :: core ++ right :=
          trimLeft_eq_self fun d hd => hfirst d hd
        rw [hfront, List.reverse_append,
          trimLeft_append fun d hd => hright d (List.mem_reverse.mp hd),
          trimLeft_eq_self fun d hd => hlast d (by rwa [List.head?_reverse] at hd),
          List.reverse_reverse]
  · rintro rfl
    obtain ⟨left, hleft, htext⟩ := exists_trimLeft text
    obtain ⟨right, hright, hrest⟩ := exists_trimLeft (trimLeft text).reverse
    have hcore : trimLeft text = trim text ++ right.reverse := by
      rw [trim, ← List.reverse_append, ← hrest, List.reverse_reverse]
    have hstrips : Strips (left ++ (trim text ++ right.reverse)) (trim text) := by
      refine .intro hleft (fun c hc => hright c (List.mem_reverse.mp hc)) ?_ ?_
      · intro c hc
        have hfront : (trimLeft text).head? = some c := by
          rw [hcore, List.head?_append, hc, Option.some_or]
        exact isBlank_of_head?_trimLeft hfront
      · intro c hc
        rw [trim, List.getLast?_reverse] at hc
        exact isBlank_of_head?_trimLeft hc
    rwa [← hcore, ← htext] at hstrips

/-- A text without blank characters stays as it is. -/
theorem trim_eq_self {text : List Char} (hsolid : ∀ c ∈ text, isBlank c = false) :
    trim text = text := by
  have hstrips : Strips ([] ++ (text ++ [])) text :=
    .intro (by simp) (by simp) (fun c hc => hsolid c (List.mem_of_mem_head? hc))
      fun c hc => hsolid c (List.mem_of_getLast? hc)
  rw [← strips_iff]
  simpa using hstrips

end Text

/-! ## Literals of words -/

/-- A text is a literal of a word: of a number that the form of the literal allows. -/
def Enters (form : DataForm) (text : List Char) (w : Word) : Prop :=
  ∃ n, Literal form text n ∧ form.Allows n ∧ w = Word.ofInt n

/-- The text begins with the mark of base 16. -/
def Marked (text : List Char) : Prop :=
  ∃ mark digits, (mark = 'x' ∨ mark = 'X') ∧ text = '0' :: mark :: digits

/-- What a user may type for a number: a literal in base 10, or one in base 16 behind the mark of
that base. -/
inductive TypedNumeral : List Char → Int → Prop
  | decimal {text : List Char} {n : Int} (h : Literal .dec text n) : TypedNumeral text n
  | hexadecimal {mark : Char} {digits : List Char} {n : Int} (hmark : mark = 'x' ∨ mark = 'X')
      (h : Literal .hex digits n) : TypedNumeral ('0' :: mark :: digits) n

/-- A literal in base 10 has no mark of a base. -/
theorem Literal.not_marked {text : List Char} {n : Int} (h : Literal .dec text n) :
    ¬ Marked text := by
  rintro ⟨mark, digits, hmark, rfl⟩
  have hletter : Numeral.isDigit DataForm.dec.radix mark = false := by
    rcases hmark with rfl | rfl <;> decide
  cases h with
  | digits _ hdigits =>
      rw [hdigits mark (by simp)] at hletter
      cases hletter

/-- Behind a mark only the digits of base 16 are a number. -/
theorem typedNumeral_of_marked {mark : Char} (hmark : mark = 'x' ∨ mark = 'X')
    {digits : List Char} {n : Int} :
    TypedNumeral ('0' :: mark :: digits) n ↔ Literal .hex digits n := by
  constructor
  · intro h
    cases h with
    | decimal h => exact absurd ⟨mark, digits, hmark, rfl⟩ h.not_marked
    | hexadecimal _ h => exact h
  · exact .hexadecimal hmark

/-- Without a mark a number is in base 10. -/
theorem typedNumeral_of_not_marked {text : List Char} (hmarked : ¬ Marked text) {n : Int} :
    TypedNumeral text n ↔ Literal .dec text n := by
  constructor
  · intro h
    cases h with
    | decimal h => exact h
    | hexadecimal hmark _ => exact absurd ⟨_, _, hmark, rfl⟩ hmarked
  · exact .decimal

/-- A text with the mark of a base is cut behind it. -/
theorem splitBase_of_marked {mark : Char} (hmark : mark = 'x' ∨ mark = 'X') (digits : List Char) :
    splitBase ('0' :: mark :: digits) = (.hexadecimal, digits) := by
  rcases hmark with rfl | rfl <;> rfl

/-- A text without a mark is in base 10. -/
theorem splitBase_of_not_marked {text : List Char} (h : ¬ Marked text) :
    splitBase text = (.decimal, text) := by
  unfold splitBase
  split
  · exact absurd ⟨_, _, .inl rfl, rfl⟩ h
  · exact absurd ⟨_, _, .inr rfl, rfl⟩ h
  · rfl

/-- The word of a numeral, if its number is in the range from the least one to 65535. -/
def Word.read? (radix : Radix) (least : Int) (text : List Char) : Option Word :=
  match Numeral.parse radix text with
  | .ok n => Word.ofRange? least n
  | .error _ => none

/-- A numeral is read as a word exactly if it is a literal of a number in the range. -/
theorem Word.read?_eq_some_iff (form : DataForm) {least : Int} (hleast : Word.minSigned ≤ least)
    {text : List Char} {w : Word} :
    Word.read? form.radix least text = some w ↔
      ∃ n, Literal form text n ∧ (least ≤ n ∧ n ≤ 0xFFFF) ∧ w = Word.ofInt n := by
  have hminSigned : Word.minSigned = -0x8000 := rfl
  constructor
  · intro h
    cases hparse : Numeral.parse form.radix text with
    | error e => simp [read?, hparse] at h
    | ok n =>
        simp only [read?, hparse, Word.ofRange?, Option.ite_none_right_eq_some,
          Option.some.injEq] at h
        exact ⟨n, (parse_eq_ok_iff_literal.mp hparse).1, h.1, h.2.symm⟩
  · rintro ⟨n, hliteral, hrange, rfl⟩
    have hparse := parse_eq_ok_iff_literal.mpr ⟨hliteral, by omega⟩
    simp only [read?, hparse, Word.ofRange?, if_pos hrange]

/-- In the range of a data directive these are the words of its literals. -/
theorem Word.read?_least_eq_some_iff (form : DataForm) {text : List Char} {w : Word} :
    Word.read? form.radix form.least text = some w ↔ Enters form text w := by
  have hleast : Word.minSigned ≤ form.least := by cases form <;> decide
  have hallows : ∀ n, form.Allows n ↔ form.least ≤ n ∧ n ≤ 0xFFFF := by
    cases form <;> exact fun n => Iff.rfl
  simp only [Word.read?_eq_some_iff form hleast, Enters, hallows]

/-- What a user types is cut at its ends and at the mark of its base, and then read. -/
theorem typedWord?_eq_read? (text : List Char) :
    typedWord? text =
      Word.read? (splitBase (Text.trim text)).1 Word.minSigned (splitBase (Text.trim text)).2 :=
  rfl

/-- What is typed, cut at the mark of its base, is read as a word exactly if it is a numeral for
one. -/
theorem read?_splitBase_eq_some_iff {core : List Char} {w : Word} :
    Word.read? (splitBase core).1 Word.minSigned (splitBase core).2 = some w ↔
      ∃ n, TypedNumeral core n ∧ (-32768 ≤ n ∧ n ≤ 65535) ∧ w = Word.ofInt n := by
  by_cases hmarked : Marked core
  · obtain ⟨mark, digits, hmark, rfl⟩ := hmarked
    rw [splitBase_of_marked hmark]
    simp only [typedNumeral_of_marked hmark]
    exact Word.read?_eq_some_iff .hex (Int.le_refl _)
  · rw [splitBase_of_not_marked hmarked]
    simp only [typedNumeral_of_not_marked hmarked]
    exact Word.read?_eq_some_iff .dec (Int.le_refl _)

/-- A text is a number that a user may type for a word, with blank characters around it. -/
def TypesWord (text : List Char) (n : Int) : Prop :=
  ∃ core, Text.Strips text core ∧ TypedNumeral core n ∧ -32768 ≤ n ∧ n ≤ 65535

/-- The words that a user may type are those of the numbers from -32768 to 65535. -/
theorem typedWord?_eq_some_iff {text : List Char} {w : Word} :
    typedWord? text = some w ↔ ∃ n, TypesWord text n ∧ w = Word.ofInt n := by
  rw [typedWord?_eq_read?, read?_splitBase_eq_some_iff]
  constructor
  · rintro ⟨n, htyped, hrange, hw⟩
    exact ⟨n, ⟨Text.trim text, Text.strips_iff.mpr rfl, htyped, hrange⟩, hw⟩
  · rintro ⟨n, ⟨core, hstrips, htyped, hrange⟩, hw⟩
    exact ⟨n, Text.strips_iff.mp hstrips ▸ htyped, hrange, hw⟩

/-! ## Texts of one word -/

section

variable {text : List Char} {w : Word}

/-- The forms of words for people that data directives know as well. -/
def DataForm.wordFormat : DataForm → WordFormat
  | .oct => .oct
  | .dec => .dec
  | .hex => .hex

/-- A text without blank characters is read in the form of a data directive as its literals. -/
theorem wordFormat_parse?_eq_some_iff (form : DataForm) {text : String}
    (hsolid : ∀ c ∈ text.toList, Text.isBlank c = false) :
    form.wordFormat.parse? text = some w ↔ Enters form text.toList w := by
  have hparse : form.wordFormat.parse? text =
      Word.read? form.radix form.least (Text.dense text.toList) := by
    cases form <;> rfl
  rw [hparse, Text.dense_eq_self hsolid, Word.read?_least_eq_some_iff]

/-- What is typed without blank characters is a numeral as it stands. -/
theorem typedWord?_of_solid (hsolid : ∀ c ∈ text, Text.isBlank c = false) :
    typedWord? text = some w ↔
      ∃ n, TypedNumeral text n ∧ (-32768 ≤ n ∧ n ≤ 65535) ∧ w = Word.ofInt n := by
  rw [typedWord?_eq_read?, Text.trim_eq_self hsolid, read?_splitBase_eq_some_iff]

/-- What is typed without a mark is read as a literal in base 10. -/
theorem typedWord?_of_not_marked (hsolid : ∀ c ∈ text, Text.isBlank c = false)
    (hmarked : ¬ Marked text) : typedWord? text = some w ↔ Enters .dec text w := by
  rw [typedWord?_of_solid hsolid]
  simp only [typedNumeral_of_not_marked hmarked]
  exact Iff.rfl

/-- Only literals in base 10 are negative. -/
theorem Literal.nonneg {n : Int} {form : DataForm} (hform : form ≠ .dec) (h : Literal form text n) :
    0 ≤ n := by
  cases h with
  | digits _ _ => exact Int.natCast_nonneg _
  | negative hdec => exact absurd hdec hform

/-- What is typed behind a mark is read as a literal in base 16. -/
theorem typedWord?_of_marked (hsolid : ∀ c ∈ text, Text.isBlank c = false) {mark : Char}
    (hmark : mark = 'x' ∨ mark = 'X') :
    typedWord? ('0' :: mark :: text) = some w ↔ Enters .hex text w := by
  have hmarkSolid : Text.isBlank mark = false := by
    rcases hmark with rfl | rfl <;> decide
  have hall : ∀ c ∈ '0' :: mark :: text, Text.isBlank c = false := by
    simp only [List.forall_mem_cons]
    exact ⟨by decide, hmarkSolid, hsolid⟩
  rw [typedWord?_of_solid hall]
  simp only [typedNumeral_of_marked hmark]
  -- the negative numbers of the range have no literal in base 16
  refine exists_congr fun n => and_congr_right fun hliteral => and_congr_left' ?_
  have hnonneg := hliteral.nonneg (by decide)
  simp only [DataForm.Allows]
  omega

end

/-! ## Sources of one word -/

/-- The source becomes a program of one word. -/
def Assembles (source : String) (w : Word) : Prop :=
  ∃ program, assemble source = .ok program ∧ program.words = [w]

/-- The keyword of a data directive. -/
def DataForm.keyword : DataForm → String
  | .oct => "OCT"
  | .dec => "DEC"
  | .hex => "HEX"

/-- A text without line ends is one line. -/
theorem Text.lines_of_not_mem {text : List Char} (hne : text ≠ []) (hline : '\n' ∉ text) :
    lines text = [text] := by
  cases text with
  | nil => exact absurd rfl hne
  | cons c cs =>
      have hall : ∀ d ∈ c :: cs, decide (d ≠ '\n') = true :=
        fun d hd => decide_eq_true fun h => hline (h ▸ hd)
      rw [lines]
      split
      · rw [List.takeWhile_eq_self_iff.mpr hall]
      · rename_i hrest
        rw [List.dropWhile_eq_nil_iff.mpr hall] at hrest
        cases hrest

/-- A single data directive without a label is assembled to its word. -/
theorem assembleLines_directive {line : Nat} {statement : Statement} {form : DataForm}
    (hoperator : Operator.ofName? statement.operator = some (.data form))
    (hlabel : statement.label = none) (hend : statement.isEnd = false) {w : Word} :
    (∃ program, assembleLines [(line, .ok (.statement statement))] = .ok program ∧
      program.words = [w]) ↔ encodeLiteral form statement.operand = .ok w := by
  have hnew : ({} : Cursor).duplicate? statement = none := by
    rw [Cursor.duplicate?, hlabel]
    rfl
  have hlayout : layout [(line, .ok (.statement statement))] = [(line, .placed 0 statement)] := by
    rw [layout, layoutFrom_statement, Cursor.placeStatement_of_lt hnew hend (by decide)]
    rfl
  have hencodings : encodings [(line, .placed 0 statement)] =
      [(line, encodeLiteral form statement.operand)] := by
    simp [encodings, Layout.statements, Placement.statement?, Statement.encode, hoperator]
  rw [assembleLines, hlayout]
  simp only [encodingErrors, Program.ofLayout, encodedWords, hencodings]
  cases encodeLiteral form statement.operand with
  | error problem => simp [Layout.errors, Placement.problem?]
  | ok v => simp [Layout.errors, Placement.problem?]

/-- Words are made of the characters that may stand in a word token. -/
theorem Line.isWord_iff {word : List Char} :
    IsWord word ↔ word ≠ [] ∧ word.all isWordChar = true := by
  rw [List.all_eq_true]
  constructor
  · rintro ⟨hne, hsolid⟩
    refine ⟨hne, fun c hc => ?_⟩
    obtain ⟨hblank, hcomma, hslash⟩ := hsolid c hc
    simp [isWordChar, hblank, hcomma, hslash]
  · rintro ⟨hne, hall⟩
    refine ⟨hne, fun c hc => ?_⟩
    have hword := hall c hc
    simp only [isWordChar, Bool.and_eq_true, Bool.not_eq_true', bne_iff_ne] at hword
    exact ⟨hword.1.1, hword.1.2, hword.2⟩

instance (word : List Char) : Decidable (Line.IsWord word) :=
  decidable_of_iff _ Line.isWord_iff.symm

/-- A word has no separator, and no end of a line. -/
theorem Line.IsWord.not_mem {word : List Char} (h : IsWord word) :
    (∀ c ∈ word, isSeparator c = false) ∧ ',' ∉ word ∧ '/' ∉ word ∧ '\n' ∉ word := by
  refine ⟨fun c hc => ?_, fun hmem => (h.solid _ hmem).2.1 rfl,
    fun hmem => (h.solid _ hmem).2.2 rfl, fun hmem => absurd (h.solid _ hmem).1 (by decide)⟩
  simp [isSeparator, h.solid c hc]

/-- Two words with a blank between them are the words of their line. -/
theorem Line.wordsOf_pair {first second : List Char} (hfirst : IsWord first)
    (hsecond : IsWord second) : wordsOf (first ++ ' ' :: second) = [first, second] := by
  have hlast : wordsOf second = [second] := by
    have hwords : wordsOf (second ++ []) = second :: wordsOf [] :=
      wordsOf_append hsecond.nonempty hsecond.not_mem.1 (by simp)
    rwa [List.append_nil, wordsOf_nil] at hwords
  rw [wordsOf_append hfirst.nonempty hfirst.not_mem.1 (fun c hc => by cases hc; decide),
    wordsOf_cons (by decide), hlast]

/-- Two words that do not set the origin are read as an operator and its operand. -/
theorem Line.parse_pair {first second : List Char} (hfirst : IsWord first)
    (hsecond : IsWord second) (hnot : ¬ IsOrg first second) :
    parse (first ++ ' ' :: second) = .ok (.statement (written none first (some second))) := by
  obtain ⟨-, hcomma₁, hslash₁, hline₁⟩ := hfirst.not_mem
  obtain ⟨-, hcomma₂, hslash₂, hline₂⟩ := hsecond.not_mem
  have hcode : code (first ++ ' ' :: second) = first ++ ' ' :: second := by
    rw [code, List.takeWhile_eq_self_iff]
    intro c hc
    refine decide_eq_true fun hslash => ?_
    simp [hslash, hslash₁, hslash₂] at hc
  refine parse_of_says (by simp [hline₁, hline₂]) (.plain ?_ ?_ ?_)
  · simp [hcode, hcomma₁, hcomma₂]
  · rw [hcode, wordsOf_pair hfirst hsecond]
    rfl
  · rintro digits hdigits
    cases hdigits
    exact hnot

/-- A keyword and a word behind it are a line with a data directive. -/
theorem sourceLines_directive (form : DataForm) {text : String}
    (hword : Line.IsWord text.toList) :
    sourceLines (form.keyword ++ " " ++ text) =
      [(1, .ok (.statement (Line.written none form.keyword.toList (some text.toList))))] := by
  have hkeyword : Line.IsWord form.keyword.toList := by
    cases form <;> decide
  have hnot : ¬ Line.IsOrg form.keyword.toList text.toList := by
    intro horg
    have hsame := horg.keyword
    revert hsame
    cases form <;> decide
  have htext : (form.keyword ++ " " ++ text).toList =
      form.keyword.toList ++ ' ' :: text.toList := by
    simp
  have hline : '\n' ∉ form.keyword.toList ++ ' ' :: text.toList := by
    simp [hkeyword.not_mem, hword.not_mem]
  rw [sourceLines, htext, Text.lines_of_not_mem (by simp) hline, List.map_singleton,
    Line.parse_pair hkeyword hword hnot]
  rfl

/-- A data directive with a word behind it is assembled exactly if the word is a literal. -/
theorem assembles_directive_iff (form : DataForm) {text : String}
    (hword : Line.IsWord text.toList) {w : Word} :
    Assembles (form.keyword ++ " " ++ text) w ↔ Enters form text.toList w := by
  have hname : (Line.written none form.keyword.toList (some text.toList)).operator =
      String.ofList (Text.lowercase form.keyword.toList) := rfl
  have hoperator : Operator.ofName?
      (Line.written none form.keyword.toList (some text.toList)).operator = some (.data form) := by
    rw [hname]
    cases form <;> decide
  have hend : (Line.written none form.keyword.toList (some text.toList)).isEnd = false := by
    rw [Statement.isEnd, hname]
    cases form <;> decide
  rw [Assembles, assemble, sourceLines_directive form hword,
    assembleLines_directive hoperator rfl hend, encodeLiteral_eq_ok_iff]
  simp [Line.written, Enters]

/-! ## Values that are set -/

namespace Simulator

variable {σ : Type}

/-- Setting an address to a text succeeds, and then the word stands there. -/
def StoresText (s : Simulator σ) (addr : Word) (text : String) (w : Word) : Prop :=
  ∃ t, s.setMemText addr text = .ok t ∧ t.machine.memory.get addr = w

/-- Setting a register to a text succeeds, and then it holds the word. -/
def HoldsText (s : Simulator σ) (name : String) (reg : Reg) (text : String) (w : Word) : Prop :=
  ∃ t, s.setRegText name text = .ok t ∧ t.machine.regs.get reg = w

/-- A word is stored at an address exactly if it has been typed. -/
theorem storesText_iff (s : Simulator σ) (addr : Word) (text : String) (w : Word) :
    s.StoresText addr text w ↔ typedWord? text.toList = some w := by
  rw [StoresText, setMemText]
  cases typedWord? text.toList with
  | none => simp
  | some v => simp [setMem, poke, Memory.get_set]

/-- A register that holds every word holds one exactly if it has been typed. -/
theorem holdsText_iff (s : Simulator σ) {name : String} {reg : Reg}
    (hname : Reg.ofName? name = some reg) (hpc : reg ≠ .pc) (hmar : reg ≠ .mar) (text : String)
    (w : Word) : s.HoldsText name reg text w ↔ typedWord? text.toList = some w := by
  simp only [HoldsText, setRegText, hname]
  cases typedWord? text.toList with
  | none => simp
  | some v => simp [setReg, poke, Registers.get_set, Reg.fit_wide hpc hmar]

end Simulator

/-! ## The ways to enter a number -/

/-- The ways to enter a number take the same texts of one word for the same words, in each of the
bases that they share. -/
theorem entries_agree {text : String} (hword : Line.IsWord text.toList) (w : Word) :
    (∀ {σ : Type} (s : Simulator σ) (addr : Word),
      [Assembles ("HEX " ++ text) w, WordFormat.hex.parse? text = some w,
        s.StoresText addr ("0x" ++ text) w].TFAE) ∧
    (Assembles ("OCT " ++ text) w ↔ WordFormat.oct.parse? text = some w) ∧
    (¬ Marked text.toList →
      ∀ {σ : Type} (s : Simulator σ) (addr : Word) (name : String) (reg : Reg),
        Reg.ofName? name = some reg → reg ≠ .pc → reg ≠ .mar →
        [Assembles ("DEC " ++ text) w, WordFormat.dec.parse? text = some w,
          s.StoresText addr text w, s.HoldsText name reg text w].TFAE) := by
  have hsolid : ∀ c ∈ text.toList, Text.isBlank c = false := fun c hc => (hword.solid c hc).1
  have hassemble (form : DataForm) :
      Assembles (form.keyword ++ " " ++ text) w ↔ form.wordFormat.parse? text = some w :=
    (assembles_directive_iff form hword).trans (wordFormat_parse?_eq_some_iff form hsolid).symm
  refine ⟨fun s addr => ?_, hassemble .oct, fun hmarked σ s addr name reg hname hpc hmar => ?_⟩
  · have hmark : ("0x" ++ text).toList = '0' :: 'x' :: text.toList := by simp
    have hstore : s.StoresText addr ("0x" ++ text) w ↔ WordFormat.hex.parse? text = some w := by
      rw [s.storesText_iff, hmark, typedWord?_of_marked hsolid (.inl rfl)]
      exact (wordFormat_parse?_eq_some_iff .hex hsolid).symm
    tfae_have 1 ↔ 2 := hassemble .hex
    tfae_have 3 ↔ 2 := hstore
    tfae_finish
  · have htyped : typedWord? text.toList = some w ↔ WordFormat.dec.parse? text = some w := by
      rw [typedWord?_of_not_marked hsolid hmarked]
      exact (wordFormat_parse?_eq_some_iff .dec hsolid).symm
    tfae_have 1 ↔ 2 := hassemble .dec
    tfae_have 3 ↔ 2 := (s.storesText_iff addr text w).trans htyped
    tfae_have 4 ↔ 2 := (s.holdsText_iff hname hpc hmar text w).trans htyped
    tfae_finish

/-- The number -1 is taken in base 10 alone, and there in every way. -/
theorem entries_agree_minus_one :
    Line.IsWord "-1".toList ∧ ¬ Marked "-1".toList ∧
      Assembles ("DEC " ++ "-1") 0xFFFF ∧ ¬ Assembles ("HEX " ++ "-1") 0xFFFF ∧
      (Simulator.new {} ()).StoresText 0x100 "-1" 0xFFFF ∧
      (Simulator.new {} ()).HoldsText "ac" .ac "-1" 0xFFFF := by
  have hword : Line.IsWord "-1".toList := by decide
  have hmarked : ¬ Marked "-1".toList := by
    rintro ⟨mark, digits, -, htext⟩
    cases htext
  obtain ⟨hhex, -, hdec⟩ := entries_agree hword 0xFFFF
  have hagree :=
    hdec hmarked (Simulator.new {} ()) 0x100 "ac" .ac (by decide) (by decide) (by decide)
  have hread : WordFormat.dec.parse? "-1" = some 0xFFFF := by decide
  have hrefused : WordFormat.hex.parse? "-1" ≠ some 0xFFFF := by decide
  exact ⟨hword, hmarked, (hagree.out 0 1).mpr hread,
    fun h => hrefused (((hhex (Simulator.new {} ()) 0x100).out 0 1).mp h),
    (hagree.out 2 1).mpr hread, (hagree.out 3 1).mpr hread⟩

end Marie
