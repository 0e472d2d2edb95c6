/-
# The grammar of a line

What a line of source says, read off its characters and not off its tokens: the text before the
comment, its commas, and the words between them.

* `Line.Says` : the grammar, with a rule for each thing that a line can say and for each way in
  which it can say nothing;
* `lexemes_append` : a comma or a comment cuts the tokens of a line;
* `Line.pieces_eq` : without a comma the tokens are the words;
* `Line.parse_of_says`, `Line.exists_says` : every line says something, and reading finds it;
* `Line.parse_follows_grammar` : reading a line follows the grammar, and the statements that it
  accepts are made of words.
-/
import Marie.Proofs.Assembler
import Mathlib.Data.List.TakeWhile

namespace Marie

namespace Line

/-! ## The grammar -/

/-- The text of a line before its comment. -/
def code (text : List Char) : List Char :=
  text.takeWhile (· ≠ '/')

/-- Words stand between blank characters and commas. -/
def isSeparator (c : Char) : Bool :=
  Text.isBlank c || c == ','

/-- The words of a text, its longest runs without a separator. -/
def wordsOf (text : List Char) : List (List Char) :=
  (text.splitOnP isSeparator).filter (· ≠ [])

/-- Whether a text has no character but blank ones. -/
def IsBlank (text : List Char) : Prop :=
  ∀ c ∈ text, Text.isBlank c = true

/-- Two words that set the origin: the keyword in letters of either case, and three hexadecimal
digits. -/
structure IsOrg (keyword digits : List Char) : Prop where
  keyword : keyword.map Char.toLower = "org".toList
  length : digits.length = 3
  hexadecimal : ∀ c ∈ digits, Numeral.isDigit .hexadecimal c = true

/-- The statement that is written with the given label, operator and operand. -/
def written (label : Option (List Char)) (operator : List Char) (operand : Option (List Char)) :
    Statement where
  label := label.map String.ofList
  operator := String.ofList (Text.lowercase operator)
  operand := operand.map String.ofList

/-- The first comma of a line cuts it in two. -/
structure IsCut (text before after : List Char) : Prop where
  code : code text = before ++ ',' :: after
  first : ',' ∉ before

/-- A line of the right form with a text in the place of its label. -/
structure Labelled (text before after operator : List Char) (operand : Option (List Char)) :
    Prop extends IsCut text before after where
  named : ¬ IsBlank before
  last : ',' ∉ after
  words : wordsOf after = operator :: operand.toList

/-- A word: it is not empty, and has no blank character, comma or slash. -/
structure IsWord (word : List Char) : Prop where
  nonempty : word ≠ []
  solid : ∀ c ∈ word, Text.isBlank c = false ∧ c ≠ ',' ∧ c ≠ '/'

/-- A statement made of words, the label of which does not start with a digit. -/
def IsWritten (statement : Statement) : Prop :=
  ∃ label operator operand, statement = written label operator operand ∧
    (∀ word, label = some word → IsWord word ∧ ∀ c, word.head? = some c → c.isDigit = false) ∧
    IsWord operator ∧ ∀ word, operand = some word → IsWord word

/-- What a line says, or why it says nothing. -/
inductive Says (text : List Char) : Except LineError Line → Prop
  | blank (h : IsBlank (code text)) : Says text (.ok .blank)
  | org {keyword digits : List Char} {addr : Word} (hcomma : ',' ∉ code text)
      (hwords : wordsOf (code text) = [keyword, digits]) (horg : IsOrg keyword digits)
      (haddr : addr.toNat = Numeral.value 16 digits) : Says text (.ok (.org addr))
  | plain {operator : List Char} {operand : Option (List Char)} (hcomma : ',' ∉ code text)
      (hwords : wordsOf (code text) = operator :: operand.toList)
      (hnot : ∀ digits, operand = some digits → ¬ IsOrg operator digits) :
      Says text (.ok (.statement (written none operator operand)))
  | crowded (hcomma : ',' ∉ code text) (hwords : 2 < (wordsOf (code text)).length) :
      Says text (.error .incorrectForm)
  -- with a comma, but nothing to label before it or no operation behind it
  | nameless {before after : List Char} (hcut : IsCut text before after)
      (hblank : IsBlank before) : Says text (.error .incorrectForm)
  | commas {before after : List Char} (hcut : IsCut text before after) (hcomma : ',' ∈ after) :
      Says text (.error .incorrectForm)
  | formless {before after : List Char} (hcut : IsCut text before after)
      (hwords : (wordsOf after).length ≠ 1 ∧ (wordsOf after).length ≠ 2) :
      Says text (.error .incorrectForm)
  -- with an operation behind the comma, so that the label decides
  | digit {before after operator : List Char} {operand : Option (List Char)}
      (h : Labelled text before after operator operand) {c : Char}
      (hfirst : (Text.trimLeft before).head? = some c) (hdigit : c.isDigit = true) :
      Says text (.error .labelStartsWithDigit)
  | spaced {before after operator : List Char} {operand : Option (List Char)}
      (h : Labelled text before after operator operand)
      (hfirst : ∀ c, (Text.trimLeft before).head? = some c → c.isDigit = false)
      (hspace : ∃ c ∈ Text.trimLeft before, Text.isBlank c = true) :
      Says text (.error .labelHasWhitespace)
  | labelled {before after operator : List Char} {operand : Option (List Char)}
      (h : Labelled text before after operator operand)
      (hfirst : ∀ c, (Text.trimLeft before).head? = some c → c.isDigit = false)
      (hsolid : ∀ c ∈ Text.trimLeft before, Text.isBlank c = false) :
      Says text (.ok (.statement (written (some (Text.trimLeft before)) operator operand)))

end Line

/-! ## Cutting a text -/

/-- A character of the kind that stops a run stops it. -/
theorem takeWhile_append_of_head {p : Char → Bool} {text rest : List Char}
    (h : ∀ c, rest.head? = some c → p c = false) :
    (text ++ rest).takeWhile p = text.takeWhile p ∧
      (text ++ rest).dropWhile p = text.dropWhile p ++ rest := by
  induction text with
  | nil =>
      cases rest with
      | nil => exact ⟨rfl, rfl⟩
      | cons c rest => simp [h c rfl]
  | cons c text ih =>
      cases hc : p c with
      | true => simp [hc, ih.1, ih.2]
      | false => simp [hc]

/-- What is not in a text is not in what is left of it. -/
theorem not_mem_dropWhile_of_cons {p : Char → Bool} {c d : Char} {cs : List Char}
    (h : c ∉ d :: cs) : c ∉ cs.dropWhile p :=
  fun hmem => h (List.mem_cons_of_mem d (List.dropWhile_subset p hmem))

/-- A comma or a slash cuts the lexemes of a text. -/
theorem lexemes_append {text rest : List Char} (hslash : '/' ∉ text)
    (hrest : ∀ c, rest.head? = some c → c = ',' ∨ c = '/') :
    lexemes (text ++ rest) = lexemes text ++ lexemes rest := by
  have hblank : ∀ c, rest.head? = some c → Text.isBlank c = false := by
    intro c hc
    rcases hrest c hc with rfl | rfl <;> decide
  have hword : ∀ c, rest.head? = some c → isWordChar c = false := by
    intro c hc
    rcases hrest c hc with rfl | rfl <;> decide
  fun_induction lexemes text with
  | case1 => simp
  | case2 cs ih =>
      rw [List.cons_append, lexemes, if_pos rfl, ih (List.not_mem_of_not_mem_cons hslash)]
      rfl
  | case3 cs => simp at hslash
  | case4 c cs hcomma hnot hc ih =>
      rw [List.cons_append, lexemes, if_neg hcomma, if_neg hnot, if_pos hc,
        (takeWhile_append_of_head hblank).1, (takeWhile_append_of_head hblank).2,
        ih (not_mem_dropWhile_of_cons hslash)]
      rfl
  | case5 c cs hcomma hnot hc ih =>
      rw [List.cons_append, lexemes, if_neg hcomma, if_neg hnot, if_neg hc,
        (takeWhile_append_of_head hword).1, (takeWhile_append_of_head hword).2,
        ih (not_mem_dropWhile_of_cons hslash)]
      rfl

/-- A comma is a lexeme of its own. -/
theorem lexemes_comma (rest : List Char) :
    lexemes (',' :: rest) = .token .comma [','] :: lexemes rest := by
  rw [lexemes, if_pos rfl]

/-- A slash and what follows it on a line is one comment. -/
theorem lexemes_comment {rest : List Char} (hline : '\n' ∉ rest) :
    lexemes ('/' :: rest) = [.token .comment ('/' :: rest)] := by
  have hall : ∀ c ∈ rest, (decide (c ≠ '\n')) = true := by
    intro c hc
    exact decide_eq_true fun h => hline (h ▸ hc)
  rw [lexemes, if_neg (by decide), if_pos rfl, List.takeWhile_eq_self_iff.mpr hall,
    List.dropWhile_eq_nil_iff.mpr hall, lexemes_nil]

/-- Dropping the blank lexemes at the front is dropping the blank characters there. -/
theorem dropWhile_lexemes (text : List Char) :
    (lexemes text).dropWhile (·.isBlank) = lexemes (Text.trimLeft text) := by
  have hsolid : ∀ rest : List Char, (∀ c, rest.head? = some c → Text.isBlank c = false) →
      (lexemes rest).dropWhile (·.isBlank) = lexemes rest := by
    intro rest hrest
    fun_cases lexemes rest with
    | case4 c cs _ _ hc => simp [hrest c rfl] at hc
    | _ => simp [Lexeme.isBlank]
  unfold Text.trimLeft
  cases text with
  | nil => simp
  | cons c cs =>
      cases hc : Text.isBlank c with
      | true =>
          have hcomma : c ≠ ',' := fun h => absurd hc (by rw [h]; decide)
          have hslash : c ≠ '/' := fun h => absurd hc (by rw [h]; decide)
          rw [lexemes, if_neg hcomma, if_neg hslash, if_pos hc, List.dropWhile_cons_of_pos rfl,
            List.dropWhile_cons_of_pos hc]
          refine hsolid _ fun d hd => ?_
          simpa [hd] using List.head?_dropWhile_not Text.isBlank cs
      | false =>
          rw [List.dropWhile_cons_of_neg (by simp [hc])]
          exact hsolid _ fun d hd => by cases hd; exact hc

namespace Line

/-! ## Words -/

theorem wordsOf_nil : wordsOf [] = [] :=
  rfl

/-- A separator belongs to no word. -/
theorem wordsOf_cons {c : Char} (hc : isSeparator c = true) (text : List Char) :
    wordsOf (c :: text) = wordsOf text := by
  rw [wordsOf, List.splitOnP_cons_eq_if_modifyHead, if_pos hc]
  rfl

/-- A run without a separator before a separator is a word. -/
theorem wordsOf_append {word rest : List Char} (hne : word ≠ [])
    (hword : ∀ c ∈ word, isSeparator c = false)
    (hrest : ∀ c, rest.head? = some c → isSeparator c = true) :
    wordsOf (word ++ rest) = word :: wordsOf rest := by
  cases rest with
  | nil => simp [wordsOf, List.splitOnP_eq_singleton hword, hne]
  | cons c rest =>
      rw [wordsOf_cons (hrest c rfl), wordsOf,
        List.splitOnP_append_cons_of_forall_mem hword c (hrest c rfl), List.filter_cons_of_pos]
      · rfl
      · exact decide_eq_true hne

/-- Blank characters at the front belong to no word. -/
theorem wordsOf_trimLeft (text : List Char) : wordsOf (Text.trimLeft text) = wordsOf text := by
  unfold Text.trimLeft
  induction text with
  | nil => rfl
  | cons c text ih =>
      cases hc : Text.isBlank c with
      | true =>
          rw [List.dropWhile_cons_of_pos hc, ih, wordsOf_cons]
          simp [isSeparator, hc]
      | false => rw [List.dropWhile_cons_of_neg (by simp [hc])]

/-- Any other character begins a word, or belongs to one that has begun. -/
theorem exists_wordsOf_cons {c : Char} (hc : isSeparator c = false) (text : List Char) :
    ∃ word words, wordsOf (c :: text) = (c :: word) :: words := by
  obtain ⟨run, runs, hsplit⟩ := List.exists_cons_of_ne_nil (List.splitOnP_ne_nil isSeparator text)
  refine ⟨run, runs.filter (· ≠ []), ?_⟩
  rw [wordsOf, List.splitOnP_cons_eq_if_modifyHead, if_neg (by simp [hc]), hsplit]
  simp

/-- A text without commas has no word exactly if it is blank. -/
theorem wordsOf_eq_nil_iff {text : List Char} (hcomma : ',' ∉ text) :
    wordsOf text = [] ↔ IsBlank text := by
  induction text with
  | nil => simp [IsBlank, wordsOf_nil]
  | cons c text ih =>
      have hne : c ≠ ',' := fun h => hcomma (h ▸ List.mem_cons_self)
      have hsep : isSeparator c = Text.isBlank c := by simp [isSeparator, hne]
      cases hc : Text.isBlank c with
      | true =>
          rw [wordsOf_cons (hsep.trans hc), ih (List.not_mem_of_not_mem_cons hcomma)]
          simp [IsBlank, hc]
      | false =>
          obtain ⟨word, words, hwords⟩ := exists_wordsOf_cons (hsep.trans hc) text
          simp [hwords, IsBlank, hc]

/-- The runs of a text that is split have characters of the text, and none to split it at. -/
theorem of_mem_splitOnP {p : Char → Bool} {text run : List Char} (h : run ∈ text.splitOnP p) :
    ∀ c ∈ run, c ∈ text ∧ p c = false := by
  induction text generalizing run with
  | nil =>
      rw [List.splitOnP_nil, List.mem_singleton] at h
      simp [h]
  | cons c text ih =>
      rw [List.splitOnP_cons_eq_if_modifyHead] at h
      have hrest {run : List Char} (hrun : run ∈ text.splitOnP p) :
          ∀ d ∈ run, d ∈ c :: text ∧ p d = false :=
        fun d hd => ⟨List.mem_cons_of_mem c (ih hrun d hd).1, (ih hrun d hd).2⟩
      split at h
      · rcases List.mem_cons.mp h with rfl | h
        · simp
        · exact hrest h
      · rename_i hc
        obtain ⟨first, runs, hsplit⟩ := List.exists_cons_of_ne_nil (List.splitOnP_ne_nil p text)
        rw [hsplit, List.modifyHead_cons] at h
        rcases List.mem_cons.mp h with rfl | h
        · intro d hd
          rcases List.mem_cons.mp hd with rfl | hd
          · exact ⟨List.mem_cons_self, by simpa using hc⟩
          · exact hrest (hsplit ▸ List.mem_cons_self) d hd
        · exact hrest (hsplit ▸ List.mem_cons_of_mem first h)

/-- A word is a run of characters of the text, none of them a separator. -/
theorem of_mem_wordsOf {text word : List Char} (h : word ∈ wordsOf text) :
    word ≠ [] ∧ ∀ c ∈ word, c ∈ text ∧ isSeparator c = false := by
  obtain ⟨hmem, hne⟩ := List.mem_filter.mp h
  exact ⟨of_decide_eq_true hne, of_mem_splitOnP hmem⟩

/-! ## Tokens of a line -/

/-- A comma among the lexemes of a text is a comma of the text, and a comment has a slash. -/
theorem mem_of_isKind {text : List Char} {l : Lexeme} (h : l ∈ lexemes text) :
    (l.isKind .comma = true → ',' ∈ text) ∧ (l.isKind .comment = true → '/' ∈ text) := by
  have htail {c : Char} {cs rest : List Char} (hsub : rest ⊆ cs)
      (h : (l.isKind .comma = true → ',' ∈ rest) ∧ (l.isKind .comment = true → '/' ∈ rest)) :
      (l.isKind .comma = true → ',' ∈ c :: cs) ∧ (l.isKind .comment = true → '/' ∈ c :: cs) :=
    ⟨fun hl => List.mem_cons_of_mem c (hsub (h.1 hl)),
      fun hl => List.mem_cons_of_mem c (hsub (h.2 hl))⟩
  fun_induction lexemes text with
  | case1 => cases h
  | case2 cs ih =>
      rcases List.mem_cons.mp h with rfl | h
      · simp [Lexeme.isKind]
      · exact htail (List.Subset.refl cs) (ih h)
  | case3 cs _ ih | case4 c cs _ _ _ ih | case5 c cs _ _ _ ih =>
      rcases List.mem_cons.mp h with rfl | h
      · simp [Lexeme.isKind]
      · exact htail (List.dropWhile_subset _) (ih h)

/-- Apart from slashes, words have the characters that are no separators. -/
theorem isWordChar_eq {c : Char} (h : c ≠ '/') : isWordChar c = !isSeparator c := by
  have hslash : (c != '/') = true := bne_iff_ne.mpr h
  rw [isWordChar, isSeparator, hslash, Bool.and_true, Bool.not_or]
  rfl

/-- Without commas and comments the tokens of a text are its words. -/
theorem pieces_eq {text : List Char} (hcomma : ',' ∉ text) (hslash : '/' ∉ text) :
    pieces (lexemes text) = (wordsOf text).map (.word, ·) := by
  fun_induction lexemes text with
  | case1 => rfl
  | case2 cs => simp at hcomma
  | case3 cs => simp at hslash
  | case4 c cs hc₁ hc₂ hc ih =>
      have hsep : isSeparator c = true := by simp [isSeparator, hc]
      rw [wordsOf_cons hsep, ← wordsOf_trimLeft]
      exact ih (not_mem_dropWhile_of_cons hcomma) (not_mem_dropWhile_of_cons hslash)
  | case5 c cs hc₁ hc₂ hc ih =>
      have hcs : c :: cs = c :: cs.takeWhile isWordChar ++ cs.dropWhile isWordChar := by
        rw [List.cons_append, List.takeWhile_append_dropWhile]
      have hne : ∀ d ∈ cs, d ≠ '/' := fun d hd heq => hslash (heq ▸ List.mem_cons_of_mem c hd)
      -- the run that begins with `c` is a word, and ends with the text or before a separator
      have hword : ∀ d ∈ c :: cs.takeWhile isWordChar, isSeparator d = false := by
        intro d hd
        rcases List.mem_cons.mp hd with rfl | hd
        · simp [isSeparator, hc, hc₁]
        · have hmem : d ∈ cs := List.takeWhile_subset _ hd
          simpa [isWordChar_eq (hne d hmem)] using List.mem_takeWhile_imp hd
      have hrest : ∀ d, (cs.dropWhile isWordChar).head? = some d → isSeparator d = true := by
        intro d hd
        have hmem : d ∈ cs := List.dropWhile_subset _ (List.mem_of_mem_head? hd)
        simpa [hd, isWordChar_eq (hne d hmem)] using List.head?_dropWhile_not isWordChar cs
      rw [hcs, wordsOf_append (List.cons_ne_nil _ _) hword hrest, List.map_cons,
        ← ih (not_mem_dropWhile_of_cons hcomma) (not_mem_dropWhile_of_cons hslash)]
      rfl

/-- The text before the comment has no slash. -/
theorem slash_not_mem_code (text : List Char) : '/' ∉ code text :=
  fun h => by simpa using List.mem_takeWhile_imp h

/-- Neither side of the first comma has a slash. -/
theorem IsCut.slash_not_mem {text before after : List Char} (h : IsCut text before after) :
    '/' ∉ before ∧ '/' ∉ after := by
  have hslash := slash_not_mem_code text
  simp only [h.code, List.mem_append, List.mem_cons, not_or] at hslash
  exact ⟨hslash.1, hslash.2.2⟩

/-- A line is its code, or its code with a comment. -/
theorem code_cases (text : List Char) :
    code text = text ∨ ∃ comment, text = code text ++ '/' :: comment := by
  have hsplit : text = code text ++ text.dropWhile (· ≠ '/') :=
    List.takeWhile_append_dropWhile.symm
  cases hrest : text.dropWhile (· ≠ '/') with
  | nil =>
      rw [hrest, List.append_nil] at hsplit
      exact .inl hsplit.symm
  | cons c comment =>
      have hc : c = '/' := by
        have hhead := List.head?_dropWhile_not (· ≠ '/') text
        rw [hrest] at hhead
        simpa using hhead
      rw [hrest, hc] at hsplit
      exact .inr ⟨comment, hsplit⟩

theorem pieces_append (ls rest : List Lexeme) : pieces (ls ++ rest) = pieces ls ++ pieces rest :=
  List.filterMap_append

/-- The tokens without the comment are the tokens of the text before it. -/
theorem dropComment_pieces {text : List Char} (hline : '\n' ∉ text) :
    dropComment (pieces (lexemes text)) = pieces (lexemes (code text)) := by
  rcases code_cases text with hcode | ⟨comment, hcode⟩
  · rw [hcode, dropComment]
    split
    · rename_i comment hlast
      obtain ⟨l, hl, hpiece⟩ := List.mem_filterMap.mp (List.mem_of_getLast? hlast)
      have hkind : l.isKind .comment = true := by
        cases l <;> simp_all [Lexeme.isKind]
      have hslash := slash_not_mem_code text
      rw [hcode] at hslash
      exact absurd ((mem_of_isKind hl).2 hkind) hslash
    · rfl
  · have hcomment : '\n' ∉ comment := fun h => hline (by rw [hcode]; simp [h])
    have hlexemes : lexemes text = lexemes (code text) ++ [.token .comment ('/' :: comment)] := by
      rw [← lexemes_comment hcomment, ← lexemes_append (slash_not_mem_code text) (by simp), ← hcode]
    rw [hlexemes, pieces_append, dropComment]
    simp [pieces]

/-- The tokens of a text up to a comma are its words. -/
theorem pieces_append_comma {before : List Char} (hcomma : ',' ∉ before) (hslash : '/' ∉ before)
    (after : List Char) :
    pieces (lexemes (before ++ ',' :: after)) =
      (wordsOf before).map (.word, ·) ++ (.comma, [',']) :: pieces (lexemes after) := by
  rw [lexemes_append hslash (by simp), pieces_append, pieces_eq hcomma hslash, lexemes_comma]
  rfl

/-- The label is the text before the first comma, without the blank characters at its front. -/
theorem labelText_of_isCut {text before after : List Char} (h : IsCut text before after) :
    labelText (lexemes text) = Text.trimLeft before := by
  obtain ⟨rest, htext⟩ : ∃ rest, text = before ++ ',' :: rest := by
    rcases code_cases text with hcode | ⟨comment, hcode⟩
    · exact ⟨after, hcode ▸ h.code⟩
    · exact ⟨after ++ '/' :: comment, by rw [hcode, h.code]; simp⟩
  have hsub : ∀ c ∈ Text.trimLeft before, c ∈ before :=
    fun c hc => List.dropWhile_subset _ hc
  have hslash : '/' ∉ Text.trimLeft before :=
    fun hmem => h.slash_not_mem.1 (hsub _ hmem)
  have hlexemes : ∀ l ∈ lexemes (Text.trimLeft before), (!l.isKind .comma) = true := by
    intro l hl
    rw [Bool.not_eq_true', ← Bool.not_eq_true]
    exact fun hkind => h.first (hsub _ ((mem_of_isKind hl).1 hkind))
  have htrim : Text.trimLeft text = Text.trimLeft before ++ ',' :: rest := by
    rw [htext]
    exact (takeWhile_append_of_head fun c hc => by cases hc; decide).2
  rw [labelText, dropWhile_lexemes, htrim, lexemes_append hslash (by simp), lexemes_comma,
    List.takeWhile_append_of_pos hlexemes]
  simp [Lexeme.isKind, flatMap_text_lexemes]

/-! ## Rows of words -/

@[simp]
theorem words?_nil : words? [] = some [] :=
  rfl

@[simp]
theorem words?_cons (kind : TokenKind) (text : List Char) (ps : List Piece) :
    words? ((kind, text) :: ps) =
      if kind = .word then (words? ps).map (text :: ·) else none := by
  rw [words?, List.mapM_cons]
  cases kind with
  | word => exact Option.map_eq_bind.symm
  | _ => rfl

/-- The tokens of words are words. -/
theorem words?_map (words : List (List Char)) :
    words? (words.map (.word, ·)) = some words := by
  induction words with
  | nil => rfl
  | cons word words ih => simp [ih]

/-- A comma is no word. -/
theorem words?_comma (words : List (List Char)) (ps : List Piece) :
    words? (words.map (.word, ·) ++ (.comma, [',']) :: ps) = none := by
  induction words with
  | nil => simp
  | cons word words ih => simp [ih]

/-- A row of words is an operator with at most one operand, or neither one nor two words. -/
theorem operator_cases (words : List (List Char)) :
    (∃ operator operand, words = operator :: Option.toList operand) ∨
      words.length ≠ 1 ∧ words.length ≠ 2 := by
  match words with
  | [] => exact .inr (by simp)
  | [operator] => exact .inl ⟨operator, none, rfl⟩
  | [operator, operand] => exact .inl ⟨operator, some operand, rfl⟩
  | _ :: _ :: _ :: _ => exact .inr (by simp)

/-- One or two words are an operator and its operand. -/
theorem operation?_words (operator : List Char) (operand : Option (List Char)) :
    operation? ((operator :: operand.toList).map (.word, ·)) = some (operator, operand) := by
  rw [operation?, words?_map]
  cases operand <;> rfl

/-- Any other number of words is no operation. -/
theorem operation?_eq_none {words : List (List Char)}
    (h : words.length ≠ 1 ∧ words.length ≠ 2) : operation? (words.map (.word, ·)) = none := by
  rw [operation?, words?_map]
  match words with
  | [] => rfl
  | [_] => simp at h
  | [_, _] => simp at h
  | _ :: _ :: _ :: _ => rfl

/-- The digits of an origin fit in a word. -/
theorem IsOrg.value_lt {keyword digits : List Char} (h : IsOrg keyword digits) :
    Numeral.value 16 digits < UInt16.size := by
  have hvalue : Numeral.value 16 digits < 16 ^ digits.length := Numeral.value_lt h.hexadecimal
  rw [h.length] at hvalue
  exact Nat.lt_trans hvalue (by decide)

/-- Two words that set the origin set it to the number of the digits. -/
theorem orgAddress?_pair_iff {keyword digits : List Char} {addr : Word} :
    orgAddress? [(.word, keyword), (.word, digits)] = some addr ↔
      IsOrg keyword digits ∧ addr.toNat = Numeral.value 16 digits := by
  have hform : (Text.sameLetters keyword "org".toList && digits.length == 3 &&
      digits.all (Numeral.isDigit .hexadecimal)) = true ↔ IsOrg keyword digits := by
    simp only [Bool.and_eq_true, Text.sameLetters_iff, beq_iff_eq, List.all_eq_true]
    exact ⟨fun h => ⟨h.1.1, h.1.2, h.2⟩, fun h => ⟨⟨h.keyword, h.length⟩, h.hexadecimal⟩⟩
  simp only [orgAddress?, hform, Option.ite_none_right_eq_some, Option.some.injEq]
  refine and_congr_right fun horg => ?_
  rw [← UInt16.toNat_inj, UInt16.toNat_ofNat_of_lt' horg.value_lt]
  exact eq_comm

/-- A row of words that sets the origin is a pair of them. -/
theorem orgAddress?_words_iff {words : List (List Char)} {addr : Word} :
    orgAddress? (words.map (.word, ·)) = some addr ↔
      ∃ keyword digits, words = [keyword, digits] ∧ IsOrg keyword digits ∧
        addr.toNat = Numeral.value 16 digits := by
  match words with
  | [] => simp [orgAddress?]
  | [_] => simp [orgAddress?]
  | [keyword, digits] => simp [orgAddress?_pair_iff]
  | _ :: _ :: _ :: _ => simp [orgAddress?]

/-- A line with a comma sets no origin. -/
theorem orgAddress?_comma (words : List (List Char)) (ps : List Piece) :
    orgAddress? (words.map (.word, ·) ++ (.comma, [',']) :: ps) = none := by
  unfold orgAddress?
  split
  · rename_i keyword digits heq
    have hmem : (TokenKind.comma, [',']) ∈ words.map (.word, ·) ++ (.comma, [',']) :: ps := by simp
    rw [heq] at hmem
    simp at hmem
  · rfl

/-! ## Reading a line -/

variable {text : List Char}

/-- What is read from a line without a comma. -/
theorem parse_of_not_mem (hline : '\n' ∉ text) (hcomma : ',' ∉ code text) :
    parse text =
      if (wordsOf (code text)).isEmpty then .ok .blank
      else (orgAddress? ((wordsOf (code text)).map (.word, ·))).elim
        (ofParts none ((wordsOf (code text)).map (.word, ·))) fun addr => .ok (.org addr) := by
  have hdrop : ((wordsOf (code text)).map fun word => (TokenKind.word, word)).dropWhile
      (fun p => p.1 != .comma) = [] := by
    simp [List.dropWhile_eq_nil_iff]
  simp only [parse, ofLexemes, dropComment_pieces hline,
    pieces_eq hcomma (slash_not_mem_code text), hdrop, List.isEmpty_map]
  cases orgAddress? ((wordsOf (code text)).map (.word, ·)) <;> rfl

/-- Words that set no origin are read as an operation. -/
theorem parse_of_not_org (hline : '\n' ∉ text) (hcomma : ',' ∉ code text)
    (hne : wordsOf (code text) ≠ [])
    (hnot : ∀ keyword digits, wordsOf (code text) = [keyword, digits] → ¬ IsOrg keyword digits) :
    parse text = ofParts none ((wordsOf (code text)).map (.word, ·)) := by
  have haddress : orgAddress? ((wordsOf (code text)).map (.word, ·)) = none := by
    rw [Option.eq_none_iff_forall_ne_some]
    intro addr haddr
    obtain ⟨keyword, digits, hpair, horg, -⟩ := orgAddress?_words_iff.mp haddr
    exact hnot keyword digits hpair horg
  rw [parse_of_not_mem hline hcomma, haddress, if_neg (by simpa using hne), Option.elim_none]

/-- What is read from a line with a comma. -/
theorem parse_of_isCut (hline : '\n' ∉ text) {before after : List Char}
    (h : IsCut text before after) :
    parse text =
      if (wordsOf before).isEmpty then .error .incorrectForm
      else ofParts (some (Text.trimLeft before)) (pieces (lexemes after)) := by
  have hpieces := pieces_append_comma h.first h.slash_not_mem.1 after
  have hdrop : ((wordsOf before).map (fun word => (TokenKind.word, word)) ++
      (.comma, [',']) :: pieces (lexemes after)).dropWhile (fun p => p.1 != .comma) =
      (.comma, [',']) :: pieces (lexemes after) := by
    rw [List.dropWhile_append_of_pos (by simp)]
    rfl
  simp only [parse, ofLexemes, dropComment_pieces hline, h.code, hpieces, orgAddress?_comma,
    hdrop, labelText_of_isCut h]
  cases wordsOf before <;> simp

/-- What is read of a label, an operator and an operand. -/
theorem ofParts_words {label : Option (List Char)} {operator : List Char}
    {operand : Option (List Char)} :
    ofParts label ((operator :: operand.toList).map (.word, ·)) =
      match label.bind labelError? with
      | some e => .error e
      | none => .ok (.statement (written label operator operand)) := by
  rw [ofParts, operation?_words]
  rfl

/-- What is read of a label and tokens that are no operation. -/
theorem ofParts_eq_incorrectForm {label : Option (List Char)} {ps : List Piece}
    (h : operation? ps = none) : ofParts label ps = .error .incorrectForm := by
  rw [ofParts, h]

/-- Without an operation after the first comma the line has not the right form. -/
theorem parse_eq_incorrectForm (hline : '\n' ∉ text) {before after : List Char}
    (h : IsCut text before after) (hnone : operation? (pieces (lexemes after)) = none) :
    parse text = .error .incorrectForm := by
  rw [parse_of_isCut hline h, ofParts_eq_incorrectForm hnone, ite_self]

/-- A second comma stands in no operation. -/
theorem operation?_eq_none_of_comma {after : List Char} (hslash : '/' ∉ after)
    (hcomma : ',' ∈ after) : operation? (pieces (lexemes after)) = none := by
  obtain ⟨left, right, rfl, hleft⟩ := List.eq_append_cons_of_mem hcomma
  have hslash : '/' ∉ left := fun hmem => hslash (List.mem_append_left _ hmem)
  rw [operation?, pieces_append_comma hleft hslash, words?_comma]

/-- What is read from a line of the right form depends on the text before its comma alone. -/
theorem parse_of_labelled (hline : '\n' ∉ text) {before after operator : List Char}
    {operand : Option (List Char)} (h : Labelled text before after operator operand) :
    parse text = match labelError? (Text.trimLeft before) with
      | some e => .error e
      | none => .ok (.statement (written (some (Text.trimLeft before)) operator operand)) := by
  have hnamed : (wordsOf before).isEmpty = false := by
    rw [List.isEmpty_eq_false_iff, ne_eq, wordsOf_eq_nil_iff h.first]
    exact h.named
  rw [parse_of_isCut hline h.toIsCut, hnamed,
    pieces_eq h.last h.slash_not_mem.2, h.words, ofParts_words]
  rfl

/-- The digits of base 10 are the digits of ASCII. -/
theorem isDecimalDigit_eq (c : Char) : Numeral.isDecimalDigit c = c.isDigit := by
  have hdigit : c.isDigit = true ↔ '0' ≤ c ∧ c ≤ '9' := by
    simp [Char.isDigit, Char.le_def]
  rw [Bool.eq_iff_iff, hdigit, Numeral.isDecimalDigit, Numeral.isDigit_iff]
  unfold Numeral.digitValue?
  constructor
  · rintro ⟨n, hn, hlt⟩
    split at hn
    · assumption
    · have hlt : n < 10 := hlt
      split at hn
      · cases hn
        omega
      · split at hn
        · cases hn
          omega
        · cases hn
  · intro h
    have htop : c.toNat ≤ '9'.toNat := h.2
    have hnine : '9'.toNat = '0'.toNat + 9 := rfl
    exact ⟨_, if_pos h, show c.toNat - '0'.toNat < 10 by omega⟩

/-- A text that starts with a digit is no label. -/
theorem labelError?_of_digit {label : List Char} {c : Char} (hfirst : label.head? = some c)
    (hdigit : c.isDigit = true) : labelError? label = some .labelStartsWithDigit := by
  simp [labelError?, hfirst, isDecimalDigit_eq, hdigit]

/-- A text that does not start with a digit is a label if it has no blank character. -/
theorem labelError?_of_not_digit {label : List Char}
    (hfirst : ∀ c, label.head? = some c → c.isDigit = false) :
    labelError? label =
      if label.any Text.isBlank then some .labelHasWhitespace else none := by
  have hhead : (label.head?.map Numeral.isDecimalDigit).getD false = false := by
    cases hlabel : label.head? with
    | none => rfl
    | some c => simp [isDecimalDigit_eq, hfirst c hlabel]
  simp [labelError?, hhead]

/-- A line that says something is read as it says. -/
theorem parse_of_says (hline : '\n' ∉ text) {result : Except LineError Line}
    (h : Says text result) : parse text = result := by
  cases h with
  | blank h =>
      have hcomma : ',' ∉ code text := fun hmem => absurd (h _ hmem) (by decide)
      rw [parse_of_not_mem hline hcomma, (wordsOf_eq_nil_iff hcomma).mpr h]
      rfl
  | org hcomma hwords horg haddr =>
      have haddress := orgAddress?_words_iff.mpr ⟨_, _, hwords, horg, haddr⟩
      rw [parse_of_not_mem hline hcomma, haddress, hwords]
      rfl
  | @plain operator operand hcomma hwords hnot =>
      have hparts := parse_of_not_org hline hcomma (by simp [hwords]) fun keyword digits hpair => by
        obtain ⟨rfl, hoperand⟩ := List.cons.inj (hwords.symm.trans hpair)
        exact hnot digits (Option.toList_eq_singleton_iff.mp hoperand)
      rw [hparts, hwords, ofParts_words]
      rfl
  | crowded hcomma hwords =>
      have hparts := parse_of_not_org hline hcomma (List.ne_nil_of_length_pos (by omega))
        fun keyword digits hpair => by simp [hpair] at hwords
      rw [hparts, ofParts_eq_incorrectForm (operation?_eq_none ⟨by omega, by omega⟩)]
  | nameless hcut hblank =>
      rw [parse_of_isCut hline hcut, (wordsOf_eq_nil_iff hcut.first).mpr hblank]
      rfl
  | commas hcut hcomma =>
      exact parse_eq_incorrectForm hline hcut
        (operation?_eq_none_of_comma hcut.slash_not_mem.2 hcomma)
  | @formless before after hcut hwords =>
      refine parse_eq_incorrectForm hline hcut ?_
      by_cases hcomma : ',' ∈ after
      · exact operation?_eq_none_of_comma hcut.slash_not_mem.2 hcomma
      · rw [pieces_eq hcomma hcut.slash_not_mem.2]
        exact operation?_eq_none hwords
  | digit h hfirst hdigit => rw [parse_of_labelled hline h, labelError?_of_digit hfirst hdigit]
  | spaced h hfirst hspace =>
      rw [parse_of_labelled hline h, labelError?_of_not_digit hfirst,
        if_pos (List.any_eq_true.mpr hspace)]
  | labelled h hfirst hsolid =>
      rw [parse_of_labelled hline h, labelError?_of_not_digit hfirst,
        if_neg (by simpa using hsolid)]

/-- A line of the right form is refused for its label, or it is a statement. -/
theorem Labelled.exists_says {before after operator : List Char} {operand : Option (List Char)}
    (h : Labelled text before after operator operand) : ∃ result, Says text result := by
  by_cases hdigit : ∃ c, (Text.trimLeft before).head? = some c ∧ c.isDigit = true
  · obtain ⟨c, hfirst, hc⟩ := hdigit
    exact ⟨_, .digit h hfirst hc⟩
  · have hfirst : ∀ c, (Text.trimLeft before).head? = some c → c.isDigit = false :=
      fun c hc => Bool.eq_false_iff.mpr fun htrue => hdigit ⟨c, hc, htrue⟩
    by_cases hspace : ∃ c ∈ Text.trimLeft before, Text.isBlank c = true
    · exact ⟨_, .spaced h hfirst hspace⟩
    · exact ⟨_, .labelled h hfirst (by simpa using hspace)⟩

/-- Every line says something. -/
theorem exists_says (text : List Char) : ∃ result, Says text result := by
  by_cases hcomma : ',' ∈ code text
  · obtain ⟨before, after, hcode, hfirst⟩ := List.eq_append_cons_of_mem hcomma
    have hcut : IsCut text before after := ⟨hcode, hfirst⟩
    by_cases hblank : IsBlank before
    · exact ⟨_, .nameless hcut hblank⟩
    · by_cases hlast : ',' ∈ after
      · exact ⟨_, .commas hcut hlast⟩
      · rcases operator_cases (wordsOf after) with ⟨operator, operand, hwords⟩ | hwords
        · have h : Labelled text before after operator operand := ⟨hcut, hblank, hlast, hwords⟩
          exact h.exists_says
        · exact ⟨_, .formless hcut hwords⟩
  · rcases operator_cases (wordsOf (code text)) with ⟨operator, operand, hwords⟩ | hwords
    · by_cases horg : ∃ digits, operand = some digits ∧ IsOrg operator digits
      · obtain ⟨digits, rfl, horg⟩ := horg
        exact ⟨_, .org hcomma hwords horg (UInt16.toNat_ofNat_of_lt' horg.value_lt)⟩
      · exact ⟨_, .plain hcomma hwords fun digits hdigits h => horg ⟨digits, hdigits, h⟩⟩
    · by_cases hblank : IsBlank (code text)
      · exact ⟨_, .blank hblank⟩
      · have hnonempty : wordsOf (code text) ≠ [] := mt (wordsOf_eq_nil_iff hcomma).mp hblank
        have hpos := List.length_pos_iff.mpr hnonempty
        exact ⟨_, .crowded hcomma (by omega)⟩

/-- Reading a line follows the grammar. -/
theorem parse_eq_iff (hline : '\n' ∉ text) {result : Except LineError Line} :
    parse text = result ↔ Says text result := by
  refine ⟨fun hparse => ?_, parse_of_says hline⟩
  obtain ⟨said, hsaid⟩ := exists_says text
  have hsame := parse_of_says hline hsaid
  rw [hparse] at hsame
  exact hsame ▸ hsaid

/-! ## Statements that are read -/

/-- A word of a text without comments is a word. -/
theorem isWord_of_mem {text word : List Char} (hslash : '/' ∉ text) (h : word ∈ wordsOf text) :
    IsWord word := by
  obtain ⟨hne, hchars⟩ := of_mem_wordsOf h
  refine ⟨hne, fun c hc => ?_⟩
  obtain ⟨hmem, hsep⟩ := hchars c hc
  simp only [isSeparator, Bool.or_eq_false_iff, beq_eq_false_iff_ne] at hsep
  exact ⟨hsep.1, hsep.2, fun h => hslash (h ▸ hmem)⟩

/-- An operator and an operand are words. -/
theorem isWord_of_wordsOf {text operator : List Char} {operand : Option (List Char)}
    (hslash : '/' ∉ text) (h : wordsOf text = operator :: operand.toList) :
    IsWord operator ∧ ∀ word, operand = some word → IsWord word :=
  ⟨isWord_of_mem hslash (by simp [h]), fun word hword => isWord_of_mem hslash (by simp [h, hword])⟩

/-- The label of a line is a word. -/
theorem Labelled.isWord {before after operator : List Char} {operand : Option (List Char)}
    (h : Labelled text before after operator operand)
    (hsolid : ∀ c ∈ Text.trimLeft before, Text.isBlank c = false) :
    IsWord (Text.trimLeft before) := by
  refine ⟨fun hnil => h.named (List.dropWhile_eq_nil_iff.mp hnil), fun c hc => ?_⟩
  have hmem : c ∈ before := List.dropWhile_subset _ hc
  exact ⟨hsolid c hc, fun heq => h.first (heq ▸ hmem), fun heq => h.slash_not_mem.1 (heq ▸ hmem)⟩

/-- A line only says statements that are made of words. -/
theorem Says.isWritten {statement : Statement} (h : Says text (.ok (.statement statement))) :
    IsWritten statement := by
  cases h with
  | plain hcomma hwords hnot =>
      obtain ⟨hoperator, hoperand⟩ := isWord_of_wordsOf (slash_not_mem_code text) hwords
      exact ⟨none, _, _, rfl, by simp, hoperator, hoperand⟩
  | labelled h hfirst hsolid =>
      obtain ⟨hoperator, hoperand⟩ := isWord_of_wordsOf h.slash_not_mem.2 h.words
      refine ⟨some _, _, _, rfl, ?_, hoperator, hoperand⟩
      rintro label ⟨⟩
      exact ⟨h.isWord hsolid, hfirst⟩

/-- Reading a line accepts the grammar and nothing else, and tells the ways to fail apart; the
statements that it accepts are made of words, and no label of theirs starts with a digit. -/
theorem parse_follows_grammar (hline : '\n' ∉ text) :
    (∀ result, parse text = result ↔ Says text result) ∧
      ∀ statement, parse text = .ok (.statement statement) → IsWritten statement :=
  ⟨fun _ => parse_eq_iff hline, fun _ h => ((parse_eq_iff hline).mp h).isWritten⟩

/-- A label and an operand beyond ASCII, wide blank characters, and a comment with commas. -/
theorem parse_follows_grammar_wide :
    let text := "\u3000Größe,\u00a0LOAD\u2003Straße/ α, β, γ".toList
    '\n' ∉ text ∧ Says text (.ok (.statement ⟨some "Größe", "load", some "Straße"⟩)) := by
  intro text
  have hline : '\n' ∉ text := by decide +kernel
  exact ⟨hline, ((parse_follows_grammar hline).1 _).mp (by decide +kernel)⟩

end Line

end Marie
