/-
# How a text splits into tokens

Two descriptions of the tokens of a text that know nothing of the runs that the lexer takes. One
scans the text and takes the longest lexeme at every place; it could get stuck at a character with
which no lexeme begins. The other looks at the places of all tokens at once: they are disjoint
pieces of the text, and only blank characters are left between them.

* `Lexeme.Written` : how the lexemes of each kind are written;
* `Scans`, `scans_iff` : scanning never gets stuck, and gives the lexemes;
* `Partitions` : what makes a list of tokens a partition of a text;
* `partitions_iff` : only the tokens that are read off from the lexemes do, from any place on;
* `forall₂_tokens_pieces` : a line is read from the texts at the places of its tokens;
* `tokens_partition` : both descriptions fit the tokens of a text, and nothing else.
-/
import Marie.Proofs.LineGrammar

namespace Marie

/-! ## Kinds of characters -/

/-- Words end before a blank character, a comma, a slash, and nothing else. -/
def IsBreak (c : Char) : Prop :=
  Text.isBlank c = true ∨ c = ',' ∨ c = '/'

theorem isWordChar_eq_false_iff {c : Char} : isWordChar c = false ↔ IsBreak c := by
  simp only [isWordChar, Bool.and_eq_false_iff, Bool.not_eq_false', bne_eq_false_iff_eq, IsBreak,
    or_assoc]

namespace TokenKind

/-- The kind of the token that begins with a character. -/
def startingWith (c : Char) : TokenKind :=
  if c = ',' then .comma else if c = '/' then .comment else .word

/-- Whether a token of the kind goes on with a character. -/
def goesOn : TokenKind → Char → Bool
  | .comma, _ => false
  | .comment, c => c ≠ '\n'
  | .word, c => isWordChar c

/-- What ends a comment or a word is a break. -/
theorem isBreak_of_goesOn {kind : TokenKind} {c : Char} (hkind : kind ≠ .comma)
    (h : kind.goesOn c = false) : IsBreak c := by
  cases kind with
  | comma => exact absurd rfl hkind
  | comment =>
      have hc : c = '\n' := by simpa [goesOn] using h
      exact .inl (by rw [hc]; decide)
  | word => exact isWordChar_eq_false_iff.mp h

end TokenKind

/-! ## Longest matches -/

namespace Lexeme

/-- How lexemes are written: blank characters, a comma, a slash with characters of its line, and
characters that are no breaks. -/
inductive Written : Lexeme → Prop
  | blank {text : List Char} (hne : text ≠ []) (h : ∀ c ∈ text, Text.isBlank c = true) :
      Written (.blank text)
  | comma : Written (.token .comma [','])
  | comment {rest : List Char} (h : '\n' ∉ rest) : Written (.token .comment ('/' :: rest))
  | word {text : List Char} (hne : text ≠ []) (h : ∀ c ∈ text, ¬ IsBreak c) :
      Written (.token .word text)

/-- The lexeme is the longest one with which a text begins, and the only one so long. -/
structure IsLongest (l : Lexeme) (text : List Char) : Prop where
  written : l.Written
  begins : l.text <+: text
  longest : ∀ m : Lexeme, m.Written → m.text <+: text → m = l ∨ m.text.length < l.text.length

end Lexeme

/-- Scanning a text by longest lexemes gives the lexemes, or nothing if some place has none. -/
inductive Scans : List Char → Option (List Lexeme) → Prop
  | finished : Scans [] (some [])
  | next {l : Lexeme} {text rest : List Char} {result : Option (List Lexeme)}
      (hlongest : l.IsLongest text) (htext : text = l.text ++ rest) (hrest : Scans rest result) :
      Scans text (result.map (l :: ·))
  | stuck {text : List Char} (hne : text ≠ [])
      (hnone : ∀ l : Lexeme, l.Written → ¬ l.text <+: text) : Scans text none

/-- The lexemes of a text that begins with a blank character. -/
theorem lexemes_blank {c : Char} (hc : Text.isBlank c = true) (cs : List Char) :
    lexemes (c :: cs) =
      .blank (c :: cs.takeWhile Text.isBlank) :: lexemes (cs.dropWhile Text.isBlank) := by
  have hcomma : c ≠ ',' := fun h => absurd hc (by rw [h]; decide)
  have hslash : c ≠ '/' := fun h => absurd hc (by rw [h]; decide)
  rw [lexemes, if_neg hcomma, if_neg hslash, if_pos hc]

/-- The lexemes of a text that begins with a token. -/
theorem lexemes_token {c : Char} (hc : Text.isBlank c = false) (cs : List Char) :
    lexemes (c :: cs) =
      .token (.startingWith c) (c :: cs.takeWhile (TokenKind.startingWith c).goesOn) ::
        lexemes (cs.dropWhile (TokenKind.startingWith c).goesOn) := by
  rw [lexemes]
  by_cases hcomma : c = ','
  · have hkind : TokenKind.startingWith c = .comma := if_pos hcomma
    rw [if_pos hcomma, hkind]
    cases cs <;> rfl
  · by_cases hslash : c = '/'
    · have hkind : TokenKind.startingWith c = .comment := by
        rw [TokenKind.startingWith, if_neg hcomma, if_pos hslash]
      rw [if_neg hcomma, if_pos hslash, hkind]
      rfl
    · have hkind : TokenKind.startingWith c = .word := by
        rw [TokenKind.startingWith, if_neg hcomma, if_neg hslash]
      rw [if_neg hcomma, if_neg hslash, if_neg (by simp [hc]), hkind]
      rfl

namespace Lexeme

/-- A lexeme that begins with a blank character is a run of such. -/
theorem written_blank_iff {c : Char} (hc : Text.isBlank c = true) {l : Lexeme}
    {run : List Char} :
    l.Written ∧ l.text = c :: run ↔ l = .blank (c :: run) ∧ ∀ d ∈ run, Text.isBlank d = true := by
  constructor
  · rintro ⟨hwritten, htext⟩
    cases hwritten with
    | blank hne h =>
        obtain rfl : _ = c :: run := htext
        exact ⟨rfl, fun d hd => h d (List.mem_cons_of_mem c hd)⟩
    | comma =>
        cases htext
        exact absurd hc (by decide)
    | comment h =>
        cases htext
        exact absurd hc (by decide)
    | word hne h =>
        obtain rfl : _ = c :: run := htext
        exact absurd (.inl hc) (h c List.mem_cons_self)
  · rintro ⟨rfl, hrun⟩
    exact ⟨.blank (List.cons_ne_nil c run) (List.forall_mem_cons.mpr ⟨hc, hrun⟩), rfl⟩

/-- A lexeme that begins with another character is the token that begins with it. -/
theorem written_token_iff {c : Char} (hc : Text.isBlank c = false) {l : Lexeme}
    {run : List Char} :
    l.Written ∧ l.text = c :: run ↔
      l = .token (.startingWith c) (c :: run) ∧
        ∀ d ∈ run, (TokenKind.startingWith c).goesOn d = true := by
  constructor
  · rintro ⟨hwritten, htext⟩
    cases hwritten with
    | blank hne h =>
        obtain rfl : _ = c :: run := htext
        exact absurd (h c List.mem_cons_self) (by simp [hc])
    | comma =>
        cases htext
        exact ⟨rfl, by simp⟩
    | comment h =>
        cases htext
        exact ⟨rfl, fun d hd => decide_eq_true fun heq => h (heq ▸ hd)⟩
    | word hne h =>
        obtain rfl : _ = c :: run := htext
        have hbreak := h c List.mem_cons_self
        have hkind : TokenKind.startingWith c = .word := by
          rw [TokenKind.startingWith, if_neg fun heq => hbreak (.inr (.inl heq)),
            if_neg fun heq => hbreak (.inr (.inr heq))]
        rw [hkind]
        refine ⟨rfl, fun d hd => ?_⟩
        rw [TokenKind.goesOn, ← Bool.not_eq_false, isWordChar_eq_false_iff]
        exact h d (List.mem_cons_of_mem c hd)
  · rintro ⟨rfl, hrun⟩
    refine ⟨?_, rfl⟩
    by_cases hcomma : c = ','
    · subst hcomma
      cases run with
      | nil => exact .comma
      | cons d run => cases hrun d List.mem_cons_self
    · by_cases hslash : c = '/'
      · subst hslash
        exact .comment fun hline => absurd (hrun _ hline) (by decide)
      · have hkind : TokenKind.startingWith c = .word := by
          rw [TokenKind.startingWith, if_neg hcomma, if_neg hslash]
        rw [hkind] at hrun ⊢
        refine .word (List.cons_ne_nil c run) (List.forall_mem_cons.mpr ⟨?_, fun d hd => ?_⟩)
        · simp [IsBreak, hc, hcomma, hslash]
        · rw [← isWordChar_eq_false_iff, Bool.not_eq_false]
          exact hrun d hd

/-- No lexeme is empty. -/
theorem Written.exists_cons {l : Lexeme} (h : l.Written) : ∃ c run, l.text = c :: run := by
  cases h with
  | blank hne _ => exact List.exists_cons_of_ne_nil hne
  | comma => exact ⟨_, _, rfl⟩
  | comment _ => exact ⟨_, _, rfl⟩
  | word hne _ => exact List.exists_cons_of_ne_nil hne

end Lexeme

/-! ## Scanning -/

/-- A run of characters at the front of a text is the longest run of its kind, or shorter. -/
theorem eq_takeWhile_or_length_lt {p : Char → Bool} {run text : List Char} (h : run <+: text)
    (hrun : ∀ d ∈ run, p d = true) :
    run = text.takeWhile p ∨ run.length < (text.takeWhile p).length := by
  have hpart : run <+: text.takeWhile p := by
    obtain ⟨rest, rfl⟩ := h
    rw [List.takeWhile_append_of_pos hrun]
    exact List.prefix_append run _
  rcases Nat.lt_or_eq_of_le hpart.length_le with hlt | heq
  · exact .inr hlt
  · exact .inl (hpart.eq_of_length heq)

namespace Lexeme

/-- The lexeme that begins with a character. -/
def startingWith (c : Char) (text : List Char) : Lexeme :=
  if Text.isBlank c then .blank text else .token (.startingWith c) text

/-- Whether the lexeme that begins with a character goes on with another one. -/
def goesOn (c d : Char) : Bool :=
  if Text.isBlank c then Text.isBlank d else (TokenKind.startingWith c).goesOn d

@[simp]
theorem text_startingWith (c : Char) (text : List Char) : (startingWith c text).text = text := by
  unfold startingWith
  split <;> rfl

/-- A lexeme is what begins with its first character and goes on with the others. -/
theorem written_iff {l : Lexeme} {c : Char} {run : List Char} :
    l.Written ∧ l.text = c :: run ↔
      l = startingWith c (c :: run) ∧ ∀ d ∈ run, goesOn c d = true := by
  unfold startingWith goesOn
  cases hc : Text.isBlank c with
  | true => exact written_blank_iff hc
  | false => exact written_token_iff hc

/-- The longest lexeme at a place goes on as long as it can. -/
theorem isLongest_startingWith (c : Char) (cs : List Char) :
    (startingWith c (c :: cs.takeWhile (goesOn c))).IsLongest (c :: cs) := by
  have hwritten := written_iff.mpr
    ⟨rfl, fun d (hd : d ∈ cs.takeWhile (goesOn c)) => List.mem_takeWhile_imp hd⟩
  refine ⟨hwritten.1, ?_, fun m hm hbegins => ?_⟩
  · rw [text_startingWith, List.cons_prefix_cons]
    exact ⟨rfl, List.takeWhile_prefix _⟩
  · obtain ⟨d, run, htext⟩ := hm.exists_cons
    obtain ⟨rfl, hrun⟩ : d = c ∧ run <+: cs := List.cons_prefix_cons.mp (htext ▸ hbegins)
    obtain ⟨rfl, hgoes⟩ := written_iff.mp ⟨hm, htext⟩
    rw [text_startingWith, text_startingWith, List.length_cons, List.length_cons]
    exact (eq_takeWhile_or_length_lt hrun hgoes).imp (fun heq => by rw [heq]) Nat.succ_lt_succ

/-- The longest lexeme at a place is the only one. -/
theorem IsLongest.unique {l m : Lexeme} {text : List Char} (h : l.IsLongest text)
    (h' : m.IsLongest text) : l = m := by
  rcases h'.longest l h.written h.begins with heq | hlt
  · exact heq
  · rcases h.longest m h'.written h'.begins with heq | hlt'
    · exact heq.symm
    · omega

end Lexeme

/-- The lexemes of a text are the one that begins with its first character, as long as it goes on,
and those of the rest. -/
theorem lexemes_cons (c : Char) (cs : List Char) :
    lexemes (c :: cs) =
      .startingWith c (c :: cs.takeWhile (Lexeme.goesOn c)) ::
        lexemes (cs.dropWhile (Lexeme.goesOn c)) := by
  unfold Lexeme.startingWith Lexeme.goesOn
  cases hc : Text.isBlank c with
  | true => exact lexemes_blank hc cs
  | false => exact lexemes_token hc cs

/-- Scanning gives the lexemes. -/
theorem scans_lexemes (text : List Char) : Scans text (some (lexemes text)) := by
  -- induction on the text that is left after each lexeme
  induction hn : text.length using Nat.strongRecOn generalizing text with
  | ind n ih =>
      cases text with
      | nil =>
          rw [lexemes_nil]
          exact .finished
      | cons c cs =>
          have hrest : (cs.dropWhile (Lexeme.goesOn c)).length < n := by
            rw [← hn]
            exact Nat.lt_succ_of_le (List.dropWhile_sublist _).length_le
          have htext : c :: cs =
              (Lexeme.startingWith c (c :: cs.takeWhile (Lexeme.goesOn c))).text ++
                cs.dropWhile (Lexeme.goesOn c) := by
            rw [Lexeme.text_startingWith, List.cons_append, List.takeWhile_append_dropWhile]
          rw [lexemes_cons]
          exact .next (Lexeme.isLongest_startingWith c cs) htext (ih _ hrest _ rfl)

/-- Scanning a text gives one result. -/
theorem Scans.unique {text : List Char} {result other : Option (List Lexeme)}
    (h : Scans text result) (h' : Scans text other) : result = other := by
  induction h generalizing other with
  | finished =>
      cases h' with
      | finished => rfl
      | next hlongest htext _ =>
          obtain ⟨c, run, hl⟩ := hlongest.written.exists_cons
          rw [hl] at htext
          cases htext
      | stuck hne _ => exact absurd rfl hne
  | next hlongest htext _ ih =>
      cases h' with
      | finished =>
          obtain ⟨c, run, hl⟩ := hlongest.written.exists_cons
          rw [hl] at htext
          cases htext
      | next hlongest' htext' hrest' =>
          cases hlongest.unique hlongest'
          cases List.append_cancel_left (htext.symm.trans htext')
          rw [ih hrest']
      | stuck _ hnone => exact absurd hlongest.begins (hnone _ hlongest.written)
  | stuck hne hnone =>
      cases h' with
      | finished => exact absurd rfl hne
      | next hlongest' _ _ => exact absurd hlongest'.begins (hnone _ hlongest'.written)
      | stuck _ _ => rfl

/-- Scanning never gets stuck, and gives the lexemes. -/
theorem scans_iff {text : List Char} {result : Option (List Lexeme)} :
    Scans text result ↔ result = some (lexemes text) := by
  constructor
  · exact fun h => h.unique (scans_lexemes text)
  · rintro rfl
    exact scans_lexemes text

/-! ## Places -/

/-- The bytes of two texts in a row. -/
theorem byteSize_append (a b : List Char) : byteSize (a ++ b) = byteSize a + byteSize b := by
  have hfrom : ∀ (text : List Char) (n : Nat),
      text.foldl (fun size c => size + c.utf8Size) n = n + byteSize text := by
    intro text
    induction text with
    | nil => exact fun n => rfl
    | cons c text ih =>
        intro n
        rw [byteSize, List.foldl_cons, List.foldl_cons, ih, ih (0 + _), Nat.zero_add, Nat.add_assoc]
  rw [byteSize, List.foldl_append, hfrom]
  rfl

theorem byteSize_pos {text : List Char} (h : text ≠ []) : 0 < byteSize text := by
  obtain ⟨c, rest, rfl⟩ := List.exists_cons_of_ne_nil h
  have hc : byteSize [c] = c.utf8Size := Nat.zero_add _
  have hpos := c.utf8Size_pos
  rw [← List.singleton_append, byteSize_append, hc]
  omega

/-- Of two cuts of a text, the one with more bytes before it is the later one. -/
theorem exists_of_byteSize_le {a b c d : List Char} (h : a ++ b = c ++ d)
    (hle : byteSize a ≤ byteSize c) : ∃ e, c = a ++ e ∧ b = e ++ d := by
  rcases List.append_eq_append_iff.mp h with hlater | ⟨e, rfl, rfl⟩
  · exact hlater
  · have he : e = [] := by
      by_contra hne
      have hpos := byteSize_pos hne
      rw [byteSize_append] at hle
      omega
    subst he
    exact ⟨[], by simp, rfl⟩

/-! ## Partitions -/

/-- Whether a byte belongs to a token. -/
def Token.Covers (t : Token) (place : Nat) : Prop :=
  t.start ≤ place ∧ place < t.stop

/-- Where a token of each kind may stand: a comment goes up to the end of its line, and a word is
not part of a longer one. -/
inductive TokenKind.Stands (before after : List Char) : TokenKind → Prop
  | comma : Stands before after .comma
  | comment (hafter : ∀ c, after.head? = some c → c = '\n') : Stands before after .comment
  | word (hbefore : ∀ c, before.getLast? = some c → IsBreak c)
      (hafter : ∀ c, after.head? = some c → IsBreak c) : Stands before after .word

/-- The token has the given text, with the given texts before and after it. Its two ends are
numbers of bytes of whole characters. -/
structure Token.IsAt (t : Token) (before text after : List Char) : Prop where
  written : (Lexeme.token t.kind text).Written
  start_eq : t.start = byteSize before
  stop_eq : t.stop = byteSize before + byteSize text
  stands : t.kind.Stands before after

/-- The tokens partition what is left of a text behind the characters that are done with. -/
structure Partitions (done rest : List Char) (ts : List Token) : Prop where
  /-- Each token has a text of its own, which is not empty and lies between two characters. -/
  parts : ∀ t ∈ ts, t.start < t.stop ∧ ∃ before text after, rest = before ++ (text ++ after) ∧
    t.IsAt (done ++ before) text after
  /-- The tokens come in the order of their places, and none begins before the last one ends. -/
  ordered : ts.Pairwise fun t u => t.start < u.start ∧ t.stop ≤ u.start
  /-- The characters of no token are the blank ones that do not stand in a comment. -/
  outside : ∀ before c after, rest = before ++ c :: after →
    ((∀ t ∈ ts, ¬ t.Covers (byteSize (done ++ before))) ↔
      Text.isBlank c = true ∧
        ∀ t ∈ ts, t.kind = .comment → ¬ t.Covers (byteSize (done ++ before)))

/-- Only a comment has blank characters. -/
theorem Token.IsAt.not_blank {t : Token} {before text after : List Char}
    (h : t.IsAt before text after) (hkind : t.kind ≠ .comment) {c : Char} (hc : c ∈ text) :
    ¬ Text.isBlank c = true := by
  have hwritten := h.written
  generalize t.kind = kind at hwritten hkind
  cases hwritten with
  | comma =>
      rw [List.mem_singleton.mp hc]
      decide
  | comment _ => exact absurd rfl hkind
  | word _ hword => exact fun hblank => hword c hc (.inl hblank)

/-- A token stands where it does not go on, and no word goes on from a word before it. -/
theorem TokenKind.stands_iff {before after : List Char} {kind : TokenKind} :
    kind.Stands before after ↔ (∀ c, after.head? = some c → kind.goesOn c = false) ∧
      (kind = .word → ∀ c, before.getLast? = some c → IsBreak c) := by
  constructor
  · intro h
    cases h with
    | comma => exact ⟨fun _ _ => rfl, fun h => by cases h⟩
    | comment hafter =>
        refine ⟨fun c hc => ?_, fun h => by cases h⟩
        rw [hafter c hc]
        rfl
    | word hbefore hafter =>
        exact ⟨fun c hc => isWordChar_eq_false_iff.mpr (hafter c hc), fun _ => hbefore⟩
  · rintro ⟨hafter, hbefore⟩
    cases kind with
    | comma => exact .comma
    | comment => exact .comment fun c hc => by simpa [goesOn] using hafter c hc
    | word => exact .word (hbefore rfl) fun c hc => isWordChar_eq_false_iff.mp (hafter c hc)

/-- A run of characters of a kind with another character behind it is the longest such run. -/
theorem takeWhile_dropWhile_of_run {p : Char → Bool} {run rest : List Char}
    (hrun : ∀ c ∈ run, p c = true) (hrest : ∀ c, rest.head? = some c → p c = false) :
    (run ++ rest).takeWhile p = run ∧ (run ++ rest).dropWhile p = rest := by
  have hcut : (run ++ rest).takeWhile p = run.takeWhile p ∧
      (run ++ rest).dropWhile p = run.dropWhile p ++ rest := takeWhile_append_of_head hrest
  rw [hcut.1, hcut.2, List.takeWhile_eq_self_iff.mpr hrun, List.dropWhile_eq_nil_iff.mpr hrun]
  exact ⟨rfl, rfl⟩

/-- The token that begins with a character behind the characters that are done with. -/
def Token.startingWith (done : List Char) (c : Char) (rest : List Char) : Token where
  kind := .startingWith c
  start := byteSize done
  stop := byteSize done + byteSize (c :: rest.takeWhile (TokenKind.startingWith c).goesOn)

/-- A token is the one that begins with its first character, and goes on as long as it can. -/
theorem Token.IsAt.eq_startingWith {t : Token} {done text after rest : List Char} {c : Char}
    (h : t.IsAt done text after) (hc : Text.isBlank c = false) (htext : c :: rest = text ++ after) :
    t = .startingWith done c rest ∧ text = c :: rest.takeWhile (TokenKind.startingWith c).goesOn ∧
      after = rest.dropWhile (TokenKind.startingWith c).goesOn := by
  obtain ⟨d, run, rfl : text = d :: run⟩ := h.written.exists_cons
  obtain ⟨rfl, rfl⟩ : c = d ∧ rest = run ++ after := List.cons.inj htext
  obtain ⟨hlexeme, hrun⟩ := (Lexeme.written_token_iff hc).mp ⟨h.written, rfl⟩
  have hkind : t.kind = .startingWith c := (Lexeme.token.inj hlexeme).1
  have hafter := (TokenKind.stands_iff.mp h.stands).1
  rw [hkind] at hafter
  obtain ⟨htake, hdrop⟩ := takeWhile_dropWhile_of_run hrun hafter
  rw [htake, hdrop]
  refine ⟨?_, rfl, rfl⟩
  cases t
  rw [Token.startingWith, htake, Token.mk.injEq]
  exact ⟨hkind, h.start_eq, h.stop_eq⟩

/-- Two characters next to each other are not of one word. -/
def Apart (done rest : List Char) : Prop :=
  ∀ c d, done.getLast? = some c → rest.head? = some d → IsBreak c ∨ IsBreak d

/-- The token that begins with a character stands there. -/
theorem Token.isAt_startingWith {done rest : List Char} {c : Char} (hc : Text.isBlank c = false)
    (hapart : Apart done (c :: rest)) :
    (Token.startingWith done c rest).IsAt done
      (c :: rest.takeWhile (TokenKind.startingWith c).goesOn)
      (rest.dropWhile (TokenKind.startingWith c).goesOn) := by
  refine ⟨((Lexeme.written_token_iff hc).mpr ⟨rfl, fun d hd => List.mem_takeWhile_imp hd⟩).1, rfl,
    rfl, TokenKind.stands_iff.mpr ⟨fun d hd => ?_, fun hkind b hb => ?_⟩⟩
  · show (TokenKind.startingWith c).goesOn d = false
    simpa [hd] using List.head?_dropWhile_not (TokenKind.startingWith c).goesOn rest
  · refine (hapart b c hb rfl).resolve_right fun hbreak => ?_
    rcases hbreak with hblank | rfl | rfl
    · simp [hc] at hblank
    · cases hkind
    · cases hkind

/-- Behind blank characters no word goes on. -/
theorem apart_blank {done run rest : List Char} (hne : run ≠ [])
    (hrun : ∀ c ∈ run, Text.isBlank c = true) : Apart (done ++ run) rest := by
  intro c _ hc _
  rw [List.getLast?_append_of_ne_nil done hne] at hc
  exact .inl (.inl (hrun c (List.mem_of_getLast? hc)))

/-- Behind a token that goes on as long as it can no word goes on. -/
theorem apart_token (done rest : List Char) (c : Char) :
    Apart (done ++ c :: rest.takeWhile (TokenKind.startingWith c).goesOn)
      (rest.dropWhile (TokenKind.startingWith c).goesOn) := by
  intro a b ha hb
  by_cases hcomma : c = ','
  · subst hcomma
    have hrun : rest.takeWhile (TokenKind.startingWith ',').goesOn = [] := by cases rest <;> rfl
    rw [hrun, List.getLast?_concat] at ha
    cases ha
    exact .inl (.inr (.inl rfl))
  · have hkind : TokenKind.startingWith c ≠ .comma := by
      rw [TokenKind.startingWith, if_neg hcomma]
      split <;> decide
    refine .inr (TokenKind.isBreak_of_goesOn hkind ?_)
    simpa [hb] using List.head?_dropWhile_not (TokenKind.startingWith c).goesOn rest

namespace Partitions

variable {done rest : List Char} {ts : List Token}

/-- No token stands before what is left of the text. -/
theorem le_start (h : Partitions done rest ts) {t : Token} (ht : t ∈ ts) :
    byteSize done ≤ t.start := by
  obtain ⟨-, before, text, after, -, hat⟩ := h.parts t ht
  rw [hat.start_eq, byteSize_append]
  exact Nat.le_add_right _ _

/-- Nothing is left to partition. -/
theorem nil_iff : Partitions done [] ts ↔ ts = [] := by
  constructor
  · intro h
    by_contra hne
    obtain ⟨t, ts, rfl⟩ := List.exists_cons_of_ne_nil hne
    obtain ⟨-, before, text, after, hrest, hat⟩ := h.parts t List.mem_cons_self
    obtain ⟨c, run, rfl : text = c :: run⟩ := hat.written.exists_cons
    simp at hrest
  · rintro rfl
    exact ⟨by simp, .nil, by simp⟩

/-- A blank character in front belongs to no token. -/
theorem blank_iff {c : Char} (hc : Text.isBlank c = true) :
    Partitions done (c :: rest) ts ↔ Partitions (done ++ [c]) rest ts := by
  constructor
  · intro h
    refine ⟨fun t ht => ?_, h.ordered, fun before d after hrest => ?_⟩
    · obtain ⟨hlt, before, text, after, htext, hat⟩ := h.parts t ht
      refine ⟨hlt, ?_⟩
      cases before with
      | nil =>
          -- no token begins with a blank character
          have hhead : text ++ after = c :: rest := htext.symm
          obtain ⟨d, run, rfl : text = d :: run⟩ := hat.written.exists_cons
          obtain ⟨rfl, -⟩ := List.cons.inj hhead
          cases ((Lexeme.written_blank_iff hc).mp ⟨hat.written, rfl⟩).1
      | cons b before =>
          obtain ⟨rfl, hrest⟩ := List.cons.inj htext
          exact ⟨before, text, after, hrest, by simpa using hat⟩
    · have hsame := h.outside (c :: before) d after (by rw [hrest]; rfl)
      simpa using hsame
  · intro h
    refine ⟨fun t ht => ?_, h.ordered, fun before d after hrest => ?_⟩
    · obtain ⟨hlt, before, text, after, rfl, hat⟩ := h.parts t ht
      exact ⟨hlt, c :: before, text, after, rfl, by simpa using hat⟩
    · cases before with
      | nil =>
          obtain ⟨rfl, -⟩ := List.cons.inj hrest
          have hnone : ∀ t ∈ ts, ¬ t.Covers (byteSize (done ++ [])) := by
            intro t ht hcovers
            have hle := h.le_start ht
            have hpos := byteSize_pos (List.cons_ne_nil c [])
            rw [byteSize_append] at hle
            rw [List.append_nil] at hcovers
            exact absurd hcovers.1 (by omega)
          exact iff_of_true hnone ⟨hc, fun t ht _ => hnone t ht⟩
      | cons b before =>
          obtain ⟨rfl, htail⟩ := List.cons.inj hrest
          simpa using h.outside before d after htail

/-- Blank characters in front belong to no token. -/
theorem blanks_iff {run : List Char} (hrun : ∀ c ∈ run, Text.isBlank c = true) :
    Partitions done (run ++ rest) ts ↔ Partitions (done ++ run) rest ts := by
  induction run generalizing done with
  | nil => simp
  | cons c run ih =>
      obtain ⟨hc, hrun⟩ := List.forall_mem_cons.mp hrun
      rw [List.cons_append, blank_iff hc, ih hrun, List.append_assoc, List.singleton_append]

/-- A partition of a text that begins with no blank character begins with a token. -/
theorem exists_first {c : Char} (hc : Text.isBlank c = false)
    (h : Partitions done (c :: rest) ts) :
    ∃ t ts' text after, ts = t :: ts' ∧ c :: rest = text ++ after ∧ t.IsAt done text after := by
  -- some token covers the character, and one that does not come first begins too late
  obtain ⟨u, hu, hcovers⟩ : ∃ u ∈ ts, u.Covers (byteSize done) := by
    by_contra hnone
    push Not at hnone
    have hblank := ((h.outside [] c rest rfl).mp (by simpa using hnone)).1
    rw [hc] at hblank
    cases hblank
  obtain ⟨t, ts', rfl⟩ := List.exists_cons_of_ne_nil (List.ne_nil_of_mem hu)
  obtain ⟨hlt, before, text, after, htext, hat⟩ := h.parts t List.mem_cons_self
  have hle := h.le_start List.mem_cons_self
  have hstart : t.start ≤ byteSize done := by
    rcases List.mem_cons.mp hu with rfl | hu
    · exact hcovers.1
    · have hstop := ((List.pairwise_cons.mp h.ordered).1 u hu).2
      have hplace := hcovers.1
      omega
  have hbefore : before = [] := by
    by_contra hne
    have hpos := byteSize_pos hne
    rw [hat.start_eq, byteSize_append] at hstart
    omega
  subst hbefore
  exact ⟨t, ts', text, after, rfl, htext, by simpa using hat⟩

/-- A token in front is apart from the others. -/
theorem cons_iff {t : Token} {text after : List Char} (hat : t.IsAt done text after) :
    Partitions done (text ++ after) (t :: ts) ↔ Partitions (done ++ text) after ts := by
  have hstop : t.stop = byteSize (done ++ text) := by rw [hat.stop_eq, byteSize_append]
  have hpos : 0 < byteSize text := by
    obtain ⟨c, run, rfl : text = c :: run⟩ := hat.written.exists_cons
    exact byteSize_pos (List.cons_ne_nil c run)
  have hfar (before : List Char) : ¬ t.Covers (byteSize (done ++ (text ++ before))) := by
    intro hcovers
    have hlt := hcovers.2
    rw [hstop, ← List.append_assoc, byteSize_append (done ++ text)] at hlt
    omega
  constructor
  · intro h
    obtain ⟨hfirst, hordered⟩ := List.pairwise_cons.mp h.ordered
    refine ⟨fun u hu => ?_, hordered, fun before c rest hrest => ?_⟩
    · obtain ⟨hlt, before, inside, rest, htext, hu'⟩ := h.parts u (List.mem_cons_of_mem t hu)
      have hle := (hfirst u hu).2
      rw [hstop, hu'.start_eq, byteSize_append, byteSize_append] at hle
      obtain ⟨later, rfl, hafter⟩ := exists_of_byteSize_le htext (by omega)
      exact ⟨hlt, later, inside, rest, hafter, by simpa using hu'⟩
    · have hsame := h.outside (text ++ before) c rest (by rw [hrest, List.append_assoc])
      rw [List.forall_mem_cons, List.forall_mem_cons] at hsame
      simpa [hfar before] using hsame
  · intro h
    refine ⟨List.forall_mem_cons.mpr ⟨?_, fun u hu => ?_⟩,
      List.pairwise_cons.mpr ⟨fun u hu => ?_, h.ordered⟩, fun before c rest hrest => ?_⟩
    · refine ⟨?_, [], text, after, rfl, by simpa using hat⟩
      rw [hat.start_eq, hat.stop_eq]
      omega
    · obtain ⟨hlt, before, inside, rest, rfl, hu'⟩ := h.parts u hu
      exact ⟨hlt, text ++ before, inside, rest, by simp, by simpa using hu'⟩
    · have hle := h.le_start hu
      rw [← hstop] at hle
      have hstart := hat.start_eq
      have hstop' := hat.stop_eq
      omega
    · rw [List.forall_mem_cons, List.forall_mem_cons]
      by_cases hplace : byteSize text ≤ byteSize before
      · obtain ⟨later, rfl, hafter⟩ := exists_of_byteSize_le hrest hplace
        simpa [hfar later] using h.outside later c rest hafter
      · -- the character stands in the token, which is a comment or has no blank character
        have hcovers : t.Covers (byteSize (done ++ before)) := by
          rw [Token.Covers, hat.start_eq, hat.stop_eq, byteSize_append]
          omega
        obtain ⟨inside, rfl, hinside⟩ := exists_of_byteSize_le hrest.symm (by omega)
        have hne : inside ≠ [] := by
          rintro rfl
          simp at hplace
        obtain ⟨d, run, rfl⟩ := List.exists_cons_of_ne_nil hne
        obtain ⟨rfl, -⟩ := List.cons.inj hinside
        refine iff_of_false (fun hnone => hnone.1 hcovers) fun ⟨hblank, hcomment, _⟩ => ?_
        exact hat.not_blank (fun hkind => hcomment hkind hcovers) (by simp) hblank

/-- The partitions of a text that begins with a token have this token and partition the rest. -/
theorem token_iff {c : Char} (hc : Text.isBlank c = false) (hapart : Apart done (c :: rest)) :
    Partitions done (c :: rest) ts ↔ ∃ ts', ts = .startingWith done c rest :: ts' ∧
      Partitions (done ++ c :: rest.takeWhile (TokenKind.startingWith c).goesOn)
        (rest.dropWhile (TokenKind.startingWith c).goesOn) ts' := by
  constructor
  · intro h
    obtain ⟨t, ts', text, after, rfl, htext, hat⟩ := h.exists_first hc
    have hsame := hat.eq_startingWith hc htext
    rw [htext, cons_iff hat] at h
    obtain ⟨rfl, rfl, rfl⟩ := hsame
    exact ⟨ts', rfl, h⟩
  · rintro ⟨ts', rfl, h⟩
    rw [← cons_iff (Token.isAt_startingWith hc hapart), List.cons_append,
      List.takeWhile_append_dropWhile] at h
    exact h

end Partitions

/-- One list of tokens partitions what is left of a text: that of its lexemes. -/
theorem partitions_iff {done rest : List Char} {ts : List Token} (hapart : Apart done rest) :
    Partitions done rest ts ↔ ts = tokensFrom (byteSize done) (lexemes rest) := by
  -- induction on the text that is left after each lexeme
  induction hn : rest.length using Nat.strongRecOn generalizing done rest ts with
  | ind n ih =>
      cases rest with
      | nil =>
          rw [lexemes_nil]
          exact Partitions.nil_iff
      | cons c cs =>
          have hshorter (p : Char → Bool) : (cs.dropWhile p).length < n := by
            rw [← hn]
            exact Nat.lt_succ_of_le (List.dropWhile_sublist p).length_le
          cases hc : Text.isBlank c with
          | true =>
              have hrun : ∀ d ∈ c :: cs.takeWhile Text.isBlank, Text.isBlank d = true :=
                List.forall_mem_cons.mpr ⟨hc, fun d hd => List.mem_takeWhile_imp hd⟩
              have htext : c :: cs =
                  c :: cs.takeWhile Text.isBlank ++ cs.dropWhile Text.isBlank := by
                rw [List.cons_append, List.takeWhile_append_dropWhile]
              rw [lexemes_blank hc, tokensFrom, ← byteSize_append, htext,
                Partitions.blanks_iff hrun]
              exact ih _ (hshorter _) (apart_blank (List.cons_ne_nil c _) hrun) rfl
          | false =>
              rw [lexemes_token hc, tokensFrom, ← byteSize_append, Partitions.token_iff hc hapart]
              simp only [ih _ (hshorter _) (apart_token done cs c) rfl, exists_eq_right]
              rw [byteSize_append]
              rfl

/-- Each token has the place of its lexeme among the lexemes behind a text. -/
theorem forall₂_tokensFrom (done : List Char) (ls : List Lexeme) :
    List.Forall₂ (fun t p => t.kind = p.1 ∧ ∃ before after,
        done ++ ls.flatMap Lexeme.text = before ++ (p.2 ++ after) ∧
          t.start = byteSize before ∧ t.stop = byteSize before + byteSize p.2)
      (tokensFrom (byteSize done) ls) (Line.pieces ls) := by
  induction ls generalizing done with
  | nil => exact .nil
  | cons l ls ih =>
      have hrest := ih (done ++ l.text)
      rw [byteSize_append] at hrest
      simp only [List.append_assoc] at hrest
      cases l with
      | blank text => exact hrest
      | token kind text => exact .cons ⟨rfl, done, ls.flatMap Lexeme.text, rfl, rfl, rfl⟩ hrest

/-- What a line is read from are the texts at the places of its tokens. -/
theorem forall₂_tokens_pieces (text : String) :
    List.Forall₂ (fun t p => t.kind = p.1 ∧ ∃ before after,
        text.toList = before ++ (p.2 ++ after) ∧
          t.start = byteSize before ∧ t.stop = byteSize before + byteSize p.2)
      (tokens text) (Line.pieces (lexemes text.toList)) := by
  have hfrom := forall₂_tokensFrom [] (lexemes text.toList)
  rwa [flatMap_text_lexemes, List.nil_append] at hfrom

/-- Scanning a text by longest lexemes never gets stuck, and its tokens are the only partition of
the text. -/
theorem tokens_partition (text : String) :
    (∀ result, Scans text.toList result ↔ result = some (lexemes text.toList)) ∧
      ∀ ts, Partitions [] text.toList ts ↔ ts = tokens text :=
  ⟨fun _ => scans_iff, fun _ => partitions_iff fun c d hc => by cases hc⟩

end Marie
