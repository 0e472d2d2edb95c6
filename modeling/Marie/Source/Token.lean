/-
# Tokens of a source line

A text splits into lexemes: runs of blank characters, commas, comments and words. A comment
runs from a slash to the end of its line, and a word is a longest run of anything else.

* Nothing is lost: the lexemes in a row are the text (`flatMap_text_lexemes`).
* `tokens` gives the lexemes that are not blank with the place of each one, counted in bytes
  of UTF-8.
-/
import Marie.Text.Basic

namespace Marie

/-- The kinds of token. -/
inductive TokenKind where
  /-- A comma, which ends a label. -/
  | comma
  /-- A slash and the rest of its line. -/
  | comment
  /-- A longest run of characters that are neither blank nor a comma nor a slash. -/
  | word
deriving DecidableEq, Repr

/-- A piece of a text: a run of blank characters, or a token. -/
inductive Lexeme where
  | blank (text : List Char)
  | token (kind : TokenKind) (text : List Char)
deriving DecidableEq, Repr

/-- A token with the bytes of the text from which and before which it stands. -/
structure Token where
  kind : TokenKind
  start : Nat
  stop : Nat
deriving DecidableEq, Repr

namespace Lexeme

/-- The characters of the lexeme. -/
def text : Lexeme → List Char
  | .blank text => text
  | .token _ text => text

/-- Whether the lexeme is a run of blank characters. -/
def isBlank : Lexeme → Bool
  | .blank _ => true
  | .token _ _ => false

/-- Whether the lexeme is a token of the given kind. -/
def isKind (kind : TokenKind) : Lexeme → Bool
  | .blank _ => false
  | .token k _ => k == kind

end Lexeme

/-- Whether a character may stand in a word. -/
def isWordChar (c : Char) : Bool :=
  !Text.isBlank c && c != ',' && c != '/'

/-- The lexemes of a text. -/
def lexemes (text : List Char) : List Lexeme :=
  match text with
  | [] => []
  | c :: cs =>
    if c = ',' then .token .comma [c] :: lexemes cs
    else if c = '/' then
      .token .comment (c :: cs.takeWhile (· ≠ '\n')) :: lexemes (cs.dropWhile (· ≠ '\n'))
    else if Text.isBlank c then
      .blank (c :: cs.takeWhile Text.isBlank) :: lexemes (cs.dropWhile Text.isBlank)
    else .token .word (c :: cs.takeWhile isWordChar) :: lexemes (cs.dropWhile isWordChar)
termination_by text.length
decreasing_by
  all_goals simp only [List.length_cons]
  · omega
  · exact Nat.lt_succ_of_le (List.dropWhile_sublist _).length_le
  · exact Nat.lt_succ_of_le (List.dropWhile_sublist _).length_le
  · exact Nat.lt_succ_of_le (List.dropWhile_sublist _).length_le

/-- The number of bytes of a text in UTF-8. -/
def byteSize (text : List Char) : Nat :=
  text.foldl (fun size c => size + c.utf8Size) 0

/-- The tokens among the lexemes, the first of which starts at the given byte. -/
def tokensFrom (start : Nat) : List Lexeme → List Token
  | [] => []
  | .blank text :: rest => tokensFrom (start + byteSize text) rest
  | .token kind text :: rest =>
    ⟨kind, start, start + byteSize text⟩ :: tokensFrom (start + byteSize text) rest

/-- The tokens of a text with their places. -/
def tokens (text : String) : List Token :=
  tokensFrom 0 (lexemes text.toList)

@[simp]
theorem lexemes_nil : lexemes [] = [] := by
  rw [lexemes]

/-- The lexemes of a text in a row are the text. -/
theorem flatMap_text_lexemes (text : List Char) :
    (lexemes text).flatMap Lexeme.text = text := by
  fun_induction lexemes text <;>
    simp_all [Lexeme.text, List.takeWhile_append_dropWhile]

end Marie
