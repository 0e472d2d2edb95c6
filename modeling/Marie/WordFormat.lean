/-
# Word formats

The forms in which words are shown to a user and read from one. Numbers may be typed with blank
characters between their digits.
-/
import Marie.Text.Basic
import Marie.Word

namespace Marie

/-- A form of words for people. -/
inductive WordFormat where
  /-- Four upper-case hexadecimal digits. -/
  | hex
  /-- Signed decimal. -/
  | dec
  /-- Octal, in groups of three digits. -/
  | oct
  /-- Binary, in groups of four digits. -/
  | bin
  /-- The character with the word as its code. -/
  | unicode
deriving DecidableEq, Repr

namespace WordFormat

/-- All forms. -/
def all : List WordFormat :=
  [.hex, .dec, .oct, .bin, .unicode]

/-- The name of the form. -/
def name : WordFormat → String
  | .hex => "hex"
  | .dec => "dec"
  | .oct => "oct"
  | .bin => "bin"
  | .unicode => "unicode"

/-- A word in signed decimal. -/
def signedDigits (w : Word) : List Char :=
  if w < 0x8000 then Numeral.digits 10 w.toNat
  else '-' :: Numeral.digits 10 (65536 - w.toNat)

/-- Whether a word is one half of the code of a character, and no character by itself. -/
def isSurrogate (w : Word) : Bool :=
  decide (0xD800 ≤ w) && decide (w ≤ 0xDFFF)

/-- The character with the given code, or the replacement character if there is none. -/
def charOf (w : Word) : Char :=
  if isSurrogate w then '\ufffd' else Char.ofNat w.toNat

/-- The characters of a word in the form. -/
def chars (form : WordFormat) (w : Word) : List Char :=
  match form with
  | .hex => Numeral.paddedDigits 16 4 w.toNat
  | .dec => signedDigits w
  | .oct => Text.grouped 3 (Numeral.digits 8 w.toNat)
  | .bin => Text.grouped 4 (Numeral.digits 2 w.toNat)
  | .unicode => [charOf w]

/-- A word in the form. -/
def format (form : WordFormat) (w : Word) : String :=
  String.ofList (form.chars w)

/-- The word that a row of digits stands for, with blank characters left out. -/
def numberOf? (radix : Radix) (least : Int) (text : List Char) : Option Word :=
  match Numeral.parse radix (Text.dense text) with
  | .ok n => Word.ofRange? least n
  | .error _ => none

/-- The code of a text of one character, if it fits in a word. -/
def codeOf? : List Char → Option Word
  | [c] => if c.toNat < 65536 then some (UInt16.ofNat c.toNat) else none
  | _ => none

/-- The word that a text stands for in the form. -/
def parse? (form : WordFormat) (text : String) : Option Word :=
  match form with
  | .hex => numberOf? .hexadecimal 0 text.toList
  | .dec => numberOf? .decimal Word.minSigned text.toList
  | .oct => numberOf? .octal 0 text.toList
  | .bin => numberOf? .binary 0 text.toList
  | .unicode => codeOf? text.toList

theorem mem_all (form : WordFormat) : form ∈ all := by
  cases form <;> decide

end WordFormat

end Marie
