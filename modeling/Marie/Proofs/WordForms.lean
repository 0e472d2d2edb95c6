/-
# Words shown and read

A word can be shown to a user as a number in one of four forms, or as a character, and is read
from a text in the same form. Blank characters between the digits are there for the eye only: what
is read does not depend on them, and what is shown is read back in spite of them.

* `Text.dense_grouped` : all that grouping adds to digits is blank;
* `WordFormat.numberOf?_eq_some_iff` : the texts that are read as a word, by the number that they
  stand for (`Numeral.Denotes`);
* `Text.utf16` : the code units of a text, of which a text that is read as a character has just
  one;
* `WordFormat.forms_read_back` : what is read and what is shown in every form.
-/
import Marie.Proofs.Delivery
import Marie.Proofs.Numerals
import Marie.WordFormat

namespace Marie

/-! ## Blank characters among digits -/

/-- A digit is not blank. -/
theorem Numeral.isBlank_of_isDigit {radix : Radix} {c : Char} (h : isDigit radix c = true) :
    Text.isBlank c = false := by
  obtain ⟨d, hd, -⟩ := isDigit_iff.mp h
  have htable : ∀ i : Fin 128, (digitValue? (Char.ofNat i.val)).isSome = true →
      Text.isBlank (Char.ofNat i.val) = false := by
    decide +kernel
  have hc := htable ⟨c.toNat, toNat_lt_of_digitValue? hd⟩
  rw [Char.ofNat_toNat] at hc
  exact hc (by rw [hd]; rfl)

namespace Text

/-- Blank characters are left out of each part of a text. -/
theorem dense_append (text more : List Char) : dense (text ++ more) = dense text ++ dense more :=
  List.filter_append _ _

/-- Blank characters leave nothing. -/
theorem dense_eq_nil {text : List Char} (h : ∀ c ∈ text, isBlank c = true) : dense text = [] := by
  rw [dense, List.filter_eq_nil_iff]
  exact fun c hc => by simp [h c hc]

/-- Pieces with a space before each of them are the pieces in a row, but for blank characters. -/
theorem dense_flatMap_space (pieces : List (List Char)) :
    dense (pieces.flatMap (' ' :: ·)) = dense pieces.flatten := by
  induction pieces with
  | nil => rfl
  | cons piece pieces ih =>
      have hspace : dense (' ' :: piece) = dense piece := List.filter_cons_of_neg (by decide)
      rw [List.flatMap_cons, List.flatten_cons, dense_append, dense_append, hspace, ih]

/-- Grouping adds nothing but blank characters. -/
theorem dense_grouped (size : Nat) (text : List Char) : dense (grouped size text) = dense text := by
  rw [grouped, dense_append, dense_flatMap_space, flatten_chunks, ← dense_append,
    List.take_append_drop]

end Text

/-! ## Numbers that are shown -/

namespace Numeral

variable {radix : Radix}

/-- A row of digits stands for its value. -/
theorem denotes_of_isDigit {text : List Char} (hne : text ≠ [])
    (hdigits : ∀ c ∈ text, isDigit radix c = true) :
    Denotes radix text (value radix.base text) := by
  have hplain : Signed radix text false text := by
    refine .plain fun _ hhead => ?_
    have hminus := hdigits '-' (List.mem_of_head? hhead)
    rw [not_isDigit_minus] at hminus
    cases hminus
  exact (denotes_iff hplain).mpr ⟨hne, hdigits, rfl⟩

/-- The digits of a number stand for the number. -/
theorem denotes_digits (radix : Radix) (n : Nat) : Denotes radix (digits radix.base n) n := by
  have h := denotes_of_isDigit (digits_ne_nil radix.base n) fun _ => isDigit_of_mem_digits
  rwa [value_digits radix.two_le_base radix.base_le] at h

/-- In base 10 the digits of a number behind a minus sign stand for its negative. -/
theorem denotes_minus_digits (n : Nat) :
    Denotes .decimal ('-' :: digits 10 n) (-(n : Int)) := by
  have hdigits : ∀ c ∈ digits Radix.decimal.base n, isDigit .decimal c = true :=
    fun _ => isDigit_of_mem_digits
  have hvalue : value Radix.decimal.base (digits Radix.decimal.base n) = n :=
    value_digits (by decide) (by decide) n
  refine (denotes_iff (.minus rfl)).mpr ⟨digits_ne_nil _ _, hdigits, ?_⟩
  rw [signedValue, if_pos rfl]
  exact congrArg (fun m : Nat => -(m : Int)) hvalue.symm

/-- Zeros in front do not change the value. -/
theorem value_replicate_zero_append (base k : Nat) (text : List Char) :
    value base (List.replicate k '0' ++ text) = value base text := by
  have hzero : (digitValue? '0').getD 0 = 0 := rfl
  rw [value, List.foldl_append]
  congr 1
  induction k with
  | zero => rfl
  | succ k ih => rw [List.replicate_succ, List.foldl_cons, hzero, Nat.zero_mul, Nat.add_zero, ih]

/-- The digits of a number with zeros in front stand for the number. -/
theorem denotes_paddedDigits (radix : Radix) (width n : Nat) :
    Denotes radix (paddedDigits radix.base width n) n := by
  have hzero : isDigit radix '0' = true := by cases radix <;> decide
  have hdigits : ∀ c ∈ paddedDigits radix.base width n, isDigit radix c = true := by
    intro c hc
    rcases List.mem_append.mp hc with hc | hc
    · rw [List.eq_of_mem_replicate hc, hzero]
    · exact isDigit_of_mem_digits hc
  have hne : paddedDigits radix.base width n ≠ [] :=
    List.append_ne_nil_of_right_ne_nil _ (digits_ne_nil _ _)
  have hvalue : value radix.base (paddedDigits radix.base width n) = n := by
    rw [paddedDigits, List.leftpad, value_replicate_zero_append,
      value_digits radix.two_le_base radix.base_le]
  have h := denotes_of_isDigit hne hdigits
  rwa [hvalue] at h

/-- A text of digits and signs has no blank character. -/
theorem Denotes.dense_eq {text : List Char} {n : Int} (h : Denotes radix text n) :
    Text.dense text = text := by
  obtain ⟨hsign, -, hdigits⟩ := h
  have hbody := fun c hc => isBlank_of_isDigit (isDigit_of_forall₂ hdigits c hc)
  apply Text.dense_eq_self
  cases hsign with
  | minus _ => exact List.forall_mem_cons.mpr ⟨by decide, hbody⟩
  | plain _ => exact hbody

end Numeral

/-! ## Forms that are numbers -/

/-- The forms of words that are numbers. -/
inductive NumberForm where
  | hex
  | dec
  | oct
  | bin
deriving DecidableEq, Repr

namespace NumberForm

/-- The form among all forms of words. -/
def wordFormat : NumberForm → WordFormat
  | .hex => .hex
  | .dec => .dec
  | .oct => .oct
  | .bin => .bin

/-- The base of the numbers. -/
def radix : NumberForm → Radix
  | .hex => .hexadecimal
  | .dec => .decimal
  | .oct => .octal
  | .bin => .binary

/-- The least number that may be typed. -/
def least : NumberForm → Int
  | .dec => -32768
  | _ => 0

end NumberForm

namespace WordFormat

variable {text : List Char} {w : Word}

/-- A text is read as a word exactly if it stands for a number in the range, blank characters left
out, and the word holds that number. -/
theorem numberOf?_eq_some_iff (form : NumberForm) :
    numberOf? form.radix form.least text = some w ↔
      ∃ n, Numeral.Denotes form.radix (Text.dense text) n ∧ (form.least ≤ n ∧ n ≤ 65535) ∧
        (w.toNat : Int) = n % 65536 := by
  have hword (n : Int) : (w.toNat : Int) = n % 65536 ↔ Word.ofInt n = w := by
    rw [← Word.toNat_ofInt_eq_emod, Int.ofNat_inj, UInt16.toNat_inj, eq_comm]
  have hleast : -32768 ≤ form.least := by cases form <;> decide
  simp only [numberOf?, hword]
  constructor
  · intro h
    cases hparse : Numeral.parse form.radix (Text.dense text) with
    | error e => simp [hparse] at h
    | ok n =>
        simp only [hparse, Word.ofRange?, Option.ite_none_right_eq_some, Option.some.injEq] at h
        exact ⟨n, (Numeral.parse_eq_ok_iff_denotes.mp hparse).1, h⟩
  · rintro ⟨n, hdenotes, hrange, hw⟩
    have hparse := Numeral.parse_eq_ok_iff_denotes.mpr ⟨hdenotes, by omega⟩
    simp only [hparse, Word.ofRange?, hw]
    exact if_pos hrange

/-- Reading a number looks at nothing but the characters that are not blank. -/
theorem parse?_wordFormat (form : NumberForm) (text : String) :
    form.wordFormat.parse? text = numberOf? form.radix form.least text.toList := by
  cases form <;> rfl

/-- Texts that differ in blank characters alone are read alike. -/
theorem numberOf?_congr {radix : Radix} {least : Int} {text other : List Char}
    (h : Text.dense text = Text.dense other) :
    numberOf? radix least text = numberOf? radix least other := by
  rw [numberOf?, numberOf?, h]

/-- What is shown of a word in signed decimal stands for its number in two's complement. -/
theorem denotes_signedDigits (w : Word) :
    ∃ n, Numeral.Denotes .decimal (signedDigits w) n ∧ (-32768 ≤ n ∧ n ≤ 65535) ∧
      (w.toNat : Int) = n % 65536 := by
  have hlt := w.toNat_lt
  have hhalf : w < 0x8000 ↔ w.toNat < 32768 := UInt16.lt_iff_toNat_lt
  unfold signedDigits
  split
  · exact ⟨w.toNat, Numeral.denotes_digits .decimal w.toNat, by omega, by omega⟩
  · rename_i hlarge
    rw [hhalf] at hlarge
    exact ⟨_, Numeral.denotes_minus_digits (65536 - w.toNat), by omega, by omega⟩

/-- What is shown of a word as a number, blank characters left out, stands for a number that the
word holds. -/
theorem denotes_chars (form : NumberForm) (w : Word) :
    ∃ n, Numeral.Denotes form.radix (Text.dense (form.wordFormat.chars w)) n ∧
      (form.least ≤ n ∧ n ≤ 65535) ∧ (w.toNat : Int) = n % 65536 := by
  have hlt := w.toNat_lt
  have hrange : 0 ≤ (w.toNat : Int) ∧ (w.toNat : Int) ≤ 65535 := by omega
  have hmod : (w.toNat : Int) = w.toNat % 65536 := by omega
  cases form with
  | hex =>
      have h := Numeral.denotes_paddedDigits .hexadecimal 4 w.toNat
      exact ⟨w.toNat, h.dense_eq.symm ▸ h, hrange, hmod⟩
  | dec =>
      obtain ⟨n, h, hbounds, hw⟩ := denotes_signedDigits w
      exact ⟨n, h.dense_eq.symm ▸ h, hbounds, hw⟩
  | oct =>
      have h := Numeral.denotes_digits .octal w.toNat
      refine ⟨w.toNat, ?_, hrange, hmod⟩
      rw [NumberForm.wordFormat, chars, Text.dense_grouped]
      exact h.dense_eq.symm ▸ h
  | bin =>
      have h := Numeral.denotes_digits .binary w.toNat
      refine ⟨w.toNat, ?_, hrange, hmod⟩
      rw [NumberForm.wordFormat, chars, Text.dense_grouped]
      exact h.dense_eq.symm ▸ h

/-- A word that is shown as a number is read back. -/
theorem parse?_format_number (form : NumberForm) (w : Word) :
    form.wordFormat.parse? (form.wordFormat.format w) = some w := by
  rw [parse?_wordFormat, format, String.toList_ofList]
  exact (numberOf?_eq_some_iff form).mpr (denotes_chars form w)

end WordFormat

/-! ## Code units -/

namespace Text

/-- The code units of 16 bits that stand for a character: its code, or two halves of what the code
is beyond the first 65536 codes. -/
def codeUnits (c : Char) : List Word :=
  if c.toNat < 0x10000 then [UInt16.ofNat c.toNat]
  else [UInt16.ofNat (0xD800 + (c.toNat - 0x10000) / 0x400),
    UInt16.ofNat (0xDC00 + (c.toNat - 0x10000) % 0x400)]

/-- The code units of a text. -/
def utf16 (text : List Char) : List Word :=
  text.flatMap codeUnits

example : utf16 "a😀".toList = [0x61, 0xD83D, 0xDE00] := by decide

theorem codeUnits_ne_nil (c : Char) : codeUnits c ≠ [] := by
  unfold codeUnits
  split <;> simp

end Text

/-- Half of the code of a character, which is no character by itself. -/
def Word.IsSurrogate (w : Word) : Prop :=
  0xD800 ≤ w.toNat ∧ w.toNat ≤ 0xDFFF

namespace WordFormat

variable {text : List Char} {w : Word}

/-- A text is read as a character exactly if it has one code unit, and that is the word. -/
theorem codeOf?_eq_some_iff : codeOf? text = some w ↔ Text.utf16 text = [w] := by
  cases text with
  | nil => simp [codeOf?, Text.utf16]
  | cons c rest =>
      cases rest with
      | nil =>
          rw [codeOf?, Text.utf16, List.flatMap_singleton, Text.codeUnits]
          split <;> simp
      | cons d rest =>
          -- each character has a code unit at least
          have hlong : Text.utf16 (c :: d :: rest) ≠ [w] := by
            intro h
            have hlength := congrArg List.length h
            have hc := List.length_pos_iff.mpr (Text.codeUnits_ne_nil c)
            have hd := List.length_pos_iff.mpr (Text.codeUnits_ne_nil d)
            simp only [Text.utf16, List.flatMap_cons, List.length_append,
              List.length_singleton] at hlength
            omega
          simp [codeOf?, hlong]

theorem isSurrogate_iff : isSurrogate w = true ↔ w.IsSurrogate := by
  rw [isSurrogate, Bool.and_eq_true, decide_eq_true_eq, decide_eq_true_eq, UInt16.le_iff_toNat_le,
    UInt16.le_iff_toNat_le]
  exact Iff.rfl

/-- A word that is no surrogate is shown as the character with that code unit. -/
theorem utf16_charOf (h : ¬ w.IsSurrogate) : Text.utf16 [charOf w] = [w] := by
  have hlt := w.toNat_lt
  have hchar : charOf w = Char.ofNat w.toNat := if_neg (by rwa [isSurrogate_iff])
  have hvalid : w.toNat.isValidChar := by
    rw [Word.IsSurrogate] at h
    rw [Nat.isValidChar]
    omega
  have hcode : (charOf w).toNat = w.toNat := by
    rw [hchar, Char.ofNat, dif_pos hvalid]
    rfl
  rw [Text.utf16, List.flatMap_singleton, Text.codeUnits, hcode, if_pos hlt, UInt16.ofNat_toNat]

/-- A surrogate is shown as the replacement character. -/
theorem format_of_isSurrogate (h : w.IsSurrogate) : unicode.format w = "\ufffd" := by
  rw [format, chars, charOf, if_pos (isSurrogate_iff.mpr h)]

/-! ## All forms -/

/-- In each form of numbers exactly those texts are read as a word that stand for a number in the
range of the form, blank characters left out, and the word is this number modulo `2 ^ 16`; blank
characters that are put in anywhere, or taken out, make no difference; and every word that is shown
is read back. As a character exactly those texts are read that have one code unit, which is the
word; every word that is shown is read back, except surrogates, which are all shown as the
replacement character. -/
theorem forms_read_back (text : String) (w : Word) :
    (∀ form : NumberForm,
      (form.wordFormat.parse? text = some w ↔
        ∃ n, Numeral.Denotes form.radix (Text.dense text.toList) n ∧
          (form.least ≤ n ∧ n ≤ 65535) ∧ (w.toNat : Int) = n % 65536) ∧
      (∀ before blanks after : List Char, (∀ c ∈ blanks, Text.isBlank c = true) →
        form.wordFormat.parse? (String.ofList (before ++ (blanks ++ after))) =
          form.wordFormat.parse? (String.ofList (before ++ after))) ∧
      form.wordFormat.parse? (form.wordFormat.format w) = some w) ∧
    (unicode.parse? text = some w ↔ Text.utf16 text.toList = [w]) ∧
    (¬ w.IsSurrogate → unicode.parse? (unicode.format w) = some w) ∧
    (w.IsSurrogate → unicode.format w = "\ufffd") := by
  refine ⟨fun form => ⟨?_, fun before blanks after hblanks => ?_, parse?_format_number form w⟩,
    codeOf?_eq_some_iff, fun h => ?_, format_of_isSurrogate⟩
  · rw [parse?_wordFormat, numberOf?_eq_some_iff]
  · rw [parse?_wordFormat, parse?_wordFormat]
    apply numberOf?_congr
    rw [String.toList_ofList, String.toList_ofList, Text.dense_append, Text.dense_append,
      Text.dense_append, Text.dense_eq_nil hblanks, List.nil_append]
  · have hunit := codeOf?_eq_some_iff.mpr (utf16_charOf h)
    rwa [← String.toList_ofList (l := [charOf w])] at hunit

/-- A number is typed with blank characters between its sign and its digits. -/
theorem forms_read_back_spaced :
    (∀ c ∈ [' ', '\u3000'], Text.isBlank c = true) ∧
      NumberForm.dec.wordFormat.parse? (String.ofList (['-'] ++ ([' ', '\u3000'] ++ ['1']))) =
        some 0xFFFF ∧
      ¬ Word.IsSurrogate 0x41 ∧ unicode.parse? (unicode.format 0x41) = some 0x41 ∧
      Word.IsSurrogate 0xDC00 ∧ unicode.format 0xDC00 = "\ufffd" := by
  have hblanks : ∀ c ∈ [' ', '\u3000'], Text.isBlank c = true :=
    List.forall_mem_cons.mpr ⟨by decide, List.forall_mem_singleton.mpr (by decide)⟩
  have hplain : ¬ Word.IsSurrogate 0x41 := by
    rw [Word.IsSurrogate]
    decide
  have hhalf : Word.IsSurrogate 0xDC00 := by
    rw [Word.IsSurrogate]
    decide
  obtain ⟨hnumber, -, hshown, -⟩ := forms_read_back "A" 0x41
  obtain ⟨-, -, -, hreplaced⟩ := forms_read_back "A" 0xDC00
  refine ⟨hblanks, ?_, hplain, hshown hplain, hhalf, hreplaced hhalf⟩
  rw [(hnumber .dec).2.1 ['-'] [' ', '\u3000'] ['1'] hblanks]
  decide

end WordFormat

end Marie
