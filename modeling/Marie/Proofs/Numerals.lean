/-
# Numerals of any length

A text stands for a number by the places of its digits, however many there are, and a number is
read if it has 64 bits. Reading works with numbers of 64 bits alone: it takes in one digit after
the other, and gives up as soon as a product or a sum has no room. It gives up exactly if the whole
numeral is out of range.

* `Numeral.Denotes` : the number that a text stands for;
* `Numeral.collect?_eq` : taking in the digits in 64 bits loses nothing and does not give up too
  early;
* `Numeral.parse_exact` : what is read of a text, for every text.
-/
import Marie.Proofs.Encoding
import Mathlib.Data.List.Forall2
import Mathlib.Data.Nat.Digits.Defs

namespace Marie.Numeral

variable {radix : Radix} {text body : List Char} {negative : Bool} {base m n : Nat}

/-! ## Places of digits -/

/-- A character is the digit of a base for a number: one of the ASCII digits and letters, in the
order of their values and with the letters in either case. -/
def IsDigitFor (radix : Radix) (c : Char) (d : Nat) : Prop :=
  d < radix.base ∧
    ("0123456789ABCDEF".toList[d]? = some c ∨ "0123456789abcdef".toList[d]? = some c)

/-- Only ASCII characters have a value. -/
theorem toNat_lt_of_digitValue? {c : Char} {d : Nat} (h : digitValue? c = some d) :
    c.toNat < 128 := by
  have hlt {last : Char} (hle : c ≤ last) (hlast : last.toNat < 128) : c.toNat < 128 :=
    Nat.lt_of_le_of_lt (UInt32.le_iff_toNat_le.mp (Char.le_def.mp hle)) hlast
  unfold digitValue? at h
  split at h
  · rename_i hrange
    exact hlt hrange.2 (by decide)
  · split at h
    · rename_i hrange
      exact hlt hrange.2 (by decide)
    · split at h
      · rename_i hrange
        exact hlt hrange.2 (by decide)
      · cases h

/-- The digits are the characters that have a value below the base. -/
theorem isDigitFor_iff {c : Char} {d : Nat} :
    IsDigitFor radix c d ↔ digitValue? c = some d ∧ d < radix.base := by
  rw [IsDigitFor, and_comm]
  refine and_congr_left fun hlt => ?_
  have hsmall : d < 16 := Nat.lt_of_lt_of_le hlt radix.base_le
  constructor
  · intro h
    have htable : ∀ i : Fin 16,
        "0123456789ABCDEF".toList[i.val]?.bind digitValue? = some i.val ∧
          "0123456789abcdef".toList[i.val]?.bind digitValue? = some i.val := by
      decide
    have hvalue := htable ⟨d, hsmall⟩
    rcases h with h | h
    · rw [h] at hvalue
      exact hvalue.1
    · rw [h] at hvalue
      exact hvalue.2
  · intro h
    have htable : ∀ i : Fin 128, ∀ d ∈ digitValue? (Char.ofNat i.val),
        "0123456789ABCDEF".toList[d]? = some (Char.ofNat i.val) ∨
          "0123456789abcdef".toList[d]? = some (Char.ofNat i.val) := by
      decide +kernel
    have hc := htable ⟨c.toNat, toNat_lt_of_digitValue? h⟩ d
    rw [Char.ofNat_toNat] at hc
    exact hc h

/-- The characters that are digits are those that reading takes for digits. -/
theorem exists_isDigitFor_iff {c : Char} :
    (∃ d, IsDigitFor radix c d) ↔ isDigit radix c = true := by
  simp only [isDigitFor_iff, isDigit_iff]

/-- The value of a row of digits is the sum of their values by their places, the last digit being
that of the units. -/
theorem value_eq_ofDigits {ds : List Nat} (h : List.Forall₂ (IsDigitFor radix) body ds) :
    value radix.base body = Nat.ofDigits radix.base ds.reverse := by
  rw [Nat.ofDigits_eq_foldr, List.foldr_reverse, value]
  -- induction along both rows, from the value of the digits before them
  suffices hfrom : ∀ n : Nat, body.foldl (fun n c => n * radix.base + (digitValue? c).getD 0) n =
      ds.foldl (fun n d => (d : Nat) + radix.base * n) n from hfrom 0
  induction h with
  | nil => exact fun n => rfl
  | @cons c d body ds hdigit _ ih =>
      intro n
      obtain ⟨hvalue, -⟩ := isDigitFor_iff.mp hdigit
      rw [List.foldl_cons, List.foldl_cons, hvalue, Option.getD_some, Nat.mul_comm n,
        Nat.add_comm, ih]

/-- A row of characters that are digits has a row of values. -/
theorem exists_forall₂_of_isDigit (h : ∀ c ∈ body, isDigit radix c = true) :
    ∃ ds, List.Forall₂ (IsDigitFor radix) body ds := by
  induction body with
  | nil => exact ⟨[], .nil⟩
  | cons c body ih =>
      obtain ⟨hfirst, hrest⟩ := List.forall_mem_cons.mp h
      obtain ⟨d, hd⟩ := exists_isDigitFor_iff.mpr hfirst
      obtain ⟨ds, hds⟩ := ih hrest
      exact ⟨d :: ds, .cons hd hds⟩

/-- A row of characters that has a row of values is made of digits. -/
theorem isDigit_of_forall₂ {ds : List Nat} (h : List.Forall₂ (IsDigitFor radix) body ds) :
    ∀ c ∈ body, isDigit radix c = true := by
  induction h with
  | nil => simp
  | cons hdigit _ ih => exact List.forall_mem_cons.mpr ⟨exists_isDigitFor_iff.mp ⟨_, hdigit⟩, ih⟩

/-! ## Numbers -/

/-- A text is a sign with the rest behind it. Only base 10 knows a minus sign, and there it is
always taken for one. -/
inductive Signed (radix : Radix) : List Char → Bool → List Char → Prop
  | minus {body : List Char} (hdecimal : radix = .decimal) : Signed radix ('-' :: body) true body
  | plain {text : List Char} (h : radix = .decimal → text.head? ≠ some '-') :
      Signed radix text false text

/-- The number with a sign. -/
def withSign (negative : Bool) (n : Nat) : Int :=
  if negative then -(n : Int) else n

/-- The number that a text stands for in a base: that of its digits by their places, with its
sign. -/
inductive Denotes (radix : Radix) (text : List Char) : Int → Prop
  | intro {negative : Bool} {body : List Char} {ds : List Nat}
      (hsign : Signed radix text negative body) (hne : body ≠ [])
      (hdigits : List.Forall₂ (IsDigitFor radix) body ds) :
      Denotes radix text (withSign negative (Nat.ofDigits radix.base ds.reverse))

/-- The sign is the one that reading splits off. -/
theorem signed_iff : Signed radix text negative body ↔ splitSign radix text = (negative, body) := by
  constructor
  · rintro (⟨rfl⟩ | hplain)
    · rfl
    · exact splitSign_of_ne fun rest hdecimal htext => hplain hdecimal (by rw [htext]; rfl)
  · intro h
    unfold splitSign at h
    split at h
    · cases h
      exact .minus rfl
    · rename_i hno
      cases h
      refine .plain fun hdecimal hhead => ?_
      obtain ⟨rest, rfl⟩ := List.head?_eq_some_iff.mp hhead
      exact hno rest hdecimal rfl

/-- The number of a text in terms of its sign and the rest. -/
theorem denotes_iff (hsign : Signed radix text negative body) {n : Int} :
    Denotes radix text n ↔
      body ≠ [] ∧ (∀ c ∈ body, isDigit radix c = true) ∧ n = signedValue radix negative body := by
  constructor
  · rintro ⟨hsign', hne, hdigits⟩
    have hsame := (signed_iff.mp hsign).symm.trans (signed_iff.mp hsign')
    obtain ⟨rfl, rfl⟩ := Prod.mk.inj hsame
    refine ⟨hne, isDigit_of_forall₂ hdigits, ?_⟩
    rw [← value_eq_ofDigits hdigits]
    rfl
  · rintro ⟨hne, hdigits, rfl⟩
    obtain ⟨ds, hds⟩ := exists_forall₂_of_isDigit hdigits
    have hnumber : signedValue radix negative body =
        withSign negative (Nat.ofDigits radix.base ds.reverse) := by
      rw [← value_eq_ofDigits hds]
      rfl
    rw [hnumber]
    exact .intro hsign hne hds

/-! ## Reading in 64 bits -/

/-- The number in 64 bits, if there is room for it. -/
def int64? (n : Int) : Option Int64 :=
  if -0x8000000000000000 ≤ n ∧ n < 0x8000000000000000 then some (Int64.ofInt n) else none

/-- Takes in one more digit: multiplies what was read so far by the base, and adds the digit, or
subtracts it behind a minus sign. -/
def takeDigit? (negative : Bool) (base : Nat) (i : Int64) (c : Char) : Option Int64 :=
  (int64? (i.toInt * base)).bind fun product =>
    int64? (product.toInt + withSign negative ((digitValue? c).getD 0))

/-- Takes in digits one after the other. -/
def collect? (negative : Bool) (base : Nat) (body : List Char) : Option Int64 :=
  body.foldlM (takeDigit? negative base) 0

/-- Reads a numeral in 64 bits: looks at its characters, and then takes in its digits. -/
def parseInt64 (radix : Radix) (text : List Char) : Except Error Int64 :=
  let (negative, body) := splitSign radix text
  if body.isEmpty || !body.all (isDigit radix) then .error .invalidDigits
  else match collect? negative radix.base body with
    | some i => .ok i
    | none => .error .overflow

/-- The number of 64 bits is the number, if there is room for it. -/
theorem toInt_of_int64? {n : Int} {i : Int64} (h : int64? n = some i) : i.toInt = n := by
  unfold int64? at h
  split at h
  · rename_i hrange
    cases h
    exact Int64.toInt_ofInt_of_le hrange.1 hrange.2
  · cases h

theorem int64?_eq_none_iff {n : Int} :
    int64? n = none ↔ n < -0x8000000000000000 ∨ 0x8000000000000000 ≤ n := by
  unfold int64?
  split
  · simp only [reduceCtorEq, false_iff]
    omega
  · simp only [true_iff]
    omega

/-- What has no room has none with more digits behind it. -/
theorem int64?_withSign_eq_none (hle : m ≤ n) (h : int64? (withSign negative m) = none) :
    int64? (withSign negative n) = none := by
  rw [int64?_eq_none_iff] at h ⊢
  cases negative with
  | true =>
      simp only [withSign, if_true] at h ⊢
      omega
  | false =>
      simp only [withSign, Bool.false_eq_true, if_false] at h ⊢
      omega

/-- A digit is taken in if there is room for the number with it. -/
theorem takeDigit?_eq {i : Int64} (hi : i.toInt = withSign negative n) (c : Char) :
    takeDigit? negative base i c =
      int64? (withSign negative (n * base + (digitValue? c).getD 0)) := by
  have hproduct : i.toInt * base = withSign negative (n * base) := by
    rw [hi, withSign, withSign, Nat.cast_mul, ← Int.neg_mul, ite_mul]
  have hsum (d : Nat) : withSign negative (n * base) + withSign negative d =
      withSign negative (n * base + d) := by
    cases negative with
    | true =>
        simp only [withSign, if_true]
        omega
    | false => exact (Nat.cast_add (n * base) d).symm
  rw [takeDigit?, hproduct]
  cases hroom : int64? (withSign negative (n * base)) with
  | none => exact (int64?_withSign_eq_none (Nat.le_add_right _ _) hroom).symm
  | some product => rw [Option.bind_some, toInt_of_int64? hroom, hsum]

/-- The value does not get smaller with more digits. -/
theorem le_foldl_digits (hbase : 1 ≤ base) (body : List Char) (n : Nat) :
    n ≤ body.foldl (fun n c => n * base + (digitValue? c).getD 0) n := by
  induction body generalizing n with
  | nil => exact Nat.le_refl n
  | cons c body ih =>
      refine Nat.le_trans ?_ (ih _)
      exact Nat.le_trans (Nat.le_mul_of_pos_right n hbase) (Nat.le_add_right _ _)

/-- Taking in digits gives the number of all of them if there is room for it, and otherwise gives
up. -/
theorem collect?_eq (hbase : 1 ≤ base) (negative : Bool) (body : List Char) :
    collect? negative base body = int64? (withSign negative (value base body)) := by
  -- induction on the digits that are left, from the number of those taken in
  suffices h : ∀ (n : Nat) (i : Int64), int64? (withSign negative n) = some i →
      body.foldlM (takeDigit? negative base) i = int64? (withSign negative
        (body.foldl (fun n c => n * base + (digitValue? c).getD 0) n)) by
    refine h 0 0 ?_
    cases negative <;> rfl
  induction body with
  | nil => exact fun n i hi => hi.symm
  | cons c body ih =>
      intro n i hi
      rw [List.foldlM_cons, takeDigit?_eq (toInt_of_int64? hi), List.foldl_cons]
      cases hroom : int64? (withSign negative (n * base + (digitValue? c).getD 0)) with
      | none => exact (int64?_withSign_eq_none (le_foldl_digits hbase body _) hroom).symm
      | some j => exact ih _ j hroom

/-- Reading in 64 bits is reading. -/
theorem parse_eq_parseInt64 (radix : Radix) (text : List Char) :
    parse radix text = (parseInt64 radix text).map Int64.toInt := by
  rw [parse, parseInt64]
  rcases splitSign radix text with ⟨negative, body⟩
  simp only
  split
  · rfl
  · have hcollect := collect?_eq (Nat.le_of_succ_le radix.two_le_base) negative body
    have hnumber : withSign negative (value radix.base body) =
        signedValue radix negative body := rfl
    rw [hnumber] at hcollect
    rw [hcollect]
    split
    · rename_i hrange
      have hroom : int64? (signedValue radix negative body) =
          some (Int64.ofInt (signedValue radix negative body)) := if_pos hrange
      rw [hroom]
      exact congrArg Except.ok (toInt_of_int64? hroom).symm
    · rename_i hrange
      have hroom : int64? (signedValue radix negative body) = none := if_neg hrange
      rw [hroom]
      rfl

/-! ## Every text -/

/-- What is read of a text: its number if it has 64 bits, that it has more, or that it is no
numeral. -/
inductive Reads (radix : Radix) (text : List Char) : Except Error Int → Prop
  | number {n : Int} (h : Denotes radix text n)
      (hrange : -0x8000000000000000 ≤ n ∧ n < 0x8000000000000000) : Reads radix text (.ok n)
  | overflow {n : Int} (h : Denotes radix text n)
      (hrange : n < -0x8000000000000000 ∨ 0x8000000000000000 ≤ n) :
      Reads radix text (.error .overflow)
  | invalid {negative : Bool} {body : List Char} (hsign : Signed radix text negative body)
      (h : body = [] ∨ ∃ c ∈ body, ∀ d, ¬ IsDigitFor radix c d) :
      Reads radix text (.error .invalidDigits)

/-- Something is read of every text. -/
theorem reads_parse (radix : Radix) (text : List Char) :
    Reads radix text (parse radix text) := by
  have hsplit : splitSign radix text = ((splitSign radix text).1, (splitSign radix text).2) := rfl
  have hsign := signed_iff.mpr hsplit
  rw [parse]
  generalize splitSign radix text = split at hsign
  obtain ⟨negative, body⟩ := split
  simp only
  split
  · rename_i hbad
    refine .invalid hsign ?_
    rw [Bool.or_eq_true, List.isEmpty_iff, Bool.not_eq_true', List.all_eq_false] at hbad
    refine hbad.imp_right fun ⟨c, hc, hno⟩ => ⟨c, hc, fun d hd => ?_⟩
    exact hno (exists_isDigitFor_iff.mp ⟨d, hd⟩)
  · rename_i hgood
    have hdenotes : Denotes radix text (signedValue radix negative body) := by
      rw [denotes_iff hsign]
      simpa [List.isEmpty_iff] using hgood
    split
    · rename_i hrange
      exact .number hdenotes hrange
    · rename_i hrange
      exact .overflow hdenotes (by omega)

/-- A text stands for one number at most. -/
theorem Denotes.unique {n k : Int} (h : Denotes radix text n) (h' : Denotes radix text k) :
    n = k := by
  obtain ⟨hsign, hne, hdigits⟩ := h
  rw [denotes_iff hsign] at h'
  rw [h'.2.2, ← value_eq_ofDigits hdigits]
  rfl

/-- What is no numeral stands for no number. -/
theorem Denotes.not_invalid {k : Int} (h : Denotes radix text k)
    (hsign : Signed radix text negative body)
    (hinvalid : body = [] ∨ ∃ c ∈ body, ∀ d, ¬ IsDigitFor radix c d) : False := by
  obtain ⟨hne, hdigits, -⟩ := (denotes_iff hsign).mp h
  rcases hinvalid with rfl | ⟨c, hc, hno⟩
  · exact hne rfl
  · obtain ⟨d, hd⟩ := exists_isDigitFor_iff.mpr (hdigits c hc)
    exact hno d hd

/-- Only one thing is read of a text. -/
theorem Reads.unique {a b : Except Error Int} (h : Reads radix text a) (h' : Reads radix text b) :
    a = b := by
  cases h with
  | number h hrange =>
      cases h' with
      | number h' _ => rw [h.unique h']
      | overflow h' hrange' =>
          rw [h.unique h'] at hrange
          omega
      | invalid hsign hinvalid => exact (h.not_invalid hsign hinvalid).elim
  | overflow h hrange =>
      cases h' with
      | number h' hrange' =>
          rw [h.unique h'] at hrange
          omega
      | overflow _ _ => rfl
      | invalid hsign hinvalid => exact (h.not_invalid hsign hinvalid).elim
  | invalid hsign hinvalid =>
      cases h' with
      | number h' _ => exact (h'.not_invalid hsign hinvalid).elim
      | overflow h' _ => exact (h'.not_invalid hsign hinvalid).elim
      | invalid _ _ => rfl

/-- What is read is all that there is to read. -/
theorem parse_eq_iff_reads {result : Except Error Int} :
    parse radix text = result ↔ Reads radix text result := by
  constructor
  · rintro rfl
    exact reads_parse radix text
  · exact (reads_parse radix text).unique

/-- A number is read exactly if the text stands for it and it has 64 bits. -/
theorem parse_eq_ok_iff_denotes {n : Int} :
    parse radix text = .ok n ↔
      Denotes radix text n ∧ -0x8000000000000000 ≤ n ∧ n < 0x8000000000000000 := by
  rw [parse_eq_iff_reads]
  constructor
  · intro h
    cases h with
    | number h hrange => exact ⟨h, hrange⟩
  · exact fun ⟨h, hrange⟩ => .number h hrange

/-- Of every text, in each of the bases, is read what it stands for: the number of its digits by
their places if it has 64 bits, that it has more, or that there are no digits or other characters
among them. Reading it in 64 bits, digit by digit, comes to the same. -/
theorem parse_exact (radix : Radix) (text : List Char) (result : Except Error Int) :
    (parse radix text = result ↔ Reads radix text result) ∧
      parse radix text = (parseInt64 radix text).map Int64.toInt :=
  ⟨parse_eq_iff_reads, parse_eq_parseInt64 radix text⟩

example :
    parse .decimal "-009223372036854775808".toList = .ok (-0x8000000000000000) ∧
      parse .decimal "9223372036854775808".toList = .error .overflow ∧
      parse .hexadecimal "-1".toList = .error .invalidDigits := by
  decide

end Marie.Numeral
