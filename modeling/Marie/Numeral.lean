/-
# Numerals

Whole numbers written in base 2, 8, 10 or 16.

* `digits` writes a natural number with upper-case digits and no leading zeros;
* `value` is what a row of digits stands for, so that it takes back `digits` (`value_digits`);
* `parse` reads a numeral of any length. It takes a sign only in base 10, knows no base marker
  such as `0x`, and answers with a number of 64 bits or with the reason why there is none.
-/
namespace Marie

/-- The bases in which numerals are written. -/
inductive Radix where
  | binary
  | octal
  | decimal
  | hexadecimal
deriving DecidableEq, Repr

/-- The number of digits of a base. -/
def Radix.base : Radix → Nat
  | .binary => 2
  | .octal => 8
  | .decimal => 10
  | .hexadecimal => 16

theorem Radix.two_le_base (radix : Radix) : 2 ≤ radix.base := by
  cases radix <;> decide

theorem Radix.base_le (radix : Radix) : radix.base ≤ 16 := by
  cases radix <;> decide

namespace Numeral

/-! ## Digits -/

/-- The number that an ASCII digit or one of the letters A to F in either case stands for. -/
def digitValue? (c : Char) : Option Nat :=
  if '0' ≤ c ∧ c ≤ '9' then some (c.toNat - '0'.toNat)
  else if 'A' ≤ c ∧ c ≤ 'F' then some (c.toNat - 'A'.toNat + 10)
  else if 'a' ≤ c ∧ c ≤ 'f' then some (c.toNat - 'a'.toNat + 10)
  else none

/-- The digit for a number below 16. -/
def digitChar (n : Nat) : Char :=
  if n < 10 then Char.ofNat ('0'.toNat + n) else Char.ofNat ('A'.toNat + (n - 10))

/-- Whether a character is a digit of the base. -/
def isDigit (radix : Radix) (c : Char) : Bool :=
  match digitValue? c with
  | some n => n < radix.base
  | none => false

/-- Whether a character is one of the ASCII digits 0 to 9. -/
def isDecimalDigit (c : Char) : Bool :=
  isDigit .decimal c

/-- The number that a row of digits stands for. -/
def value (base : Nat) (text : List Char) : Nat :=
  text.foldl (fun n c => n * base + (digitValue? c).getD 0) 0

/-- The digits of a number in a base from 2 to 16. -/
def digits (base n : Nat) : List Char :=
  if _h : n < base ∨ base < 2 then [digitChar n]
  else digits base (n / base) ++ [digitChar (n % base)]
termination_by n
decreasing_by exact Nat.div_lt_self (by omega) (by omega)

/-- The digits of a number, filled up with zeros to a width. -/
def paddedDigits (base width n : Nat) : List Char :=
  (digits base n).leftpad width '0'

/-- Reading back the digit of a number gives the number. -/
theorem digitValue?_digitChar {n : Nat} (h : n < 16) : digitValue? (digitChar n) = some n := by
  have : ∀ i : Fin 16, digitValue? (digitChar i) = some i.val := by decide
  exact this ⟨n, h⟩

/-- A digit of the base has a number below the base. -/
theorem isDigit_iff {radix : Radix} {c : Char} :
    isDigit radix c = true ↔ ∃ n, digitValue? c = some n ∧ n < radix.base := by
  unfold isDigit
  split <;> simp_all

/-- The number of a row of digits grows by one digit at its end. -/
theorem value_append_singleton (base : Nat) (text : List Char) (c : Char) :
    value base (text ++ [c]) = value base text * base + (digitValue? c).getD 0 := by
  simp [value]

theorem digits_ne_nil (base n : Nat) : digits base n ≠ [] := by
  rw [digits]
  split <;> simp

/-- The digits of a number stand for the number. -/
theorem value_digits {base : Nat} (hlo : 2 ≤ base) (hhi : base ≤ 16) (n : Nat) :
    value base (digits base n) = n := by
  induction n using Nat.strongRecOn with
  | ind n ih =>
    rw [digits]
    split
    · have hn : n < 16 := by omega
      simp [value, digitValue?_digitChar hn]
    · have hlt : n / base < n := Nat.div_lt_self (by omega) (by omega)
      have hmod : n % base < 16 := Nat.lt_of_lt_of_le (Nat.mod_lt _ (by omega)) hhi
      rw [value_append_singleton, ih _ hlt, digitValue?_digitChar hmod, Nat.mul_comm]
      exact Nat.div_add_mod n base

/-- Every digit of a number is a digit of the base. -/
theorem isDigit_of_mem_digits {radix : Radix} {n : Nat} {c : Char}
    (h : c ∈ digits radix.base n) : isDigit radix c = true := by
  have hlo := radix.two_le_base
  have hhi := radix.base_le
  induction n using Nat.strongRecOn with
  | ind n ih =>
    rw [digits] at h
    split at h
    · rw [List.mem_singleton.1 h, isDigit_iff]
      exact ⟨n, digitValue?_digitChar (by omega), by omega⟩
    · rcases List.mem_append.1 h with h | h
      · exact ih _ (Nat.div_lt_self (by omega) (by omega)) h
      · have hmod : n % radix.base < radix.base := Nat.mod_lt _ (by omega)
        rw [List.mem_singleton.1 h, isDigit_iff]
        exact ⟨_, digitValue?_digitChar (by omega), hmod⟩

/-! ## Reading -/

/-- Why a text is not a number of 64 bits. -/
inductive Error where
  /-- There is no digit, or a character that is no digit of the base. -/
  | invalidDigits
  /-- The digits are fine, but the number is out of range. -/
  | overflow
deriving DecidableEq, Repr

/-- The sign and the digits of a numeral; only base 10 knows a minus sign. -/
def splitSign : Radix → List Char → Bool × List Char
  | .decimal, '-' :: text => (true, text)
  | _, text => (false, text)

/-- The number that a signed row of digits stands for. -/
def signedValue (radix : Radix) (negative : Bool) (text : List Char) : Int :=
  if negative then -(value radix.base text : Int) else value radix.base text

/-- The number that a text stands for in the given base. -/
def parse (radix : Radix) (text : List Char) : Except Error Int :=
  let (negative, body) := splitSign radix text
  if body.isEmpty || !body.all (isDigit radix) then .error .invalidDigits
  else
    let n := signedValue radix negative body
    if -0x8000000000000000 ≤ n ∧ n < 0x8000000000000000 then .ok n else .error .overflow

end Numeral

end Marie
