/-
# Words and addresses

The machine computes with words of 16 bits. An instruction word holds a 4-bit operation code
and a 12-bit operand, and memory has 4096 cells, so that of any word used as an address only
the low 12 bits count.
-/
import Marie.Numeral

namespace Marie

/-- A machine word of 16 bits. -/
abbrev Word := UInt16

/-- The number of words of memory. -/
def memorySize : Nat := 4096

namespace Word

/-- The low 12 bits of a word: its operand, or the address that it names. -/
def low12 (w : Word) : Word :=
  w &&& 0x0FFF

/-- The word that holds a whole number in two's complement. -/
def ofInt (n : Int) : Word :=
  UInt16.ofInt n

/-- The word read as a number in two's complement. -/
def signed (w : Word) : Int :=
  if w < 0x8000 then (w.toNat : Int) else (w.toNat : Int) - 65536

/-- The word for a number between `lo` and 65535. -/
def ofRange? (lo n : Int) : Option Word :=
  if lo ≤ n ∧ n ≤ 0xFFFF then some (ofInt n) else none

/-- The least number that a word can hold in two's complement. -/
def minSigned : Int := -0x8000

/-- The word in upper-case hexadecimal digits, filled up with zeros to a width. -/
def hex (width : Nat) (w : Word) : String :=
  String.ofList (Numeral.paddedDigits 16 width w.toNat)

/-- The low 12 bits are the remainder modulo the size of memory. -/
theorem toNat_low12 (w : Word) : (low12 w).toNat = w.toNat % memorySize := by
  have := Nat.and_two_pow_sub_one_eq_mod w.toNat 12
  simpa [low12, memorySize] using this

/-- The low 12 bits name a cell of memory. -/
theorem low12_lt (w : Word) : (low12 w).toNat < memorySize := by
  rw [toNat_low12]
  exact Nat.mod_lt _ (by decide)

/-- A word that names a cell is its own low 12 bits. -/
theorem low12_eq_self {w : Word} (h : w.toNat < memorySize) : low12 w = w := by
  apply UInt16.toNat_inj.1
  rw [toNat_low12, Nat.mod_eq_of_lt h]

/-- Taking the low 12 bits twice is taking them once. -/
@[simp]
theorem low12_low12 (w : Word) : low12 (low12 w) = low12 w :=
  low12_eq_self (low12_lt w)

end Word

end Marie
