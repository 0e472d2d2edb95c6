/-
# Registers

The machine has seven registers. The two that hold addresses, PC and MAR, are 12 bits wide
and the others 16; a value is cut to the width of the register that it is written to.

* `Registers.get_set` says what one write does to every register.
-/
import Marie.Word
import Marie.Text.Lowercase

namespace Marie

/-- The name of a register. -/
inductive Reg where
  /-- The accumulator. -/
  | ac
  /-- The input register. -/
  | inp
  /-- The instruction register. -/
  | ir
  /-- The memory address register. -/
  | mar
  /-- The memory buffer register. -/
  | mbr
  /-- The output register. -/
  | out
  /-- The program counter. -/
  | pc
deriving DecidableEq, Repr

namespace Reg

/-- All registers, in the order in which they are listed. -/
def all : List Reg :=
  [.ac, .inp, .ir, .mar, .mbr, .out, .pc]

/-- The name of the register as it is written. -/
def name : Reg → String
  | .ac => "AC"
  | .inp => "IN"
  | .ir => "IR"
  | .mar => "MAR"
  | .mbr => "MBR"
  | .out => "OUT"
  | .pc => "PC"

/-- The bits that the register holds. -/
def mask : Reg → Word
  | .mar | .pc => 0x0FFF
  | _ => 0xFFFF

/-- The place of the register in the list of all. -/
def index : Reg → Nat
  | .ac => 0
  | .inp => 1
  | .ir => 2
  | .mar => 3
  | .mbr => 4
  | .out => 5
  | .pc => 6

/-- The register with the given name, in capital or small letters. -/
def ofName? (text : String) : Option Reg :=
  all.find? fun reg => Text.sameLetters reg.name.toList text.toList

/-- A value cut to the width of the register. -/
def fit (reg : Reg) (w : Word) : Word :=
  w &&& reg.mask

theorem mem_all (reg : Reg) : reg ∈ all := by
  cases reg <;> decide

@[simp]
theorem fit_pc (w : Word) : Reg.pc.fit w = Word.low12 w :=
  rfl

@[simp]
theorem fit_mar (w : Word) : Reg.mar.fit w = Word.low12 w :=
  rfl

/-- The registers other than PC and MAR hold every word. -/
theorem fit_wide {reg : Reg} (hpc : reg ≠ .pc) (hmar : reg ≠ .mar) (w : Word) :
    reg.fit w = w := by
  have hw : w &&& 0xFFFF = w := by
    apply UInt16.toNat_inj.1
    have := Nat.and_two_pow_sub_one_eq_mod w.toNat 16
    have hlt := w.toNat_lt
    simp only [UInt16.toNat_and]
    rw [show (0xFFFF : UInt16).toNat = 2 ^ 16 - 1 from rfl, this]
    omega
  cases reg <;> first | exact hw | contradiction

/-- Cutting to the width of a register twice is cutting once. -/
@[simp]
theorem fit_fit (reg : Reg) (w : Word) : reg.fit (reg.fit w) = reg.fit w := by
  by_cases hpc : reg = .pc
  · subst hpc; simp
  · by_cases hmar : reg = .mar
    · subst hmar; simp
    · rw [fit_wide hpc hmar]

end Reg

/-- The contents of the seven registers. -/
structure Registers where
  ac : Word := 0
  inp : Word := 0
  ir : Word := 0
  mar : Word := 0
  mbr : Word := 0
  out : Word := 0
  pc : Word := 0
deriving DecidableEq, Repr

namespace Registers

/-- The content of a register. -/
def get (regs : Registers) : Reg → Word
  | .ac => regs.ac
  | .inp => regs.inp
  | .ir => regs.ir
  | .mar => regs.mar
  | .mbr => regs.mbr
  | .out => regs.out
  | .pc => regs.pc

/-- Writes a value to a register, cut to its width. -/
def set (regs : Registers) (reg : Reg) (w : Word) : Registers :=
  match reg with
  | .ac => { regs with ac := Reg.ac.fit w }
  | .inp => { regs with inp := Reg.inp.fit w }
  | .ir => { regs with ir := Reg.ir.fit w }
  | .mar => { regs with mar := Reg.mar.fit w }
  | .mbr => { regs with mbr := Reg.mbr.fit w }
  | .out => { regs with out := Reg.out.fit w }
  | .pc => { regs with pc := Reg.pc.fit w }

/-- The contents in the order of `Reg.all`. -/
def toList (regs : Registers) : List Word :=
  [regs.ac, regs.inp, regs.ir, regs.mar, regs.mbr, regs.out, regs.pc]

/-- The registers with the given contents, if there are seven. -/
def ofList? : List Word → Option Registers
  | [ac, inp, ir, mar, mbr, out, pc] => some { ac, inp, ir, mar, mbr, out, pc }
  | _ => none

/-- After a write the register holds the value cut to its width, and the others are as they
were. -/
theorem get_set (regs : Registers) (reg : Reg) (w : Word) (other : Reg) :
    (regs.set reg w).get other = if other = reg then reg.fit w else regs.get other := by
  cases reg <;> cases other <;> rfl

/-- Registers with the same contents are the same. -/
@[ext]
theorem ext_get {a b : Registers} (h : ∀ reg, a.get reg = b.get reg) : a = b := by
  have h0 := h .ac
  have h1 := h .inp
  have h2 := h .ir
  have h3 := h .mar
  have h4 := h .mbr
  have h5 := h .out
  have h6 := h .pc
  cases a; cases b
  simp_all [get]

@[simp]
theorem ofList?_toList (regs : Registers) : ofList? regs.toList = some regs :=
  rfl

/-- The list of contents goes through the registers in their order. -/
theorem toList_eq_map_get (regs : Registers) : regs.toList = Reg.all.map regs.get :=
  rfl

end Registers

end Marie
