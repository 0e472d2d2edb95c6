/-
# Memory

The 4096 words of memory. Every word may serve as an address; its low 12 bits pick the cell.

* `Memory.get_set` says what one write does to every cell;
* `Memory.load?_isSome` says which blocks fit, and `Memory.get_ofBlock` what memory holds
  then.
-/
import Marie.Word

namespace Marie

/-- The contents of memory. -/
structure Memory where
  cells : Vector Word memorySize
deriving DecidableEq

namespace Memory

/-- The cell that an address picks. -/
def cell (addr : Word) : Fin memorySize :=
  ⟨addr.toNat % memorySize, Nat.mod_lt _ (by decide)⟩

/-- Memory with all words zero. -/
def zero : Memory :=
  ⟨Vector.replicate memorySize 0⟩

instance : Inhabited Memory :=
  ⟨zero⟩

/-- The word at an address. -/
def get (mem : Memory) (addr : Word) : Word :=
  mem.cells[cell addr]

/-- Writes a word to an address. -/
def set (mem : Memory) (addr w : Word) : Memory :=
  ⟨mem.cells.set (cell addr).val w (cell addr).isLt⟩

/-- Memory that holds a block from a start on and zeros elsewhere. -/
def ofBlock (start : Nat) (block : List Word) : Memory :=
  let words := block.toArray
  ⟨Vector.ofFn fun i => if start ≤ i.val then words.getD (i.val - start) 0 else 0⟩

/-- Memory that holds a block from a start on and zeros elsewhere, if the block fits. -/
def load? (start : Word) (block : List Word) : Option Memory :=
  if start.toNat + block.length ≤ memorySize then some (ofBlock start.toNat block) else none

/-- All words in the order of their addresses. -/
def toList (mem : Memory) : List Word :=
  mem.cells.toList

/-- The cells of `after` whose words differ from those of `before`, with their new words. -/
def changes (before after : Memory) : List (Nat × Word) :=
  ((before.cells.toList.zip after.cells.toList).zipIdx).filterMap fun ((old, new), i) =>
    if old = new then none else some (i, new)

theorem cell_val (addr : Word) : (cell addr).val = addr.toNat % memorySize :=
  rfl

/-- Two addresses pick the same cell when their low 12 bits agree. -/
theorem cell_eq_iff {a b : Word} : cell a = cell b ↔ Word.low12 a = Word.low12 b := by
  rw [Fin.ext_iff, cell_val, cell_val, ← UInt16.toNat_inj, Word.toNat_low12, Word.toNat_low12]

@[simp]
theorem cell_low12 (addr : Word) : cell (Word.low12 addr) = cell addr := by
  rw [cell_eq_iff, Word.low12_low12]

/-- After a write the cell holds the word, and the others are as they were. -/
theorem get_set (mem : Memory) (addr w other : Word) :
    (mem.set addr w).get other = if cell other = cell addr then w else mem.get other := by
  simp only [get, set, Fin.getElem_fin, Vector.getElem_set, Fin.ext_iff]
  by_cases h : (cell addr).val = (cell other).val
  · simp [h]
  · simp [h, Ne.symm h]

@[simp]
theorem get_low12 (mem : Memory) (addr : Word) : mem.get (Word.low12 addr) = mem.get addr := by
  simp only [get, cell_low12]

@[simp]
theorem set_low12 (mem : Memory) (addr w : Word) :
    mem.set (Word.low12 addr) w = mem.set addr w := by
  simp only [set, cell_low12]

/-- Memories with the same words are the same. -/
@[ext]
theorem ext_get {a b : Memory} (h : ∀ addr, a.get addr = b.get addr) : a = b := by
  cases a with
  | mk xs =>
    cases b with
    | mk ys =>
      congr
      apply Vector.ext
      intro i hi
      have hlt : i < 65536 := Nat.lt_of_lt_of_le hi (by decide)
      have hc : cell (UInt16.ofNat i) = ⟨i, hi⟩ := by
        apply Fin.ext
        rw [cell_val, UInt16.toNat_ofNat_of_lt' hlt, Nat.mod_eq_of_lt hi]
      have := h (UInt16.ofNat i)
      simpa [get, hc, Fin.getElem_fin] using this

/-- A block fits exactly when it ends within memory. -/
theorem load?_isSome (start : Word) (block : List Word) :
    (load? start block).isSome = true ↔ start.toNat + block.length ≤ memorySize := by
  unfold load?
  split <;> simp_all

/-- A memory that a block was loaded into holds its words from the start on, and zeros. -/
theorem get_ofBlock (start : Nat) (block : List Word) (addr : Word) :
    (ofBlock start block).get addr =
      if start ≤ (cell addr).val then (block[(cell addr).val - start]?).getD 0 else 0 := by
  simp [get, ofBlock, Fin.getElem_fin]

end Memory

end Marie
