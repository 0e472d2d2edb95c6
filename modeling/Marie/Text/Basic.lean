/-
# Texts

Texts as rows of characters: kinds of characters, lines, and digits in groups.

* A property of characters is given by the code points that have it, written as a list of runs
  (`inRuns_iff`).
* Blank characters separate words: `trim` drops them at both ends of a text, and `dense` drops
  them everywhere and leaves none (`isBlank_of_mem_dense`).
* `lines` cuts a text at its line ends.
* `grouped` sets digits in groups; cutting them into pieces loses nothing (`flatten_chunks`).
-/
namespace Marie.Text

/-! ## Runs of code points -/

/-- The first and the last code point of a run. -/
abbrev CodeRun := Nat × Nat

/-- Whether the code point of a character lies in one of the runs. -/
def inRuns (runs : List CodeRun) (c : Char) : Bool :=
  runs.any fun run => decide (run.1 ≤ c.toNat) && decide (c.toNat ≤ run.2)

/-- A character lies in the runs exactly when one of them brackets its code point. -/
theorem inRuns_iff {runs : List CodeRun} {c : Char} :
    inRuns runs c = true ↔ ∃ run ∈ runs, run.1 ≤ c.toNat ∧ c.toNat ≤ run.2 := by
  simp [inRuns]

/-! ## Blank characters

The tabulators and line ends of ASCII, the space, and the spaces and separators of the other
scripts. The zero-width space is not one of them.
-/

/-- The runs of blank characters. -/
def blankRuns : List CodeRun :=
  [(0x9, 0xD), (0x20, 0x20), (0x85, 0x85), (0xA0, 0xA0), (0x1680, 0x1680), (0x2000, 0x200A),
   (0x2028, 0x2029), (0x202F, 0x202F), (0x205F, 0x205F), (0x3000, 0x3000)]

/-- Whether a character is blank. -/
def isBlank (c : Char) : Bool :=
  inRuns blankRuns c

/-- The text without the blank characters at its front. -/
def trimLeft (text : List Char) : List Char :=
  text.dropWhile isBlank

/-- The text without the blank characters at its two ends. -/
def trim (text : List Char) : List Char :=
  (trimLeft (trimLeft text).reverse).reverse

/-- The text without any of its blank characters. -/
def dense (text : List Char) : List Char :=
  text.filter fun c => !isBlank c

/-- What is left after dropping the blank characters holds none. -/
theorem isBlank_of_mem_dense {text : List Char} {c : Char} (h : c ∈ dense text) :
    isBlank c = false := by
  simpa [dense] using (List.mem_filter.1 h).2

/-- A text without blank characters stays as it is. -/
theorem dense_eq_self {text : List Char} (h : ∀ c ∈ text, isBlank c = false) :
    dense text = text := by
  simpa [dense, List.filter_eq_self] using h

/-! ## Lines

A line ends with a line feed, and a carriage return directly before the line feed belongs to
the line end. What follows the last line feed is a line of its own, unless it is empty.
-/

/-- The text without a carriage return at its end. -/
def dropReturn (text : List Char) : List Char :=
  if text.getLast? = some '\r' then text.dropLast else text

/-- The lines of a text, without their line ends. -/
def lines (text : List Char) : List (List Char) :=
  match text with
  | [] => []
  | c :: cs =>
    let line := (c :: cs).takeWhile (· ≠ '\n')
    match _h : (c :: cs).dropWhile (· ≠ '\n') with
    | [] => [line]
    | _ :: rest => dropReturn line :: lines rest
termination_by text.length
decreasing_by
  have hle := (List.dropWhile_sublist (· ≠ '\n') (l := c :: cs)).length_le
  rw [_h] at hle
  simp only [List.length_cons] at hle ⊢
  omega

@[simp]
theorem lines_nil : lines [] = [] := by
  rw [lines]

/-! ## Grouped digits

Groups of equal size are set apart by one space and counted from the right: the first group takes
what is left over.
-/

/-- Cuts a text into pieces of the given size; the last one may be shorter. -/
def chunks (size : Nat) (text : List Char) : List (List Char) :=
  match text with
  | [] => []
  | c :: cs =>
    if size = 0 then [c :: cs]
    else (c :: cs).take size :: chunks size ((c :: cs).drop size)
termination_by text.length
decreasing_by simp only [List.length_drop, List.length_cons]; omega

/-- The pieces in a row are the text. -/
theorem flatten_chunks (size : Nat) (text : List Char) : (chunks size text).flatten = text := by
  fun_induction chunks size text with
  | case1 => rfl
  | case2 => simp
  | case3 c cs hsize ih => rw [List.flatten_cons, ih, List.take_append_drop]

/-- The size of the first group: the remainder, or a whole group if there is none. -/
def leadSize (size : Nat) (text : List Char) : Nat :=
  if text.length % size = 0 then size else text.length % size

/-- The digits in groups of the given size. -/
def grouped (size : Nat) (text : List Char) : List Char :=
  text.take (leadSize size text) ++
    (chunks size (text.drop (leadSize size text))).flatMap (' ' :: ·)

@[simp]
theorem grouped_nil (size : Nat) : grouped size [] = [] := by
  simp [grouped, chunks]

end Marie.Text
