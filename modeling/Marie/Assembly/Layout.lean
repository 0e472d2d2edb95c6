/-
# Layout of a source

The first pass over a source goes through its lines in order and decides for each one that is
not blank what becomes of it: it sets the origin, its statement takes the next address, it ends
the source, or there is a problem with it. Nothing is read after the end of the source.

* `layout` lists these decisions, and `symbols`, `sourceMap`, `statements`, `origin` and
  `errors` read off from the list what the program needs.
-/
import Marie.Assembly.Error
import Marie.Program

namespace Marie

/-- A line of source with its number, counted from 1. -/
abbrev NumberedLine := Nat × Except LineError Line

/-- What becomes of a line that is not blank. -/
inductive Placement where
  /-- The line sets the origin. -/
  | origin (addr : Word)
  /-- The statement takes the address. -/
  | placed (addr : Word) (statement : Statement)
  /-- The statement ends the source at the address, which may lie past the last one. -/
  | stop (addr : Option Word) (statement : Statement)
  /-- The statement lies past the end of memory, like one before it. -/
  | dropped (statement : Statement)
  /-- There is a problem with the line. -/
  | refused (problem : AssemblyProblem)
deriving DecidableEq, Repr

namespace Placement

/-- Whether the line ends the source. -/
def isStop : Placement → Bool
  | .stop _ _ => true
  | _ => false

/-- The address that the line has. -/
def addr? : Placement → Option Word
  | .placed addr _ => some addr
  | .stop addr _ => addr
  | _ => none

/-- The statement that becomes a word of the program. -/
def statement? : Placement → Option Statement
  | .placed _ statement => some statement
  | _ => none

/-- The label that the line defines, with its address. -/
def symbol? : Placement → Option (String × Word)
  | .placed addr statement => statement.label.map (·, addr)
  | .stop (some addr) statement => statement.label.map (·, addr)
  | _ => none

/-- The origin that the line sets. -/
def origin? : Placement → Option Word
  | .origin addr => some addr
  | _ => none

/-- The problem with the line. -/
def problem? : Placement → Option AssemblyProblem
  | .refused problem => some problem
  | _ => none

end Placement

/-- How far the layout of a source has come. -/
structure Cursor where
  /-- The origin, once a directive has set it. -/
  origin : Option Word := none
  /-- The number of statements that have an address so far. -/
  size : Nat := 0
  /-- The labels so far, each with the line that defines it. -/
  labels : List (String × Nat) := []
  /-- Whether a statement has been refused for want of memory. -/
  full : Bool := false
deriving DecidableEq, Repr

namespace Cursor

/-- The address of the next statement. -/
def address (cursor : Cursor) : Nat :=
  (cursor.origin.getD 0).toNat + cursor.size

/-- The address of the next statement, if memory reaches so far. -/
def addr? (cursor : Cursor) : Option Word :=
  if cursor.address < memorySize then some (UInt16.ofNat cursor.address) else none

/-- The label of a statement with the earlier line that defines it already. -/
def duplicate? (cursor : Cursor) (statement : Statement) : Option (String × Nat) :=
  statement.label.bind fun label => (cursor.labels.lookup label).map (label, ·)

/-- Remembers the label of a statement. -/
def define (cursor : Cursor) (line : Nat) (statement : Statement) : Cursor :=
  match statement.label with
  | some label => { cursor with labels := (label, line) :: cursor.labels }
  | none => cursor

/-- Decides about an origin directive, which must come first. -/
def placeOrg (cursor : Cursor) (addr : Word) : Placement × Cursor :=
  if cursor.origin.isNone && cursor.size == 0 then
    (.origin addr, { cursor with origin := some addr })
  else (.refused .unexpectedOrg, cursor)

/-- Decides about a statement. -/
def placeStatement (cursor : Cursor) (line : Nat) (statement : Statement) :
    Placement × Cursor :=
  match cursor.duplicate? statement with
  | some (label, firstLine) => (.refused (.duplicateLabel label firstLine), cursor)
  | none =>
    let cursor := cursor.define line statement
    if statement.isEnd then (.stop cursor.addr? statement, cursor)
    else match cursor.addr? with
      | some addr => (.placed addr statement, { cursor with size := cursor.size + 1 })
      | none =>
        if cursor.full then (.dropped statement, cursor)
        else (.refused .programTooLarge, { cursor with full := true })

end Cursor

/-- What becomes of the lines of a source from a point on. -/
def layoutFrom (cursor : Cursor) : List NumberedLine → List (Nat × Placement)
  | [] => []
  | (_, .ok .blank) :: rest => layoutFrom cursor rest
  | (line, .ok (.org addr)) :: rest =>
    let (placement, cursor) := cursor.placeOrg addr
    (line, placement) :: layoutFrom cursor rest
  | (line, .ok (.statement statement)) :: rest =>
    let (placement, cursor) := cursor.placeStatement line statement
    (line, placement) :: if placement.isStop then [] else layoutFrom cursor rest
  | (line, .error e) :: rest =>
    (line, .refused (.ofLineError e)) :: layoutFrom cursor rest

/-- What becomes of each line of a source. -/
def layout (lines : List NumberedLine) : List (Nat × Placement) :=
  layoutFrom {} lines

namespace Layout

/-- The origin of the program, which is 0 if no line sets it. -/
def origin (placements : List (Nat × Placement)) : Word :=
  (placements.findSome? fun p => p.2.origin?).getD 0

/-- The statements that become words, with their lines. -/
def statements (placements : List (Nat × Placement)) : List (Nat × Statement) :=
  placements.filterMap fun p => p.2.statement?.map (p.1, ·)

/-- The address of each label. -/
def symbols (placements : List (Nat × Placement)) : Table String Word :=
  .ofList (placements.filterMap fun p => p.2.symbol?)

/-- The line of each address. -/
def sourceMap (placements : List (Nat × Placement)) : Table Word Nat :=
  .ofList (placements.filterMap fun p => p.2.addr?.map (·, p.1))

/-- The problems with the lines. -/
def errors (placements : List (Nat × Placement)) : List AssemblyError :=
  placements.filterMap fun p => p.2.problem?.map (⟨·, p.1⟩)

end Layout

end Marie
