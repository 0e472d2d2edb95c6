/-
# Assembly

A source becomes a program in two passes: its lines are laid out in memory, and then each
statement is encoded with the addresses that the labels have got. Neither pass stops at a
problem, so that all of them are reported; with any problem there is no program.
-/
import Marie.Assembly.Encoding
import Marie.Assembly.Layout
import Marie.Text.Basic

namespace Marie

/-- The lines of a source with their numbers and what each says. -/
def sourceLines (source : String) : List NumberedLine :=
  ((Text.lines source.toList).map Line.parse).zipIdx 1 |>.map fun (line, n) => (n, line)

/-- The statements with the word or the problem of each. -/
def encodings (placements : List (Nat × Placement)) :
    List (Nat × Except AssemblyProblem Word) :=
  let symbols := Layout.symbols placements
  (Layout.statements placements).map fun (line, statement) => (line, statement.encode symbols)

/-- The problems that the second pass finds. -/
def encodingErrors (placements : List (Nat × Placement)) : List AssemblyError :=
  (encodings placements).filterMap fun
    | (line, .error problem) => some ⟨problem, line⟩
    | (_, .ok _) => none

/-- The words that the second pass makes. -/
def encodedWords (placements : List (Nat × Placement)) : List Word :=
  (encodings placements).filterMap fun
    | (_, .error _) => none
    | (_, .ok w) => some w

/-- The program of a layout. -/
def Program.ofLayout (placements : List (Nat × Placement)) : Program where
  origin := Layout.origin placements
  words := encodedWords placements
  symbols := Layout.symbols placements
  sourceMap := Layout.sourceMap placements

/-- The program of a list of source lines, or all problems in the order in which the two passes
find them. -/
def assembleLines (lines : List NumberedLine) : Except (List AssemblyError) Program :=
  let placements := layout lines
  let errors := Layout.errors placements ++ encodingErrors placements
  if errors.isEmpty then .ok (.ofLayout placements) else .error errors

/-- The program of a source, or all problems with it. -/
def assemble (source : String) : Except (List AssemblyError) Program :=
  assembleLines (sourceLines source)

end Marie
