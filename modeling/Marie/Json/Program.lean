/-
# JSON of programs

The two tables of a program are objects whose keys are the labels, and the addresses in
decimal. An address has no sign and no leading zeros, so that each one has one form only.
-/
import Marie.Json.Basic
import Marie.Program

namespace Marie

open Json

/-- The number of a decimal numeral without sign and leading zeros. -/
def plainNat? (text : List Char) : Option Nat :=
  if text.isEmpty || !text.all Numeral.isDecimalDigit then none
  else if text.length ≠ 1 ∧ text.head? = some '0' then none
  else some (Numeral.value 10 text)

/-- The address of a key. -/
def addressKey? (key : String) : Option Word :=
  match plainNat? key.toList with
  | some n => if n < UInt16.size then some (UInt16.ofNat n) else none
  | none => none

/-- The key of an address. -/
def addressKey (addr : Word) : String :=
  String.ofList (Numeral.digits 10 addr.toNat)

/-- A table as an object. -/
def Table.toJson {κ α : Type} [Ord κ] [JsonFormat α] (key : κ → String) (table : Table κ α) :
    Json :=
  .obj (table.entries.map fun e => (key e.1, JsonFormat.write e.2))

/-- The table of an object. -/
def Table.ofJson? {κ α : Type} [Ord κ] [Std.TransOrd κ] [JsonFormat α]
    (key? : String → Option κ) : Json → Option (Table κ α)
  | .obj members => do
    let entries ← members.mapM fun m => do return (← key? m.1, ← JsonFormat.read m.2)
    return .ofList entries
  | _ => none

instance : JsonFormat Program where
  write program :=
    .obj [("origin", JsonFormat.write program.origin), ("program", JsonFormat.write program.words),
      ("symbols", program.symbols.toJson id),
      ("source_map", program.sourceMap.toJson addressKey)]
  read j := do
    let ms ← j.record? ["origin", "program", "symbols", "source_map"]
    return {
      origin := ← field? ms "origin"
      words := ← field? ms "program"
      symbols := ← Table.ofJson? some (← ms.lookup "symbols")
      sourceMap := ← Table.ofJson? addressKey? (← ms.lookup "source_map") }

end Marie
