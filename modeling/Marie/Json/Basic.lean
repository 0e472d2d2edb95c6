/-
# JSON values

JSON values, and the readers from which the formats of the domain are built. A record is
written as an object; it may also be read from an array of all its fields in their order. A
name out of a fixed set is written as a string, and may also be read from an object with that
one key and the value null.
-/
namespace Marie

/-- A JSON value. -/
inductive Json where
  | null
  | bool (b : Bool)
  /-- A number written with the given number of decimal places, as a multiple of the last. -/
  | number (units : Int) (places : Nat)
  | str (text : String)
  | arr (items : List Json)
  | obj (members : List (String × Json))
deriving Inhabited

/-- The values of a type as JSON. -/
class JsonFormat (α : Type) where
  write : α → Json
  read : Json → Option α

namespace Json

/-- A whole number. -/
def int (n : Int) : Json :=
  .number n 0

/-- A natural number. -/
def nat (n : Nat) : Json :=
  int n

/-- The whole number that a value is: one written without decimal places. -/
def int? : Json → Option Int
  | .number n 0 => some n
  | _ => none

/-- The natural number below a bound that a value is. -/
def natBelow? (bound : Nat) (j : Json) : Option Nat :=
  match j.int? with
  | some n => if 0 ≤ n ∧ n < bound then some n.toNat else none
  | none => none

/-- The string that a value is. -/
def str? : Json → Option String
  | .str text => some text
  | _ => none

/-- The name that a value stands for. -/
def name? : Json → Option String
  | .str text => some text
  | .obj [(text, .null)] => some text
  | _ => none

/-- A name written as the key of an empty object, as the name alone; any other value as it is. -/
def unwrapName : Json → Json
  | .obj [(text, .obj [])] => .str text
  | j => j

/-- The members of a record with the given fields: those of an object, or the items of an array
that has as many as there are fields. -/
def record? (fields : List String) : Json → Option (List (String × Json))
  | .obj members => some members
  | .arr items => if items.length = fields.length then some (fields.zip items) else none
  | _ => none

/-- The value of a field that must be there. -/
def field? {α : Type} [JsonFormat α] (members : List (String × Json)) (name : String) :
    Option α :=
  match members.lookup name with
  | some j => JsonFormat.read j
  | none => none

/-- The format of a type whose values have names. -/
abbrev named {α : Type} (all : List α) (name : α → String) : JsonFormat α where
  write a := .str (name a)
  read j :=
    match j.name? with
    | some text => all.find? fun a => name a == text
    | none => none

end Json

instance : JsonFormat Bool where
  write := .bool
  read
    | .bool b => some b
    | _ => none

instance : JsonFormat UInt8 where
  write n := .nat n.toNat
  read j := (j.natBelow? UInt8.size).map UInt8.ofNat

instance : JsonFormat UInt16 where
  write n := .nat n.toNat
  read j := (j.natBelow? UInt16.size).map UInt16.ofNat

/-- Natural numbers are read up to 64 bits. -/
instance : JsonFormat Nat where
  write := .nat
  read := Json.natBelow? UInt64.size

instance {α : Type} [JsonFormat α] : JsonFormat (List α) where
  write items := .arr (items.map JsonFormat.write)
  read
    | .arr items => items.mapM JsonFormat.read
    | _ => none

/-- What may be missing is written as null. -/
instance {α : Type} [JsonFormat α] : JsonFormat (Option α) where
  write
    | some a => JsonFormat.write a
    | none => .null
  read
    | .null => some none
    | j => (JsonFormat.read j).map some

/-- The value of a field that is null if it is not there. -/
def Json.optionalField? {α : Type} [JsonFormat α] (members : List (String × Json))
    (name : String) : Option (Option α) :=
  match members.lookup name with
  | some j => JsonFormat.read j
  | none => some none

end Marie
