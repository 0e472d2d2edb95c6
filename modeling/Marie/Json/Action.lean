/-
# JSON of actions and logs

An action is a record with its type beside its own fields. Among these a name may also be read
from an object with that one key and an empty object under it. In a log entry the fields of the
action stand beside those of the entry, and there the type may also be given by its place in
the list of types.
-/
import Marie.Json.Basic
import Marie.Log

namespace Marie

open Json

instance : JsonFormat Reg :=
  named Reg.all Reg.name

instance : JsonFormat Opcode :=
  named Opcode.all Opcode.name

instance : JsonFormat ArithOp :=
  named ArithOp.all ArithOp.name

instance : JsonFormat Condition :=
  named Condition.all Condition.name

instance : JsonFormat Interrupt :=
  named Interrupt.all Interrupt.name

instance : JsonFormat Fault where
  write
    | .unsupportedOpcode bits => .obj [("UnsupportedOpcode", JsonFormat.write bits)]
    | .unsupportedSkipCond operand => .obj [("UnsupportedSkipCond", JsonFormat.write operand)]
  read
    | .obj [("UnsupportedOpcode", j)] => (JsonFormat.read j).map .unsupportedOpcode
    | .obj [("UnsupportedSkipCond", j)] => (JsonFormat.read j).map .unsupportedSkipCond
    | _ => none

namespace Action

/-- The types of action with the fields of each. -/
def types : List (String × List String) :=
  [("step-start", ["pc"]),
   ("step-end", []),
   ("decode", ["old", "opcode"]),
   ("incpc", ["old_pc"]),
   ("arithmetic", ["op", "old_ac"]),
   ("comparison", ["op", "old_result", "result"]),
   ("memread", ["addr", "old_mbr"]),
   ("memwrite", ["addr", "old"]),
   ("memset", ["addr", "old", "new"]),
   ("regtransfer", ["target", "source", "old"]),
   ("regset", ["reg", "old", "new"]),
   ("input", ["old", "new"]),
   ("output", ["value"]),
   ("halt", ["halt", "fault"])]

/-- The type of the action and its fields. -/
def members : Action → List (String × Json)
  | .stepStart pc => [("type", .str "step-start"), ("pc", JsonFormat.write pc)]
  | .stepEnd => [("type", .str "step-end")]
  | .decode old opcode =>
    [("type", .str "decode"), ("old", JsonFormat.write old), ("opcode", JsonFormat.write opcode)]
  | .incrementPC oldPC => [("type", .str "incpc"), ("old_pc", JsonFormat.write oldPC)]
  | .arithmetic op oldAC =>
    [("type", .str "arithmetic"), ("op", JsonFormat.write op), ("old_ac", JsonFormat.write oldAC)]
  | .comparison cond oldResult result =>
    [("type", .str "comparison"), ("op", JsonFormat.write cond),
     ("old_result", JsonFormat.write oldResult), ("result", JsonFormat.write result)]
  | .memRead addr oldMBR =>
    [("type", .str "memread"), ("addr", JsonFormat.write addr),
     ("old_mbr", JsonFormat.write oldMBR)]
  | .memWrite addr old =>
    [("type", .str "memwrite"), ("addr", JsonFormat.write addr), ("old", JsonFormat.write old)]
  | .memSet addr old new =>
    [("type", .str "memset"), ("addr", JsonFormat.write addr), ("old", JsonFormat.write old),
     ("new", JsonFormat.write new)]
  | .regTransfer target source old =>
    [("type", .str "regtransfer"), ("target", JsonFormat.write target),
     ("source", JsonFormat.write source), ("old", JsonFormat.write old)]
  | .regSet reg old new =>
    [("type", .str "regset"), ("reg", JsonFormat.write reg), ("old", JsonFormat.write old),
     ("new", JsonFormat.write new)]
  | .input old new =>
    [("type", .str "input"), ("old", JsonFormat.write old), ("new", JsonFormat.write new)]
  | .output value => [("type", .str "output"), ("value", JsonFormat.write value)]
  | .halt stops fault =>
    [("type", .str "halt"), ("halt", JsonFormat.write stops), ("fault", JsonFormat.write fault)]

/-- The action of a type with the given fields, among which there may be others. -/
def ofMembers? (type : String) (members : List (String × Json)) : Option Action :=
  let ms := members.map fun (name, j) => (name, j.unwrapName)
  match type with
  | "step-start" => return .stepStart (← field? ms "pc")
  | "step-end" => return .stepEnd
  | "decode" => return .decode (← optionalField? ms "old") (← field? ms "opcode")
  | "incpc" => return .incrementPC (← field? ms "old_pc")
  | "arithmetic" => return .arithmetic (← field? ms "op") (← field? ms "old_ac")
  | "comparison" =>
    return .comparison (← field? ms "op") (← field? ms "old_result") (← field? ms "result")
  | "memread" => return .memRead (← field? ms "addr") (← field? ms "old_mbr")
  | "memwrite" => return .memWrite (← field? ms "addr") (← field? ms "old")
  | "memset" => return .memSet (← field? ms "addr") (← field? ms "old") (← field? ms "new")
  | "regtransfer" =>
    return .regTransfer (← field? ms "target") (← field? ms "source") (← field? ms "old")
  | "regset" => return .regSet (← field? ms "reg") (← field? ms "old") (← field? ms "new")
  | "input" => return .input (← field? ms "old") (← field? ms "new")
  | "output" => return .output (← field? ms "value")
  | "halt" => return .halt (← field? ms "halt") (← optionalField? ms "fault")
  | _ => none

/-- The action in a list of its type and its fields in their order. -/
def ofItems? (type : String) (items : List Json) : Option Action :=
  match types.lookup type with
  | some fields =>
    if items.length = fields.length then ofMembers? type (fields.zip items) else none
  | none => none

instance : JsonFormat Action where
  write action := .obj action.members
  read
    | .obj ms => do ofMembers? (← (← ms.lookup "type").str?) ms
    | .arr (type :: items) => do ofItems? (← type.str?) items
    | _ => none

end Action

namespace LogEntry

/-- The type of action that a value names, or to whose place in the list it points. -/
def typeName? : Json → Option String
  | .str text => some text
  | .number (.ofNat i) 0 => (Action.types[i]?).map (·.1)
  | _ => none

instance : JsonFormat LogEntry where
  write entry :=
    .obj (entry.action.members ++
      [("micro_pc", JsonFormat.write entry.microPC),
       ("interrupt", JsonFormat.write entry.interrupt)])
  read
    | .obj ms => do
      let type ← typeName? (← ms.lookup "type")
      return {
        action := ← Action.ofMembers? type ms
        microPC := ← field? ms "micro_pc"
        interrupt := ← field? ms "interrupt" }
    | _ => none

end LogEntry

/-- A log is the list of its entries, oldest first. -/
instance : JsonFormat Log where
  write log := JsonFormat.write log.entries
  read j := (JsonFormat.read j).map Log.ofEntries

end Marie
