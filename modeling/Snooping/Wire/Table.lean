import Snooping.Table.Request
import Snooping.Wire.Field

/-! Table requests and their answers in JSON. -/
namespace Snooping

def TableId.toJson (t : TableId) : Json := .str t.name

def TableId.decoder : Json.Decoder TableId := Json.nameOf ofName?

def ErrorCode.toJson (c : ErrorCode) : Json := .str c.name

def ErrorCode.decoder : Json.Decoder ErrorCode := Json.nameOf ofName?

namespace TableOp

/-- The operation's own members, the name of the operation first. -/
def members : TableOp → List (String × Json)
  | .add key value =>
    [("op", .str Kind.add.name), ("key", Field.listToJson key), ("value", Field.listToJson value)]
  | .modify key value =>
    [("op", .str Kind.modify.name), ("key", Field.listToJson key),
      ("value", Field.listToJson value)]
  | .delete key => [("op", .str Kind.delete.name), ("key", Field.listToJson key)]
  | .getStats key => [("op", .str Kind.getStats.name), ("key", Field.listToJson key)]

def toJson (op : TableOp) : Json := .obj op.members

/-- The operation of a kind, from the fields behind its name. -/
def content? (kind : Kind) (room : Nat) (j : Json) : Option TableOp :=
  let list (j : Json) := Field.listDecoder true (room - 1) j
  match kind with
  | .add => do
    match ← j.fields? ["key", "value"] room with
    | [key, value] => return .add (← list (← key)) (← Json.withDefault [] list value)
    | _ => none
  | .modify => do
    match ← j.fields? ["key", "value"] room with
    | [key, value] => return .modify (← list (← key)) (← Json.withDefault [] list value)
    | _ => none
  | .delete => do
    match ← j.fields? ["key"] room with
    | [key] => return .delete (← list (← key))
    | _ => none
  | .getStats => do
    match ← j.fields? ["key"] room with
    | [key] => return .getStats (← list (← key))
    | _ => none

/-- The operation stands in an object under `op`, or first in an array. -/
def decoder : Json.Decoder TableOp := fun held room j => do
  if !held && !j.isHoldable room then failure
  match j with
  | .array (tag :: rest) => content? (← Kind.ofName? (← tag.string?)) room (.array rest)
  | j =>
    let (tag, rest) ← Json.tagged? "op" (← j.members? room)
    content? (← Kind.ofName? (← tag.string?)) room (.obj rest)

end TableOp

namespace TableRequest

def toJson (r : TableRequest) : Json := .obj (("table", r.table.toJson) :: r.op.members)

/-- Among the members of a request an operation may also be given by its number. -/
def opKind? : Json → Option TableOp.Kind
  | .string s => s.bind TableOp.Kind.ofName?
  | .number (.integer false n) => TableOp.Kind.all[n]?
  | _ => none

/-- All members but the table are held before the operation is looked for. -/
def decoder : Json.Decoder TableRequest := fun held room j => do
  let (table, rest) ← Json.tagged? "table" (← j.members? room)
  let table ← TableId.decoder held (room - 1) table
  if !held && !rest.all (·.2.isHoldable (room - 1)) then failure
  let (tag, rest) ← Json.tagged? "op" rest
  return ⟨table, ← TableOp.content? (← opKind? tag) room (.obj rest)⟩

end TableRequest

namespace TableResponse

def toJson : TableResponse → Json
  | .ok => .str "ok"
  | .stats fields => .obj [("stats", Field.listToJson fields)]
  | .error code message =>
    .obj [("error", .obj [("code", code.toJson), ("message", .str message)])]

def decoder : Json.Decoder TableResponse := fun held room j => do
  let (name, content) ← j.variant? room
  match name with
  | "ok" => if Json.isUnit held content then return .ok else failure
  | "stats" => return .stats (← Field.listDecoder held (room - 1) (← content))
  | "error" =>
    match ← (← content).fields? ["code", "message"] (room - 1) with
    | [code, message] =>
      return .error (← ErrorCode.decoder held (room - 2) (← code)) (← (← message).string?)
    | _ => none
  | _ => none

end TableResponse
end Snooping
