import Snooping.Wire.Outbound

/-! Commands of control clients and the replies to them, each one JSON value. -/
namespace Snooping.Control

inductive Command
  | table (r : TableRequest)
  | packetIn (inPort : UInt32) (frame : Bytes)
  | controllerConnected (version : UInt8)
  | controllerDisconnected
  | subscribe
  | ping

inductive Reply
  | table (r : TableResponse)
  | disposition (d : Disposition)
  | ok
  | pong
  | subscribed
  | event (e : Outbound)
  | error (message : String)

namespace Command

/-- The command's own name comes first. -/
def members : Command → List (String × Json)
  | .table r => [("command", .str "table"), ("request", r.toJson)]
  | .packetIn inPort frame =>
    [("command", .str "packet_in"), ("in_port", .nat inPort.toNat), ("frame", bytesToJson frame)]
  | .controllerConnected version =>
    [("command", .str "controller_connected"), ("version", .nat version.toNat)]
  | .controllerDisconnected => [("command", .str "controller_disconnected")]
  | .subscribe => [("command", .str "subscribe")]
  | .ping => [("command", .str "ping")]

def toJson (c : Command) : Json := .obj c.members

/-- A command without fields takes no items, but any members. -/
def plain? (c : Command) : Json → Option Command
  | .array (_ :: _) => none
  | _ => some c

/-- The command of that name, from the fields behind it. -/
def content? (name : String) (room : Nat) (j : Json) : Option Command :=
  match name with
  | "table" => do
    match ← j.fields? ["request"] room with
    | [request] => return .table (← TableRequest.decoder true (room - 1) (← request))
    | _ => none
  | "packet_in" => do
    match ← j.fields? ["in_port", "frame"] room with
    | [inPort, frame] => return .packetIn (← (← inPort).uint32?) (← (← frame).bytes? (room - 1))
    | _ => none
  | "controller_connected" => do
    match ← j.fields? ["version"] room with
    | [version] => return .controllerConnected (← (← version).uint8?)
    | _ => none
  | "controller_disconnected" => plain? .controllerDisconnected j
  | "subscribe" => plain? .subscribe j
  | "ping" => plain? .ping j
  | _ => none

/-- The command stands in an object under `command`, or first in an array. -/
def decoder : Json.Decoder Command := fun held room j => do
  if !held && !j.isHoldable room then failure
  match j with
  | .array (tag :: rest) => content? (← tag.string?) room (.array rest)
  | j =>
    let (tag, rest) ← Json.tagged? "command" (← j.members? room)
    content? (← tag.string?) room (.obj rest)

end Command

namespace Reply

def toJson : Reply → Json
  | .table r => .obj [("table", r.toJson)]
  | .disposition d => .obj [("disposition", d.toJson)]
  | .ok => .str "ok"
  | .pong => .str "pong"
  | .subscribed => .str "subscribed"
  | .event e => .obj [("event", e.toJson)]
  | .error message => .obj [("error", .str message)]

def decoder : Json.Decoder Reply := fun held room j => do
  let (name, content) ← j.variant? room
  let unit (r : Reply) : Option Reply := if Json.isUnit held content then some r else none
  match name with
  | "table" => return .table (← TableResponse.decoder held (room - 1) (← content))
  | "disposition" => return .disposition (← Disposition.decoder held (room - 1) (← content))
  | "ok" => unit .ok
  | "pong" => unit .pong
  | "subscribed" => unit .subscribed
  | "event" => return .event (← Outbound.decoder held (room - 1) (← content))
  | "error" => return .error (← (← content).string?)
  | _ => none

end Reply
end Snooping.Control
