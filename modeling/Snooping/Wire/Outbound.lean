import Snooping.EventLoop
import Snooping.Wire.Table

/-! What leaves the agent, in JSON. Frames are arrays of bytes. -/
namespace Snooping

def bytesToJson (bs : Bytes) : Json := .array (bs.map fun b => .nat b.toNat)

def Disposition.toJson (d : Disposition) : Json := .str d.name

def Disposition.decoder : Json.Decoder Disposition := Json.nameOf ofName?

namespace IdleNotification

/-- A group that is not there is not written. -/
def toJson (n : IdleNotification) : Json :=
  .obj ([("table", n.table.toJson), ("name", .str n.name), ("vlan_id", .nat n.vlan.toNat)] ++
    (n.group.map fun g => ("group", g.toJson)).toList)

def decoder : Json.Decoder IdleNotification := fun held room j => do
  match ← j.fields? ["table", "name", "vlan_id", "group"] room with
  | [table, name, vlan, group] =>
    return {
      table := ← TableId.decoder held (room - 1) (← table)
      name := ← (← name).string?
      vlan := ← (← vlan).uint16?
      group := ← Json.optional Ipv4.ofJson? group }
  | _ => none

end IdleNotification

namespace ControllerMessage

def toJson : ControllerMessage → Json
  | .idleNotification n => .obj [("idle_notification", n.toJson)]

def decoder : Json.Decoder ControllerMessage := fun held room j => do
  let (name, content) ← j.variant? room
  match name with
  | "idle_notification" =>
    return .idleNotification (← IdleNotification.decoder held (room - 1) (← content))
  | _ => none

end ControllerMessage

namespace OutboundFrame

def toJson (f : OutboundFrame) : Json :=
  .obj [("egress_port", .nat f.port.toNat), ("frame", bytesToJson f.frame)]

def decoder : Json.Decoder OutboundFrame := fun _ room j => do
  match ← j.fields? ["egress_port", "frame"] room with
  | [port, frame] => return ⟨← (← port).uint32?, ← (← frame).bytes? (room - 1)⟩
  | _ => none

end OutboundFrame

namespace Outbound

def toJson : Outbound → Json
  | .controller m => .obj [("controller", m.toJson)]
  | .packetIn inPort frame =>
    .obj [("packet_in", .obj [("in_port", .nat inPort.toNat), ("frame", bytesToJson frame)])]
  | .packetOut f => .obj [("packet_out", f.toJson)]

def decoder : Json.Decoder Outbound := fun held room j => do
  let (name, content) ← j.variant? room
  match name with
  | "controller" => return .controller (← ControllerMessage.decoder held (room - 1) (← content))
  | "packet_in" =>
    match ← (← content).fields? ["in_port", "frame"] (room - 1) with
    | [inPort, frame] => return .packetIn (← (← inPort).uint32?) (← (← frame).bytes? (room - 2))
    | _ => none
  | "packet_out" => return .packetOut (← OutboundFrame.decoder held (room - 1) (← content))
  | _ => none

end Outbound
end Snooping
