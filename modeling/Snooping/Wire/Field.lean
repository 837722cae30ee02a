import Snooping.Json.Decode
import Snooping.Json.Writer
import Snooping.Table.Field

/-! Fields in JSON: an object of one member, named for the kind. -/
namespace Snooping

def Ipv4.toJson (ip : Ipv4) : Json := .str ip.text

def Ipv4.ofJson? (j : Json) : Option Ipv4 := do ofText? (← j.string?)

def Mac.toJson (m : Mac) : Json := .str m.text

def Mac.ofJson? (j : Json) : Option Mac := do (Mac.ofText (← j.string?)).toOption

namespace Field

mutual

def toJson : Field → Json
  | .name s => .obj [("name", .str s)]
  | .vlanVid v => .obj [("vlan_vid", .nat v.toNat)]
  | .ipv4 ip => .obj [("ipv4", ip.toJson)]
  | .ipv4Src ip => .obj [("ipv4_src", ip.toJson)]
  | .ethSrc m => .obj [("eth_src", m.toJson)]
  | .portNo p => .obj [("port_no", .nat p.toNat)]
  | .intervalMs ms => .obj [("interval_ms", .nat ms.toNat)]
  | .reference table key =>
    .obj [("reference", .obj [("table", .str table), ("key", .array (itemsToJson key))])]
  | .idleTime ms => .obj [("idle_time", .nat ms.toNat)]
  | .rxPackets n => .obj [("rx_packets", .nat n.toNat)]
  | .txPackets n => .obj [("tx_packets", .nat n.toNat)]

def itemsToJson : List Field → List Json
  | [] => []
  | f :: rest => toJson f :: itemsToJson rest

end

def listToJson (fields : List Field) : Json := .array (itemsToJson fields)

/-- Fields without other fields inside. -/
def plainOfJson? (tag : String) (j : Json) : Option Field :=
  match tag with
  | "name" => j.string?.map .name
  | "vlan_vid" => j.uint16?.map .vlanVid
  | "ipv4" => (Ipv4.ofJson? j).map .ipv4
  | "ipv4_src" => (Ipv4.ofJson? j).map .ipv4Src
  | "eth_src" => (Mac.ofJson? j).map .ethSrc
  | "port_no" => j.uint32?.map .portNo
  | "interval_ms" => j.uint32?.map .intervalMs
  | "idle_time" => j.uint64?.map .idleTime
  | "rx_packets" => j.uint64?.map .rxPackets
  | "tx_packets" => j.uint64?.map .txPackets
  | _ => none

/-- A reference takes three containers before the next field: its own, its content and its key. -/
def ofJson? : Nat → Json → Option Field
  | room + 3, j => do
    let (tag, content) ← j.variant? (room + 3)
    if tag = "reference" then
      match ← (← content).fields? ["table", "key"] (room + 2) with
      | [table, key] =>
        return .reference (← (← table).string?)
          (← (← (← key).items? (room + 1)).mapM (ofJson? room))
      | _ => none
    else plainOfJson? tag (← content)
  | room, j => do
    let (tag, content) ← j.variant? room
    plainOfJson? tag (← content)

def decoder : Json.Decoder Field := fun _ room j => ofJson? room j

def listDecoder : Json.Decoder (List Field) := Json.listOf decoder

end Field
end Snooping
