import Snooping.Net.Ipv4
import Snooping.Net.Mac

/-! Typed fields, the pieces that keys and values of table requests are lists of. -/
namespace Snooping

inductive FieldKind
  | name
  | vlanVid
  | ipv4
  | ipv4Src
  | ethSrc
  | portNo
  | intervalMs
  | reference
  | idleTime
  | rxPackets
  | txPackets
deriving DecidableEq

def FieldKind.text : FieldKind → String
  | name => "name"
  | vlanVid => "vlan_vid"
  | ipv4 => "ipv4"
  | ipv4Src => "ipv4_src"
  | ethSrc => "eth_src"
  | portNo => "port_no"
  | intervalMs => "interval_ms"
  | reference => "reference"
  | idleTime => "idle_time"
  | rxPackets => "rx_packets"
  | txPackets => "tx_packets"

/-- A reference names a row of another table by that table's key. -/
inductive Field
  | name (s : String)
  | vlanVid (v : UInt16)
  | ipv4 (ip : Ipv4)
  | ipv4Src (ip : Ipv4)
  | ethSrc (m : Mac)
  | portNo (p : UInt32)
  | intervalMs (ms : UInt32)
  | reference (table : String) (key : List Field)
  | idleTime (ms : UInt64)
  | rxPackets (n : UInt64)
  | txPackets (n : UInt64)

def Field.kind : Field → FieldKind
  | name _ => .name
  | vlanVid _ => .vlanVid
  | ipv4 _ => .ipv4
  | ipv4Src _ => .ipv4Src
  | ethSrc _ => .ethSrc
  | portNo _ => .portNo
  | intervalMs _ => .intervalMs
  | reference _ _ => .reference
  | idleTime _ => .idleTime
  | rxPackets _ => .rxPackets
  | txPackets _ => .txPackets

end Snooping
