import Snooping.Net.Frame

/-! Writing VLAN-tagged IPv4 frames. -/
namespace Snooping

def igmpProtocol : UInt8 := 2
def pimProtocol : UInt8 := 103

/-- 01:00:5e and the low 23 bits of the group. -/
def Ipv4.multicastMac (group : Ipv4) : Mac :=
  ⟨0x01, 0x00, 0x5e, group.b &&& 0x7f, group.c, group.d⟩

/-- One IPv4 packet with its Ethernet addresses and VLAN. -/
structure Datagram where
  dstMac : Mac
  srcMac : Mac
  vlan : UInt16
  src : Ipv4
  dst : Ipv4
  protocol : UInt8
  ttl : UInt8
  routerAlert : Bool
  payload : Bytes
deriving DecidableEq

namespace Datagram

/-- IGMP travels one hop and alerts routers. -/
def igmp (srcMac dstMac : Mac) (vlan : UInt16) (src dst : Ipv4) (payload : Bytes) : Datagram :=
  ⟨dstMac, srcMac, vlan, src, dst, igmpProtocol, 1, true, payload⟩

def pim (srcMac : Mac) (vlan : UInt16) (src dst : Ipv4) (payload : Bytes) : Datagram :=
  ⟨dst.multicastMac, srcMac, vlan, src, dst, pimProtocol, 1, false, payload⟩

def options (d : Datagram) : Bytes := if d.routerAlert then [0x94, 0x04, 0x00, 0x00] else []

def headerLength (d : Datagram) : Nat := ipv4MinLength + d.options.length

/-- IGMP is internetwork control. -/
def tos (d : Datagram) : UInt8 := if d.protocol = igmpProtocol then 0xc0 else 0

/-- The total length keeps its low 16 bits only. -/
def totalLength (d : Datagram) : UInt16 := UInt16.ofNat (d.headerLength + d.payload.length)

def ipHeader (d : Datagram) : Bytes :=
  Checksum.fill
    ([0x40 ||| UInt8.ofNat (d.headerLength / 4), d.tos] ++ be16Bytes d.totalLength ++
      [0, 0, 0, 0, d.ttl, d.protocol, 0, 0] ++ d.src.octets ++ d.dst.octets ++ d.options) 10

/-- Priority and drop bits of the tag are zero. -/
def toBytes (d : Datagram) : Bytes :=
  d.dstMac.octets ++ d.srcMac.octets ++ be16Bytes vlanType ++ be16Bytes (d.vlan &&& vidMask) ++
    be16Bytes ipv4Type ++ d.ipHeader ++ d.payload

end Datagram
end Snooping
