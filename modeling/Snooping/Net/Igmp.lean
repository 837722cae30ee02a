import Snooping.Net.Datagram

/-! IGMP version 1 and 2 messages, and the frames that carry originated ones. -/
namespace Snooping.Igmp

def queryType : UInt8 := 0x11
def reportV1Type : UInt8 := 0x12
def reportV2Type : UInt8 := 0x16
def leaveType : UInt8 := 0x17

def allHosts : Ipv4 := ⟨224, 0, 0, 1⟩

/-- Ten seconds in tenths, the response time of an originated general query. -/
def defaultResponseTime : UInt8 := 100

structure Header where
  type : UInt8
  maxResponse : UInt8
  checksum : UInt16
  group : Ipv4
deriving DecidableEq

namespace Header

/-- Bytes after the eighth are not looked at. -/
def parse? : Bytes → Option Header
  | t :: r :: k0 :: k1 :: a :: b :: c :: d :: _ => some ⟨t, r, be16 k0 k1, ⟨a, b, c, d⟩⟩
  | _ => none

def isGeneralQuery (h : Header) : Bool := h.type == queryType && h.group == .unspecified

def isGroupQuery (h : Header) : Bool := h.type == queryType && h.group != .unspecified

def isReport (h : Header) : Bool := h.type == reportV1Type || h.type == reportV2Type

end Header

def message (type maxResponse : UInt8) (group : Ipv4) : Bytes :=
  Checksum.fill ([type, maxResponse, 0, 0] ++ group.octets) 2

def generalQuery : Bytes := message queryType defaultResponseTime .unspecified

def groupQuery (group : Ipv4) (maxResponse : UInt8) : Bytes := message queryType maxResponse group

def report (type : UInt8) (group : Ipv4) : Bytes := message type 0 group

def leave (group : Ipv4) : Bytes := message leaveType 0 group

/-- Addressing of an originated frame. -/
structure Origin where
  srcMac : Mac
  vlan : UInt16
  src : Ipv4
deriving DecidableEq

def generalQueryFrame (o : Origin) : Bytes :=
  (Datagram.igmp o.srcMac allHosts.multicastMac o.vlan o.src allHosts generalQuery).toBytes

/-- A version 2 report is addressed to the group it reports. -/
def reportFrame (o : Origin) (group : Ipv4) : Bytes :=
  (Datagram.igmp o.srcMac group.multicastMac o.vlan o.src group
    (report reportV2Type group)).toBytes

end Snooping.Igmp
