import Snooping.Net.Datagram

/-! The PIM version 2 header, as far as hello messages need it. -/
namespace Snooping.Pim

def supportedVersion : UInt8 := 2
def helloType : UInt8 := 0
def headerLength : Nat := 4

def allRouters : Ipv4 := ⟨224, 0, 0, 13⟩

/-- Seconds a neighbor stays alive without a further hello. -/
def defaultHoldtime : UInt16 := 105

structure Header where
  version : UInt8
  type : UInt8
  reserved : UInt8
  checksum : UInt16
deriving DecidableEq

namespace Header

/-- Any version but 2 is refused. -/
def parse? : Bytes → Option Header
  | v :: r :: k0 :: k1 :: _ =>
    if v >>> 4 = supportedVersion then some ⟨v >>> 4, v &&& 0x0f, r, be16 k0 k1⟩ else none
  | _ => none

def isHello (h : Header) : Bool := h.type == helloType

end Header

/-- A hello whose only option is the holdtime. -/
def hello (holdtime : UInt16) : Bytes :=
  Checksum.fill ([0x20, 0, 0, 0, 0, 1, 0, 2] ++ be16Bytes holdtime) 2

end Snooping.Pim
