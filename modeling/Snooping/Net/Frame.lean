import Snooping.Net.Checksum
import Snooping.Net.Ipv4
import Snooping.Net.Mac

/-! Reading VLAN-tagged IPv4 frames. Lengths come from the IP header, so padding is no payload. -/
namespace Snooping

def vlanType : UInt16 := 0x8100
def ipv4Type : UInt16 := 0x0800

def ethernetLength : Nat := 14
def vlanTagLength : Nat := 4
def ipv4MinLength : Nat := 20

/-- The low 12 bits of a tag name the VLAN. -/
def vidMask : UInt16 := 0x0fff

/-- Why a frame is refused. Lengths count from the start of the layer that ran out. -/
inductive FrameError
  | tooShort (expected actual : Nat)
  | missingVlanTag (etherType : UInt16)
  | wrongEtherType (etherType : UInt16)
  | wrongVersion (version : UInt8)
  | headerTooSmall (words : UInt8)
  | totalLengthTooSmall (totalLength : UInt16) (headerLength : Nat)
deriving DecidableEq

namespace FrameError

private def hex16 (w : UInt16) : String := "0x" ++ String.ofList (Text.Hex.padded 4 w.toNat)

def message : FrameError → String
  | tooShort e a =>
    "Packet too short: expected at least " ++ e.repr ++ " bytes, got " ++ a.repr
  | missingVlanTag t => "Frame is not 802.1Q tagged: EtherType " ++ hex16 t
  | wrongEtherType t => "Invalid EtherType: expected 0x0800 (IPv4), got " ++ hex16 t
  | wrongVersion v => "Invalid IP version: expected 4, got " ++ v.toNat.repr
  | headerTooSmall w => "IP header length too small: " ++ w.toNat.repr ++ " words"
  | totalLengthTooSmall t h =>
    "IP total length " ++ t.toNat.repr ++ " shorter than header length " ++ h.repr

end FrameError

structure EthernetHeader where
  dst : Mac
  src : Mac
  etherType : UInt16
deriving DecidableEq

structure VlanTag where
  pcp : UInt8
  vid : UInt16
  etherType : UInt16
deriving DecidableEq

structure Ipv4Header where
  version : UInt8
  ihl : UInt8
  totalLength : UInt16
  ttl : UInt8
  protocol : UInt8
  checksum : UInt16
  src : Ipv4
  dst : Ipv4
deriving DecidableEq

def Ipv4Header.length (h : Ipv4Header) : Nat := h.ihl.toNat * 4

structure Frame where
  ethernet : EthernetHeader
  vlan : VlanTag
  ipv4 : Ipv4Header
  payloadOffset : Nat
  payloadLength : Nat
deriving DecidableEq

/-- Each reader answers its header and the bytes behind it. -/
def EthernetHeader.read : Bytes → Except FrameError (EthernetHeader × Bytes)
  | d0 :: d1 :: d2 :: d3 :: d4 :: d5 :: s0 :: s1 :: s2 :: s3 :: s4 :: s5 :: t0 :: t1 :: rest =>
    .ok (⟨⟨d0, d1, d2, d3, d4, d5⟩, ⟨s0, s1, s2, s3, s4, s5⟩, be16 t0 t1⟩, rest)
  | data => .error (.tooShort ethernetLength data.length)

def VlanTag.read : Bytes → Except FrameError (VlanTag × Bytes)
  | c0 :: c1 :: t0 :: t1 :: rest =>
    .ok (⟨(be16 c0 c1 >>> 13).toUInt8, be16 c0 c1 &&& vidMask, be16 t0 t1⟩, rest)
  | data => .error (.tooShort (ethernetLength + vlanTagLength) (ethernetLength + data.length))

def Ipv4Header.read (data : Bytes) : Except FrameError Ipv4Header :=
  match data with
  | b0 :: _ :: l0 :: l1 :: _ :: _ :: _ :: _ :: ttl :: protocol :: k0 :: k1 ::
      s0 :: s1 :: s2 :: s3 :: d0 :: d1 :: d2 :: d3 :: _ =>
    let h : Ipv4Header :=
      ⟨b0 >>> 4, b0 &&& 0x0f, be16 l0 l1, ttl, protocol, be16 k0 k1, ⟨s0, s1, s2, s3⟩,
        ⟨d0, d1, d2, d3⟩⟩
    if h.version ≠ 4 then .error (.wrongVersion h.version)
    else if h.ihl < 5 then .error (.headerTooSmall h.ihl)
    else if data.length < h.length then .error (.tooShort h.length data.length)
    else .ok h
  | _ => .error (.tooShort ipv4MinLength data.length)

/-- The payload has to be there in full; bytes after it are padding. -/
def Frame.parse (data : Bytes) : Except FrameError Frame := do
  let (ethernet, tagged) ← EthernetHeader.read data
  if ethernet.etherType ≠ vlanType then throw (.missingVlanTag ethernet.etherType)
  let (vlan, packet) ← VlanTag.read tagged
  if vlan.etherType ≠ ipv4Type then throw (.wrongEtherType vlan.etherType)
  let ipv4 ← Ipv4Header.read packet
  if ipv4.totalLength.toNat < ipv4.length then
    throw (.totalLengthTooSmall ipv4.totalLength ipv4.length)
  let total := ethernetLength + vlanTagLength + ipv4.totalLength.toNat
  if data.length < total then throw (.tooShort total data.length)
  return ⟨ethernet, vlan, ipv4, ethernetLength + vlanTagLength + ipv4.length,
    ipv4.totalLength.toNat - ipv4.length⟩

def Frame.payload (f : Frame) (data : Bytes) : Bytes :=
  (data.drop f.payloadOffset).take f.payloadLength

end Snooping
