import Mathlib.Tactic.SplitIfs
import Snooping.Net.Datagram
import Snooping.Proofs.Checksum
import Snooping.Proofs.Reading

/-!
Frames that are written are read back: every field as it was written, the VLAN cut to 12 bits, and
padding behind the packet is no part of the payload.
-/
namespace Snooping

theorem vidMask_eq_mod (v : UInt16) : v &&& vidMask = v % 4096 := by
  apply UInt16.toNat_inj.mp
  rw [UInt16.toNat_and, UInt16.toNat_mod]
  exact Nat.and_two_pow_sub_one_eq_mod v.toNat 12

theorem vid_toNat (v : UInt16) : (v &&& vidMask).toNat = v.toNat % 4096 :=
  (congrArg UInt16.toNat (vidMask_eq_mod v)).trans (UInt16.toNat_mod ..)

namespace Datagram

variable {d : Datagram} {padding : Bytes}

/-- The header before its checksum is stored. -/
def clearHeader (d : Datagram) : Bytes :=
  [0x40 ||| UInt8.ofNat (d.headerLength / 4), d.tos] ++ be16Bytes d.totalLength ++
    [0, 0, 0, 0, d.ttl, d.protocol, 0, 0] ++ d.src.octets ++ d.dst.octets ++ d.options

def headerChecksum (d : Datagram) : UInt16 :=
  Checksum.checksum (Checksum.putWord d.clearHeader 10 0)

/-- What is read of a written datagram. -/
def frame (d : Datagram) : Frame where
  ethernet := ⟨d.dstMac, d.srcMac, vlanType⟩
  vlan := ⟨0, d.vlan &&& vidMask, ipv4Type⟩
  ipv4 := ⟨4, UInt8.ofNat (d.headerLength / 4), d.totalLength, d.ttl, d.protocol,
    d.headerChecksum, d.src, d.dst⟩
  payloadOffset := ethernetLength + vlanTagLength + d.headerLength
  payloadLength := d.payload.length

/-- All that `d` says is told by the frame `f` that is read of `data`, and its header is intact. -/
structure Recovered (d : Datagram) (f : Frame) (data : Bytes) : Prop where
  dstMac : f.ethernet.dst = d.dstMac
  srcMac : f.ethernet.src = d.srcMac
  vid : f.vlan.vid.toNat = d.vlan.toNat % 4096
  pcp : f.vlan.pcp = 0
  protocol : f.ipv4.protocol = d.protocol
  ttl : f.ipv4.ttl = d.ttl
  src : f.ipv4.src = d.src
  dst : f.ipv4.dst = d.dst
  ihl : f.ipv4.ihl = if d.routerAlert then 6 else 5
  totalLength : f.ipv4.totalLength.toNat = f.ipv4.length + d.payload.length
  payload : f.payload data = d.payload
  intact : Checksum.isValid ((data.drop 18).take f.ipv4.length) = true

/-- A header has no options, or the one that alerts routers. -/
theorem headerLength_cases (d : Datagram) : d.headerLength = 20 ∨ d.headerLength = 24 := by
  unfold headerLength options
  split
  · exact .inr rfl
  · exact .inl rfl

theorem ipHeader_eq_fill (d : Datagram) : d.ipHeader = Checksum.fill d.clearHeader 10 := rfl

theorem length_clearHeader (d : Datagram) : d.clearHeader.length = d.headerLength := by
  simp [clearHeader, be16Bytes, Ipv4.octets, headerLength, ipv4MinLength]
  omega

theorem length_ipHeader (d : Datagram) : d.ipHeader.length = d.headerLength := by
  rw [ipHeader_eq_fill, Checksum.fill, Checksum.length_putWord, length_clearHeader]

/-- The header is intact as it is sent. -/
theorem isValid_ipHeader (d : Datagram) : Checksum.isValid d.ipHeader = true := by
  have hlen := d.headerLength_cases
  rw [ipHeader_eq_fill]
  refine Checksum.isValid_fill ?_ rfl ?_ <;> rw [length_clearHeader]
  · rw [Checksum.maxLength]
    omega
  · omega

theorem ipHeader_eq (d : Datagram) :
    d.ipHeader = (0x40 ||| UInt8.ofNat (d.headerLength / 4)) :: d.tos ::
      (d.totalLength >>> 8).toUInt8 :: d.totalLength.toUInt8 :: 0 :: 0 :: 0 :: 0 :: d.ttl ::
      d.protocol :: (d.headerChecksum >>> 8).toUInt8 :: d.headerChecksum.toUInt8 ::
      d.src.a :: d.src.b :: d.src.c :: d.src.d :: d.dst.a :: d.dst.b :: d.dst.c :: d.dst.d ::
      d.options := rfl

theorem length_ipv4 (d : Datagram) : d.frame.ipv4.length = d.headerLength := by
  change (UInt8.ofNat (d.headerLength / 4)).toNat * 4 = d.headerLength
  rcases d.headerLength_cases with h | h <;> rw [h] <;> rfl

theorem readEthernet_toBytes (d : Datagram) (padding : Bytes) :
    EthernetHeader.read (d.toBytes ++ padding) = .ok (d.frame.ethernet,
      be16Bytes (d.vlan &&& vidMask) ++ (be16Bytes ipv4Type ++
        (d.ipHeader ++ (d.payload ++ padding)))) := by
  simp only [toBytes, List.append_assoc]
  rfl

theorem readVlan (v : UInt16) (rest : Bytes) :
    VlanTag.read (be16Bytes (v &&& vidMask) ++ (be16Bytes ipv4Type ++ rest)) =
      .ok (⟨0, v &&& vidMask, ipv4Type⟩, rest) := by
  have hpcp : ((v &&& vidMask) >>> 13).toUInt8 = 0 := by
    apply UInt8.toNat_inj.mp
    have hv := v.toNat_lt
    rw [vidMask_eq_mod, UInt16.toNat_toUInt8, UInt16.toNat_shiftRight, UInt16.toNat_mod]
    change (v.toNat % 4096) >>> 13 % 2 ^ 8 = 0
    rw [Nat.shiftRight_eq_div_pow]
    omega
  simp only [be16Bytes, List.cons_append, List.nil_append, VlanTag.read, be16_bytes, hpcp,
    UInt16.and_assoc, UInt16.and_self]

/-- The header is read back, whatever stands behind it. -/
theorem readIpv4_ipHeader (d : Datagram) (rest : Bytes) :
    Ipv4Header.read (d.ipHeader ++ rest) = .ok d.frame.ipv4 := by
  have hfirst : (0x40 ||| UInt8.ofNat (d.headerLength / 4)) >>> 4 = 4 ∧
      (0x40 ||| UInt8.ofNat (d.headerLength / 4)) &&& 0x0f = UInt8.ofNat (d.headerLength / 4) ∧
      ¬ UInt8.ofNat (d.headerLength / 4) < 5 := by
    rcases d.headerLength_cases with h | h <;> rw [h] <;> decide
  obtain ⟨hversion, hihl, hmin⟩ := hfirst
  have hlen : ¬ (d.ipHeader ++ rest).length < d.frame.ipv4.length := by
    rw [List.length_append, length_ipHeader, length_ipv4]
    omega
  rw [ipHeader_eq] at hlen ⊢
  simp only [List.cons_append] at hlen ⊢
  rw [Ipv4Header.read]
  simp only [hversion, hihl, be16_bytes]
  rw [if_neg (by simp), if_neg hmin]
  exact if_neg hlen

theorem length_toBytes (d : Datagram) :
    d.toBytes.length = ethernetLength + vlanTagLength + d.headerLength + d.payload.length := by
  simp only [toBytes, List.length_append, length_ipHeader]
  rfl

theorem toNat_totalLength (h : d.headerLength + d.payload.length ≤ 65535) :
    d.frame.ipv4.totalLength.toNat = d.headerLength + d.payload.length := by
  change d.totalLength.toNat = _
  rw [totalLength, UInt16.toNat_ofNat']
  omega

/-- A datagram that its total length can tell is read back, with any padding behind it. -/
theorem parse_toBytes (h : d.headerLength + d.payload.length ≤ 65535) (padding : Bytes) :
    Frame.parse (d.toBytes ++ padding) = .ok d.frame := by
  have htotal := toNat_totalLength h
  have hip := d.length_ipv4
  have hlen : (d.toBytes ++ padding).length = ethernetLength + vlanTagLength + d.headerLength +
      d.payload.length + padding.length := by
    rw [List.length_append, length_toBytes]
  simp only [Frame.parse, bind_eq_ok_iff, guard_eq_ok_iff, pure_eq_ok_iff]
  refine ⟨_, d.readEthernet_toBytes padding, by simp [frame], _, readVlan d.vlan _, by simp, _,
    d.readIpv4_ipHeader _, by omega, by omega, ?_⟩
  rw [htotal, hip, Nat.add_sub_cancel_left]
  rfl

/-- The header of a written datagram. -/
theorem header_toBytes (d : Datagram) (padding : Bytes) :
    ((d.toBytes ++ padding).drop (ethernetLength + vlanTagLength)).take d.headerLength =
      d.ipHeader := by
  simp only [toBytes, List.append_assoc]
  change (d.ipHeader ++ (d.payload ++ padding)).take d.headerLength = _
  rw [← length_ipHeader, List.take_left]

theorem payload_toBytes (d : Datagram) (padding : Bytes) :
    d.frame.payload (d.toBytes ++ padding) = d.payload := by
  have hdrop : (d.toBytes ++ padding).drop d.frame.payloadOffset = d.payload ++ padding := by
    change (d.toBytes ++ padding).drop (ethernetLength + vlanTagLength + d.headerLength) = _
    simp only [toBytes, List.append_assoc]
    rw [← List.drop_drop]
    change (d.ipHeader ++ (d.payload ++ padding)).drop d.headerLength = _
    rw [← length_ipHeader, List.drop_left]
  rw [Frame.payload, hdrop]
  exact List.take_left

theorem headerLength_eq (d : Datagram) :
    d.headerLength = 20 + if d.routerAlert then 4 else 0 := by
  unfold headerLength options
  cases d.routerAlert <;> rfl

theorem ihl_frame (d : Datagram) : d.frame.ipv4.ihl = if d.routerAlert then 6 else 5 := by
  change UInt8.ofNat (d.headerLength / 4) = _
  rw [headerLength_eq]
  cases d.routerAlert <;> rfl

theorem recovered_frame (h : d.headerLength + d.payload.length ≤ 65535) (padding : Bytes) :
    d.Recovered d.frame (d.toBytes ++ padding) where
  dstMac := rfl
  srcMac := rfl
  vid := vid_toNat d.vlan
  pcp := rfl
  protocol := rfl
  ttl := rfl
  src := rfl
  dst := rfl
  ihl := d.ihl_frame
  totalLength := by rw [toNat_totalLength h, length_ipv4]
  payload := d.payload_toBytes padding
  intact := by
    rw [length_ipv4]
    exact (congrArg Checksum.isValid (d.header_toBytes padding)).trans d.isValid_ipHeader

/-- What a total length of 16 bits tells is no longer than that. -/
theorem Recovered.length_le {f : Frame} {data : Bytes} (h : d.Recovered f data) :
    d.headerLength + d.payload.length ≤ 65535 := by
  have hlen : f.ipv4.length = d.headerLength := by
    rw [← length_ipv4, Ipv4Header.length, Ipv4Header.length, h.ihl, ihl_frame]
  have htotal := h.totalLength
  have hlt := f.ipv4.totalLength.toNat_lt
  omega

/-- A datagram is read back as it was written, with any padding behind it, exactly if its header
and its payload are no longer than the total length can tell. -/
theorem datagrams_read_back (d : Datagram) :
    20 + (if d.routerAlert then 4 else 0) + d.payload.length ≤ 65535 ↔
      ∃ f, Frame.parse d.toBytes = .ok f ∧ d.Recovered f d.toBytes ∧
        ∀ padding, Frame.parse (d.toBytes ++ padding) = .ok f ∧
          d.Recovered f (d.toBytes ++ padding) := by
  rw [← headerLength_eq]
  constructor
  · intro h
    have hread (padding) := And.intro (parse_toBytes h padding) (recovered_frame h padding)
    obtain ⟨hparse, hrecovered⟩ := hread []
    rw [List.append_nil] at hparse hrecovered
    exact ⟨d.frame, hparse, hrecovered, hread⟩
  · rintro ⟨f, -, hrecovered, -⟩
    exact hrecovered.length_le

/-- Only 12 bits of the VLAN are written. -/
example :
    let d := pim ⟨2, 0, 0, 0, 0, 1⟩ 0x1064 ⟨10, 0, 0, 1⟩ ⟨224, 0, 0, 13⟩ [0x20, 0x00]
    (Frame.parse (d.toBytes ++ [0xff])).toOption.map (fun f => (f.vlan.vid, f.payloadLength)) =
      some (0x64, 2) := by
  decide

end Datagram
end Snooping
