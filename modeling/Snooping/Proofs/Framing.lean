import Mathlib.Tactic.SplitIfs
import Snooping.Proofs.Datagram
import Snooping.Proofs.Positions

/-!
Which byte strings are frames. A frame is its headers with what stands behind them, so its fields
are at fixed places; what is behind its total length is padding, and without it a frame is cut off.
-/
namespace Snooping

variable {data rest : Bytes}

/-- Refused because bytes are missing. -/
def RunsShort {α : Type} (r : Except FrameError α) : Prop :=
  ∃ expected actual, r = .error (.tooShort expected actual)

namespace EthernetHeader

def octets (h : EthernetHeader) : Bytes := h.dst.octets ++ h.src.octets ++ be16Bytes h.etherType

theorem read_eq_ok_iff {h : EthernetHeader} :
    read data = .ok (h, rest) ↔ data = h.octets ++ rest := by
  constructor
  · fun_cases read data with
    | case1 =>
      intro hr
      cases hr
      simp only [octets, Mac.octets, be16Bytes_be16]
      rfl
    | case2 =>
      intro hr
      cases hr
  · rintro rfl
    simp only [octets, Mac.octets, be16Bytes, List.cons_append, List.nil_append, read, be16_bytes]

theorem read_of_short (h : data.length < ethernetLength) :
    read data = .error (.tooShort ethernetLength data.length) := by
  fun_cases read data with
  | case1 =>
    simp only [List.length_cons, ethernetLength] at h
    omega
  | case2 => rfl

theorem exists_read (h : ethernetLength ≤ data.length) : ∃ e rest, read data = .ok (e, rest) := by
  have he := Positions.ethernet_eq data
  cases hr : read data with
  | ok p => exact ⟨p.1, p.2, rfl⟩
  | error e =>
    rw [hr, Positions.ethernet, if_neg (by omega)] at he
    simp [Except.map, Option.bind_eq_some_iff] at he

/-- A header that is cut off is refused for that; behind it nothing matters. -/
theorem read_take {h : EthernetHeader} (hr : read data = .ok (h, rest)) (n : Nat) :
    read (data.take n) = .ok (h, rest.take (n - ethernetLength)) ∨
      RunsShort (read (data.take n)) := by
  obtain rfl := read_eq_ok_iff.mp hr
  by_cases hn : n < ethernetLength
  · exact .inr ⟨_, _, read_of_short (by rw [List.length_take]; omega)⟩
  · have hlen : h.octets.length = ethernetLength := rfl
    rw [List.take_append, List.take_of_length_le (by omega), hlen]
    exact .inl (read_eq_ok_iff.mpr rfl)

end EthernetHeader

namespace VlanTag

/-- The tag with the given control bits in front of a type. -/
def ofControl (control etherType : UInt16) : VlanTag :=
  ⟨(control >>> 13).toUInt8, control &&& vidMask, etherType⟩

theorem read_eq_ok_iff {t : VlanTag} : read data = .ok (t, rest) ↔
    ∃ control etherType, t = ofControl control etherType ∧
      data = be16Bytes control ++ (be16Bytes etherType ++ rest) := by
  constructor
  · fun_cases read data with
    | case1 c0 c1 t0 t1 =>
      intro hr
      cases hr
      refine ⟨be16 c0 c1, be16 t0 t1, rfl, ?_⟩
      simp only [be16Bytes_be16]
      rfl
    | case2 =>
      intro hr
      cases hr
  · rintro ⟨control, etherType, rfl, rfl⟩
    simp only [be16Bytes, List.cons_append, List.nil_append, read, be16_bytes]
    rfl

theorem read_of_short (h : data.length < vlanTagLength) : read data =
    .error (.tooShort (ethernetLength + vlanTagLength) (ethernetLength + data.length)) := by
  fun_cases read data with
  | case1 =>
    simp only [List.length_cons, vlanTagLength] at h
    omega
  | case2 => rfl

theorem exists_read (h : vlanTagLength ≤ data.length) : ∃ t rest, read data = .ok (t, rest) := by
  have he := Positions.vlanTag_eq data
  cases hr : read data with
  | ok p => exact ⟨p.1, p.2, rfl⟩
  | error e =>
    rw [hr, Positions.vlanTag, if_neg (by omega)] at he
    simp [Except.map, Option.bind_eq_some_iff] at he

theorem read_take {t : VlanTag} (hr : read data = .ok (t, rest)) (n : Nat) :
    read (data.take n) = .ok (t, rest.take (n - vlanTagLength)) ∨
      RunsShort (read (data.take n)) := by
  obtain ⟨control, etherType, rfl, rfl⟩ := read_eq_ok_iff.mp hr
  by_cases hn : n < vlanTagLength
  · exact .inr ⟨_, _, read_of_short (by rw [List.length_take]; omega)⟩
  · have hlen : (be16Bytes control ++ be16Bytes etherType).length = vlanTagLength := rfl
    rw [← List.append_assoc, List.take_append, List.take_of_length_le (by omega), hlen]
    exact .inl (read_eq_ok_iff.mpr ⟨control, etherType, rfl, List.append_assoc ..⟩)

end VlanTag

namespace Ipv4Header

/-- The first twenty bytes of a packet, those that are not looked at included. -/
structure Octets where
  first : UInt8
  tos : UInt8
  totalLength : UInt16
  ident : UInt16
  fragment : UInt16
  ttl : UInt8
  protocol : UInt8
  checksum : UInt16
  src : Ipv4
  dst : Ipv4

def Octets.bytes (o : Octets) : Bytes :=
  [o.first, o.tos] ++ be16Bytes o.totalLength ++ be16Bytes o.ident ++ be16Bytes o.fragment ++
    [o.ttl, o.protocol] ++ be16Bytes o.checksum ++ o.src.octets ++ o.dst.octets

def Octets.header (o : Octets) : Ipv4Header :=
  ⟨o.first >>> 4, o.first &&& 0x0f, o.totalLength, o.ttl, o.protocol, o.checksum, o.src, o.dst⟩

theorem exists_octets (h : ipv4MinLength ≤ data.length) :
    ∃ (o : Octets) (rest : Bytes), data = o.bytes ++ rest := by
  -- The pattern that the reader matches says which bytes are there.
  generalize hr : read data = r
  unfold read at hr
  split at hr
  · rename_i b0 tos l0 l1 i0 i1 g0 g1 ttl protocol k0 k1 s0 s1 s2 s3 d0 d1 d2 d3 rest
    refine ⟨⟨b0, tos, be16 l0 l1, be16 i0 i1, be16 g0 g1, ttl, protocol, be16 k0 k1,
      ⟨s0, s1, s2, s3⟩, ⟨d0, d1, d2, d3⟩⟩, rest, ?_⟩
    simp only [Octets.bytes, be16Bytes_be16]
    rfl
  · rename_i hno
    have hlen : data.length < ipv4MinLength := by
      iterate 20
        refine Positions.length_lt_succ fun _ _ hb => ?_
        subst hb
      exact (hno _ _ _ _ _ _ _ _ _ _ _ _ _ _ _ _ _ _ _ _ _ rfl).elim
    omega

theorem read_bytes (o : Octets) (rest : Bytes) : read (o.bytes ++ rest) =
    if o.header.version ≠ 4 then .error (.wrongVersion o.header.version)
    else if o.header.ihl < 5 then .error (.headerTooSmall o.header.ihl)
    else if (o.bytes ++ rest).length < o.header.length then
      .error (.tooShort o.header.length (o.bytes ++ rest).length)
    else .ok o.header := by
  simp only [Octets.bytes, be16Bytes, Ipv4.octets, List.cons_append, List.nil_append, read,
    be16_bytes]
  rfl

theorem length_bytes (o : Octets) : o.bytes.length = ipv4MinLength := rfl

theorem read_of_short (h : data.length < ipv4MinLength) :
    read data = .error (.tooShort ipv4MinLength data.length) := by
  have hp := Positions.ipv4_eq data
  rw [Positions.ipv4, if_pos h] at hp
  exact (Option.some.inj hp).symm

/-- The bytes that hold a header, the length that it gives itself included. -/
structure Octets.Fits (o : Octets) (rest : Bytes) : Prop where
  version : o.header.version = 4
  words : ¬ o.header.ihl < 5
  length : o.header.length ≤ (o.bytes ++ rest).length

theorem read_eq_ok_iff {h : Ipv4Header} : read data = .ok h ↔
    ∃ (o : Octets) (rest : Bytes), data = o.bytes ++ rest ∧ o.Fits rest ∧ h = o.header := by
  constructor
  · intro hr
    by_cases hl : data.length < ipv4MinLength
    · rw [read_of_short hl] at hr
      cases hr
    obtain ⟨o, rest, rfl⟩ := exists_octets (Nat.not_lt.mp hl)
    rw [read_bytes] at hr
    split_ifs at hr with hv hi hlen
    cases hr
    exact ⟨o, rest, rfl, ⟨not_not.mp hv, hi, Nat.not_lt.mp hlen⟩, rfl⟩
  · rintro ⟨o, rest, rfl, hf, rfl⟩
    rw [read_bytes, if_neg (not_not.mpr hf.version), if_neg hf.words,
      if_neg (Nat.not_lt.mpr hf.length)]

theorem read_take {h : Ipv4Header} (hr : read data = .ok h) (n : Nat) :
    read (data.take n) = .ok h ∨ RunsShort (read (data.take n)) := by
  obtain ⟨o, rest, rfl, hf, rfl⟩ := read_eq_ok_iff.mp hr
  by_cases hn : n < ipv4MinLength
  · exact .inr ⟨_, _, read_of_short (by rw [List.length_take]; omega)⟩
  · rw [List.take_append, List.take_of_length_le (by rw [length_bytes]; omega), read_bytes,
      if_neg (not_not.mpr hf.version), if_neg hf.words]
    split_ifs
    · exact .inr ⟨_, _, rfl⟩
    · exact .inl rfl

end Ipv4Header

namespace Frame

/-- The byte at `i` as a number. -/
def octetAt (data : Bytes) (i : Nat) : Nat := (data.getD i 0).toNat

/-- The two bytes at `i` as a number. -/
def wordAt (data : Bytes) (i : Nat) : Nat := octetAt data i * 256 + octetAt data (i + 1)

/-- The length that the IPv4 header gives itself, in bytes. -/
def headerLengthAt (data : Bytes) : Nat := 4 * (octetAt data 18 % 16)

/-- The length that the IPv4 header gives to the packet. -/
def totalLengthAt (data : Bytes) : Nat := wordAt data 20

/-- The byte strings that are frames. -/
structure IsTagged (data : Bytes) : Prop where
  minimal : 38 ≤ data.length
  outerType : wordAt data 12 = 0x8100
  innerType : wordAt data 16 = 0x0800
  version : octetAt data 18 / 16 = 4
  words : 5 ≤ octetAt data 18 % 16
  header : headerLengthAt data ≤ totalLengthAt data
  packet : 18 + totalLengthAt data ≤ data.length

/-- Every field is what the bytes of `data` say. -/
structure Spells (f : Frame) (data : Bytes) : Prop where
  dstMac : f.ethernet.dst.octets = data.take 6
  srcMac : f.ethernet.src.octets = (data.drop 6).take 6
  outerType : f.ethernet.etherType.toNat = wordAt data 12
  pcp : f.vlan.pcp.toNat = wordAt data 14 / 8192
  vid : f.vlan.vid.toNat = wordAt data 14 % 4096
  innerType : f.vlan.etherType.toNat = wordAt data 16
  version : f.ipv4.version.toNat = octetAt data 18 / 16
  ihl : f.ipv4.ihl.toNat = octetAt data 18 % 16
  totalLength : f.ipv4.totalLength.toNat = totalLengthAt data
  ttl : f.ipv4.ttl.toNat = octetAt data 26
  protocol : f.ipv4.protocol.toNat = octetAt data 27
  checksum : f.ipv4.checksum.toNat = wordAt data 28
  src : f.ipv4.src.octets = (data.drop 30).take 4
  dst : f.ipv4.dst.octets = (data.drop 34).take 4
  payloadOffset : f.payloadOffset = 18 + headerLengthAt data
  payloadLength : f.payloadLength = totalLengthAt data - headerLengthAt data

/-- The fixed parts of a frame, with what stands behind them. -/
structure Parts where
  ethernet : EthernetHeader
  control : UInt16
  etherType : UInt16
  ip : Ipv4Header.Octets
  rest : Bytes

namespace Parts

def bytes (p : Parts) : Bytes :=
  p.ethernet.octets ++ (be16Bytes p.control ++ (be16Bytes p.etherType ++ (p.ip.bytes ++ p.rest)))

def frame (p : Parts) : Frame where
  ethernet := p.ethernet
  vlan := .ofControl p.control p.etherType
  ipv4 := p.ip.header
  payloadOffset := ethernetLength + vlanTagLength + p.ip.header.length
  payloadLength := p.ip.totalLength.toNat - p.ip.header.length

/-- The bytes in front of the rest. -/
def fixed (p : Parts) : Bytes :=
  p.ethernet.octets ++ (be16Bytes p.control ++ (be16Bytes p.etherType ++ p.ip.bytes))

theorem length_fixed (p : Parts) : p.fixed.length = 38 := rfl

theorem bytes_eq (p : Parts) : p.bytes = p.fixed ++ p.rest := by
  simp only [bytes, fixed, List.append_assoc]

/-- The parts are those of a frame. -/
structure Fit (p : Parts) : Prop where
  outerType : p.ethernet.etherType = vlanType
  innerType : p.etherType = ipv4Type
  ip : p.ip.Fits p.rest
  header : p.ip.header.length ≤ p.ip.totalLength.toNat
  packet : ethernetLength + vlanTagLength + p.ip.totalLength.toNat ≤ p.bytes.length

/-- Whether parts fit does not depend on the rest, as long as there is enough of it. -/
theorem Fit.withRest {p : Parts} (h : p.Fit) {rest : Bytes} (hl : p.rest.length ≤ rest.length) :
    ({ p with rest } : Parts).Fit := by
  have hip := h.ip.length
  have hpacket := h.packet
  rw [List.length_append] at hip
  rw [bytes_eq, List.length_append] at hpacket
  refine ⟨h.outerType, h.innerType, ⟨h.ip.version, h.ip.words, ?_⟩, h.header, ?_⟩
  · rw [List.length_append]
    exact Nat.le_trans hip (Nat.add_le_add_left hl _)
  · rw [bytes_eq, List.length_append]
    exact Nat.le_trans hpacket (Nat.add_le_add_left hl _)

end Parts

variable {f : Frame} {p : Parts}

/-- The readers are done one after another, and so the parts stand one behind the other. -/
theorem parse_eq_ok_iff :
    parse data = .ok f ↔ ∃ p : Parts, data = p.bytes ∧ p.Fit ∧ f = p.frame := by
  simp only [parse, bind_eq_ok_iff, guard_eq_ok_iff, pure_eq_ok_iff]
  constructor
  · rintro ⟨⟨eth, tagged⟩, he, hv, ⟨vlan, packet⟩, ht, hi, ip, hip, hh, hp, rfl⟩
    obtain rfl := EthernetHeader.read_eq_ok_iff.mp he
    obtain ⟨control, etherType, rfl, rfl⟩ := VlanTag.read_eq_ok_iff.mp ht
    obtain ⟨o, rest, rfl, hf, rfl⟩ := Ipv4Header.read_eq_ok_iff.mp hip
    exact ⟨⟨eth, control, etherType, o, rest⟩, rfl, ⟨not_not.mp hv, not_not.mp hi, hf,
      Nat.not_lt.mp hh, Nat.not_lt.mp hp⟩, rfl⟩
  · rintro ⟨p, rfl, hf, rfl⟩
    exact ⟨_, EthernetHeader.read_eq_ok_iff.mpr rfl, not_not.mpr hf.outerType,
      _, VlanTag.read_eq_ok_iff.mpr ⟨_, _, rfl, rfl⟩, not_not.mpr hf.innerType,
      _, Ipv4Header.read_eq_ok_iff.mpr ⟨_, _, rfl, hf.ip, rfl⟩, Nat.not_lt.mpr hf.header,
      Nat.not_lt.mpr hf.packet, rfl⟩

/-- Bytes for all the fixed parts hold them, whatever they are. -/
theorem exists_parts (h : 38 ≤ data.length) : ∃ p : Parts, data = p.bytes := by
  have heth : ethernetLength ≤ data.length := Nat.le_trans (by decide) h
  obtain ⟨eth, tagged, he⟩ := EthernetHeader.exists_read heth
  obtain rfl := EthernetHeader.read_eq_ok_iff.mp he
  have htagged : 24 ≤ tagged.length := by
    have hl : (eth.octets ++ tagged).length = 14 + tagged.length := by
      rw [List.length_append]
      rfl
    omega
  have hvlan : vlanTagLength ≤ tagged.length := Nat.le_trans (by decide) htagged
  obtain ⟨vlan, packet, ht⟩ := VlanTag.exists_read hvlan
  obtain ⟨control, etherType, -, rfl⟩ := VlanTag.read_eq_ok_iff.mp ht
  have hpacket : ipv4MinLength ≤ packet.length := by
    have hl : (be16Bytes control ++ (be16Bytes etherType ++ packet)).length =
        4 + packet.length := by
      rw [List.length_append, List.length_append, ← Nat.add_assoc]
      rfl
    rw [ipv4MinLength]
    omega
  obtain ⟨o, rest, rfl⟩ := Ipv4Header.exists_octets hpacket
  exact ⟨⟨eth, control, etherType, o, rest⟩, rfl⟩

theorem toNat_bytes (w : UInt16) : (w >>> 8).toUInt8.toNat * 256 + w.toUInt8.toNat = w.toNat := by
  rw [← be16_toNat, be16_bytes]

theorem version_toNat (b : UInt8) : (b >>> 4).toNat = b.toNat / 16 :=
  (UInt8.toNat_shiftRight ..).trans (Nat.shiftRight_eq_div_pow b.toNat 4)

theorem words_toNat (b : UInt8) : (b &&& 0x0f).toNat = b.toNat % 16 :=
  (UInt8.toNat_and ..).trans (Nat.and_two_pow_sub_one_eq_mod b.toNat 4)

theorem pcp_toNat (w : UInt16) : (w >>> 13).toUInt8.toNat = w.toNat / 8192 := by
  have hw := w.toNat_lt
  have hshift : (w >>> 13).toNat = w.toNat / 8192 :=
    (UInt16.toNat_shiftRight ..).trans (Nat.shiftRight_eq_div_pow w.toNat 13)
  rw [UInt16.toNat_toUInt8, hshift]
  omega

theorem totalLengthAt_bytes (p : Parts) : totalLengthAt p.bytes = p.ip.totalLength.toNat :=
  toNat_bytes p.ip.totalLength

theorem headerLengthAt_bytes (p : Parts) : headerLengthAt p.bytes = p.ip.header.length := by
  rw [headerLengthAt, Nat.mul_comm]
  exact congrArg (· * 4) (words_toNat p.ip.first).symm

theorem spells_frame (p : Parts) : p.frame.Spells p.bytes where
  dstMac := rfl
  srcMac := rfl
  outerType := (toNat_bytes _).symm
  pcp := (pcp_toNat p.control).trans (congrArg (· / 8192) (toNat_bytes p.control).symm)
  vid := (vid_toNat p.control).trans (congrArg (· % 4096) (toNat_bytes p.control).symm)
  innerType := (toNat_bytes _).symm
  version := version_toNat p.ip.first
  ihl := words_toNat p.ip.first
  totalLength := (totalLengthAt_bytes p).symm
  ttl := rfl
  protocol := rfl
  checksum := (toNat_bytes _).symm
  src := rfl
  dst := rfl
  payloadOffset := by rw [headerLengthAt_bytes]; rfl
  payloadLength := by rw [headerLengthAt_bytes, totalLengthAt_bytes]; rfl

theorem length_bytes (p : Parts) : p.bytes.length = 38 + p.rest.length := by
  simp only [Parts.bytes, List.length_append, Ipv4Header.length_bytes]
  change 14 + (2 + (2 + (20 + _))) = _
  omega

/-- The parts fit exactly if their bytes are those of a frame. -/
theorem fit_iff_isTagged (p : Parts) : p.Fit ↔ IsTagged p.bytes := by
  have houter : wordAt p.bytes 12 = p.ethernet.etherType.toNat := toNat_bytes _
  have hinner : wordAt p.bytes 16 = p.etherType.toNat := toNat_bytes _
  have hversion : octetAt p.bytes 18 / 16 = p.ip.header.version.toNat :=
    (version_toNat p.ip.first).symm
  have hwords : octetAt p.bytes 18 % 16 = p.ip.header.ihl.toNat := (words_toNat p.ip.first).symm
  have hheader := headerLengthAt_bytes p
  have htotal := totalLengthAt_bytes p
  constructor
  · intro h
    have hmin := UInt8.lt_iff_toNat_lt.not.mp h.ip.words
    refine ⟨by rw [length_bytes]; omega, by rw [houter, h.outerType]; rfl,
      by rw [hinner, h.innerType]; rfl, by rw [hversion, h.ip.version]; rfl, ?_, ?_, ?_⟩
    · rw [hwords]
      exact Nat.not_lt.mp hmin
    · rw [hheader, htotal]
      exact h.header
    · rw [htotal]
      exact h.packet
  · intro h
    have hheader' := h.header
    have hpacket := h.packet
    rw [hheader, htotal] at hheader'
    rw [htotal] at hpacket
    refine ⟨UInt16.toNat_inj.mp (houter.symm.trans h.outerType),
      UInt16.toNat_inj.mp (hinner.symm.trans h.innerType),
      ⟨UInt8.toNat_inj.mp (hversion.symm.trans h.version), fun hlt => ?_, ?_⟩, hheader', hpacket⟩
    · have hw := UInt8.lt_iff_toNat_lt.mp hlt
      rw [← hwords] at hw
      exact absurd hw (Nat.not_lt.mpr h.words)
    · rw [List.length_append, Ipv4Header.length_bytes, ipv4MinLength]
      rw [length_bytes] at hpacket
      omega

/-- Other bytes behind the fixed parts make no other frame, as long as there are enough. -/
theorem parse_withRest {rest : Bytes} (hf : p.Fit) (hl : p.rest.length ≤ rest.length) :
    parse (p.fixed ++ rest) = .ok p.frame :=
  parse_eq_ok_iff.mpr ⟨{ p with rest }, (Parts.bytes_eq { p with rest }).symm, hf.withRest hl, rfl⟩

/-- Bytes behind a frame are padding. -/
theorem parse_append (h : parse data = .ok f) (more : Bytes) : parse (data ++ more) = .ok f := by
  obtain ⟨p, rfl, hf, rfl⟩ := parse_eq_ok_iff.mp h
  rw [Parts.bytes_eq, List.append_assoc]
  refine parse_withRest hf ?_
  rw [List.length_append]
  exact Nat.le_add_right ..

/-- Reading a frame looks at nothing behind its fixed parts. -/
theorem parse_set (h : parse data = .ok f) {i : Nat} (hi : 38 ≤ i) (b : UInt8) :
    parse (data.set i b) = .ok f := by
  obtain ⟨p, rfl, hf, rfl⟩ := parse_eq_ok_iff.mp h
  rw [← p.length_fixed] at hi
  rw [Parts.bytes_eq, List.set_append_right i b hi]
  exact parse_withRest hf (Nat.le_of_eq List.length_set.symm)

/-- A frame that is cut off before its end is found to be cut off, by the first layer that misses
bytes. -/
theorem parse_take {n : Nat} (h : parse data = .ok f)
    (hn : n < ethernetLength + vlanTagLength + f.ipv4.totalLength.toNat) :
    RunsShort (parse (data.take n)) := by
  simp only [parse, bind_eq_ok_iff, guard_eq_ok_iff, pure_eq_ok_iff] at h
  obtain ⟨⟨eth, tagged⟩, he, hv, ⟨vlan, packet⟩, ht, hi, ip, hip, hh, hp, rfl⟩ := h
  have hlen : (data.take n).length < ethernetLength + vlanTagLength + ip.totalLength.toNat :=
    Nat.lt_of_le_of_lt (List.length_take_le n data) hn
  rcases EthernetHeader.read_take he n with he | ⟨x, y, he⟩
  · rcases VlanTag.read_take ht (n - ethernetLength) with ht | ⟨x, y, ht⟩
    · rcases Ipv4Header.read_take hip (n - ethernetLength - vlanTagLength) with hip | ⟨x, y, hip⟩
      · refine ⟨ethernetLength + vlanTagLength + ip.totalLength.toNat, (data.take n).length, ?_⟩
        rw [parse, he]
        simp only [bind, Except.bind, if_neg hv, ht, if_neg hi, hip, if_neg hh, if_pos hlen]
        rfl
      · refine ⟨x, y, ?_⟩
        rw [parse, he]
        simp only [bind, Except.bind, if_neg hv, ht, if_neg hi, hip]
    · refine ⟨x, y, ?_⟩
      rw [parse, he]
      simp only [bind, Except.bind, if_neg hv, ht]
  · exact ⟨x, y, by rw [parse, he]; rfl⟩

/-- The payload is the bytes between the header and the total length. -/
theorem payload_slice (h : parse data = .ok f) :
    Positions.slice data (18 + headerLengthAt data) (18 + totalLengthAt data) =
      some (f.payload data) := by
  have hp := Positions.payload_eq h
  obtain ⟨p, rfl, hf, rfl⟩ := parse_eq_ok_iff.mp h
  have hs := spells_frame p
  have hheader := ((fit_iff_isTagged p).mp hf).header
  rw [hs.payloadOffset, hs.payloadLength] at hp
  rw [← hp]
  congr 1
  omega

theorem payload_append (h : parse data = .ok f) (more : Bytes) :
    f.payload (data ++ more) = f.payload data := by
  have hend := Positions.le_length_of_slice (Positions.payload_eq h)
  rw [payload, payload, List.drop_append_of_le_length (by omega),
    List.take_append_of_le_length (by rw [List.length_drop]; omega)]

/-- Frames are exactly the byte strings that the layout describes, and what is read of one is what
its bytes say. No slice is out of range, whatever the bytes. Padding makes no difference, and a
frame that is cut off before its end is refused for that. -/
theorem frames_parsed (data : Bytes) :
    Positions.frame data = some (parse data) ∧
      ((∃ f, parse data = .ok f) ↔ IsTagged data) ∧
      ∀ f, parse data = .ok f →
        f.Spells data ∧
        Positions.slice data (18 + headerLengthAt data) (18 + totalLengthAt data) =
          some (f.payload data) ∧
        (∀ more, parse (data ++ more) = .ok f ∧ f.payload (data ++ more) = f.payload data) ∧
        ∀ n < 18 + totalLengthAt data, RunsShort (parse (data.take n)) := by
  refine ⟨Positions.frame_eq data, ⟨?_, fun h => ?_⟩, fun f h => ⟨?_, payload_slice h,
    fun more => ⟨parse_append h more, payload_append h more⟩, fun n hn => parse_take h ?_⟩⟩
  · rintro ⟨f, h⟩
    obtain ⟨p, rfl, hf, rfl⟩ := parse_eq_ok_iff.mp h
    exact (fit_iff_isTagged p).mp hf
  · obtain ⟨p, rfl⟩ := exists_parts h.minimal
    exact ⟨p.frame, parse_eq_ok_iff.mpr ⟨p, rfl, (fit_iff_isTagged p).mpr h, rfl⟩⟩
  · obtain ⟨p, rfl, -, rfl⟩ := parse_eq_ok_iff.mp h
    exact spells_frame p
  · obtain ⟨p, rfl, -, rfl⟩ := parse_eq_ok_iff.mp h
    rwa [totalLengthAt_bytes] at hn

/-- A frame with options in its header, two bytes of payload and one byte of padding. -/
def optioned : Bytes :=
  [0x01, 0x00, 0x5e, 0x01, 0x02, 0x03, 0x02, 0x00, 0x00, 0x00, 0x00, 0x01, 0x81, 0x00,
    0x60, 0x64, 0x08, 0x00, 0x46, 0x00, 0x00, 0x1a, 0x00, 0x00, 0x00, 0x00, 0x01, 0x02, 0x00, 0x00,
    0x0a, 0x00, 0x00, 0x01, 0xef, 0x01, 0x02, 0x03, 0x94, 0x04, 0x00, 0x00, 0xde, 0xad, 0x00]

theorem frames_parsed_optioned : ∃ f, parse optioned = .ok f ∧
    f.vlan.pcp.toNat = 3 ∧ f.vlan.vid.toNat = 100 ∧ f.payload optioned = [0xde, 0xad] ∧
    parse (optioned ++ [0xff]) = .ok f ∧ RunsShort (parse (optioned.take 43)) := by
  obtain ⟨-, htagged, hframes⟩ := frames_parsed optioned
  obtain ⟨f, hf⟩ := htagged.mpr ⟨by decide, rfl, rfl, rfl, by decide, by decide, by decide⟩
  obtain ⟨hspells, hpayload, happend, htake⟩ := hframes f hf
  exact ⟨f, hf, hspells.pcp, hspells.vid, (Option.some.inj hpayload).symm, (happend [0xff]).1,
    htake 43 (by decide)⟩

end Frame
end Snooping
