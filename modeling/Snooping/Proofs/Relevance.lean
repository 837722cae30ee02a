import Mathlib.Tactic.SplitIfs
import Snooping.Proofs.Framing
import Snooping.Proofs.Recognition

/-!
Which bytes of a frame matter. Its classification goes by its VLAN, its protocol and its payload,
and for PIM by its destination; frames that differ in other bytes are classified alike.
-/
namespace Snooping

namespace Frame

/-- The places of a frame where any byte will do. -/
def IsAside (data : Bytes) (i : Nat) : Prop :=
  -- Ethernet addresses
  i < 12 ∨
  -- type of service
  i = 19 ∨
  -- identification, flags and fragment offset
  22 ≤ i ∧ i < 26 ∨
  -- time to live
  i = 26 ∨
  -- header checksum
  28 ≤ i ∧ i < 30 ∨
  -- source address
  30 ≤ i ∧ i < 34 ∨
  -- destination address, unless the protocol is PIM
  34 ≤ i ∧ i < 38 ∧ octetAt data 27 ≠ 103 ∨
  -- options
  38 ≤ i ∧ i < 18 + headerLengthAt data ∨
  -- padding
  18 + totalLengthAt data ≤ i

instance (data : Bytes) (i : Nat) : Decidable (IsAside data i) :=
  inferInstanceAs (Decidable (_ ∨ _))

/-- From `data` to `data'`, only bytes that do not matter are changed, added or removed, and the
priority bits above the VLAN. -/
structure DiffersAside (data data' : Bytes) : Prop where
  complete : 18 + totalLengthAt data ≤ data'.length
  vlanBits : octetAt data' 14 % 16 = octetAt data 14 % 16
  bytes : ∀ i, i ≠ 14 → ¬ IsAside data i → data'[i]? = data[i]?

variable {data data' : Bytes} {i n : Nat}

theorem octetAt_congr (h : data'[i]? = data[i]?) : octetAt data' i = octetAt data i := by
  rw [octetAt, octetAt, List.getD_eq_getElem?_getD, List.getD_eq_getElem?_getD, h]

/-- Two texts have the same bytes from `i` on, if they have the same one at each place. -/
theorem take_drop_congr (h : ∀ j < n, data'[i + j]? = data[i + j]?) :
    (data'.drop i).take n = (data.drop i).take n := by
  apply List.ext_getElem?
  intro j
  rw [List.getElem?_take, List.getElem?_take, List.getElem?_drop, List.getElem?_drop]
  split_ifs with hj
  · exact h j hj
  · rfl

theorem IsTagged.minimal_headerLength (ht : IsTagged data) : 20 ≤ headerLengthAt data :=
  Nat.mul_le_mul_left 4 ht.words

theorem IsTagged.minimal_totalLength (ht : IsTagged data) : 20 ≤ totalLengthAt data :=
  Nat.le_trans ht.minimal_headerLength ht.header

namespace DiffersAside

variable (h : DiffersAside data data') (ht : IsTagged data)
include h ht

/-- The bytes of the headers that matter. -/
theorem octetAt_eq (hi : i = 12 ∨ i = 13 ∨ 15 ≤ i ∧ i < 19 ∨ i = 20 ∨ i = 21 ∨ i = 27) :
    octetAt data' i = octetAt data i := by
  have hmin := ht.minimal_totalLength
  apply octetAt_congr
  apply h.bytes i (by omega)
  unfold IsAside
  omega

theorem vid_eq : wordAt data' 14 % 4096 = wordAt data 14 % 4096 := by
  have hbits := h.vlanBits
  have hlow := h.octetAt_eq ht (i := 14 + 1) (by omega)
  rw [wordAt, wordAt, hlow]
  omega

theorem wordAt_eq (hi : i = 12 ∨ i = 16 ∨ i = 20) : wordAt data' i = wordAt data i := by
  rw [wordAt, wordAt, h.octetAt_eq ht (by omega), h.octetAt_eq ht (by omega)]

theorem totalLengthAt_eq : totalLengthAt data' = totalLengthAt data :=
  h.wordAt_eq ht (.inr (.inr rfl))

theorem headerLengthAt_eq : headerLengthAt data' = headerLengthAt data := by
  rw [headerLengthAt, headerLengthAt, h.octetAt_eq ht (by omega)]

/-- Other bytes aside leave a frame a frame. -/
theorem isTagged : IsTagged data' := by
  have hmin := ht.minimal_totalLength
  have hcomplete := h.complete
  have hfirst := h.octetAt_eq ht (i := 18) (by omega)
  constructor
  · omega
  · rw [h.wordAt_eq ht (.inl rfl), ht.outerType]
  · rw [h.wordAt_eq ht (.inr (.inl rfl)), ht.innerType]
  · rw [hfirst, ht.version]
  · rw [hfirst]
    exact ht.words
  · rw [h.headerLengthAt_eq ht, h.totalLengthAt_eq ht]
    exact ht.header
  · rw [h.totalLengthAt_eq ht]
    exact hcomplete

/-- Destinations are the same, if that matters. -/
theorem destination_eq (hp : octetAt data 27 = 103) :
    (data'.drop 34).take 4 = (data.drop 34).take 4 := by
  have hheader := ht.minimal_headerLength
  have htotal := ht.minimal_totalLength
  apply take_drop_congr
  intro j hj
  apply h.bytes (34 + j) (by omega)
  unfold IsAside
  omega

theorem slice_eq :
    Positions.slice data' (18 + headerLengthAt data) (18 + totalLengthAt data) =
      Positions.slice data (18 + headerLengthAt data) (18 + totalLengthAt data) := by
  have hheader := ht.minimal_headerLength
  have hbytes : (data'.drop (18 + headerLengthAt data)).take
      (18 + totalLengthAt data - (18 + headerLengthAt data)) =
      (data.drop (18 + headerLengthAt data)).take
        (18 + totalLengthAt data - (18 + headerLengthAt data)) := by
    apply take_drop_congr
    intro j hj
    apply h.bytes (18 + headerLengthAt data + j) (by omega)
    unfold IsAside
    omega
  have hle := Nat.add_le_add_left ht.header 18
  rw [Positions.slice, Positions.slice, if_pos ⟨hle, h.complete⟩, if_pos ⟨hle, ht.packet⟩, hbytes]

end DiffersAside

/-- The parts of two frames that their classification goes by are the same. -/
structure Conveys (f : Frame) (data : Bytes) (f' : Frame) (data' : Bytes) : Prop where
  vid : f'.vlan.vid = f.vlan.vid
  protocol : f'.ipv4.protocol = f.ipv4.protocol
  destination : f.ipv4.protocol = 103 → f'.ipv4.dst = f.ipv4.dst
  payload : f'.payload data' = f.payload data

theorem Ipv4.octets_inj {x y : Ipv4} (h : x.octets = y.octets) : x = y := by
  cases x
  cases y
  simpa [Ipv4.octets] using h

theorem DiffersAside.conveys {f : Frame} (h : DiffersAside data data') (hf : parse data = .ok f) :
    ∃ f', parse data' = .ok f' ∧ Conveys f data f' data' := by
  have hpay := payload_slice hf
  obtain ⟨p, rfl, hfit, rfl⟩ := parse_eq_ok_iff.mp hf
  have ht := (fit_iff_isTagged p).mp hfit
  have ht' := h.isTagged ht
  obtain ⟨p', rfl⟩ := exists_parts ht'.minimal
  have hf' : parse p'.bytes = .ok p'.frame :=
    parse_eq_ok_iff.mpr ⟨p', rfl, (fit_iff_isTagged p').mpr ht', rfl⟩
  have hpay' := payload_slice hf'
  have hs := spells_frame p
  have hs' := spells_frame p'
  rw [h.headerLengthAt_eq ht, h.totalLengthAt_eq ht, h.slice_eq ht, hpay] at hpay'
  refine ⟨p'.frame, hf', ?_, ?_, ?_, (Option.some.inj hpay').symm⟩
  · apply UInt16.toNat_inj.mp
    rw [hs'.vid, hs.vid, h.vid_eq ht]
  · apply UInt8.toNat_inj.mp
    rw [hs'.protocol, hs.protocol, h.octetAt_eq ht (by omega)]
  · intro hp
    apply Ipv4.octets_inj
    rw [hs'.dst, hs.dst, h.destination_eq ht]
    rw [← hs.protocol, hp]
    rfl

end Frame

namespace Classifier

variable {frame frame' : Bytes} {f f' : Frame}

/-- Classification goes by nothing else. -/
theorem classify_congr (hf : Frame.parse frame = .ok f) (hf' : Frame.parse frame' = .ok f')
    (h : f.Conveys frame f' frame') (a : Arrival) (t : Targets) :
    classify a frame' t = classify a frame t := by
  rw [classify, classify, hf, hf']
  simp only [h.vid, h.protocol, h.payload]
  by_cases hp : f.ipv4.protocol = 103
  · rw [h.destination hp]
  · have hpim : ¬ f.ipv4.protocol = pimProtocol := hp
    rw [if_neg hpim, if_neg hpim]

end Classifier

namespace Agent

variable {χ ω : Type} {frame frame' : Bytes} {f : Frame}

/-- In every state, frames that differ only in bytes that do not matter are frames alike: they have
the same outcome and change the same. -/
theorem irrelevant_bytes_ignored (a : Agent χ ω) (inPort : UInt32) (now : Nat)
    (hf : Frame.parse frame = .ok f) (h : Frame.DiffersAside frame frame') :
    (∃ f', Frame.parse frame' = .ok f') ∧
      a.classify frame' inPort now = a.classify frame inPort now := by
  obtain ⟨f', hf', hconveys⟩ := h.conveys hf
  refine ⟨⟨f', hf'⟩, ?_⟩
  simp only [classify, Classifier.classify_congr hf hf' hconveys]

/-- The query between other addresses, with a priority, other header fields, another option and
padding. -/
def disguisedQuery : Bytes :=
  [0x33, 0x33, 0x00, 0x00, 0x00, 0x09, 0x02, 0x00, 0x00, 0x00, 0x00, 0x07, 0x81, 0x00, 0xf0, 0x01,
    0x08, 0x00, 0x46, 0x1c, 0x00, 0x20, 0xab, 0xcd, 0x40, 0x00, 0x40, 0x02, 0xff, 0xff, 0x0a, 0x00,
    0x00, 0x01, 0xe0, 0x00, 0x00, 0x16, 0x01, 0x01, 0x01, 0x00, 0x11, 0x64, 0xee, 0x9b, 0x00, 0x00,
    0x00, 0x00, 0xde, 0xad]

/-- It is heard all the same. -/
theorem irrelevant_bytes_ignored_disguised :
    (∃ f, Frame.parse heardQuery = .ok f) ∧ Frame.DiffersAside heardQuery disguisedQuery ∧
      ∃ a, (new 8 .initial .initial).run listening = .ok a ∧
        (a.classify disguisedQuery 1 0).answer = .generalQueryHit := by
  have hf : ∃ f, Frame.parse heardQuery = .ok f := ⟨_, rfl⟩
  have hbytes : ∀ i < 50, i ≠ 14 → ¬ Frame.IsAside heardQuery i →
      disguisedQuery[i]? = heardQuery[i]? := by
    decide
  have h : Frame.DiffersAside heardQuery disguisedQuery := by
    refine ⟨by decide, by decide, fun i hi haside => ?_⟩
    by_cases hlt : i < 50
    · exact hbytes i hlt hi haside
    · refine (haside ?_).elim
      have hend : 18 + Frame.totalLengthAt heardQuery = 50 := rfl
      unfold Frame.IsAside
      omega
  have ha : ∃ a : Agent ControllerLink FrameSender,
      (new 8 .initial .initial).run listening = .ok a ∧
        (a.classify heardQuery 1 0).answer = .generalQueryHit := ⟨_, rfl, rfl⟩
  obtain ⟨f, hf'⟩ := hf
  obtain ⟨a, ha, hhit⟩ := ha
  refine ⟨⟨f, hf'⟩, h, a, ha, ?_⟩
  rw [(irrelevant_bytes_ignored a 1 0 hf' h).2, hhit]

end Agent
end Snooping
