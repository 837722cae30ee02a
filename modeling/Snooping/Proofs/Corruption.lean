import Snooping.Proofs.Carries
import Snooping.Proofs.Framing
import Snooping.Proofs.Recognition

/-!
Corrupted messages. A changed byte moves the sum of the words by less than 65535, so an intact
message is not intact any more, and the frame that carries it is passed on untouched.
-/
namespace Snooping

namespace Checksum

variable {data : Bytes} {i offset : Nat} {b c : UInt8} {w w' : UInt16}

/-- By how much a byte at `i` counts: the first byte of a word is its high one. -/
def weight : Nat → Nat
  | 0 => 256
  | 1 => 1
  | i + 2 => weight i

theorem weight_cases (i : Nat) : weight i = 256 ∨ weight i = 1 := by
  fun_induction weight i with
  | case1 => exact .inl rfl
  | case2 => exact .inr rfl
  | case3 i ih => exact ih

/-- The sum with another byte at `i`, told without subtraction. -/
theorem total_set (h : data[i]? = some c) (b : UInt8) :
    total (data.set i b) + weight i * c.toNat = total data + weight i * b.toNat := by
  induction data using total.induct generalizing i with
  | case1 hi lo rest ih =>
    obtain _ | _ | i := i
    · cases h
      rw [List.set_cons_zero, total, total, be16_toNat, be16_toNat, weight]
      omega
    · cases h
      rw [List.set_cons_succ, List.set_cons_zero, total, total, be16_toNat, be16_toNat, weight]
      omega
    · have hrest := ih (i := i) h
      rw [List.set_cons_succ, List.set_cons_succ, total, total, weight]
      omega
  | case2 last =>
    obtain _ | i := i
    · cases h
      rw [List.set_cons_zero, total, total, weight]
      omega
    · cases h
  | case3 => cases h

/-- A byte of an intact message is determined by the others. -/
theorem eq_of_isValid_set (hl : data.length ≤ maxLength) (h : data[i]? = some c)
    (hv : isValid data = true) (hv' : isValid (data.set i b) = true) : b = c := by
  have hsum := total_set h b
  obtain ⟨-, hdvd⟩ := (isValid_iff hl).mp hv
  obtain ⟨-, hdvd'⟩ := (isValid_iff (by rwa [List.length_set])).mp hv'
  have hb := b.toNat_lt
  have hc := c.toNat_lt
  apply UInt8.toNat_inj.mp
  -- Both sums are multiples of 65535, and they differ by less than that.
  rcases weight_cases i with hw | hw
  · rw [hw] at hsum
    omega
  · rw [hw] at hsum
    omega

theorem set_self (h : data[i]? = some b) : data.set i b = data := by
  obtain ⟨hi, rfl⟩ := List.getElem?_eq_some_iff.mp h
  exact List.set_getElem_self hi

theorem word_eq_some (h : Positions.word data offset = some w) :
    data[offset]? = some (w >>> 8).toUInt8 ∧ data[offset + 1]? = some w.toUInt8 := by
  simp only [Positions.word, Positions.byte, Option.bind_eq_bind, Option.bind_eq_some_iff] at h
  obtain ⟨hi, hhi, lo, hlo, hw⟩ := h
  cases hw
  obtain ⟨hhigh, hlow⟩ := List.cons.inj (be16Bytes_be16 hi lo)
  rw [hhigh, (List.cons.inj hlow).1]
  exact ⟨hhi, hlo⟩

theorem putWord_self (h : Positions.word data offset = some w) : putWord data offset w = data := by
  obtain ⟨hhi, hlo⟩ := word_eq_some h
  rw [putWord, set_self hhi, set_self hlo]

/-- A word of an intact message is determined by the others, but for the two forms of zero. -/
theorem eq_or_of_isValid_putWord (hl : data.length ≤ maxLength) (ho : offset % 2 = 0)
    (h : Positions.word data offset = some w) (hv : isValid data = true)
    (hv' : isValid (putWord data offset w') = true) :
    w' = w ∨ w = 0 ∧ w' = 0xffff ∨ w = 0xffff ∧ w' = 0 := by
  have hend : offset + 1 < data.length := (List.getElem?_eq_some_iff.mp (word_eq_some h).2).1
  have hsum := total_putWord w ho hend
  have hsum' := total_putWord w' ho hend
  rw [putWord_self h] at hsum
  obtain ⟨-, hdvd⟩ := (isValid_iff hl).mp hv
  obtain ⟨-, hdvd'⟩ := (isValid_iff (by rwa [length_putWord])).mp hv'
  have hw := w.toNat_lt
  have hw' := w'.toNat_lt
  have hcases : w'.toNat = w.toNat ∨ w.toNat = 0 ∧ w'.toNat = 65535 ∨
      w.toNat = 65535 ∧ w'.toNat = 0 := by omega
  rcases hcases with heq | ⟨hz, ho⟩ | ⟨ho, hz⟩
  · exact .inl (UInt16.toNat_inj.mp heq)
  · exact .inr (.inl ⟨UInt16.toNat_inj.mp hz, UInt16.toNat_inj.mp ho⟩)
  · exact .inr (.inr ⟨UInt16.toNat_inj.mp ho, UInt16.toNat_inj.mp hz⟩)

end Checksum

namespace Frame

variable {data : Bytes} {f : Frame} {i : Nat}

theorem le_payloadOffset (h : parse data = .ok f) : 38 ≤ f.payloadOffset := by
  obtain ⟨p, rfl, hf, rfl⟩ := parse_eq_ok_iff.mp h
  have hwords := UInt8.lt_iff_toNat_lt.not.mp hf.ip.words
  have hlen : p.ip.header.length = p.ip.header.ihl.toNat * 4 := rfl
  have hoff : p.frame.payloadOffset = 18 + p.ip.header.length := rfl
  have hfive : (5 : UInt8).toNat = 5 := rfl
  omega

theorem length_payload (h : parse data = .ok f) : (f.payload data).length = f.payloadLength := by
  have hend := Positions.le_length_of_slice (Positions.payload_eq h)
  rw [payload, List.length_take, List.length_drop]
  omega

theorem payload_set (f : Frame) (data : Bytes) (i : Nat) (b : UInt8) :
    f.payload (data.set (f.payloadOffset + i) b) = (f.payload data).set i b := by
  rw [payload, payload, List.drop_set, if_neg (by omega), List.take_set, Nat.add_sub_cancel_left]

end Frame

namespace Classifier

variable {frame : Bytes} {f : Frame}

/-- A message that is long enough and not intact has an outcome of its own. -/
theorem classify_corrupt_igmp (a : Arrival) (t : Targets) (hf : Frame.parse frame = .ok f)
    (hp : f.ipv4.protocol = 2) (hl : 8 ≤ (f.payload frame).length)
    (hv : Checksum.isValid (f.payload frame) = false) :
    classify a frame t = plain t .igmpBadChecksum := by
  have hc : classify a frame t = onIgmp a f.vlan.vid (f.payload frame) t := by
    rw [classify, hf]
    exact if_pos hp
  have hh := Positions.igmpHeader_eq (f.payload frame)
  rw [Positions.igmpHeader, if_neg (Nat.not_lt.mpr hl)] at hh
  rw [hc, onIgmp]
  cases hparse : Igmp.Header.parse? (f.payload frame) with
  | none =>
    rw [hparse] at hh
    simp [Option.bind_eq_some_iff] at hh
  | some h => simp only [hv, Bool.not_false, if_true]

theorem classify_corrupt_pim (a : Arrival) (t : Targets) (hf : Frame.parse frame = .ok f)
    (hp : f.ipv4.protocol = 103) (hv : Checksum.isValid (f.payload frame) = false) :
    classify a frame t = plain t .pimBad := by
  have hc : classify a frame t = onPim a f.vlan.vid f.ipv4.dst (f.payload frame) t := by
    rw [classify, hf]
    simp only [hp]
    rw [if_neg (by decide), if_pos (by decide)]
  rw [hc, onPim, if_pos (by simp [hv])]

end Classifier

namespace Agent

variable {χ ω : Type} {a : Agent χ ω} {frame : Bytes} {f : Frame} {inPort : UInt32} {now : Nat}

/-- The frame is passed with outcome `o`. That is counted, and nothing else in the agent changes. -/
structure Passes (a : Agent χ ω) (frame : Bytes) (inPort : UInt32) (now : Nat) (o : Outcome) :
    Prop where
  outcome : (a.classify frame inPort now).answer = o
  disposition : (a.classify frame inPort now).answer.disposition = .pass
  agent : (a.classify frame inPort now).agent = { a with classified := a.classified.record o }

theorem passes_of_plain {o : Outcome} (h : Classifier.classify ⟨a.rxPorts, a.timeouts, inPort, now⟩
    frame ⟨a.generalQuery, a.report, a.pim⟩ = Classifier.plain ⟨a.generalQuery, a.report, a.pim⟩ o)
    (ho : o.disposition = .pass) : a.Passes frame inPort now o := by
  have hanswer : (a.classify frame inPort now).answer = o :=
    congrArg Classifier.Classified.outcome h
  refine ⟨hanswer, by rw [hanswer, ho], ?_⟩
  simp only [classify, h, Classifier.plain]

/-- In every state, an intact message with one byte changed is passed as one that is not intact, and
nothing is touched. Of changes to a word, at most that from one form of zero to the other leaves a
message intact. -/
theorem corrupted_passed (a : Agent χ ω) (inPort : UInt32) (now : Nat)
    (hf : Frame.parse frame = .ok f) (hv : Checksum.isValid (f.payload frame) = true) :
    (∀ i b c, (f.payload frame)[i]? = some c → b ≠ c →
      Frame.parse (frame.set (f.payloadOffset + i) b) = .ok f ∧
      (f.ipv4.protocol = 2 → 8 ≤ f.payloadLength →
        a.Passes (frame.set (f.payloadOffset + i) b) inPort now .igmpBadChecksum) ∧
      (f.ipv4.protocol = 103 → 4 ≤ f.payloadLength →
        a.Passes (frame.set (f.payloadOffset + i) b) inPort now .pimBad)) ∧
    ∀ i w w', i % 2 = 0 → Positions.word (f.payload frame) i = some w →
      Frame.parse (Checksum.putWord frame (f.payloadOffset + i) w') = .ok f ∧
      (Checksum.isValid (f.payload (Checksum.putWord frame (f.payloadOffset + i) w')) = true →
        w' = w ∨ w = 0x0000 ∧ w' = 0xffff ∨ w = 0xffff ∧ w' = 0x0000) := by
  have hoff := Frame.le_payloadOffset hf
  have hlen := Frame.length_payload_le hf
  have hmax : (f.payload frame).length ≤ Checksum.maxLength := by
    rw [Checksum.maxLength]
    omega
  constructor
  · intro i b c hc hne
    have hi : 38 ≤ f.payloadOffset + i := Nat.le_add_right_of_le hoff
    have hf' := Frame.parse_set hf hi b
    have hpay := Frame.payload_set f frame i b
    have hv' : Checksum.isValid (f.payload (frame.set (f.payloadOffset + i) b)) = false := by
      rw [hpay, Bool.eq_false_iff]
      intro hv'
      exact hne (Checksum.eq_of_isValid_set hmax hc hv hv')
    refine ⟨hf', fun hp hl => ?_, fun hp _ => ?_⟩
    · rw [← Frame.length_payload hf, ← List.length_set (i := i) (a := b), ← hpay] at hl
      exact passes_of_plain (Classifier.classify_corrupt_igmp _ _ hf' hp hl hv') rfl
    · exact passes_of_plain (Classifier.classify_corrupt_pim _ _ hf' hp hv') rfl
  · intro i w w' hi hw
    constructor
    · exact Frame.parse_set (Frame.parse_set hf (by omega) _) (by omega) _
    · intro hv'
      rw [Checksum.putWord, Nat.add_assoc, Frame.payload_set, Frame.payload_set] at hv'
      exact Checksum.eq_or_of_isValid_putWord hmax hi hw hv hv'

/-- With another response time in its second byte, a query that is waited for is passed. -/
theorem corrupted_passed_query : ∃ f a, Frame.parse heardQuery = .ok f ∧
    Checksum.isValid (f.payload heardQuery) = true ∧ (f.payload heardQuery)[1]? = some 100 ∧
    (new 8 .initial .initial).run listening = .ok a ∧
    (a.classify heardQuery 1 0).answer = .generalQueryHit ∧
    a.Passes (heardQuery.set (f.payloadOffset + 1) 101) 1 0 .igmpBadChecksum := by
  have hf : ∃ f, Frame.parse heardQuery = .ok f ∧ f.ipv4.protocol = 2 ∧ f.payloadLength = 8 ∧
      Checksum.isValid (f.payload heardQuery) = true ∧ (f.payload heardQuery)[1]? = some 100 :=
    ⟨_, rfl, rfl, rfl, rfl, rfl⟩
  have ha : ∃ a : Agent ControllerLink FrameSender,
      (new 8 .initial .initial).run listening = .ok a ∧
        (a.classify heardQuery 1 0).answer = .generalQueryHit := ⟨_, rfl, rfl⟩
  obtain ⟨f, hf, hp, hl, hv, hc⟩ := hf
  obtain ⟨a, ha, hhit⟩ := ha
  refine ⟨f, a, hf, hv, hc, ha, hhit, ?_⟩
  obtain ⟨-, higmp, -⟩ := (corrupted_passed a 1 0 hf hv).1 1 101 100 hc (by decide)
  exact higmp hp (Nat.le_of_eq hl.symm)

end Agent
end Snooping
