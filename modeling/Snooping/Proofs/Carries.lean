import Mathlib.Data.Nat.ModEq
import Mathlib.Tactic.SplitIfs
import Snooping.Proofs.Checksum
import Snooping.Proofs.Positions

/-!
Checksums without a lost carry. Words are added up in 32 bits, and carries are added back in until
there are none. Up to a length that no payload comes near, that is arithmetic modulo 65535, and so
it is for every message that classification looks at.
-/
namespace Snooping

namespace Checksum

/-- The sum, if 32 bits hold it. -/
def add? (a b : UInt32) : Option UInt32 := if a.toNat + b.toNat < 2 ^ 32 then some (a + b) else none

/-- Adds the words of `data` to `sum`. Nothing is answered once a sum is too large. -/
def wordSum? (sum : UInt32) : Bytes → Option UInt32
  | hi :: lo :: rest => do wordSum? (← add? sum (be16 hi lo).toUInt32) rest
  | [last] => add? sum (last.toUInt32 <<< (8 : UInt32))
  | [] => some sum

def isValid? (data : Bytes) : Option Bool :=
  return (foldCarries (← wordSum? 0 data)).toUInt16 == 0xffff

/-- As long as there are carries above 16 bits, they are added back in. From `sum` on, that ends
after `n` rounds with `r`, and no sum is too large on the way. -/
inductive Folds : Nat → UInt32 → UInt32 → Prop
  | done {sum : UInt32} (h : sum >>> (16 : UInt32) = 0) : Folds 0 sum sum
  | round {n : Nat} {sum sum' r : UInt32} (h : sum >>> (16 : UInt32) ≠ 0)
    (hadd : add? (sum &&& (0xffff : UInt32)) (sum >>> (16 : UInt32)) = some sum')
    (hr : Folds n sum' r) : Folds (n + 1) sum r

/-- The checksum of `data` is what arithmetic modulo 65535 says, and filling a field of `data` on a
word boundary makes it intact and changes nothing else. -/
structure Exact (data : Bytes) : Prop where
  summed : wordSum? 0 data = some (wordSum 0 data) ∧ (wordSum 0 data).toNat = total data
  folded : ∃ n ≤ 2, ∃ r, Folds n (wordSum 0 data) r ∧ onesComplementSum data = r.toUInt16
  zero : total data = 0 → onesComplementSum data = 0
  representative : 0 < total data → ∀ n, n = (onesComplementSum data).toNat ↔
    1 ≤ n ∧ n ≤ 65535 ∧ n ≡ total data [MOD 65535]
  intact : isValid data = true ↔ 0 < total data ∧ 65535 ∣ total data
  complement : (checksum data).toNat = 65535 - (onesComplementSum data).toNat
  filled : ∀ offset, offset % 2 = 0 → offset + 2 ≤ data.length →
    isValid (fill data offset) = true ∧ (fill data offset).length = data.length ∧
      ∀ i, i ≠ offset → i ≠ offset + 1 → (fill data offset)[i]? = data[i]?

variable {data : Bytes} {sum r : UInt32} {n : Nat}

/-- Unless a sum is too large, all are as they should be. -/
theorem wordSum?_eq (sum : UInt32) (data : Bytes) : wordSum? sum data =
    if sum.toNat + total data < 2 ^ 32 then some (wordSum sum data) else none := by
  induction sum, data using wordSum.induct with
  | case1 sum hi lo rest ih =>
    have hw : (be16 hi lo).toUInt32.toNat = (be16 hi lo).toNat := UInt16.toNat_toUInt32 _
    rw [wordSum?, add?, hw, total, wordSum]
    by_cases hadd : sum.toNat + (be16 hi lo).toNat < 2 ^ 32
    · have hsum : (sum + (be16 hi lo).toUInt32).toNat = sum.toNat + (be16 hi lo).toNat := by
        rw [UInt32.toNat_add, hw, Nat.mod_eq_of_lt hadd]
      rw [if_pos hadd, Option.bind_eq_bind, Option.bind_some, ih, hsum, Nat.add_assoc]
    · rw [if_neg hadd, if_neg (by omega)]
      rfl
  | case2 sum last => rw [wordSum?, add?, lastWord_toNat, total, wordSum]
  | case3 sum => rw [wordSum?, total, if_pos (by simpa using sum.toNat_lt), wordSum]

theorem wordSum?_zero (h : data.length ≤ maxLength) :
    wordSum? 0 data = some (wordSum 0 data) := by
  have hle := total_le data
  rw [maxLength] at h
  rw [wordSum?_eq, if_pos (by rw [UInt32.toNat_zero]; omega)]

theorem isValid?_eq (h : data.length ≤ maxLength) : isValid? data = some (isValid data) := by
  rw [isValid?, wordSum?_zero h]
  rfl

/-- Bytes that are all ones have the largest sum that there is for their number. -/
theorem total_replicate (n : Nat) :
    total (.replicate n 0xff) = 65535 * (n / 2) + 65280 * (n % 2) := by
  induction n using Nat.twoStepInduction with
  | zero => rfl
  | one => rfl
  | more n ih _ =>
    rw [List.replicate_succ, List.replicate_succ, total, ih, be16_toNat]
    change 255 * 256 + 255 + _ = _
    omega

/-- No longer messages can be summed in 32 bits, whatever they are. -/
theorem wordSum?_too_long : wordSum? 0 (.replicate (maxLength + 1) 0xff) = none := by
  rw [wordSum?_eq, total_replicate]
  exact if_neg (by decide)

theorem highHalf_eq_zero_iff : sum >>> (16 : UInt32) = 0 ↔ sum.toNat < 65536 := by
  rw [← UInt32.toNat_inj, highHalf_toNat, UInt32.toNat_zero]
  omega

theorem endAround_of_lt (h : sum.toNat < 65536) : endAround sum = sum := by
  apply UInt32.toNat_inj.mp
  rw [endAround_toNat]
  omega

theorem folds_zero (h : sum.toNat < 65536) : Folds 0 sum sum := .done (highHalf_eq_zero_iff.mpr h)

/-- A round that is needed adds the carries, which 32 bits hold. -/
theorem folds_succ (h : ¬ sum.toNat < 65536) (hr : Folds n (endAround sum) r) :
    Folds (n + 1) sum r := by
  refine .round (fun hz => h (highHalf_eq_zero_iff.mp hz)) (if_pos ?_) hr
  have hsum := sum.toNat_lt
  rw [lowHalf_toNat, highHalf_toNat]
  omega

/-- Two rounds are enough for any sum, and all rounds that are not needed change nothing. -/
theorem folds_foldCarries (sum : UInt32) : ∃ n ≤ 2, Folds n sum (foldCarries sum) := by
  have hsum := sum.toNat_lt
  have hfirst := endAround_toNat sum
  have hsecond := endAround_toNat (endAround sum)
  unfold foldCarries
  by_cases h₀ : sum.toNat < 65536
  · rw [endAround_of_lt h₀, endAround_of_lt h₀]
    exact ⟨0, by omega, folds_zero h₀⟩
  by_cases h₁ : (endAround sum).toNat < 65536
  · rw [endAround_of_lt h₁]
    exact ⟨1, by omega, folds_succ h₀ (folds_zero h₁)⟩
  · exact ⟨2, by omega, folds_succ h₀ (folds_succ h₁ (folds_zero (by omega)))⟩

/-- Of the numbers from 1 to 65535, the residue is the one that is congruent. -/
theorem eq_residue_iff {s : Nat} (h : 0 < s) (n : Nat) :
    n = residue s ↔ 1 ≤ n ∧ n ≤ 65535 ∧ n ≡ s [MOD 65535] := by
  rw [residue, if_neg (by omega), Nat.ModEq]
  omega

/-- A field that is written changes its own two bytes only. -/
theorem getElem?_putWord {i offset : Nat} (data : Bytes) (w : UInt16) (h : i ≠ offset)
    (h' : i ≠ offset + 1) : (putWord data offset w)[i]? = data[i]? := by
  rw [putWord, List.getElem?_set_ne h'.symm, List.getElem?_set_ne h.symm]

theorem exact_of_length_le (h : data.length ≤ maxLength) : Exact data where
  summed := ⟨wordSum?_zero h, wordSum_zero_toNat h⟩
  folded := by
    obtain ⟨n, hn, hf⟩ := folds_foldCarries (wordSum 0 data)
    exact ⟨n, hn, _, hf, rfl⟩
  zero hz := by
    apply UInt16.toNat_inj.mp
    rw [onesComplementSum_toNat h, hz]
    rfl
  representative hpos n := by
    rw [onesComplementSum_toNat h]
    exact eq_residue_iff hpos n
  intact := isValid_iff h
  complement := by rw [checksum_toNat h, onesComplementSum_toNat h]
  filled offset ho hl := by
    refine ⟨isValid_fill h ho hl, by rw [fill, length_putWord], fun i hi hi' => ?_⟩
    rw [fill, getElem?_putWord _ _ hi hi']

end Checksum

/-- A payload is no longer than a total length can tell. -/
theorem Frame.length_payload_le {data : Bytes} {f : Frame} (h : Frame.parse data = .ok f) :
    (f.payload data).length ≤ 65535 := by
  simp only [Frame.parse, bind_eq_ok_iff, guard_eq_ok_iff, pure_eq_ok_iff] at h
  obtain ⟨_, _, _, _, _, _, ip, _, _, _, rfl⟩ := h
  have htotal := ip.totalLength.toNat_lt
  rw [payload, List.length_take]
  simp only
  omega

namespace Classifier

/-- Classification by a test for intact messages that may not come to an answer. -/
def onIgmpBy (intact? : Bytes → Option Bool) (a : Arrival) (vid : UInt16) (payload : Bytes)
    (t : Targets) : Option Classified :=
  match Igmp.Header.parse? payload with
  | none => some (plain t .igmpBadLength)
  | some h => do
    if !(← intact? payload) then return plain t .igmpBadChecksum
    else if h.isGeneralQuery then return onGeneralQuery a vid t
    else if h.isReport then return onReport a vid h.group t
    else if h.isGroupQuery then return plain t .groupSpecificQuery
    else if h.type = Igmp.leaveType then return plain t .leave
    else return plain t .igmpOther

def onPimBy (intact? : Bytes → Option Bool) (a : Arrival) (vid : UInt16) (dst : Ipv4)
    (payload : Bytes) (t : Targets) : Option Classified := do
  if payload.length < Pim.headerLength then return plain t .pimBad
  else if !(← intact? payload) then return plain t .pimBad
  else
    match Pim.Header.parse? payload with
    | none => return plain t .pimBad
    | some h =>
      if dst ≠ Pim.allRouters then return plain t .pimBad
      else if !h.isHello then return plain t .pimOther
      else return onPimHello a vid t

def classifyBy (intact? : Bytes → Option Bool) (a : Arrival) (data : Bytes) (t : Targets) :
    Option Classified :=
  match Frame.parse data with
  | .error (.missingVlanTag _) => some (plain t .noVlan)
  | .error (.wrongEtherType _) => some (plain t .notIpv4)
  | .error _ => some (plain t .malformed)
  | .ok f =>
    if f.ipv4.protocol = igmpProtocol then onIgmpBy intact? a f.vlan.vid (f.payload data) t
    else if f.ipv4.protocol = pimProtocol then
      onPimBy intact? a f.vlan.vid f.ipv4.dst (f.payload data) t
    else some (plain t .otherProtocol)

variable {intact? : Bytes → Option Bool} {payload : Bytes}

theorem onIgmpBy_eq (h : intact? payload = some (Checksum.isValid payload)) (a : Arrival)
    (vid : UInt16) (t : Targets) :
    onIgmpBy intact? a vid payload t = some (onIgmp a vid payload t) := by
  unfold onIgmpBy onIgmp
  cases Igmp.Header.parse? payload with
  | none => rfl
  | some header =>
    simp only [h, Option.bind_some, bind, pure]
    split_ifs <;> rfl

theorem onPimBy_eq (h : intact? payload = some (Checksum.isValid payload)) (a : Arrival)
    (vid : UInt16) (dst : Ipv4) (t : Targets) :
    onPimBy intact? a vid dst payload t = some (onPim a vid dst payload t) := by
  unfold onPimBy onPim
  by_cases hl : payload.length < Pim.headerLength
  · simp [hl]
  · simp only [h, hl, if_false, Option.bind_some, bind, pure, decide_false, Bool.false_or]
    cases Checksum.isValid payload with
    | false => rfl
    | true =>
      cases Pim.Header.parse? payload with
      | none => rfl
      | some header =>
        simp only [Bool.not_true, Bool.false_eq_true, if_false]
        split_ifs <;> rfl

/-- Classification asks for nothing but the payload. -/
theorem classifyBy_eq {data : Bytes} (h : ∀ f, Frame.parse data = .ok f →
    intact? (f.payload data) = some (Checksum.isValid (f.payload data))) (a : Arrival)
    (t : Targets) : classifyBy intact? a data t = some (classify a data t) := by
  unfold classifyBy classify
  cases hf : Frame.parse data with
  | error e => cases e <;> rfl
  | ok f =>
    simp only [onIgmpBy_eq (h f hf), onPimBy_eq (h f hf)]
    split_ifs <;> rfl

end Classifier

namespace Checksum

/-- Up to 131074 bytes, checksums are exact: the sum of the words is never cut to 32 bits, and its
carries are gone after two rounds. Classification comes to all its answers without a sum that is
cut, whatever the frame. -/
theorem checksums_exact :
    (∀ data : Bytes, data.length ≤ 131074 → Exact data) ∧
      ∀ (a : Classifier.Arrival) (frame : Bytes) (t : Classifier.Targets),
        Classifier.classifyBy isValid? a frame t = some (Classifier.classify a frame t) := by
  refine ⟨fun data h => exact_of_length_le h, fun a frame t => ?_⟩
  refine Classifier.classifyBy_eq (fun f hf => isValid?_eq ?_) a t
  have hle := Frame.length_payload_le hf
  rw [maxLength]
  omega

/-- The longest message of ones has the largest sum that 32 bits hold. -/
theorem checksums_exact_longest : (List.replicate 131074 (0xff : UInt8)).length ≤ 131074 ∧
    Exact (.replicate 131074 0xff) ∧ (wordSum 0 (.replicate 131074 0xff)).toNat = 2 ^ 32 - 1 := by
  have hlen : (List.replicate 131074 (0xff : UInt8)).length ≤ 131074 := by
    rw [List.length_replicate]
  have hexact := checksums_exact.1 _ hlen
  exact ⟨hlen, hexact, by rw [hexact.summed.2, total_replicate]; rfl⟩

end Checksum
end Snooping
