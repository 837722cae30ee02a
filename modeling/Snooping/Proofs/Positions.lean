import Mathlib.Tactic.SplitIfs
import Snooping.Classifier
import Snooping.Proofs.Reading

/-!
Frames read by position. Nothing is answered once an index or a slice is out of range; it never
comes to that, and what is read is what classification goes by.
-/
namespace Snooping.Positions

open Classifier (Arrival Targets Classified plain)

/-- The bytes from `i` up to `j`. -/
def slice (data : Bytes) (i j : Nat) : Option Bytes :=
  if i ≤ j ∧ j ≤ data.length then some ((data.drop i).take (j - i)) else none

def byte (data : Bytes) (i : Nat) : Option UInt8 := data[i]?

def word (data : Bytes) (i : Nat) : Option UInt16 :=
  return be16 (← byte data i) (← byte data (i + 1))

def address (data : Bytes) (i : Nat) : Option Ipv4 :=
  return ⟨← byte data i, ← byte data (i + 1), ← byte data (i + 2), ← byte data (i + 3)⟩

/-- A copy of exactly six bytes. -/
def mac : Bytes → Option Mac
  | [a, b, c, d, e, f] => some ⟨a, b, c, d, e, f⟩
  | _ => none

def ethernet (data : Bytes) : Option (Except FrameError EthernetHeader) :=
  if data.length < ethernetLength then some (.error (.tooShort ethernetLength data.length))
  else return .ok ⟨← mac (← slice data 0 6), ← mac (← slice data 6 12), ← word data 12⟩

def vlanTag (data : Bytes) : Option (Except FrameError VlanTag) :=
  if data.length < vlanTagLength then
    some (.error (.tooShort (ethernetLength + vlanTagLength) (ethernetLength + data.length)))
  else do
    let tci ← word data 0
    return .ok ⟨(tci >>> 13).toUInt8, tci &&& vidMask, ← word data 2⟩

def ipv4 (data : Bytes) : Option (Except FrameError Ipv4Header) :=
  if data.length < ipv4MinLength then some (.error (.tooShort ipv4MinLength data.length))
  else do
    let first ← byte data 0
    let version := first >>> 4
    let ihl := first &&& 0x0f
    if version ≠ 4 then return .error (.wrongVersion version)
    else if ihl < 5 then return .error (.headerTooSmall ihl)
    else if data.length < ihl.toNat * 4 then return .error (.tooShort (ihl.toNat * 4) data.length)
    else
      return .ok ⟨version, ihl, ← word data 2, ← byte data 8, ← byte data 9, ← word data 10,
        ← address data 12, ← address data 16⟩

/-- The three headers, one behind the other, and where the payload is. -/
def frame (data : Bytes) : Option (Except FrameError Frame) := do
  match ← ethernet data with
  | .error e => return .error e
  | .ok eth =>
    if eth.etherType ≠ vlanType then return .error (.missingVlanTag eth.etherType)
    else
      match ← vlanTag (← slice data ethernetLength data.length) with
      | .error e => return .error e
      | .ok vlan =>
        if vlan.etherType ≠ ipv4Type then return .error (.wrongEtherType vlan.etherType)
        else
          match ← ipv4 (← slice data (ethernetLength + vlanTagLength) data.length) with
          | .error e => return .error e
          | .ok ip =>
            let offset := ethernetLength + vlanTagLength + ip.length
            let length := ip.totalLength.toNat - ip.length
            if ip.totalLength.toNat < ip.length then
              return .error (.totalLengthTooSmall ip.totalLength ip.length)
            else if data.length < offset + length then
              return .error (.tooShort (offset + length) data.length)
            else return .ok ⟨eth, vlan, ip, offset, length⟩

/-- A list is short if what is behind its first element is. -/
theorem length_lt_succ {α : Type} {l : List α} {n : Nat}
    (h : ∀ a rest, l = a :: rest → rest.length < n) : l.length < n + 1 := by
  cases l with
  | nil => exact Nat.succ_pos n
  | cons a rest => exact Nat.succ_lt_succ (h a rest rfl)

theorem ethernet_eq (data : Bytes) :
    ethernet data = some ((EthernetHeader.read data).map Prod.fst) := by
  fun_cases EthernetHeader.read data with
  | case1 =>
    rw [ethernet, if_neg (by simp [ethernetLength])]
    rfl
  | case2 data h =>
    have hlen : data.length < ethernetLength := by
      iterate 14
        refine length_lt_succ fun _ _ hb => ?_
        subst hb
      exact (h _ _ _ _ _ _ _ _ _ _ _ _ _ _ _ rfl).elim
    rw [ethernet, if_pos hlen]
    rfl

theorem vlanTag_eq (data : Bytes) : vlanTag data = some ((VlanTag.read data).map Prod.fst) := by
  fun_cases VlanTag.read data with
  | case1 =>
    rw [vlanTag, if_neg (by simp [vlanTagLength])]
    rfl
  | case2 data h =>
    have hlen : data.length < vlanTagLength := by
      iterate 4
        refine length_lt_succ fun _ _ hb => ?_
        subst hb
      exact (h _ _ _ _ _ rfl).elim
    rw [vlanTag, if_pos hlen]
    rfl

theorem ipv4_eq (data : Bytes) : ipv4 data = some (Ipv4Header.read data) := by
  unfold Ipv4Header.read
  split
  · rw [ipv4, if_neg (by simp [ipv4MinLength])]
    dsimp only [Ipv4Header.length]
    change (if _ then some _ else if _ then some _ else if _ then some _ else some _) = some _
    split_ifs with hv hi hl
    · rfl
    · rfl
    · exact congrArg some (if_pos hl).symm
    · exact congrArg some (if_neg hl).symm
  · rename_i h
    have hlen : data.length < ipv4MinLength := by
      iterate 20
        refine length_lt_succ fun _ _ hb => ?_
        subst hb
      exact (h _ _ _ _ _ _ _ _ _ _ _ _ _ _ _ _ _ _ _ _ _ rfl).elim
    rw [ipv4, if_pos hlen]

theorem slice_to_end {data : Bytes} {i : Nat} (h : i ≤ data.length) :
    slice data i data.length = some (data.drop i) := by
  rw [slice, if_pos ⟨h, Nat.le_refl _⟩, List.take_of_length_le (by simp)]

theorem le_length_of_slice {data s : Bytes} {i j : Nat} (h : slice data i j = some s) :
    j ≤ data.length := by
  unfold slice at h
  split at h
  · rename_i hij
    exact hij.2
  · cases h

theorem ethernet_rest {data rest : Bytes} {eth : EthernetHeader}
    (h : EthernetHeader.read data = .ok (eth, rest)) :
    ethernetLength ≤ data.length ∧ rest = data.drop ethernetLength := by
  revert h
  fun_cases EthernetHeader.read data with
  | case1 =>
    intro h
    cases h
    exact ⟨by simp [ethernetLength], rfl⟩
  | case2 =>
    intro h
    cases h

theorem vlanTag_rest {data rest : Bytes} {vlan : VlanTag}
    (h : VlanTag.read data = .ok (vlan, rest)) :
    vlanTagLength ≤ data.length ∧ rest = data.drop vlanTagLength := by
  revert h
  fun_cases VlanTag.read data with
  | case1 =>
    intro h
    cases h
    exact ⟨by simp [vlanTagLength], rfl⟩
  | case2 =>
    intro h
    cases h

theorem frame_eq (data : Bytes) : frame data = some (Frame.parse data) := by
  unfold frame Frame.parse
  rw [ethernet_eq]
  cases he : EthernetHeader.read data with
  | error e => rfl
  | ok p =>
    obtain ⟨eth, tagged⟩ := p
    obtain ⟨hlen, rfl⟩ := ethernet_rest he
    simp only [Except.map, Option.bind_some, bind, Except.bind, pure,
      Except.pure, throw, throwThe, MonadExceptOf.throw, slice_to_end hlen, vlanTag_eq]
    by_cases hv : eth.etherType ≠ vlanType
    · rw [if_pos hv, if_pos hv]
    rw [if_neg hv, if_neg hv]
    cases ht : VlanTag.read (data.drop ethernetLength) with
    | error e => rfl
    | ok p =>
      obtain ⟨vlan, packet⟩ := p
      obtain ⟨hlen', rfl⟩ := vlanTag_rest ht
      have hboth : ethernetLength + vlanTagLength ≤ data.length := by
        rw [List.length_drop] at hlen'
        omega
      simp only [slice_to_end hboth, ipv4_eq, Option.bind_some, List.drop_drop]
      by_cases hi : vlan.etherType ≠ ipv4Type
      · rw [if_pos hi, if_pos hi]
      rw [if_neg hi, if_neg hi]
      cases Ipv4Header.read (data.drop (ethernetLength + vlanTagLength)) with
      | error e => rfl
      | ok ip =>
        by_cases hl : ip.totalLength.toNat < ip.length
        · simp only [if_pos hl]
        · have hend : ethernetLength + vlanTagLength + ip.length +
              (ip.totalLength.toNat - ip.length) =
              ethernetLength + vlanTagLength + ip.totalLength.toNat := by omega
          simp only [if_neg hl, hend]
          split_ifs <;> rfl

/-- What a parsed frame names as its payload is all there. -/
theorem payload_eq {data : Bytes} {f : Frame} (h : Frame.parse data = .ok f) :
    slice data f.payloadOffset (f.payloadOffset + f.payloadLength) = some (f.payload data) := by
  simp only [Frame.parse, bind_eq_ok_iff, guard_eq_ok_iff, pure_eq_ok_iff] at h
  obtain ⟨⟨eth, tagged⟩, _, _, ⟨vlan, packet⟩, _, _, ip, _, htotal, hlen, rfl⟩ := h
  rw [slice, if_pos (by simp only; omega), Frame.payload, Nat.add_sub_cancel_left]

def igmpHeader (payload : Bytes) : Option (Option Igmp.Header) :=
  if payload.length < 8 then some none
  else return some ⟨← byte payload 0, ← byte payload 1, ← word payload 2, ← address payload 4⟩

theorem igmpHeader_eq (payload : Bytes) :
    igmpHeader payload = some (Igmp.Header.parse? payload) := by
  fun_cases Igmp.Header.parse? payload with
  | case1 =>
    rw [igmpHeader, if_neg (by simp)]
    rfl
  | case2 payload h =>
    have hlen : payload.length < 8 := by
      iterate 8
        refine length_lt_succ fun _ _ hb => ?_
        subst hb
      exact (h _ _ _ _ _ _ _ _ _ rfl).elim
    rw [igmpHeader, if_pos hlen]

def pimHeader (payload : Bytes) : Option (Option Pim.Header) :=
  if payload.length < Pim.headerLength then some none
  else do
    let first ← byte payload 0
    if first >>> 4 ≠ Pim.supportedVersion then return none
    else return some ⟨first >>> 4, first &&& 0x0f, ← byte payload 1, ← word payload 2⟩

theorem pimHeader_eq (payload : Bytes) :
    pimHeader payload = some (Pim.Header.parse? payload) := by
  fun_cases Pim.Header.parse? payload with
  | case1 v r k0 k1 rest h =>
    rw [pimHeader, if_neg (by simp [Pim.headerLength])]
    exact if_neg fun hn => hn h
  | case2 v r k0 k1 rest h =>
    rw [pimHeader, if_neg (by simp [Pim.headerLength])]
    exact if_pos h
  | case3 payload h =>
    have hlen : payload.length < Pim.headerLength := by
      iterate 4
        refine length_lt_succ fun _ _ hb => ?_
        subst hb
      exact (h _ _ _ _ _ rfl).elim
    rw [pimHeader, if_pos hlen]

/-- A byte without a second one is the high byte of a word. -/
def remainder (sum : UInt32) : Bytes → UInt32
  | [last] => sum + (last.toUInt32 <<< (8 : UInt32))
  | _ => sum

/-- Words are taken in chunks of two bytes. -/
def wordSum (sum : UInt32) (data : Bytes) : Option UInt32 :=
  if 2 ≤ data.length then do
    let chunk ← slice data 0 2
    wordSum (sum + (← word chunk 0).toUInt32) (data.drop 2)
  else some (remainder sum data)
termination_by data.length
decreasing_by simp; omega

theorem wordSum_eq (sum : UInt32) (data : Bytes) :
    wordSum sum data = some (Checksum.wordSum sum data) := by
  induction sum, data using Checksum.wordSum.induct with
  | case1 sum hi lo rest ih =>
    rw [wordSum, if_pos (by simp)]
    exact ih
  | case2 sum last =>
    rw [wordSum, if_neg (by simp)]
    rfl
  | case3 sum =>
    rw [wordSum, if_neg (by simp)]
    rfl

def isValid (data : Bytes) : Option Bool :=
  return (Checksum.foldCarries (← wordSum 0 data)).toUInt16 == 0xffff

theorem isValid_eq (data : Bytes) : isValid data = some (Checksum.isValid data) := by
  rw [isValid, wordSum_eq]
  rfl

def onIgmp (a : Arrival) (vid : UInt16) (payload : Bytes) (t : Targets) : Option Classified := do
  match ← igmpHeader payload with
  | none => return plain t .igmpBadLength
  | some h =>
    if !(← isValid payload) then return plain t .igmpBadChecksum
    else if h.isGeneralQuery then return Classifier.onGeneralQuery a vid t
    else if h.isReport then return Classifier.onReport a vid h.group t
    else if h.isGroupQuery then return plain t .groupSpecificQuery
    else if h.type = Igmp.leaveType then return plain t .leave
    else return plain t .igmpOther

def onPim (a : Arrival) (vid : UInt16) (dst : Ipv4) (payload : Bytes) (t : Targets) :
    Option Classified := do
  if payload.length < Pim.headerLength then return plain t .pimBad
  else if !(← isValid payload) then return plain t .pimBad
  else
    match ← pimHeader payload with
    | none => return plain t .pimBad
    | some h =>
      if dst ≠ Pim.allRouters then return plain t .pimBad
      else if !h.isHello then return plain t .pimOther
      else return Classifier.onPimHello a vid t

def classify (a : Arrival) (data : Bytes) (t : Targets) : Option Classified := do
  match ← frame data with
  | .error (.missingVlanTag _) => return plain t .noVlan
  | .error (.wrongEtherType _) => return plain t .notIpv4
  | .error _ => return plain t .malformed
  | .ok f =>
    if f.ipv4.protocol = igmpProtocol then
      onIgmp a f.vlan.vid (← slice data f.payloadOffset (f.payloadOffset + f.payloadLength)) t
    else if f.ipv4.protocol = pimProtocol then
      onPim a f.vlan.vid f.ipv4.dst
        (← slice data f.payloadOffset (f.payloadOffset + f.payloadLength)) t
    else return plain t .otherProtocol

theorem onIgmp_eq (a : Arrival) (vid : UInt16) (payload : Bytes) (t : Targets) :
    onIgmp a vid payload t = some (Classifier.onIgmp a vid payload t) := by
  unfold onIgmp Classifier.onIgmp
  rw [igmpHeader_eq, isValid_eq]
  cases Igmp.Header.parse? payload with
  | none => rfl
  | some h =>
    simp only [Option.bind_some, bind, pure]
    split_ifs <;> rfl

theorem onPim_eq (a : Arrival) (vid : UInt16) (dst : Ipv4) (payload : Bytes) (t : Targets) :
    onPim a vid dst payload t = some (Classifier.onPim a vid dst payload t) := by
  unfold onPim Classifier.onPim
  rw [pimHeader_eq, isValid_eq]
  by_cases hl : payload.length < Pim.headerLength
  · simp [hl]
  · cases Checksum.isValid payload with
    | false => simp [hl]
    | true =>
      simp only [hl, if_false, Option.bind_some, bind, pure, decide_false, Bool.not_true,
        Bool.or_false, Bool.false_eq_true]
      cases Pim.Header.parse? payload with
      | none => rfl
      | some h =>
        simp only
        split_ifs <;> rfl

/-- Classification by position comes to an answer on all bytes, the same one. -/
theorem classify_eq (a : Arrival) (data : Bytes) (t : Targets) :
    classify a data t = some (Classifier.classify a data t) := by
  unfold classify Classifier.classify
  rw [frame_eq]
  cases hf : Frame.parse data with
  | error e => cases e <;> rfl
  | ok f =>
    simp only [Option.bind_some, bind, pure, payload_eq hf, onIgmp_eq, onPim_eq]
    split_ifs <;> rfl

end Snooping.Positions
