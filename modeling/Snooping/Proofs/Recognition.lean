import Snooping.Proofs.Absorption
import Snooping.Proofs.Datagram

/-!
Originated frames are recognised: what is written is read back field by field, and an agent drops
such a frame exactly if it waits for it.
-/
namespace Snooping

namespace Igmp

/-- An intact IGMP frame from `o` to `dst`, with an intact message of eight bytes that satisfies
`p`. -/
def Carries (o : Origin) (dst : Ipv4) (p : Header → Prop) (frame : Bytes) : Prop :=
  ∃ f h, Frame.parse frame = .ok f ∧ f.vlan.vid = o.vlan % 4096 ∧
    f.ethernet.src = o.srcMac ∧ f.ethernet.dst = dst.multicastMac ∧
    f.ipv4.src = o.src ∧ f.ipv4.dst = dst ∧ f.ipv4.protocol = igmpProtocol ∧
    Checksum.isValid ((frame.drop (ethernetLength + vlanTagLength)).take f.ipv4.length) = true ∧
    (f.payload frame).length = 8 ∧ Checksum.isValid (f.payload frame) = true ∧
    Header.parse? (f.payload frame) = some h ∧ p h

section Messages

variable (type maxResponse : UInt8) (o : Origin) (dst group : Ipv4)

/-- The frame that carries a message. -/
def messageFrame : Bytes :=
  (Datagram.igmp o.srcMac dst.multicastMac o.vlan o.src dst
    (message type maxResponse group)).toBytes

theorem isValid_message : Checksum.isValid (message type maxResponse group) = true :=
  Checksum.isValid_fill (Nat.le_of_ble_eq_true rfl) rfl (Nat.le_of_ble_eq_true rfl)

/-- A message is its four fields, whatever the checksum comes to. -/
theorem message_eq : ∃ k₀ k₁, message type maxResponse group =
    type :: maxResponse :: k₀ :: k₁ :: (group.octets ++ []) :=
  ⟨_, _, rfl⟩

/-- The datagram around a message is read back. -/
theorem messageFrame_read : ∃ f, Frame.parse (messageFrame type maxResponse o dst group) = .ok f ∧
    f.vlan.vid = o.vlan % 4096 ∧ f.ethernet.src = o.srcMac ∧
    f.ethernet.dst = dst.multicastMac ∧ f.ipv4.src = o.src ∧ f.ipv4.dst = dst ∧
    f.ipv4.protocol = igmpProtocol ∧
    Checksum.isValid (((messageFrame type maxResponse o dst group).drop
      (ethernetLength + vlanTagLength)).take f.ipv4.length) = true ∧
    f.payload (messageFrame type maxResponse o dst group) = message type maxResponse group := by
  let d := Datagram.igmp o.srcMac dst.multicastMac o.vlan o.src dst
    (message type maxResponse group)
  have hfits : d.headerLength + d.payload.length ≤ 65535 := Nat.le_of_ble_eq_true rfl
  have hread := Datagram.parse_toBytes hfits []
  have hheader := d.header_toBytes []
  have hpayload := d.payload_toBytes []
  rw [List.append_nil] at hread hheader hpayload
  refine ⟨d.frame, hread, vidMask_eq_mod o.vlan, rfl, rfl, rfl, rfl, rfl, ?_, hpayload⟩
  rw [Datagram.length_ipv4]
  exact (congrArg Checksum.isValid hheader).trans d.isValid_ipHeader

theorem carries_message {p : Header → Prop} (hp : ∀ k, p ⟨type, maxResponse, k, group⟩) :
    Carries o dst p (messageFrame type maxResponse o dst group) := by
  obtain ⟨f, hf, hv, hsm, hdm, hs, hd, hproto, hheader, hpay⟩ :=
    messageFrame_read type maxResponse o dst group
  obtain ⟨k₀, k₁, hmsg⟩ := message_eq type maxResponse group
  have hparse : Header.parse? (message type maxResponse group) =
      some ⟨type, maxResponse, be16 k₀ k₁, group⟩ := by
    rw [hmsg]
    rfl
  refine ⟨f, _, hf, hv, hsm, hdm, hs, hd, hproto, hheader, ?_, ?_, ?_, hp (be16 k₀ k₁)⟩
  · rw [hpay, hmsg]
    rfl
  · rw [hpay]
    exact isValid_message ..
  · rw [hpay, hparse]

/-- A classifier meets the message that was written, on the VLAN that was meant. -/
theorem isIgmp_message :
    Classifier.IsIgmp (messageFrame type maxResponse o dst group) (o.vlan % 4096) type group := by
  obtain ⟨f, hf, hv, -, -, -, -, hproto, -, hpay⟩ :=
    messageFrame_read type maxResponse o dst group
  obtain ⟨k₀, k₁, hmsg⟩ := message_eq type maxResponse group
  exact ⟨f, _, _, _, _, hf, hv, hproto, hpay.trans hmsg, by rw [hpay]; exact isValid_message ..⟩

end Messages
end Igmp

namespace Agent

variable {χ ω : Type}

/-- The frame is dropped, as `hit`, exactly if it is `awaited`. Else it is passed on, and all that
changes is the count of `miss`. -/
structure Recognises (a : Agent χ ω) (frame : Bytes) (inPort : UInt32) (now : Nat)
    (hit miss : Outcome) (awaited : Prop) : Prop where
  hit_iff : (a.classify frame inPort now).answer = hit ↔ awaited
  drop_iff : (a.classify frame inPort now).answer.disposition = .drop ↔ awaited
  passed : ¬ awaited → (a.classify frame inPort now).answer = miss ∧
    miss.disposition = .pass ∧
    (a.classify frame inPort now).agent = { a with classified := a.classified.record miss }

section Recognition

variable {a : Agent χ ω} {inPort : UInt32} {n : String}

/-- An outcome that hangs on one lookup decides. -/
theorem recognises_of_answer (hs : a.Sound) {frame : Bytes} {now : Nat} {hit miss : Outcome}
    {awaited : Prop} [Decidable awaited]
    (hanswer : (a.classify frame inPort now).answer = if awaited then hit else miss)
    (hhit : hit.disposition = .drop)
    (hmiss : miss ∈ [.generalQueryMiss, .reportMiss]) :
    a.Recognises frame inPort now hit miss awaited := by
  have hpass : miss.disposition = .pass := by
    simp only [List.mem_cons, List.not_mem_nil, or_false] at hmiss
    rcases hmiss with rfl | rfl <;> rfl
  by_cases hw : awaited
  · rw [if_pos hw] at hanswer
    refine ⟨by simp [hanswer, hw], by simp [hanswer, hhit, hw], fun h => (h hw).elim⟩
  · rw [if_neg hw] at hanswer
    have hne : miss ≠ hit := by
      rintro rfl
      rw [hhit] at hpass
      cases hpass
    refine ⟨by simp [hanswer, hw, hne], by simp [hanswer, hpass, hw], fun _ => ⟨hanswer, hpass, ?_⟩⟩
    have hcls := classify_classified hs frame inPort now
    rw [hanswer] at hcls
    have hcount : (a.classify frame inPort now).agent.classified = a.classified.record miss :=
      congrArg a.classified.record hanswer
    simp only [List.mem_cons, List.not_mem_nil, or_false] at hmiss
    rcases hmiss with rfl | rfl <;> exact hcls.trans (by rw [hcount])

variable (hs : a.Sound) (hn : a.rxPorts.find? inPort = some n) (now : Nat) (o : Igmp.Origin)
include hs hn

theorem recognises_generalQuery :
    a.Recognises (Igmp.generalQueryFrame o) inPort now .generalQueryHit .generalQueryMiss
      (a.generalQuery.entries.contains ⟨n, o.vlan % 4096⟩ = true) := by
  have hi := Igmp.isIgmp_message Igmp.queryType Igmp.defaultResponseTime o Igmp.allHosts
    .unspecified
  refine recognises_of_answer hs ?_ rfl (by simp)
  have hout := hi.outcome (a.arrival inPort now) a.targets
  rw [if_pos (by rfl), if_pos rfl, Classifier.onGeneralQuery_outcome] at hout
  refine hout.trans ?_
  simp only [arrival, targets, hn, Option.any_some, VlanKey.of, hi.masked]

theorem recognises_report (group : Ipv4) :
    a.Recognises (Igmp.reportFrame o group) inPort now .reportHit .reportMiss
      (a.report.entries.contains ⟨n, o.vlan % 4096, group⟩ = true) := by
  have hi := Igmp.isIgmp_message Igmp.reportV2Type 0 o group group
  refine recognises_of_answer hs ?_ rfl (by simp)
  have hout := hi.outcome (a.arrival inPort now) a.targets
  rw [if_neg (by decide), if_pos (.inr rfl), Classifier.onReport_outcome] at hout
  refine hout.trans ?_
  simp only [arrival, targets, hn, Option.any_some, GroupKey.of, hi.masked]

end Recognition

variable [ControllerChannel χ] [PacketOut ω]

/-- Every originated frame is read back as it was meant: its VLAN cut to 12 bits, its addresses,
and an intact message. After any history, on a port that receives for group `n`, it is dropped
exactly if `n` waits for it on that VLAN; else it is passed on and nothing but the count of
outcomes changes. -/
theorem originated_recognised (maxPorts : UInt32) (channel : χ) (out : ω) (history : History χ ω)
    (o : Igmp.Origin) (group : Ipv4) :
    Igmp.Carries o Igmp.allHosts (fun h => h.isGeneralQuery = true) (Igmp.generalQueryFrame o) ∧
      Igmp.Carries o group
        (fun h => h.type = Igmp.reportV2Type ∧ h.isReport = true ∧ h.group = group)
        (Igmp.reportFrame o group) ∧
      ∃ a, (new maxPorts channel out).run history = .ok a ∧
        ∀ inPort n, a.rxPorts.find? inPort = some n → ∀ now,
          a.Recognises (Igmp.generalQueryFrame o) inPort now .generalQueryHit .generalQueryMiss
              (a.generalQuery.entries.contains ⟨n, o.vlan % 4096⟩ = true) ∧
            a.Recognises (Igmp.reportFrame o group) inPort now .reportHit .reportMiss
              (a.report.entries.contains ⟨n, o.vlan % 4096, group⟩ = true) := by
  obtain ⟨a, ha, hs⟩ := run_ok (sound_new maxPorts channel out) history
  exact ⟨Igmp.carries_message _ _ _ _ _ fun _ => rfl,
    Igmp.carries_message _ _ _ _ _ fun _ => ⟨rfl, rfl, rfl⟩, a, ha, fun inPort n hn now =>
      ⟨recognises_generalQuery hs hn now o, recognises_report hs hn now o group⟩⟩

/-- Port 1 receives for a group that has one querier. -/
def listening : History ControllerLink FrameSender :=
  [(0, .request ⟨.rxPortGroup, .add [.portNo 1] [.name "lan"]⟩),
    (0, .request ⟨.generalQueryExpectation, .add [.name "lan", .vlanVid 1] []⟩)]

/-- A query of that querier. -/
def heardQuery : Bytes := Igmp.generalQueryFrame ⟨⟨2, 0, 0, 0, 0, 1⟩, 1, ⟨192, 0, 2, 1⟩⟩

/-- Its queries are dropped there, though their VLAN was given with more than 12 bits. -/
theorem originated_recognised_listening :
    ∃ a, (new 8 .initial .initial).run listening = .ok a ∧ ∀ now,
      (a.classify (Igmp.generalQueryFrame ⟨⟨2, 0, 0, 0, 0, 1⟩, 0x5001, ⟨192, 0, 2, 1⟩⟩) 1
        now).answer = .generalQueryHit := by
  obtain ⟨-, -, a, ha, h⟩ := originated_recognised 8 .initial .initial listening
    ⟨⟨2, 0, 0, 0, 0, 1⟩, 0x5001, ⟨192, 0, 2, 1⟩⟩ Igmp.allHosts
  refine ⟨a, ha, fun now => ?_⟩
  cases ha
  exact (h 1 "lan" rfl now).1.hit_iff.mpr rfl

end Agent
end Snooping
