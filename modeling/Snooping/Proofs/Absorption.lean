import Snooping.Proofs.Positions
import Snooping.Proofs.Edits

/-!
Which frames are absorbed, and what they change. A frame is dropped exactly if it is one of five
kinds; of those, the three that meet an expectation renew it, and no other frame changes a table.
-/
namespace Snooping

namespace Classifier

/-- An intact IGMP message of at least eight bytes on VLAN `v`. -/
def IsIgmp (frame : Bytes) (v : UInt16) (type : UInt8) (group : Ipv4) : Prop :=
  ∃ f r k₀ k₁ rest, Frame.parse frame = .ok f ∧ f.vlan.vid = v ∧ f.ipv4.protocol = 2 ∧
    f.payload frame = type :: r :: k₀ :: k₁ :: (group.octets ++ rest) ∧
    Checksum.isValid (f.payload frame) = true

/-- An intact PIM message of at least four bytes on VLAN `v`. -/
def IsPim (frame : Bytes) (v : UInt16) (dst : Ipv4) (version type : UInt8) : Prop :=
  ∃ f b r k₀ k₁ rest, Frame.parse frame = .ok f ∧ f.vlan.vid = v ∧ f.ipv4.protocol = 103 ∧
    f.ipv4.dst = dst ∧ f.payload frame = b :: r :: k₀ :: k₁ :: rest ∧ b >>> 4 = version ∧
    b &&& 0x0f = type ∧ Checksum.isValid (f.payload frame) = true

variable (ports : RxPorts) (inPort : UInt32) (frame : Bytes)

/-- The frame is a general query that `k` waits for. -/
def Queries (k : VlanKey) : Prop :=
  IsIgmp frame k.vlan 0x11 .unspecified ∧ ports.find? inPort = some k.name

/-- The frame is a report that `k` waits for. -/
def Reports (k : GroupKey) : Prop :=
  (IsIgmp frame k.vlan 0x12 k.group ∨ IsIgmp frame k.vlan 0x16 k.group) ∧
    ports.find? inPort = some k.name

/-- The frame is a PIM hello that `k` waits for. -/
def Hellos (k : VlanKey) : Prop :=
  IsPim frame k.vlan ⟨224, 0, 0, 13⟩ 2 0 ∧ ports.find? inPort = some k.name

/-- The frames that are not passed on, with their outcomes. -/
inductive Absorbed (t : Targets) : Outcome → Prop
  | generalQuery {k : VlanKey} (h : Queries ports inPort frame k)
      (hk : t.generalQuery.entries.contains k = true) : Absorbed t .generalQueryHit
  | groupQuery {v : UInt16} {group : Ipv4} (h : IsIgmp frame v 0x11 group)
      (hg : group ≠ .unspecified) : Absorbed t .groupSpecificQuery
  | report {k : GroupKey} (h : Reports ports inPort frame k)
      (hk : t.report.entries.contains k = true) : Absorbed t .reportHit
  | other {v : UInt16} {type : UInt8} {group : Ipv4} (h : IsIgmp frame v type group)
      (ht : type ∉ [0x11, 0x12, 0x16, 0x17]) : Absorbed t .igmpOther
  | hello {k : VlanKey} (h : Hellos ports inPort frame k)
      (hk : t.pim.entries.contains k = true) : Absorbed t .pimHelloHit

variable {ports inPort frame} {a : Arrival} {t : Targets} {v : UInt16} {type : UInt8}
  {group dst : Ipv4} {f : Frame}

/-- A VLAN that was read has no more than 12 bits. -/
theorem vid_masked (hf : Frame.parse frame = .ok f) : f.vlan.vid &&& vidMask = f.vlan.vid := by
  simp only [Frame.parse, bind_eq_ok_iff, guard_eq_ok_iff, pure_eq_ok_iff] at hf
  obtain ⟨⟨eth, tagged⟩, _, _, ⟨vlan, packet⟩, hv, _, ip, _, _, _, rfl⟩ := hf
  revert hv
  fun_cases VlanTag.read tagged with
  | case1 =>
    intro hv
    cases hv
    exact (UInt16.and_assoc ..).trans (congrArg _ (UInt16.and_self ..))
  | case2 =>
    intro hv
    cases hv

theorem hit?_isSome {κ : Type} [DecidableEq κ] (kind : Expectation.Kind κ)
    (table : Expectation.Table κ) (k : κ) (interval now : Nat) :
    (table.hit? kind k interval now).isSome = table.entries.contains k := by
  unfold Expectation.Table.hit? Rows.contains
  cases table.entries.find? k <;> rfl

/-- The outcome of a general query, by whether an entry waits for it. -/
theorem onGeneralQuery_outcome (a : Arrival) (v : UInt16) (t : Targets) :
    (onGeneralQuery a v t).outcome =
      if (a.ports.find? a.inPort).any fun n => t.generalQuery.entries.contains (.of n v) then
        .generalQueryHit else .generalQueryMiss := by
  unfold onGeneralQuery
  cases a.ports.find? a.inPort with
  | none => rfl
  | some n =>
    simp only [Option.any_some,
      ← hit?_isSome Expectation.generalQuery _ _ (a.timeouts.get .query) a.now]
    cases t.generalQuery.hit? Expectation.generalQuery (.of n v) (a.timeouts.get .query) a.now <;>
      rfl

theorem onReport_outcome (a : Arrival) (v : UInt16) (group : Ipv4) (t : Targets) :
    (onReport a v group t).outcome =
      if (a.ports.find? a.inPort).any fun n => t.report.entries.contains (.of n v group) then
        .reportHit else .reportMiss := by
  unfold onReport
  cases a.ports.find? a.inPort with
  | none => rfl
  | some n =>
    simp only [Option.any_some, ← hit?_isSome Expectation.report _ _ (a.timeouts.get .report) a.now]
    cases t.report.hit? Expectation.report (.of n v group) (a.timeouts.get .report) a.now <;> rfl

theorem onPimHello_outcome (a : Arrival) (v : UInt16) (t : Targets) :
    (onPimHello a v t).outcome =
      if (a.ports.find? a.inPort).any fun n => t.pim.entries.contains (.of n v) then
        .pimHelloHit else .pimHelloMiss := by
  unfold onPimHello
  cases a.ports.find? a.inPort with
  | none => rfl
  | some n =>
    simp only [Option.any_some, ← hit?_isSome Expectation.pim _ _ (a.timeouts.get .query) a.now]
    cases t.pim.hit? Expectation.pim (.of n v) (a.timeouts.get .query) a.now <;> rfl

/-- The outcome of an intact IGMP message. -/
theorem IsIgmp.outcome (h : IsIgmp frame v type group) (a : Arrival) (t : Targets) :
    (classify a frame t).outcome =
      if type = 0x11 then
        if group = .unspecified then (onGeneralQuery a v t).outcome else .groupSpecificQuery
      else if type = 0x12 ∨ type = 0x16 then (onReport a v group t).outcome
      else if type = 0x17 then .leave else .igmpOther := by
  obtain ⟨f, r, k₀, k₁, rest, hf, rfl, hp, hpay, hval⟩ := h
  have hc : classify a frame t = onIgmp a f.vlan.vid (f.payload frame) t := by
    unfold classify
    rw [hf]
    exact if_pos hp
  have hh : Igmp.Header.parse? (f.payload frame) = some ⟨type, r, be16 k₀ k₁, group⟩ := by
    rw [hpay]
    rfl
  rw [hc, onIgmp, hh]
  simp only [hval, Bool.not_true, Bool.false_eq_true, if_false, Igmp.Header.isGeneralQuery,
    Igmp.Header.isReport, Igmp.Header.isGroupQuery, Igmp.queryType, Igmp.reportV1Type,
    Igmp.reportV2Type, Igmp.leaveType, Bool.and_eq_true, Bool.or_eq_true, beq_iff_eq, bne_iff_ne]
  by_cases ht : type = 0x11
  · subst ht
    by_cases hg : group = .unspecified <;> simp [hg, plain]
  · by_cases hr : type = 0x12 ∨ type = 0x16
    · simp [ht, hr]
    · by_cases hl : type = 0x17 <;> simp [ht, hr, hl, plain]

theorem IsPim.outcome {version : UInt8} (h : IsPim frame v dst version type) (a : Arrival)
    (t : Targets) :
    (classify a frame t).outcome =
      if version ≠ 2 ∨ dst ≠ ⟨224, 0, 0, 13⟩ then .pimBad
      else if type ≠ 0 then .pimOther else (onPimHello a v t).outcome := by
  obtain ⟨f, b, r, k₀, k₁, rest, hf, rfl, hp, rfl, hpay, rfl, rfl, hval⟩ := h
  have hc : classify a frame t = onPim a f.vlan.vid f.ipv4.dst (f.payload frame) t := by
    unfold classify
    rw [hf]
    simp only [hp]
    rw [if_neg (by decide), if_pos (by decide)]
  have hlen : ¬ (f.payload frame).length < Pim.headerLength := by simp [hpay, Pim.headerLength]
  rw [hc, onPim, if_neg (by simp [hlen, hval]), hpay]
  by_cases hv : b >>> 4 = 2
  · simp only [Pim.Header.parse?, Pim.supportedVersion, hv, if_true, Pim.allRouters,
      Pim.Header.isHello, Pim.helloType]
    by_cases hd : f.ipv4.dst = ⟨224, 0, 0, 13⟩
    · by_cases ht : b &&& 0x0f = 0 <;> simp [hd, ht, plain]
    · simp [hd, plain]
  · simp [Pim.Header.parse?, Pim.supportedVersion, hv, plain]

theorem parse?_igmp {payload : Bytes} {h : Igmp.Header} (hh : Igmp.Header.parse? payload = some h) :
    ∃ k₀ k₁ rest, payload = h.type :: h.maxResponse :: k₀ :: k₁ :: (h.group.octets ++ rest) := by
  unfold Igmp.Header.parse? at hh
  split at hh
  · cases hh
    exact ⟨_, _, _, rfl⟩
  · cases hh

/-- Whatever is no intact message is passed on. -/
theorem classify_cases (frame : Bytes) :
    (∃ v type group, IsIgmp frame v type group) ∨
      (∃ v dst version type, IsPim frame v dst version type) ∨
      ∀ a t, (classify a frame t).outcome.disposition = .pass := by
  unfold classify
  cases hf : Frame.parse frame with
  | error e => exact .inr (.inr fun a t => by cases e <;> rfl)
  | ok f =>
    by_cases hi : f.ipv4.protocol = 2
    · cases hh : Igmp.Header.parse? (f.payload frame) with
      | none =>
        refine .inr (.inr fun a t => ?_)
        simp [hi, igmpProtocol, onIgmp, hh, plain, Outcome.disposition]
      | some h =>
        by_cases hval : Checksum.isValid (f.payload frame) = true
        · obtain ⟨k₀, k₁, rest, hpay⟩ := parse?_igmp hh
          exact .inl ⟨_, _, _, f, _, _, _, _, hf, rfl, hi, hpay, hval⟩
        · refine .inr (.inr fun a t => ?_)
          simp [hi, igmpProtocol, onIgmp, hh, hval, plain, Outcome.disposition]
    by_cases hp : f.ipv4.protocol = 103
    · rcases hpay : f.payload frame with _ | ⟨b, _ | ⟨r, _ | ⟨k₀, _ | ⟨k₁, rest⟩⟩⟩⟩
      case cons.cons.cons.cons =>
        by_cases hval : Checksum.isValid (f.payload frame) = true
        · exact .inr (.inl ⟨_, _, _, _, f, _, _, _, _, _, hf, rfl, hp, rfl, hpay, rfl, rfl, hval⟩)
        · refine .inr (.inr fun a t => ?_)
          rw [hpay] at hval
          simp [hp, igmpProtocol, pimProtocol, onPim, hval, hpay, plain, Outcome.disposition]
      all_goals
        refine .inr (.inr fun a t => ?_)
        simp [hp, igmpProtocol, pimProtocol, onPim, hpay, Pim.headerLength, plain,
          Outcome.disposition]
    · refine .inr (.inr fun a t => ?_)
      simp [hi, hp, igmpProtocol, pimProtocol, plain, Outcome.disposition]

theorem IsIgmp.masked (h : IsIgmp frame v type group) : v &&& vidMask = v := by
  obtain ⟨f, _, _, _, _, hf, rfl, _⟩ := h
  exact vid_masked hf

theorem IsPim.masked {version : UInt8} (h : IsPim frame v dst version type) :
    v &&& vidMask = v := by
  obtain ⟨f, _, _, _, _, _, hf, rfl, _⟩ := h
  exact vid_masked hf

/-- Every absorbed frame has its outcome, and that is to drop it. -/
theorem Absorbed.outcome {o : Outcome} (h : Absorbed a.ports a.inPort frame t o) :
    (classify a frame t).outcome = o ∧ o.disposition = .drop := by
  refine ⟨?_, by cases h <;> rfl⟩
  cases h with
  | @generalQuery k h hk =>
    have hkey : VlanKey.of k.name k.vlan = k := congrArg (VlanKey.mk k.name) h.1.masked
    rw [h.1.outcome, if_pos rfl, if_pos rfl, onGeneralQuery_outcome, h.2, Option.any_some, hkey,
      if_pos hk]
  | groupQuery h hg => rw [h.outcome, if_pos rfl, if_neg hg]
  | @report k h hk =>
    have hout : ∀ type, type = 0x12 ∨ type = 0x16 → IsIgmp frame k.vlan type k.group →
        (classify a frame t).outcome = .reportHit := by
      intro type ht hi
      have hne : type ≠ 0x11 := by rcases ht with rfl | rfl <;> decide
      have hkey : GroupKey.of k.name k.vlan k.group = k :=
        congrArg (GroupKey.mk k.name · k.group) hi.masked
      rw [hi.outcome, if_neg hne, if_pos ht, onReport_outcome, h.2, Option.any_some, hkey,
        if_pos hk]
    exact h.1.elim (hout _ (.inl rfl)) (hout _ (.inr rfl))
  | other h ht =>
    simp only [List.mem_cons, List.not_mem_nil, or_false, not_or] at ht
    rw [h.outcome, if_neg ht.1, if_neg (not_or.mpr ⟨ht.2.1, ht.2.2.1⟩), if_neg ht.2.2.2]
  | @hello k h hk =>
    have hkey : VlanKey.of k.name k.vlan = k := congrArg (VlanKey.mk k.name) h.1.masked
    rw [h.1.outcome, if_neg (by simp), if_neg (by simp), onPimHello_outcome, h.2, Option.any_some,
      hkey, if_pos hk]

/-- An IGMP message that is dropped is one of the first four kinds. -/
theorem IsIgmp.absorbed (h : IsIgmp frame v type group)
    (hd : (classify a frame t).outcome.disposition = .drop) :
    Absorbed a.ports a.inPort frame t (classify a frame t).outcome := by
  have hout := h.outcome a t
  rw [hout] at hd ⊢
  by_cases hq : type = 0x11
  · subst hq
    rw [if_pos rfl] at hd ⊢
    by_cases hg : group = .unspecified
    · subst hg
      rw [if_pos rfl, onGeneralQuery_outcome] at hd ⊢
      split_ifs at hd ⊢ with hk
      · obtain ⟨n, hn, hc⟩ := (Option.any_eq_true ..).mp hk
        rw [VlanKey.of, h.masked] at hc
        exact .generalQuery (k := ⟨n, v⟩) ⟨h, hn⟩ hc
      · cases hd
    · rw [if_neg hg]
      exact .groupQuery h hg
  rw [if_neg hq] at hd ⊢
  by_cases hr : type = 0x12 ∨ type = 0x16
  · rw [if_pos hr, onReport_outcome] at hd ⊢
    split_ifs at hd ⊢ with hk
    · obtain ⟨n, hn, hc⟩ := (Option.any_eq_true ..).mp hk
      rw [GroupKey.of, h.masked] at hc
      refine .report (k := ⟨n, v, group⟩) ⟨?_, hn⟩ hc
      rcases hr with rfl | rfl
      · exact .inl h
      · exact .inr h
    · cases hd
  rw [if_neg hr] at hd ⊢
  by_cases hl : type = 0x17
  · rw [if_pos hl] at hd
    cases hd
  · rw [if_neg hl]
    refine .other h ?_
    simp only [not_or] at hr
    simp [hq, hr, hl]

theorem IsPim.absorbed {version : UInt8} (h : IsPim frame v dst version type)
    (hd : (classify a frame t).outcome.disposition = .drop) :
    Absorbed a.ports a.inPort frame t (classify a frame t).outcome := by
  have hout := h.outcome a t
  rw [hout] at hd ⊢
  by_cases hv : version ≠ 2 ∨ dst ≠ ⟨224, 0, 0, 13⟩
  · rw [if_pos hv] at hd
    cases hd
  rw [if_neg hv] at hd ⊢
  by_cases ht : type ≠ 0
  · rw [if_pos ht] at hd
    cases hd
  simp only [not_or, not_not] at hv ht
  obtain ⟨rfl, rfl⟩ := hv
  subst ht
  rw [if_neg (by simp), onPimHello_outcome] at hd ⊢
  split_ifs at hd ⊢ with hk
  · obtain ⟨n, hn, hc⟩ := (Option.any_eq_true ..).mp hk
    rw [VlanKey.of, h.masked] at hc
    exact .hello (k := ⟨n, v⟩) ⟨h, hn⟩ hc
  · cases hd

/-- A frame is dropped exactly if it is one of those that are absorbed. -/
theorem absorbed_iff (a : Arrival) (frame : Bytes) (t : Targets) (o : Outcome) :
    Absorbed a.ports a.inPort frame t o ↔
      (classify a frame t).outcome = o ∧ o.disposition = .drop := by
  constructor
  · exact Absorbed.outcome
  · rintro ⟨rfl, hd⟩
    rcases classify_cases frame with ⟨v, type, group, h⟩ | ⟨v, dst, version, type, h⟩ | h
    · exact h.absorbed hd
    · exact h.absorbed hd
    · rw [h a t] at hd
      cases hd

/-- What waits for a frame is the key that the frame names. -/
theorem Queries.key {k : VlanKey} (h : Queries ports inPort frame k) :
    vlanKey? ports inPort frame = some k := by
  obtain ⟨hi, hn⟩ := h
  obtain ⟨f, _, _, _, _, hf, hv, _⟩ := id hi
  rw [vlanKey?, hf, hn]
  simp only [VlanKey.of, hv, hi.masked]

theorem Reports.key {k : GroupKey} (h : Reports ports inPort frame k) :
    groupKey? ports inPort frame = some k := by
  obtain ⟨hi, hn⟩ := h
  have hk : ∀ type, IsIgmp frame k.vlan type k.group → groupKey? ports inPort frame = some k := by
    intro type hi
    obtain ⟨f, r, k₀, k₁, rest, hf, hv, _, hpay, _⟩ := id hi
    simp only [groupKey?, hf, hn, hpay, Igmp.Header.parse?, Ipv4.octets, List.cons_append,
      Option.map_some, GroupKey.of, hv, hi.masked]
  exact hi.elim (hk _) (hk _)

theorem Hellos.key {k : VlanKey} (h : Hellos ports inPort frame k) :
    vlanKey? ports inPort frame = some k := by
  obtain ⟨hi, hn⟩ := h
  obtain ⟨f, _, _, _, _, _, hf, hv, _⟩ := id hi
  rw [vlanKey?, hf, hn]
  simp only [VlanKey.of, hv, hi.masked]

theorem Counters.get_record (c : Counters) (o o' : Outcome) :
    (c.record o).get o' = c.get o' + if o' = o then 1 else 0 := by
  unfold record get
  rw [Rows.find?_insert]
  by_cases h : o' = o
  · simp [h]
  · simp [h]

end Classifier

namespace Expectation.Table

variable {κ : Type} [DecidableEq κ] {kind : Kind κ} {t t' : Table κ} {k : κ} {interval now : Nat}
  {traces : List Trace}

/-- A packet met the expectation `k`: its entry and its registration are renewed, the hit is
counted, and all else is as it was. -/
structure HitAt (t t' : Table κ) (k : κ) (interval now : Nat) : Prop where
  entry : ∃ e, t.entries.find? k = some e ∧
    t'.entries.find? k = some { e with lastHit := now, rxPackets := e.rxPackets + 1 }
  entries : ∀ k', k' ≠ k → t'.entries.find? k' = t.entries.find? k'
  deadline : t'.queue.deadline? k = some (now + interval)
  queue : t.queue.SameBut k t'.queue
  counters : t'.counters = { t.counters with hits := t.counters.hits + 1 }

theorem hit?_hitAt (hs : t.roster.Sound) (h : t.hit? kind k interval now = some (t', traces)) :
    t.HitAt t' k interval now := by
  obtain ⟨e, he, rfl⟩ := hit?_some h
  have hr := hs.queue.insert_renewed k (now + interval)
  refine ⟨⟨e, he, ?_⟩, fun k' hk => ?_, ?_, hr.sameBut, rfl⟩
  · rw [Rows.find?_insert, if_pos rfl]
  · rw [Rows.find?_insert, if_neg hk]
  · exact congrArg (Option.map _) ((hr.find? k).trans (if_pos rfl))

end Expectation.Table

namespace Agent

open Classifier (Queries Reports Hellos Absorbed)

variable {χ ω : Type}

def arrival (a : Agent χ ω) (inPort : UInt32) (now : Nat) : Classifier.Arrival :=
  ⟨a.rxPorts, a.timeouts, inPort, now⟩

def targets (a : Agent χ ω) : Classifier.Targets := ⟨a.generalQuery, a.report, a.pim⟩

/-- What a frame with an outcome makes of `a`, apart from counting the outcome. -/
def Classified (a a' : Agent χ ω) (frame : Bytes) (inPort : UInt32) (now : Nat) : Outcome → Prop
  | .generalQueryHit => ∃ k, Queries a.rxPorts inPort frame k ∧
      a.generalQuery.HitAt a'.generalQuery k (a.timeouts.get .query) now ∧
      a' = { a with generalQuery := a'.generalQuery, classified := a'.classified }
  | .reportHit => ∃ k, Reports a.rxPorts inPort frame k ∧
      a.report.HitAt a'.report k (a.timeouts.get .report) now ∧
      a' = { a with report := a'.report, classified := a'.classified }
  | .pimHelloHit => ∃ k, Hellos a.rxPorts inPort frame k ∧
      a.pim.HitAt a'.pim k (a.timeouts.get .query) now ∧
      a' = { a with pim := a'.pim, classified := a'.classified }
  | _ => a' = { a with classified := a'.classified }

theorem classify_absorbed (a : Agent χ ω) (frame : Bytes) (inPort : UInt32) (now : Nat)
    (o : Outcome) :
    Absorbed a.rxPorts inPort frame a.targets o ↔
      (a.classify frame inPort now).answer = o ∧ o.disposition = .drop :=
  Classifier.absorbed_iff (a.arrival inPort now) frame a.targets o

theorem classify_classified {a : Agent χ ω} (hs : a.Sound) (frame : Bytes) (inPort : UInt32)
    (now : Nat) :
    a.Classified (a.classify frame inPort now).agent frame inPort now
      (a.classify frame inPort now).answer := by
  obtain ⟨targets, heff, ha⟩ := a.classify_effect frame inPort now
  have habs := a.classify_absorbed frame inPort now
  rw [ha]
  generalize (a.classify frame inPort now).answer = o at heff habs ⊢
  cases heff with
  | miss h =>
    obtain ⟨hq, hr, hp⟩ := h
    cases o
    case generalQueryHit => exact (hq rfl).elim
    case reportHit => exact (hr rfl).elim
    case pimHelloHit => exact (hp rfl).elim
    all_goals exact rfl
  | generalQuery hk hit =>
    cases (habs .generalQueryHit).mpr ⟨rfl, rfl⟩ with
    | generalQuery h _ =>
      cases h.key.symm.trans hk
      exact ⟨_, h, Expectation.Table.hit?_hitAt hs.generalQuery hit, rfl⟩
  | report hk hit =>
    cases (habs .reportHit).mpr ⟨rfl, rfl⟩ with
    | report h _ =>
      cases h.key.symm.trans hk
      exact ⟨_, h, Expectation.Table.hit?_hitAt hs.report hit, rfl⟩
  | pim hk hit =>
    cases (habs .pimHelloHit).mpr ⟨rfl, rfl⟩ with
    | hello h _ =>
      cases h.key.symm.trans hk
      exact ⟨_, h, Expectation.Table.hit?_hitAt hs.pim hit, rfl⟩

variable [ControllerChannel χ] [PacketOut ω]

/-- After any history, every byte string is classified, and no index or slice is out of range for
it. It is dropped exactly if it is one of the frames that are absorbed, which have their own
outcomes. A frame that meets an expectation renews it alone; no other frame changes a table. Every
frame counts once, under its outcome. -/
theorem frames_classified (maxPorts : UInt32) (channel : χ) (out : ω) (history : History χ ω) :
    ∃ a, (new maxPorts channel out).run history = .ok a ∧ ∀ frame inPort now,
      Positions.classify (a.arrival inPort now) frame a.targets =
          some (Classifier.classify (a.arrival inPort now) frame a.targets) ∧
        (a.classify frame inPort now).answer ∈ Outcome.all ∧
        ((a.classify frame inPort now).answer.disposition = .drop ↔
          ∃ o, Absorbed a.rxPorts inPort frame a.targets o) ∧
        (∀ o, Absorbed a.rxPorts inPort frame a.targets o →
          (a.classify frame inPort now).answer = o) ∧
        a.Classified (a.classify frame inPort now).agent frame inPort now
          (a.classify frame inPort now).answer ∧
        ∀ o, (a.classify frame inPort now).agent.classified.get o =
          a.classified.get o + if o = (a.classify frame inPort now).answer then 1 else 0 := by
  obtain ⟨a, ha, hs⟩ := run_ok (sound_new maxPorts channel out) history
  refine ⟨a, ha, fun frame inPort now => ⟨Positions.classify_eq .., ?_, ⟨fun hd => ?_, ?_⟩, ?_,
    classify_classified hs frame inPort now, fun o => Classifier.Counters.get_record ..⟩⟩
  · cases (a.classify frame inPort now).answer <;> decide
  · exact ⟨_, (a.classify_absorbed frame inPort now _).mpr ⟨rfl, hd⟩⟩
  · rintro ⟨o, ho⟩
    obtain ⟨h, hd⟩ := (a.classify_absorbed frame inPort now o).mp ho
    rw [h, hd]
  · intro o ho
    exact ((a.classify_absorbed frame inPort now o).mp ho).1

end Agent
end Snooping
