import Snooping.Classifier
import Snooping.Proofs.Expectation

/-! What a classified frame does to the expectation tables: at most one of them has one hit. -/
namespace Snooping.Classifier

/-- The key that a frame names by its port group and its VLAN. -/
def vlanKey? (ports : RxPorts) (inPort : UInt32) (frame : Bytes) : Option VlanKey :=
  match Frame.parse frame, ports.find? inPort with
  | .ok f, some name => some (.of name f.vlan.vid)
  | _, _ => none

/-- The key that a report names, with the group it reports. -/
def groupKey? (ports : RxPorts) (inPort : UInt32) (frame : Bytes) : Option GroupKey :=
  match Frame.parse frame, ports.find? inPort with
  | .ok f, some name =>
    (Igmp.Header.parse? (f.payload frame)).map fun h => .of name f.vlan.vid h.group
  | _, _ => none

/-- The outcomes that leave every table as it is. -/
def IsMiss (o : Outcome) : Prop := o ≠ .generalQueryHit ∧ o ≠ .reportHit ∧ o ≠ .pimHelloHit

/-- What a frame did to the tables: nothing, or one hit on the key it names. -/
inductive Effect (a : Arrival) (frame : Bytes) (t : Targets) : Outcome → Targets → Prop
  | miss {o : Outcome} (h : IsMiss o) : Effect a frame t o t
  | generalQuery {k : VlanKey} {table : Expectation.Table VlanKey} {traces : List Trace}
      (hk : vlanKey? a.ports a.inPort frame = some k)
      (hit : t.generalQuery.hit? Expectation.generalQuery k (a.timeouts.get .query) a.now =
        some (table, traces)) :
      Effect a frame t .generalQueryHit { t with generalQuery := table }
  | report {k : GroupKey} {table : Expectation.Table GroupKey} {traces : List Trace}
      (hk : groupKey? a.ports a.inPort frame = some k)
      (hit : t.report.hit? Expectation.report k (a.timeouts.get .report) a.now =
        some (table, traces)) :
      Effect a frame t .reportHit { t with report := table }
  | pim {k : VlanKey} {table : Expectation.Table VlanKey} {traces : List Trace}
      (hk : vlanKey? a.ports a.inPort frame = some k)
      (hit : t.pim.hit? Expectation.pim k (a.timeouts.get .query) a.now = some (table, traces)) :
      Effect a frame t .pimHelloHit { t with pim := table }

variable {a : Arrival} {t : Targets} {frame : Bytes} {f : Frame}

theorem onGeneralQuery_effect (hf : Frame.parse frame = .ok f) :
    Effect a frame t (onGeneralQuery a f.vlan.vid t).outcome
      (onGeneralQuery a f.vlan.vid t).targets := by
  unfold onGeneralQuery
  split
  · exact .miss (by simp [IsMiss, plain])
  · rename_i name hn
    split
    · exact .miss (by simp [IsMiss, plain])
    · rename_i hit
      exact .generalQuery (by simp [vlanKey?, hf, hn]) hit

theorem onReport_effect {h : Igmp.Header} (hf : Frame.parse frame = .ok f)
    (hh : Igmp.Header.parse? (f.payload frame) = some h) :
    Effect a frame t (onReport a f.vlan.vid h.group t).outcome
      (onReport a f.vlan.vid h.group t).targets := by
  unfold onReport
  split
  · exact .miss (by simp [IsMiss, plain])
  · rename_i name hn
    split
    · exact .miss (by simp [IsMiss, plain])
    · rename_i hit
      exact .report (by simp [groupKey?, hf, hn, hh]) hit

theorem onPimHello_effect (hf : Frame.parse frame = .ok f) :
    Effect a frame t (onPimHello a f.vlan.vid t).outcome
      (onPimHello a f.vlan.vid t).targets := by
  unfold onPimHello
  split
  · exact .miss (by simp [IsMiss, plain])
  · rename_i name hn
    split
    · exact .miss (by simp [IsMiss, plain])
    · rename_i hit
      exact .pim (by simp [vlanKey?, hf, hn]) hit

theorem onIgmp_effect (hf : Frame.parse frame = .ok f) :
    Effect a frame t (onIgmp a f.vlan.vid (f.payload frame) t).outcome
      (onIgmp a f.vlan.vid (f.payload frame) t).targets := by
  unfold onIgmp
  split
  · exact .miss (by simp [IsMiss, plain])
  · rename_i h hh
    split_ifs
    · exact .miss (by simp [IsMiss, plain])
    · exact onGeneralQuery_effect hf
    · exact onReport_effect hf hh
    all_goals exact .miss (by simp [IsMiss, plain])

theorem onPim_effect (hf : Frame.parse frame = .ok f) (dst : Ipv4) (payload : Bytes) :
    Effect a frame t (onPim a f.vlan.vid dst payload t).outcome
      (onPim a f.vlan.vid dst payload t).targets := by
  unfold onPim
  split
  · exact .miss (by simp [IsMiss, plain])
  · split
    · exact .miss (by simp [IsMiss, plain])
    · split_ifs
      · exact .miss (by simp [IsMiss, plain])
      · exact .miss (by simp [IsMiss, plain])
      · exact onPimHello_effect hf

theorem classify_effect (a : Arrival) (frame : Bytes) (t : Targets) :
    Effect a frame t (classify a frame t).outcome (classify a frame t).targets := by
  unfold classify
  split
  · exact .miss (by simp [IsMiss, plain])
  · exact .miss (by simp [IsMiss, plain])
  · exact .miss (by simp [IsMiss, plain])
  · rename_i f hf
    split_ifs
    · exact onIgmp_effect hf
    · exact onPim_effect hf ..
    · exact .miss (by simp [IsMiss, plain])

variable {o : Outcome} {t' : Targets}

/-- An expectation table meets the frame under the key that the frame names, if that is a hit. -/
theorem Effect.generalQuery_met (h : Effect a frame t o t') :
    Expectation.Table.Met Expectation.generalQuery (a.timeouts.get .query) a.now t.generalQuery
      t'.generalQuery (if o = .generalQueryHit then vlanKey? a.ports a.inPort frame else none) := by
  cases h with
  | miss h =>
    rw [if_neg h.1]
    rfl
  | generalQuery hk hit =>
    rw [if_pos rfl, hk]
    exact ⟨_, hit⟩
  | report | pim => exact rfl

theorem Effect.report_met (h : Effect a frame t o t') :
    Expectation.Table.Met Expectation.report (a.timeouts.get .report) a.now t.report t'.report
      (if o = .reportHit then groupKey? a.ports a.inPort frame else none) := by
  cases h with
  | miss h =>
    rw [if_neg h.2.1]
    rfl
  | report hk hit =>
    rw [if_pos rfl, hk]
    exact ⟨_, hit⟩
  | generalQuery | pim => exact rfl

theorem Effect.pim_met (h : Effect a frame t o t') :
    Expectation.Table.Met Expectation.pim (a.timeouts.get .query) a.now t.pim t'.pim
      (if o = .pimHelloHit then vlanKey? a.ports a.inPort frame else none) := by
  cases h with
  | miss h =>
    rw [if_neg h.2.2]
    rfl
  | pim hk hit =>
    rw [if_pos rfl, hk]
    exact ⟨_, hit⟩
  | generalQuery | report => exact rfl

end Snooping.Classifier
