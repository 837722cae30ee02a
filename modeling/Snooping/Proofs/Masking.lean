import Mathlib.Data.List.Forall2
import Snooping.Proofs.Datagram
import Snooping.Proofs.History

/-!
Of a VLAN id in a request only the low twelve bits count. Histories that differ in the upper bits
alone, wherever the ids stand, run alike in all there is to see.
-/
namespace Snooping

/-- The same field, but that VLAN ids in it need to agree only modulo 4096. -/
inductive Field.SameVids : Field → Field → Prop
  | refl (f : Field) : SameVids f f
  | vlanVid {v w : UInt16} (h : v % 4096 = w % 4096) : SameVids (.vlanVid v) (.vlanVid w)
  | reference (table : String) {key key' : List Field} (h : List.Forall₂ SameVids key key') :
    SameVids (.reference table key) (.reference table key')

inductive TableOp.SameVids : TableOp → TableOp → Prop
  | add {key key' value value' : List Field} (hk : List.Forall₂ Field.SameVids key key')
    (hv : List.Forall₂ Field.SameVids value value') : SameVids (.add key value) (.add key' value')
  | modify {key key' value value' : List Field} (hk : List.Forall₂ Field.SameVids key key')
    (hv : List.Forall₂ Field.SameVids value value') :
    SameVids (.modify key value) (.modify key' value')
  | delete {key key' : List Field} (hk : List.Forall₂ Field.SameVids key key') :
    SameVids (.delete key) (.delete key')
  | getStats {key key' : List Field} (hk : List.Forall₂ Field.SameVids key key') :
    SameVids (.getStats key) (.getStats key')

section Readings

variable {f g : Field} {fields fields' : List Field}

theorem Field.SameVids.kind (h : f.SameVids g) : f.kind = g.kind := by
  cases h <;> rfl

theorem finish_congr (h : List.Forall₂ Field.SameVids fields fields') :
    Reading.finish fields = Reading.finish fields' := by
  cases h with
  | nil => rfl
  | cons hf _ => rw [Reading.finish, Reading.finish, hf.kind]

theorem expectEmpty_congr (h : List.Forall₂ Field.SameVids fields fields') :
    expectEmpty fields = expectEmpty fields' := by
  cases h <;> rfl

/-- The field is taken for the same, whatever the upper bits. -/
def Expected.Blind {α : Type} (e : Expected α) : Prop :=
  ∀ f g, Field.SameVids f g → e.accept f = e.accept g

namespace Expected

theorem name_blind : name.Blind := fun _ _ h => by cases h <;> rfl

theorem vlanVid_blind : vlanVid.Blind := fun _ _ h => by
  cases h with
  | vlanVid h => simp only [vlanVid, vidMask_eq_mod, h]
  | refl | reference => rfl

theorem group_blind : group.Blind := fun _ _ h => by cases h <;> rfl

theorem source_blind : source.Blind := fun _ _ h => by cases h <;> rfl

theorem ethSrc_blind : ethSrc.Blind := fun _ _ h => by cases h <;> rfl

theorem portNo_blind (maxPorts : UInt32) : (portNo maxPorts).Blind := fun _ _ h => by
  cases h <;> rfl

theorem intervalMs_blind : intervalMs.Blind := fun _ _ h => by cases h <;> rfl

end Expected

namespace Reading

variable {α β : Type} {r : Reading α} {k : α → Reading β} {e : Expected α}

/-- The answer is the same, whatever the upper bits, and so is the number of fields taken. -/
def Blind (r : Reading α) : Prop :=
  ∀ fields fields', List.Forall₂ Field.SameVids fields fields' →
    (r fields).1 = (r fields').1 ∧ List.Forall₂ Field.SameVids (r fields).2 (r fields').2

theorem blind_pure (a : α) : (pure a : Reading α).Blind := fun _ _ h => ⟨rfl, h⟩

theorem blind_lift (x : Except TableError α) : (lift x).Blind := fun _ _ h => ⟨rfl, h⟩

theorem blind_field (he : e.Blind) : (field e).Blind := by
  intro fields fields' h
  cases h with
  | nil => exact ⟨rfl, .nil⟩
  | cons hf hr => exact ⟨he _ _ hf, hr⟩

theorem blind_bind (hr : r.Blind) (hk : ∀ a, (k a).Blind) : (r >>= k).Blind := by
  intro fields fields' h
  obtain ⟨h₁, h₂⟩ := hr fields fields' h
  change (Reading.bind r k fields).1 = (Reading.bind r k fields').1 ∧
    List.Forall₂ Field.SameVids (Reading.bind r k fields).2 (Reading.bind r k fields').2
  unfold Reading.bind
  cases hx : r fields with
  | mk x rest =>
  cases hy : r fields' with
  | mk y rest' =>
  rw [hx, hy] at h₁ h₂
  cases (h₁ : x = y)
  cases x with
  | ok a => exact hk a rest rest' h₂
  | error e => exact ⟨rfl, h₂⟩

theorem Blind.all (hr : r.Blind) (h : List.Forall₂ Field.SameVids fields fields') :
    r.all fields = r.all fields' := by
  obtain ⟨h₁, h₂⟩ := hr fields fields' h
  unfold Reading.all
  cases hx : r fields with
  | mk x rest =>
  cases hy : r fields' with
  | mk y rest' =>
  rw [hx, hy] at h₁ h₂
  cases (h₁ : x = y)
  cases x with
  | ok a => simp only [finish_congr h₂]
  | error e => rfl

end Reading

/-- A reference is followed to the same row. -/
theorem resolve_congr (ports : Option TxPorts) (h : List.Forall₂ Field.SameVids fields fields') :
    TxPorts.resolve ports fields = TxPorts.resolve ports fields' := by
  unfold TxPorts.resolve TxPorts.keyReading
  rw [(Reading.blind_field Expected.name_blind).all h]

theorem portGroupReading_cons (ports : Option TxPorts) (f : Field) (rest : List Field) :
    Transmission.portGroupReading ports (f :: rest) =
      ((Expected.reference TableId.txPortGroup.name).accept f >>= TxPorts.resolve ports, rest) := by
  change Reading.bind _ _ _ = _
  unfold Reading.bind Reading.field
  cases hf : (Expected.reference TableId.txPortGroup.name).accept f <;> simp only [hf] <;> rfl

/-- The key inside a reference may differ in upper bits, so it is not the same that is handed on. -/
theorem portGroupReading_blind (ports : Option TxPorts) :
    (Transmission.portGroupReading ports).Blind := by
  intro fields fields' h
  cases h with
  | nil => exact ⟨rfl, .nil⟩
  | @cons f g rest rest' hf hr =>
    rw [portGroupReading_cons, portGroupReading_cons]
    refine ⟨?_, hr⟩
    cases hf with
    | refl | vlanVid => rfl
    | reference table hk =>
      simp only [Expected.reference]
      split
      · exact resolve_congr ports hk
      · rfl

section Keys

open Reading

theorem vlanKey_blind : VlanKey.reading.Blind :=
  blind_bind (blind_field Expected.name_blind) fun _ =>
    blind_bind (blind_field Expected.vlanVid_blind) fun _ => blind_pure _

theorem groupKey_blind : GroupKey.reading.Blind :=
  blind_bind (blind_field Expected.name_blind) fun _ =>
    blind_bind (blind_field Expected.vlanVid_blind) fun _ =>
      blind_bind (blind_field Expected.group_blind) fun _ => blind_pure _

theorem generalQueryTx_blind (ports : Option TxPorts) :
    (Transmission.generalQuery.reading ports).Blind :=
  blind_bind (portGroupReading_blind ports) fun _ =>
    blind_bind (blind_field Expected.vlanVid_blind) fun _ => blind_pure _

theorem reportTx_blind (ports : Option TxPorts) : (Transmission.report.reading ports).Blind :=
  blind_bind (portGroupReading_blind ports) fun _ =>
    blind_bind (blind_field Expected.vlanVid_blind) fun _ =>
      blind_bind (blind_field Expected.group_blind) fun _ => blind_pure _

theorem origin_blind : Transmission.originReading.Blind :=
  blind_bind (blind_field Expected.vlanVid_blind) fun _ =>
    blind_bind (blind_field Expected.source_blind) fun _ =>
      blind_bind (blind_field Expected.ethSrc_blind) fun _ => blind_pure _

theorem timeoutName_blind : TimeoutTable.keyReading.Blind :=
  blind_bind (blind_field Expected.name_blind) fun _ => blind_lift _

end Keys

/-- No table can tell the two lists apart. -/
structure ReadAlike (fields fields' : List Field) : Prop where
  timeoutName : TimeoutTable.keyReading.all fields = TimeoutTable.keyReading.all fields'
  interval : TimeoutTable.parseValue fields = TimeoutTable.parseValue fields'
  port : ∀ maxPorts, Reading.all (.field (.portNo maxPorts)) fields =
    Reading.all (.field (.portNo maxPorts)) fields'
  name : Reading.all (.field .name) fields = Reading.all (.field .name) fields'
  generalQuery : Expectation.generalQuery.reading.all fields =
    Expectation.generalQuery.reading.all fields'
  report : Expectation.report.reading.all fields = Expectation.report.reading.all fields'
  pim : Expectation.pim.reading.all fields = Expectation.pim.reading.all fields'
  generalQueryTx : ∀ ports, (Transmission.generalQuery.reading ports).all fields =
    (Transmission.generalQuery.reading ports).all fields'
  reportTx : ∀ ports, (Transmission.report.reading ports).all fields =
    (Transmission.report.reading ports).all fields'
  origin : Transmission.originReading.all fields = Transmission.originReading.all fields'
  nothing : expectEmpty fields = expectEmpty fields'

theorem readAlike (h : List.Forall₂ Field.SameVids fields fields') : ReadAlike fields fields' where
  timeoutName := timeoutName_blind.all h
  interval := by
    unfold TimeoutTable.parseValue
    rw [(Reading.blind_field Expected.intervalMs_blind).all h]
  port maxPorts := (Reading.blind_field (Expected.portNo_blind maxPorts)).all h
  name := (Reading.blind_field Expected.name_blind).all h
  generalQuery := vlanKey_blind.all h
  report := groupKey_blind.all h
  pim := vlanKey_blind.all h
  generalQueryTx ports := (generalQueryTx_blind ports).all h
  reportTx ports := (reportTx_blind ports).all h
  origin := origin_blind.all h
  nothing := expectEmpty_congr h

end Readings

namespace Agent

variable {χ ω : Type} {key key' value value' : List Field}

theorem delete_congr (a : Agent χ ω) (table : TableId) (hk : ReadAlike key key') :
    a.delete table key = a.delete table key' := by
  cases table with
  | timeout => simp only [delete, TimeoutTable.delete, hk.timeoutName]
  | rxPortGroup => simp only [delete, RxPorts.delete, RxPorts.keyReading, hk.port]
  | txPortGroup => simp only [delete, TxPorts.delete, TxPorts.keyReading, hk.name]
  | generalQueryExpectation => simp only [delete, Expectation.Table.delete, hk.generalQuery]
  | reportExpectation => simp only [delete, Expectation.Table.delete, hk.report]
  | pimExpectation => simp only [delete, Expectation.Table.delete, hk.pim]
  | generalQueryTx => simp only [delete, Transmission.Table.delete, hk.generalQueryTx]
  | reportTx => simp only [delete, Transmission.Table.delete, hk.reportTx]

theorem stats_congr (a : Agent χ ω) (table : TableId) (hk : ReadAlike key key') (now : Nat) :
    a.stats table key now = a.stats table key' now := by
  cases table with
  | timeout | rxPortGroup | txPortGroup => rfl
  | generalQueryExpectation => simp only [stats, Expectation.Table.stats, hk.generalQuery]
  | reportExpectation => simp only [stats, Expectation.Table.stats, hk.report]
  | pimExpectation => simp only [stats, Expectation.Table.stats, hk.pim]
  | generalQueryTx => simp only [stats, Transmission.Table.stats, hk.generalQueryTx]
  | reportTx => simp only [stats, Transmission.Table.stats, hk.reportTx]

section Requests

variable [PacketOut ω]

theorem add_congr (a : Agent χ ω) (table : TableId) (hk : ReadAlike key key')
    (hv : ReadAlike value value') (now : Nat) :
    a.add table key value now = a.add table key' value' now := by
  cases table with
  | timeout => simp only [add, TimeoutTable.add, hk.timeoutName, hv.interval]
  | rxPortGroup =>
    simp only [add, RxPorts.add, RxPorts.keyReading, RxPorts.valueReading, hk.port, hv.name]
  | txPortGroup =>
    simp only [add, TxPorts.add, TxPorts.keyReading, TxPorts.valueReading, hk.name, hv.port]
  | generalQueryExpectation =>
    simp only [add, Expectation.Table.add, hk.generalQuery, hv.nothing]
  | reportExpectation => simp only [add, Expectation.Table.add, hk.report, hv.nothing]
  | pimExpectation => simp only [add, Expectation.Table.add, hk.pim, hv.nothing]
  | generalQueryTx => simp only [add, Transmission.Table.add, hk.generalQueryTx, hv.origin]
  | reportTx => simp only [add, Transmission.Table.add, hk.reportTx, hv.origin]

theorem modify_congr (a : Agent χ ω) (table : TableId) (hk : ReadAlike key key')
    (hv : ReadAlike value value') (now : Nat) :
    a.modify table key value now = a.modify table key' value' now := by
  cases table with
  | timeout => simp only [modify, TimeoutTable.modify, hk.timeoutName, hv.interval]
  | rxPortGroup =>
    simp only [modify, RxPorts.modify, RxPorts.keyReading, RxPorts.valueReading, hk.port, hv.name]
  | txPortGroup =>
    simp only [modify, TxPorts.modify, TxPorts.keyReading, TxPorts.valueReading, hk.name, hv.port]
  | generalQueryExpectation =>
    simp only [modify, Expectation.Table.modify, hk.generalQuery, hv.nothing]
  | reportExpectation => simp only [modify, Expectation.Table.modify, hk.report, hv.nothing]
  | pimExpectation => simp only [modify, Expectation.Table.modify, hk.pim, hv.nothing]
  | generalQueryTx => simp only [modify, Transmission.Table.modify, hk.generalQueryTx, hv.origin]
  | reportTx => simp only [modify, Transmission.Table.modify, hk.reportTx, hv.origin]

theorem request_congr (a : Agent χ ω) (table : TableId) {op op' : TableOp} (h : op.SameVids op')
    (now : Nat) : a.request ⟨table, op⟩ now = a.request ⟨table, op'⟩ now := by
  have hp : a.perform table op now = a.perform table op' now ∧ op.kind = op'.kind := by
    cases h with
    | add hk hv =>
      exact ⟨by simp only [perform, a.add_congr table (readAlike hk) (readAlike hv)], rfl⟩
    | modify hk hv =>
      exact ⟨by simp only [perform, a.modify_congr table (readAlike hk) (readAlike hv)], rfl⟩
    | delete hk => exact ⟨by simp only [perform, a.delete_congr table (readAlike hk)], rfl⟩
    | getStats hk => exact ⟨by simp only [perform, a.stats_congr table (readAlike hk)], rfl⟩
  simp only [request_eq, hp]

end Requests

/-- The same event, but that VLAN ids in a request need to agree only modulo 4096. -/
inductive Event.SameVids : Event χ ω → Event χ ω → Prop
  | refl (ev : Event χ ω) : SameVids ev ev
  | request (table : TableId) {op op' : TableOp} (h : op.SameVids op') :
    SameVids (.request ⟨table, op⟩) (.request ⟨table, op'⟩)

variable [ControllerChannel χ] [PacketOut ω]

/-- All there is to see of a history: after each event the whole agent with both ways out, the
answer and the traces. A fault ends it. -/
def replies (a : Agent χ ω) : History χ ω → List (Except Fault (Reply χ ω Answer))
  | [] => []
  | (now, ev) :: rest =>
    match a.step now ev with
    | .error f => [.error f]
    | .ok reply => .ok reply :: replies reply.agent rest

theorem step_congr (a : Agent χ ω) (now : Nat) {ev ev' : Event χ ω} (h : ev.SameVids ev') :
    a.step now ev = a.step now ev' := by
  cases h with
  | refl => rfl
  | request table h => simp only [step, a.request_congr table h]

/-- Histories whose VLAN ids agree modulo 4096, wherever they stand in requests, look the same. -/
theorem upper_vid_bits_invisible (a : Agent χ ω) {xs ys : History χ ω}
    (h : List.Forall₂ (fun x y => x.1 = y.1 ∧ x.2.SameVids y.2) xs ys) :
    a.replies xs = a.replies ys := by
  induction h generalizing a with
  | nil => rfl
  | @cons x y xs ys hxy _ ih =>
    obtain ⟨now, ev⟩ := x
    obtain ⟨now', ev'⟩ := y
    obtain ⟨rfl, hev⟩ := hxy
    rw [replies, replies, a.step_congr now hev]
    cases a.step now ev' with
    | error f => rfl
    | ok reply => exact congrArg (.ok reply :: ·) (ih reply.agent)

/-- An expected querier, and a reference that is refused for the stray id behind its name. -/
theorem upper_vid_bits_invisible_querier :
    let asked (v w : UInt16) : History ControllerLink FrameSender :=
      [(0, .request ⟨.generalQueryExpectation, .add [.name "querier", .vlanVid v] []⟩),
        (5, .request ⟨.generalQueryTx,
          .delete [.reference "tx_port_group" [.name "hosts", .vlanVid w], .vlanVid v]⟩),
        (9, .tick .generalQueryExpectation)]
    List.Forall₂ (fun x y => x.1 = y.1 ∧ x.2.SameVids y.2) (asked 0x1005 0xffff) (asked 5 0xfff) ∧
      (new 8 .initial .initial).replies (asked 0x1005 0xffff) =
        (new 8 .initial .initial).replies (asked 5 0xfff) := by
  intro asked
  have hv : Field.SameVids (.vlanVid 0x1005) (.vlanVid 5) := .vlanVid rfl
  have hw : Field.SameVids (.vlanVid 0xffff) (.vlanVid 0xfff) := .vlanVid rfl
  have hr : Field.SameVids (.reference "tx_port_group" [.name "hosts", .vlanVid 0xffff])
      (.reference "tx_port_group" [.name "hosts", .vlanVid 0xfff]) :=
    .reference _ (.cons (.refl _) (.cons hw .nil))
  have h : List.Forall₂ (fun x y => x.1 = y.1 ∧ x.2.SameVids y.2)
      (asked 0x1005 0xffff) (asked 5 0xfff) :=
    .cons ⟨rfl, .request _ (.add (.cons (.refl _) (.cons hv .nil)) .nil)⟩ <|
      .cons ⟨rfl, .request _ (.delete (.cons hr (.cons hv .nil)))⟩ <|
        .cons ⟨rfl, .refl _⟩ .nil
  exact ⟨h, upper_vid_bits_invisible _ h⟩

end Agent
end Snooping
