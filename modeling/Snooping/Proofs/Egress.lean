import Snooping.Proofs.Handing
import Snooping.Proofs.Presence
import Snooping.Proofs.Sending

/-!
What leaves the switch. Every frame goes to the port that its group has at that very step, and
carries the addressing that its row was last given, whatever became of the group in between.
-/
namespace Snooping

namespace EngineId

/-- The engines that send frames. -/
def senders : List EngineId := [generalQueryTx, reportTx]

theorem mem_senders {e : EngineId} : e ∈ senders ↔ e = generalQueryTx ∨ e = reportTx := by
  simp only [senders, List.mem_cons, List.not_mem_nil, or_false]

theorem isTransmission_of_mem_senders {e : EngineId} (he : e ∈ senders) :
    e.isTransmission = true := by
  rcases mem_senders.mp he with rfl | rfl <;> rfl

/-- The port group that a key names. -/
def group : (e : EngineId) → e.Key → String
  | generalQueryExpectation, k | pimExpectation, k | generalQueryTx, k => VlanKey.name k
  | reportExpectation, k | reportTx, k => GroupKey.name k

/-- The frame for a key with the given addressing. -/
def frame : (e : EngineId) → e.Key → Igmp.Origin → Bytes
  | generalQueryTx, _, origin => Igmp.generalQueryFrame origin
  | reportTx, k, origin => Igmp.reportFrame origin (GroupKey.group k)
  | _, _, _ => []

end EngineId

/-- The value fields of an operation, if it has any. -/
def TableOp.value : TableOp → List Field
  | add _ value | modify _ value => value
  | delete _ | getStats _ => []

/-- The frames for the keys of each sender in turn, where their groups have ports. -/
def outboundFrames (ports : TxPorts) (origin : (e : EngineId) → e.Key → Igmp.Origin)
    (keys : (e : EngineId) → List e.Key) : List OutboundFrame :=
  EngineId.senders.flatMap fun e => (keys e).filterMap fun k =>
    (ports.find? (e.group k)).map fun port => ⟨port, e.frame k (origin e k)⟩

namespace TxPorts

variable {t t' : TxPorts} {maxPorts : UInt32} {key value : List Field} {traces : List Trace}

/-- A port that is written is one of those the switch has. -/
theorem insert_port {n name : String} {p q : UInt32}
    (hq : (valueReading maxPorts).all value = .ok q)
    (hp : (t.insert n q).find? name = some p) : p < maxPorts ∨ t.find? name = some p := by
  rw [Rows.find?_insert] at hp
  split at hp
  · cases hp
    exact .inl (((value_decides maxPorts value).ok_iff p).mp hq).1
  · exact .inr hp

theorem add_port (h : add t maxPorts key value = .ok (t', traces)) {name : String} {p : UInt32}
    (hp : t'.find? name = some p) : p < maxPorts ∨ t.find? name = some p := by
  simp only [add, bind_eq_ok_iff, guard_eq_ok_iff, pure_eq_ok_iff, Prod.mk.injEq] at h
  obtain ⟨n, _, q, hq, _, rfl, _⟩ := h
  exact insert_port hq hp

theorem modify_port (h : modify t maxPorts key value = .ok (t', traces)) {name : String}
    {p : UInt32} (hp : t'.find? name = some p) : p < maxPorts ∨ t.find? name = some p := by
  simp only [modify, bind_eq_ok_iff, guard_eq_ok_iff, pure_eq_ok_iff, Prod.mk.injEq] at h
  obtain ⟨n, _, q, hq, _, rfl, _⟩ := h
  exact insert_port hq hp

theorem delete_port (h : delete t key = .ok (t', traces)) {name : String} {p : UInt32}
    (hp : t'.find? name = some p) : t.find? name = some p := by
  simp only [delete, bind_eq_ok_iff] at h
  obtain ⟨n, _, h⟩ := h
  split at h
  · cases h
  · cases h
    rw [Rows.find?_erase] at hp
    split at hp
    · cases hp
    · exact hp

end TxPorts

namespace Agent

variable {χ ω : Type} {a a' b : Agent χ ω} {now : Nat} {e : EngineId} {k : e.Key}
  {origin : Igmp.Origin}

/-- The addressing that row `k` of a sender has now. -/
def origin? (a : Agent χ ω) : (e : EngineId) → e.Key → Option Igmp.Origin
  | .generalQueryTx, k => a.generalQueryTx.origin? k
  | .reportTx, k => a.reportTx.origin? k
  | _, _ => none

/-- What a sender has counted. -/
def sending (a : Agent χ ω) : EngineId → Transmission.Counters
  | .generalQueryTx => a.generalQueryTx.counters
  | .reportTx => a.reportTx.counters
  | _ => ⟨0, 0, 0⟩

/-- The frame that is due for `k`, if its group has a port. -/
def due? (a : Agent χ ω) (e : EngineId) (k : e.Key) : Option OutboundFrame :=
  (a.origin? e k).bind fun origin =>
    (a.txPorts.find? (e.group k)).map fun port => ⟨port, e.frame k origin⟩

/-- The ports that the groups of keys have. -/
def portsOf (a : Agent χ ω) (e : EngineId) (ks : List e.Key) : List (Option UInt32) :=
  ks.map fun k => a.txPorts.find? (e.group k)

theorem origin?_isSome (he : e ∈ EngineId.senders) (k : e.Key) :
    (a.origin? e k).isSome = ((a.roster e).stored k).isSome := by
  rcases EngineId.mem_senders.mp he with rfl | rfl <;>
    exact Option.isSome_map.trans (Roster.ofTable_isSome ..).symm

section WaysOut

variable [ControllerChannel χ] [PacketOut ω] {ks : (e : EngineId) → List e.Key} {ways : χ × ω}

theorem emit_out (hs : a.Sound) (e : EngineId) (ways : χ × ω) (k : e.Key) :
    (a.emit e ways k).2 = PacketOut.deliver ways.2 (a.due? e k).toList := by
  cases e with
  | generalQueryExpectation | reportExpectation | pimExpectation => rfl
  | generalQueryTx => exact Transmission.Table.emit_due hs.generalQueryTx ..
  | reportTx => exact Transmission.Table.emit_due hs.reportTx ..

theorem foldl_emit_out (hs : a.Sound) (e : EngineId) (ks : List e.Key) (ways : χ × ω) :
    (ks.foldl (a.emit e) ways).2 = PacketOut.deliver ways.2 (ks.filterMap (a.due? e)) := by
  induction ks generalizing ways with
  | nil => rfl
  | cons k ks ih =>
    rw [List.foldl_cons, ih, emit_out hs, ← PacketOut.deliver_append, List.filterMap_cons]
    cases a.due? e k <;> rfl

/-- Of what is handed out, packet-out gets the frames that are due, in order. -/
theorem handOut_out (hs : a.Sound) (ks : (e : EngineId) → List e.Key) (ways : χ × ω) :
    (a.handOut ks ways).2 =
      PacketOut.deliver ways.2 (EngineId.all.flatMap fun e => (ks e).filterMap (a.due? e)) := by
  unfold handOut
  generalize EngineId.all = es
  induction es generalizing ways with
  | nil => rfl
  | cons e es ih =>
    rw [List.foldl_cons, ih, foldl_emit_out hs, List.flatMap_cons, PacketOut.deliver_append]

end WaysOut

/-- With its addressing, what is due is told by key and port alone. -/
theorem flatMap_due {origin : (e : EngineId) → e.Key → Igmp.Origin}
    {ks : (e : EngineId) → List e.Key}
    (h : ∀ e ∈ EngineId.senders, ∀ k ∈ ks e, a.origin? e k = some (origin e k)) :
    (EngineId.all.flatMap fun e => (ks e).filterMap (a.due? e)) =
      outboundFrames a.txPorts origin ks := by
  have hsender : ∀ e ∈ EngineId.senders, (ks e).filterMap (a.due? e) =
      (ks e).filterMap fun k =>
        (a.txPorts.find? (e.group k)).map fun port => ⟨port, e.frame k (origin e k)⟩ := by
    intro e he
    refine List.filterMap_congr fun k hk => ?_
    rw [due?, h e he k hk, Option.bind_some]
  have hsilent : ∀ e, e.isTransmission = false → (ks e).filterMap (a.due? e) = [] := by
    intro e he
    refine List.filterMap_eq_nil_iff.mpr fun k _ => ?_
    cases e <;> first | rfl | cases he
  simp only [EngineId.all, outboundFrames, EngineId.senders, List.flatMap_cons, List.flatMap_nil,
    hsilent .generalQueryExpectation rfl, hsilent .reportExpectation rfl,
    hsilent .pimExpectation rfl, hsender .generalQueryTx (by decide),
    hsender .reportTx (by decide), List.nil_append]

section Requests

variable [PacketOut ω] {r : TableRequest} {op : TableOp}

/-- The event is an accepted request that gives row `k` its addressing. -/
def Readdresses (a : Agent χ ω) (now : Nat) (e : EngineId) (k : e.Key) (ev : Event χ ω) : Prop :=
  a.Edits now .add e k ev ∨ a.Edits now .modify e k ev

/-- The event is an accepted request that gives row `k` the addressing `origin`. -/
def Addresses (a : Agent χ ω) (now : Nat) (e : EngineId) (k : e.Key) (origin : Igmp.Origin) :
    Event χ ω → Prop
  | .request r => a.Readdresses now e k (.request r) ∧
    Transmission.originReading.all r.op.value = .ok origin
  | _ => False

omit [PacketOut ω] in
/-- Other engines are left alone by a request. -/
theorem SameBeside.sender {table : TableId} (h : a.SameBeside a' table)
    (he : e ∈ EngineId.senders) (ht : table ≠ e.table) :
    a'.origin? e = a.origin? e ∧ a'.sending e = a.sending e := by
  rw [EngineId.mem_senders] at he
  rcases he with rfl | rfl
  · have hkept := h.generalQueryTx ht
    exact ⟨funext fun k => congrArg (·.origin? k) hkept, congrArg (·.counters) hkept⟩
  · have hkept := h.reportTx ht
    exact ⟨funext fun k => congrArg (·.origin? k) hkept, congrArg (·.counters) hkept⟩

/-- What an accepted request for a sender does: it sets the addressing of its row, or removes it
with the row. Unless it deletes the row, it counts one lookup; that of an addition finds a port. -/
theorem performs_sends (hs : a.Sound) (he : e ∈ EngineId.senders)
    (hp : a.Performs a' e.table now op) :
    ∃ k, e.key? op.key = some k ∧
      (∀ k', a'.origin? e k' =
        if k' = k then (Transmission.originReading.all op.value).toOption else a.origin? e k') ∧
      (op.kind = .add → (a'.txPorts.find? (e.group k)).isSome = true) ∧
      Transmission.Counters.CountsOn (a'.portsOf e (if op.kind = .delete then [] else [k]))
        (a.sending e) (a'.sending e) := by
  rw [EngineId.mem_senders] at he
  cases op with
  | getStats key => exact hp.elim
  | add key value =>
    obtain ⟨traces, h⟩ := hp
    rcases he with rfl | rfl <;>
      simp only [EngineId.table, add, bind_eq_ok_iff, pure_eq_ok_iff, Prod.mk.injEq] at h <;>
      obtain ⟨c, h, rfl, _⟩ := h
    · obtain ⟨k, hk, hport, hset, hcounts⟩ :=
        Transmission.Table.add_sends (fun _ => Transmission.generalQuery_reading_some) h
      exact ⟨k, congrArg Except.toOption hk, hset, fun _ => hport, hcounts⟩
    · obtain ⟨k, hk, hport, hset, hcounts⟩ :=
        Transmission.Table.add_sends (fun _ => Transmission.report_reading_some) h
      exact ⟨k, congrArg Except.toOption hk, hset, fun _ => hport, hcounts⟩
  | modify key value =>
    obtain ⟨traces, h⟩ := hp
    rcases he with rfl | rfl <;>
      simp only [EngineId.table, modify, bind_eq_ok_iff, pure_eq_ok_iff, Prod.mk.injEq] at h <;>
      obtain ⟨c, h, rfl, _⟩ := h
    · obtain ⟨k, hk, hset, hcounts⟩ := Transmission.Table.modify_sends hs.generalQueryTx h
      exact ⟨k, congrArg Except.toOption hk, hset, (by intro hadd; cases hadd), hcounts⟩
    · obtain ⟨k, hk, hset, hcounts⟩ := Transmission.Table.modify_sends hs.reportTx h
      exact ⟨k, congrArg Except.toOption hk, hset, (by intro hadd; cases hadd), hcounts⟩
  | delete key =>
    obtain ⟨traces, h⟩ := hp
    rcases he with rfl | rfl <;>
      simp only [EngineId.table, delete, bind_eq_ok_iff, pure_eq_ok_iff, Prod.mk.injEq,
        Prod.exists] at h <;>
      obtain ⟨t, _, h, rfl, _⟩ := h <;>
      obtain ⟨k, hk, hset, hcounts⟩ := Transmission.Table.delete_sends h
    · exact ⟨k, congrArg Except.toOption hk, hset, (by intro hadd; cases hadd), hcounts⟩
    · exact ⟨k, congrArg Except.toOption hk, hset, (by intro hadd; cases hadd), hcounts⟩

theorem handed_of_performs {k : e.Key} (he : e ∈ EngineId.senders)
    (hp : a.Performs a' e.table now op) (hk : e.key? op.key = some k)
    (hok : (a.request ⟨e.table, op⟩ now).answer = .ok) :
    a.handed now (.request ⟨e.table, op⟩) e = if op.kind = .delete then [] else [k] := by
  have hsender := EngineId.isTransmission_of_mem_senders he
  cases op with
  | getStats key => exact hp.elim
  | delete key => exact handed_nil (.inr rfl) e
  | add key value =>
    have hadd : a.Edits now .add e k (.request ⟨e.table, .add key value⟩) := ⟨rfl, rfl, hk, hok⟩
    rw [handed_of_edits hadd (.inl rfl), if_pos hsender]
    rfl
  | modify key value =>
    have hmodify : a.Edits now .modify e k (.request ⟨e.table, .modify key value⟩) :=
      ⟨rfl, rfl, hk, hok⟩
    rw [handed_of_edits hmodify (.inr rfl), if_pos hsender]
    rfl

/-- What a request counts, and where the addressings after it come from. -/
theorem request_sends (hs : a.Sound) (r : TableRequest) (now : Nat) (he : e ∈ EngineId.senders) :
    Transmission.Counters.CountsOn
        ((a.request r now).agent.portsOf e (a.handed now (.request r) e))
        (a.sending e) ((a.request r now).agent.sending e) ∧
      ∀ k origin, (a.request r now).agent.origin? e k = some origin →
        a.Addresses now e k origin (.request r) ∨
          ¬ a.Readdresses now e k (.request r) ∧ a.origin? e k = some origin := by
  rcases request_cases a r now with ⟨hn, ha⟩ | ⟨hok, hp⟩
  · rw [handed_nil (.inl hn), ha]
    refine ⟨.refl _, fun k origin ho => .inr ⟨?_, ho⟩⟩
    rintro (⟨_, _, _, hok⟩ | ⟨_, _, _, hok⟩) <;> exact hn hok
  · obtain ⟨table, op⟩ := r
    by_cases ht : table = e.table
    · subst ht
      obtain ⟨k, hk, hset, _, hcounts⟩ := performs_sends hs he hp
      rw [handed_of_performs he hp hk hok]
      refine ⟨hcounts, fun k' origin ho => ?_⟩
      rw [hset] at ho
      by_cases hkk : k' = k
      · subst hkk
        rw [if_pos rfl, toOption_eq_some_iff] at ho
        refine .inl ⟨?_, ho⟩
        cases op with
        | getStats key => exact hp.elim
        | delete key => cases ho
        | add key value => exact .inl ⟨rfl, rfl, hk, hok⟩
        | modify key value => exact .inr ⟨rfl, rfl, hk, hok⟩
      · rw [if_neg hkk] at ho
        refine .inr ⟨?_, ho⟩
        rintro (⟨_, _, hk', _⟩ | ⟨_, _, hk', _⟩) <;>
          exact hkk (Option.some.inj (hk'.symm.trans hk))
    · obtain ⟨horigin, hsending⟩ := (performs_editedBy hs hp).beside.sender he ht
      have hnone : a.handed now (.request ⟨table, op⟩) e = [] := by
        refine List.eq_nil_iff_forall_not_mem.mpr fun k => not_mem_handed ?_ ?_ <;>
          exact fun h => ht h.1
      rw [hnone, hsending, horigin]
      refine ⟨.refl _, fun k origin ho => .inr ⟨?_, ho⟩⟩
      rintro (h | h) <;> exact ht h.1

end Requests

section Steps

variable [ControllerChannel χ] [PacketOut ω] {ev : Event χ ω} {reply : Reply χ ω Answer}
  {xs : History χ ω}

theorem tick_sends {e' : EngineId} {t : Reply χ ω Nat} (hs : a.Sound) (h : a.tick e' now = .ok t)
    (he : e ∈ EngineId.senders) :
    Transmission.Counters.CountsOn (t.agent.portsOf e (a.handed now (.tick e') e))
        (a.sending e) (t.agent.sending e) ∧
      ∀ k, t.agent.origin? e k = a.origin? e k := by
  rw [EngineId.mem_senders] at he
  cases e' <;> simp only [tick, bind_eq_ok_iff, pure_eq_ok_iff] at h <;> obtain ⟨t, ht, rfl⟩ := h
  case generalQueryExpectation | reportExpectation | pimExpectation =>
    rcases he with rfl | rfl <;> exact ⟨.refl _, fun _ => rfl⟩
  case generalQueryTx =>
    rcases he with rfl | rfl
    · exact (Transmission.Table.tick_sends hs.generalQueryTx ht).symm
    · exact ⟨.refl _, fun _ => rfl⟩
  case reportTx =>
    rcases he with rfl | rfl
    · exact ⟨.refl _, fun _ => rfl⟩
    · exact (Transmission.Table.tick_sends hs.reportTx ht).symm

theorem step_sends (hs : a.Sound) (h : a.step now ev = .ok reply) (he : e ∈ EngineId.senders) :
    Transmission.Counters.CountsOn (reply.agent.portsOf e (a.handed now ev e))
        (a.sending e) (reply.agent.sending e) ∧
      ∀ k origin, reply.agent.origin? e k = some origin →
        a.Addresses now e k origin ev ∨
          ¬ a.Readdresses now e k ev ∧ a.origin? e k = some origin := by
  -- Only requests give a row its addressing; after any other event it is what it was.
  have hkept (hsame : ∀ k, reply.agent.origin? e k = a.origin? e k)
      (hr : ∀ r, ev ≠ .request r) (k : e.Key) (origin : Igmp.Origin)
      (ho : reply.agent.origin? e k = some origin) :
      a.Addresses now e k origin ev ∨
        ¬ a.Readdresses now e k ev ∧ a.origin? e k = some origin := by
    refine .inr ⟨?_, (hsame k).symm.trans ho⟩
    rintro (hd | hd) <;> cases ev <;> first | exact hd.elim | exact hr _ rfl
  cases ev with
  | request r =>
    cases h
    exact request_sends hs r now he
  | tick e' =>
    rw [step] at h
    split at h
    · cases h
    · rename_i t ht
      cases h
      obtain ⟨hcounts, hsame⟩ := tick_sends hs ht he
      exact ⟨hcounts, hkept hsame (by intro _ hr; cases hr)⟩
  | packet | channel | out =>
    cases h
    rw [EngineId.mem_senders] at he
    rcases he with rfl | rfl <;>
      exact ⟨.refl _, hkept (fun _ => rfl) (by intro _ hr; cases hr)⟩
  | startup rows =>
    cases h
    have hsame : ∀ k, (a.applyInitialTimeouts rows).1.origin? e k = a.origin? e k := by
      intro k
      rw [applyInitialTimeouts_fst]
      cases e <;> rfl
    refine ⟨?_, hkept hsame (by intro _ hr; cases hr)⟩
    change Transmission.Counters.CountsOn [] _ ((a.applyInitialTimeouts rows).1.sending e)
    rw [applyInitialTimeouts_fst]
    cases e <;> exact .refl _

omit [ControllerChannel χ] in
/-- What is handed out for a sender is scheduled anew. -/
theorem schedules_of_handed (he : e ∈ EngineId.senders) (hk : k ∈ a.handed now ev e) :
    a.Schedules now ev e k := by
  cases ev with
  | request r =>
    obtain ⟨⟨hok, hop⟩, hk⟩ := List.mem_ite_nil_right.mp hk
    obtain ⟨⟨hsender, ht⟩, hk⟩ := List.mem_ite_nil_right.mp hk
    rw [Option.mem_toList] at hk
    refine .inl ?_
    have hrenew : (e.key? r.op.key).elim Change.none .renew = .renew k := by
      rw [hk]
      rfl
    rw [change, requestChange, if_pos ⟨ht, hok⟩]
    cases hr : r.op <;> rw [hr] at hop hrenew
    case add key value => exact hrenew
    case modify key value => exact (if_pos hsender).trans hrenew
    all_goals rcases hop with hop | hop <;> cases hop
  | tick e' =>
    obtain ⟨rfl, hk⟩ := List.mem_ite_nil_right.mp hk
    exact .inr ⟨if_pos rfl, hk⟩
  | packet | startup | channel | out => cases hk

theorem origin?_of_handed (hs : a.Sound) (h : a.step now ev = .ok reply)
    (he : e ∈ EngineId.senders) (hk : k ∈ a.handed now ev e) :
    (reply.agent.origin? e k).isSome = true := by
  have ht := step_takes hs h e
  have hd := Change.deadline?_of_schedules (hs e) ht (schedules_of_handed he hk)
  obtain ⟨t, hfind, _⟩ := Option.map_eq_some_iff.mp hd
  rw [origin?_isSome he, ← (Change.sound (hs e) ht).contains_eq, Expiry.Queue.contains_eq, hfind]
  rfl

/-- The port groups stay as they are while anything is sent. -/
theorem txPorts_of_handed (hs : a.Sound) (h : a.step now ev = .ok reply)
    (he : e ∈ EngineId.senders) (hk : k ∈ a.handed now ev e) :
    reply.agent.txPorts = a.txPorts := by
  cases ev with
  | request r =>
    cases h
    obtain ⟨⟨hok, _⟩, hk⟩ := List.mem_ite_nil_right.mp hk
    obtain ⟨⟨_, ht⟩, _⟩ := List.mem_ite_nil_right.mp hk
    rcases request_cases a r now with ⟨hn, _⟩ | ⟨_, hp⟩
    · exact (hn (TableResponse.isOk_iff.mp hok)).elim
    · refine (performs_editedBy hs hp).beside.txPorts ?_
      rw [ht]
      cases e <;> decide
  | startup rows => cases hk
  | _ => exact (config_step h nofun nofun).2.2

/-- Groups send on ports that the switch has. -/
def PortsBelow (a : Agent χ ω) : Prop :=
  ∀ name p, a.txPorts.find? name = some p → p < a.maxPorts

omit [ControllerChannel χ] in
theorem portsBelow_request (hs : a.Sound) (hb : a.PortsBelow) (r : TableRequest) (now : Nat) :
    (a.request r now).agent.PortsBelow := by
  rcases request_cases a r now with ⟨_, hr⟩ | ⟨_, hp⟩
  · rw [hr]
    exact hb
  · have hbeside := (performs_editedBy hs hp).beside
    intro name p hfind
    rw [hbeside.maxPorts]
    by_cases ht : r.table = .txPortGroup
    · obtain ⟨table, op⟩ := r
      cases ht
      cases op with
      | getStats key => exact hp.elim
      | add key value =>
        obtain ⟨traces, h⟩ := hp
        simp only [add, bind_eq_ok_iff, pure_eq_ok_iff, Prod.mk.injEq, Prod.exists] at h
        obtain ⟨t, _, h, ha, _⟩ := h
        rw [← ha] at hfind
        exact (TxPorts.add_port h hfind).elim id (hb name p)
      | modify key value =>
        obtain ⟨traces, h⟩ := hp
        simp only [modify, bind_eq_ok_iff, pure_eq_ok_iff, Prod.mk.injEq, Prod.exists] at h
        obtain ⟨t, _, h, ha, _⟩ := h
        rw [← ha] at hfind
        exact (TxPorts.modify_port h hfind).elim id (hb name p)
      | delete key =>
        obtain ⟨traces, h⟩ := hp
        simp only [delete, bind_eq_ok_iff, pure_eq_ok_iff, Prod.mk.injEq, Prod.exists] at h
        obtain ⟨t, _, h, ha, _⟩ := h
        rw [← ha] at hfind
        exact hb name p (TxPorts.delete_port h hfind)
    · rw [hbeside.txPorts ht] at hfind
      exact hb name p hfind

theorem portsBelow_step (hs : a.Sound) (h : a.step now ev = .ok reply) (hb : a.PortsBelow) :
    reply.agent.PortsBelow := by
  have hmax := maxPorts_step hs h
  cases ev with
  | request r =>
    cases h
    exact portsBelow_request hs hb r now
  | startup rows =>
    cases h
    change (a.applyInitialTimeouts rows).1.PortsBelow
    rw [applyInitialTimeouts_fst]
    exact hb
  | _ =>
    have hports := (config_step h nofun nofun).2.2
    intro name p hfind
    rw [hports] at hfind
    rw [hmax]
    exact hb name p hfind

theorem portsBelow_run (hs : a.Sound) (h : a.run xs = .ok b) (hb : a.PortsBelow) :
    b.PortsBelow :=
  run_keeps portsBelow_step hs h hb

/-- The addressing of a row is that of the last request that gave it one. -/
theorem origin?_run (hs : a.Sound) (h : a.run xs = .ok b) (he : e ∈ EngineId.senders)
    (ho : b.origin? e k = some origin) :
    a.Since (fun c u ev => c.Addresses u e k origin ev) (fun c u ev => c.Readdresses u e k ev) xs ∨
      a.Throughout (fun c u ev => ¬ c.Readdresses u e k ev) xs ∧ a.origin? e k = some origin :=
  since_or_throughout_of_step (F := fun c => c.origin? e k = some origin)
    (fun hs hr hf => (step_sends hs hr he).2 k origin hf) hs h ho

/-- What one event makes packet-out do and the senders count, given the addressing of each row:
every key that is due gets one attempt on the port that its group has, or counts as unresolved. -/
structure Sends (a a' : Agent χ ω) (now : Nat) (ev : Event χ ω)
    (origin : (e : EngineId) → e.Key → Igmp.Origin) : Prop where
  out : a'.out = PacketOut.deliver a.out (outboundFrames a'.txPorts origin (a.handed now ev))
  ports : ∀ f ∈ outboundFrames a'.txPorts origin (a.handed now ev), f.port < a.maxPorts
  rows : ∀ e ∈ EngineId.senders, a.handed now ev e ≠ [] → a'.txPorts = a.txPorts
  counters : ∀ e ∈ EngineId.senders, Transmission.Counters.CountsOn
    (a'.portsOf e (a.handed now ev e)) (a.sending e) (a'.sending e)
  added : ∀ e ∈ EngineId.senders, ∀ k, a.Edits now .add e k ev →
    (a'.txPorts.find? (e.group k)).isSome = true ∧
      (a'.sending e).unresolved = (a.sending e).unresolved

omit [ControllerChannel χ] [PacketOut ω] in
theorem port_lt_of_mem_outboundFrames {origin : (e : EngineId) → e.Key → Igmp.Origin}
    {ks : (e : EngineId) → List e.Key} {f : OutboundFrame} (hb : a.PortsBelow)
    (hf : f ∈ outboundFrames a.txPorts origin ks) : f.port < a.maxPorts := by
  obtain ⟨e, _, hf⟩ := List.mem_flatMap.mp hf
  obtain ⟨k, _, hf⟩ := List.mem_filterMap.mp hf
  obtain ⟨port, hport, rfl⟩ := Option.map_eq_some_iff.mp hf
  exact hb _ port hport

/-- An addition finds the port of its group, so it counts no unresolved one. -/
theorem added_resolves (hs : a.Sound) (h : a.step now ev = .ok reply) (he : e ∈ EngineId.senders)
    (hadd : a.Edits now .add e k ev) :
    (reply.agent.txPorts.find? (e.group k)).isSome = true ∧
      (reply.agent.sending e).unresolved = (a.sending e).unresolved := by
  cases ev with
  | request r =>
    cases h
    obtain ⟨table, op⟩ := r
    have hp := performs_of_edits hadd
    obtain ⟨rfl, hop, hkey, hok⟩ := id hadd
    obtain ⟨k', hk', _, hport, hcounts⟩ := performs_sends hs he hp
    cases hk'.symm.trans hkey
    have hfound := hport hop
    refine ⟨hfound, ?_⟩
    have hunresolved := hcounts.unresolved
    change op.kind = .add at hop
    obtain ⟨port, hfind⟩ := Option.isSome_iff_exists.mp hfound
    rw [hop, if_neg (by decide), portsOf, List.map_singleton, hfind] at hunresolved
    exact hunresolved
  | _ => exact hadd.elim

/-- After any history, every event makes packet-out do exactly what its rows call for. A row that
was added or modified, and one that a tick serves, has its frame sent once, on the port that its
group has now, a port of the switch; without one it counts one unresolved group, which an addition
never does. The frame is addressed as the last request said that added or modified the row. -/
theorem egress_of_history (maxPorts : UInt32) (channel : χ) (out : ω) (history : History χ ω) :
    ∃ a, (new maxPorts channel out).run history = .ok a ∧ a.maxPorts = maxPorts ∧
      ∀ now ev reply, a.step now ev = .ok reply → (∀ f, ev ≠ .channel f) → (∀ f, ev ≠ .out f) →
        ∃ origin : (e : EngineId) → e.Key → Igmp.Origin,
          (∀ e ∈ EngineId.senders, ∀ k ∈ a.handed now ev e,
            (new maxPorts channel out).Since (fun c u ev => c.Addresses u e k (origin e k) ev)
              (fun c u ev => c.Readdresses u e k ev) (history ++ [(now, ev)])) ∧
          a.Sends reply.agent now ev origin := by
  have hnew := sound_new maxPorts channel out
  obtain ⟨a, ha, hs⟩ := run_ok hnew history
  refine ⟨a, ha, maxPorts_run hnew ha, fun now ev reply hr hchannel hout => ?_⟩
  have hs' := sound_step hs hr
  have hb : reply.agent.PortsBelow :=
    portsBelow_step hs hr (portsBelow_run hnew ha nofun)
  have hmax := maxPorts_step hs hr
  let origin (e : EngineId) (k : e.Key) : Igmp.Origin :=
    (reply.agent.origin? e k).getD ⟨⟨0, 0, 0, 0, 0, 0⟩, 0, .unspecified⟩
  have horigin : ∀ e ∈ EngineId.senders, ∀ k ∈ a.handed now ev e,
      reply.agent.origin? e k = some (origin e k) := by
    intro e he k hk
    obtain ⟨o, ho⟩ := Option.isSome_iff_exists.mp (origin?_of_handed hs hr he hk)
    simp only [origin, ho, Option.getD_some]
  refine ⟨origin, fun e he k hk => ?_, ?_, ?_, ?_, ?_, ?_⟩
  · have hrun : (new maxPorts channel out).run (history ++ [(now, ev)]) = .ok reply.agent := by
      rw [run_append ha, run_cons hr]
      rfl
    rcases origin?_run hnew hrun he (horigin e he k hk) with hsince | ⟨_, hnone⟩
    · exact hsince
    · cases e <;> cases hnone
  · have hways := congrArg Prod.snd (step_ways hs hr hchannel hout)
    have hswap : (reply.agent.withWays a.channel a.out).Sound := fun e => by
      have he := hs' e
      cases e <;> exact he
    have hrows : ∀ e ∈ EngineId.senders, ∀ k ∈ a.handed now ev e,
        (reply.agent.withWays a.channel a.out).origin? e k = some (origin e k) := by
      intro e he k hk
      have ho := horigin e he k hk
      cases e <;> exact ho
    rw [handOut_out hswap, flatMap_due hrows] at hways
    exact hways
  · intro f hf
    rw [← hmax]
    exact port_lt_of_mem_outboundFrames hb hf
  · intro e he hne
    obtain ⟨k, hk⟩ := List.exists_mem_of_ne_nil _ hne
    exact txPorts_of_handed hs hr he hk
  · intro e he
    exact (step_sends hs hr he).1
  · intro e he k hadd
    exact added_resolves hs hr he hadd

end Steps

/-- A group is taken away, missed once, and comes back on another port. -/
def moved : History ControllerLink FrameSender :=
  [(0, .request ⟨.txPortGroup, .add [.name "lan"] [.portNo 3]⟩),
    (0, .request ⟨.generalQueryTx, .add [.reference "tx_port_group" [.name "lan"], .vlanVid 1]
      [.vlanVid 1, .ipv4Src ⟨192, 0, 2, 1⟩, .ethSrc ⟨2, 0, 0, 0, 0, 1⟩]⟩),
    (1000, .request ⟨.txPortGroup, .delete [.name "lan"]⟩),
    (125000, .tick .generalQueryTx),
    (126000, .request ⟨.txPortGroup, .add [.name "lan"] [.portNo 5]⟩)]

/-- The next query goes to the new port, and nothing else is sent. -/
theorem egress_of_history_moved :
    ∃ a reply o, (new 8 .initial .initial).run moved = .ok a ∧
      a.step 250000 (.tick .generalQueryTx) = .ok reply ∧
      reply.agent.out = PacketOut.deliver a.out [⟨5, Igmp.generalQueryFrame o⟩] := by
  obtain ⟨a, ha, -, h⟩ := egress_of_history 8 .initial .initial moved
  have hs := sound_run (sound_new 8 ControllerLink.initial FrameSender.initial) ha
  obtain ⟨reply, hr⟩ := step_ok hs 250000 (.tick .generalQueryTx)
  obtain ⟨origin, -, hsends⟩ := h 250000 _ reply hr nofun nofun
  refine ⟨a, reply, origin .generalQueryTx ⟨"lan", 1⟩, ha, hr, hsends.out.trans ?_⟩
  cases ha
  cases hr
  rfl

end Agent
end Snooping
