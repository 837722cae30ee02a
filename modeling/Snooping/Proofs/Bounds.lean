import Snooping.Proofs.Egress
import Snooping.Proofs.Intervals
import Snooping.Proofs.Recognition

/-!
Bounds of what an agent stores, and of what it lets out: names, ports, VLANs, groups, sources and
intervals. Whatever is stored was read from a request, or comes from a configuration that was
accepted.
-/
namespace Snooping

/-- A VLAN of twelve bits. -/
def IsVid (v : UInt16) : Prop := v.toNat ≤ 4095

theorem isVid_masked (v : UInt16) : IsVid (v &&& vidMask) := by
  rw [IsVid, vidMask_eq_mod, UInt16.toNat_mod]
  exact Nat.le_of_lt_succ (Nat.mod_lt _ (by decide))

structure VlanKey.Fits (k : VlanKey) : Prop where
  name : IsGroupName k.name
  vlan : IsVid k.vlan

structure GroupKey.Fits (k : GroupKey) : Prop where
  name : IsGroupName k.name
  vlan : IsVid k.vlan
  group : k.group.IsGroup

/-- Addressing from a source that is no group. -/
structure Igmp.Origin.Fits (o : Igmp.Origin) : Prop where
  vlan : IsVid o.vlan
  src : ¬ o.src.IsGroup

/-- Only reports are told by a group. -/
structure IdleNotification.Fits (n : IdleNotification) : Prop where
  name : IsGroupName n.name
  vlan : IsVid n.vlan
  group_iff : n.group.isSome ↔ n.table = .reportExpectation
  group : ∀ g ∈ n.group, g.IsGroup

/-- A frame for a port of the switch, from a source that is no group. -/
structure OutboundFrame.Fits (maxPorts : UInt32) (f : OutboundFrame) : Prop where
  port : f.port < maxPorts
  src : ∃ h, Frame.parse f.frame = .ok h ∧ ¬ h.ipv4.src.IsGroup

/-- What the key of a row keeps to. -/
def TableId.Fits (maxPorts : UInt32) : (t : TableId) → t.Key → Prop
  | .timeout, _ => True
  | .rxPortGroup, (p : UInt32) => p < maxPorts
  | .txPortGroup, (s : String) => IsGroupName s
  | .generalQueryExpectation, (k : VlanKey) => k.Fits
  | .reportExpectation, (k : GroupKey) => k.Fits
  | .pimExpectation, (k : VlanKey) => k.Fits
  | .generalQueryTx, (k : VlanKey) => k.Fits
  | .reportTx, (k : GroupKey) => k.Fits

section Requests

variable {fields value : List Field} {maxPorts : UInt32}

theorem VlanKey.SpelledBy.fits {k : VlanKey} {first : Field} (h : k.SpelledBy first fields) :
    k.Fits := by
  obtain ⟨hn, v, hv, _⟩ := h
  exact ⟨hn, hv ▸ isVid_masked v⟩

theorem GroupKey.SpelledBy.fits {k : GroupKey} {first : Field} (h : k.SpelledBy first fields) :
    k.Fits := by
  obtain ⟨hn, hg, v, hv, _⟩ := h
  exact ⟨hn, hv ▸ isVid_masked v, hg⟩

theorem Igmp.Origin.SpelledBy.fits {o : Igmp.Origin} (h : o.SpelledBy fields) : o.Fits := by
  obtain ⟨hs, v, hv, _⟩ := h
  exact ⟨hv ▸ isVid_masked v, hs⟩

theorem Spells.fits {t : TableId} {k : t.Key} (h : Spells maxPorts fields t k) :
    t.Fits maxPorts k := by
  cases t with
  | timeout => exact trivial
  | rxPortGroup | txPortGroup => exact h.1
  | generalQueryExpectation | pimExpectation | generalQueryTx => exact VlanKey.SpelledBy.fits h
  | reportExpectation | reportTx => exact GroupKey.SpelledBy.fits h

end Requests

namespace RxPorts

variable {t t' : RxPorts} {maxPorts : UInt32} {key value : List Field} {traces : List Trace}

/-- A name that is written has been checked. -/
theorem insert_name {p q : UInt32} {n s : String} (hn : valueReading.all value = .ok n)
    (hs : (t.insert p n).find? q = some s) : IsGroupName s ∨ t.find? q = some s := by
  rw [Rows.find?_insert] at hs
  split at hs
  · cases hs
    exact .inl (((value_decides value).ok_iff n).mp hn).1
  · exact .inr hs

theorem add_name (h : add t maxPorts key value = .ok (t', traces)) {q : UInt32} {s : String}
    (hs : t'.find? q = some s) : IsGroupName s ∨ t.find? q = some s := by
  simp only [add, bind_eq_ok_iff, guard_eq_ok_iff, pure_eq_ok_iff, Prod.mk.injEq] at h
  obtain ⟨p, _, n, hn, _, rfl, _⟩ := h
  exact insert_name hn hs

theorem modify_name (h : modify t maxPorts key value = .ok (t', traces)) {q : UInt32} {s : String}
    (hs : t'.find? q = some s) : IsGroupName s ∨ t.find? q = some s := by
  simp only [modify, bind_eq_ok_iff, guard_eq_ok_iff, pure_eq_ok_iff, Prod.mk.injEq] at h
  obtain ⟨p, _, n, hn, _, rfl, _⟩ := h
  exact insert_name hn hs

theorem delete_name (h : delete t maxPorts key = .ok (t', traces)) {q : UInt32} {s : String}
    (hs : t'.find? q = some s) : t.find? q = some s := by
  simp only [delete, bind_eq_ok_iff] at h
  obtain ⟨p, _, h⟩ := h
  split at h
  · cases h
  · cases h
    rw [Rows.find?_erase] at hs
    split at hs
    · cases hs
    · exact hs

end RxPorts

namespace TimeoutTable

variable {t : TimeoutTable} {ops : List Operation}

/-- No interval is zero. -/
def Positive (t : TimeoutTable) : Prop := ∀ n, 1 ≤ t.get n

theorem positive_empty : empty.Positive := by
  intro n
  cases n <;> decide

/-- Operations keep intervals positive, if startup rows do. -/
theorem Positive.run (h : t.Positive) (hops : ∀ n d, .startup n d ∈ ops → 1 ≤ d.kept.toNat) :
    (t.run ops).Positive := by
  induction ops generalizing t with
  | nil => exact h
  | cons op ops ih =>
    refine ih ?_ fun n d hm => hops n d (List.mem_cons_of_mem _ hm)
    rcases t.after_cases op with ⟨_, ht⟩ | ⟨n, v, hset, _, ht⟩
    · rwa [ht]
    · intro m
      rw [ht, get_put]
      by_cases he : m = n
      · rw [if_pos he, he]
        cases hset with
        | @add ms hms | @modify ms hms => simpa [kept] using UInt32.le_iff_toNat_le.mp hms
        | delete => cases n <;> decide
        | startup d => exact hops n d List.mem_cons_self
      · rw [if_neg he]
        exact h m

end TimeoutTable

namespace Config

theorem checkTimeouts_positive {rows : List (TimeoutName × UInt32)}
    (h : checkTimeouts rows = .ok ()) {row : TimeoutName × UInt32} (hr : row ∈ rows) :
    1 ≤ row.2.toNat := by
  induction rows with
  | nil => cases hr
  | cons first rows ih =>
    rw [checkTimeouts] at h
    split at h
    · rename_i hc
      rcases List.mem_cons.mp hr with rfl | hr
      · refine Nat.pos_of_ne_zero fun hz => ?_
        rw [checkInterval, if_pos (UInt32.toNat_inj.mp hz)] at hc
        cases hc
      · exact ih h hr
    · cases h

/-- Startup rows of an accepted configuration are positive. -/
theorem initialTimeouts_positive {config : Config} (h : config.validate = .ok ())
    {row : TimeoutName × Duration}
    (hr : row ∈ (config.initialTimeouts : List (TimeoutName × Duration))) :
    1 ≤ row.2.kept.toNat := by
  rw [validate] at h
  split_ifs at h
  obtain ⟨configured, hc, rfl⟩ := List.mem_map.mp hr
  obtain ⟨n, _, hn⟩ := List.mem_filterMap.mp hc
  obtain ⟨ms, hms, rfl⟩ := Option.map_eq_some_iff.mp hn
  simpa using checkTimeouts_positive h (Rows.mem_of_find? hms)

end Config

/-- The way to the controller once it has been handed messages, in order. -/
def ControllerChannel.deliver {χ : Type} [ControllerChannel χ] (c : χ)
    (messages : List ControllerMessage) : χ :=
  messages.foldl (fun c m => (send c m).1) c

namespace EngineId

/-- What the controller is told when a key has been idle. -/
def notification? : (e : EngineId) → e.Key → Option IdleNotification
  | generalQueryExpectation, k => some (Expectation.generalQuery.notification k)
  | reportExpectation, k => some (Expectation.report.notification k)
  | pimExpectation, k => some (Expectation.pim.notification k)
  | generalQueryTx, _ | reportTx, _ => none

/-- What the key of an engine keeps to. -/
def Fits : (e : EngineId) → e.Key → Prop
  | generalQueryExpectation, k | pimExpectation, k | generalQueryTx, k => VlanKey.Fits k
  | reportExpectation, k | reportTx, k => GroupKey.Fits k

theorem Fits.notification {e : EngineId} {k : e.Key} {n : IdleNotification} (h : e.Fits k)
    (hn : e.notification? k = some n) : n.Fits := by
  cases e with
  | generalQueryExpectation | pimExpectation =>
    cases hn
    exact ⟨h.name, h.vlan, by simp [Expectation.generalQuery, Expectation.pim], nofun⟩
  | reportExpectation =>
    cases hn
    exact ⟨h.name, h.vlan, by simp [Expectation.report], fun g hg => by cases hg; exact h.group⟩
  | generalQueryTx | reportTx => cases hn

end EngineId

namespace Agent

variable {χ ω : Type} {a b : Agent χ ω} {now : Nat} {e : EngineId} {k : e.Key}

/-- The event is no startup, or one with the rows of a configuration that was accepted. -/
def Event.Configured : Event χ ω → Prop
  | .startup rows => ∃ config : Config, config.validate = .ok () ∧ rows = config.initialTimeouts
  | _ => True

/-- Ports receive for names that were checked. -/
def NamesFit (a : Agent χ ω) : Prop := ∀ p s, a.rxPorts.find? p = some s → IsGroupName s

/-- All that is stored keeps within bounds. Entries and registrations name the key of a row. -/
structure Bounded (a : Agent χ ω) : Prop where
  keys : ∀ t k, a.present t k = true → t.Fits a.maxPorts k
  entries : ∀ e k k', (a.roster e).stored k = some k' → k' = k ∧ e.Fits k
  agenda : ∀ e, ∀ item ∈ (a.queue e).agenda, e.Fits item.2
  tickets : ∀ e k, (a.queue e).contains k = true → e.Fits k
  names : a.NamesFit
  ports : a.PortsBelow
  origins : ∀ e ∈ EngineId.senders, ∀ k o, a.origin? e k = some o → o.Fits
  intervals : a.timeouts.Positive

section Messages

variable [ControllerChannel χ]

/-- The message that is due for `k`, if the controller takes any. -/
def notice? (a : Agent χ ω) (e : EngineId) (k : e.Key) : Option ControllerMessage :=
  if asyncCapable a.channel then (e.notification? k).map .idleNotification else none

variable [PacketOut ω] {ks : (e : EngineId) → List e.Key} {ways : χ × ω}

theorem emit_channel (a : Agent χ ω) (e : EngineId) (ways : χ × ω) (k : e.Key) :
    (a.emit e ways k).1 = ControllerChannel.deliver ways.1 (a.notice? e k).toList := by
  unfold notice?
  by_cases hc : asyncCapable a.channel = true
  · rw [if_pos hc]
    cases e with
    | generalQueryExpectation | reportExpectation | pimExpectation => exact if_pos hc
    | generalQueryTx | reportTx => rfl
  · rw [if_neg hc]
    cases e with
    | generalQueryExpectation | reportExpectation | pimExpectation => exact if_neg hc
    | generalQueryTx | reportTx => rfl

theorem foldl_emit_channel (a : Agent χ ω) (e : EngineId) (ks : List e.Key) (ways : χ × ω) :
    (ks.foldl (a.emit e) ways).1 =
      ControllerChannel.deliver ways.1 (ks.filterMap (a.notice? e)) := by
  induction ks generalizing ways with
  | nil => rfl
  | cons k ks ih =>
    rw [List.foldl_cons, ih, emit_channel, List.filterMap_cons]
    cases a.notice? e k <;> rfl

/-- Of what is handed out, the controller gets the messages that are due, in order. -/
theorem handOut_channel (a : Agent χ ω) (ks : (e : EngineId) → List e.Key) (ways : χ × ω) :
    (a.handOut ks ways).1 = ControllerChannel.deliver ways.1
      (EngineId.all.flatMap fun e => (ks e).filterMap (a.notice? e)) := by
  unfold handOut
  generalize EngineId.all = es
  induction es generalizing ways with
  | nil => rfl
  | cons e es ih =>
    rw [List.foldl_cons, ih, foldl_emit_channel, List.flatMap_cons, ControllerChannel.deliver,
      ControllerChannel.deliver, ControllerChannel.deliver, List.foldl_append]

end Messages

section Requests

variable [PacketOut ω]

theorem namesFit_request (hs : a.Sound) (hf : a.NamesFit) (r : TableRequest) (now : Nat) :
    (a.request r now).agent.NamesFit := by
  rcases request_cases a r now with ⟨_, hr⟩ | ⟨_, hp⟩
  · rwa [hr]
  · intro p s hs'
    by_cases ht : r.table = .rxPortGroup
    · obtain ⟨table, op⟩ := r
      cases ht
      cases op with
      | getStats key => exact hp.elim
      | add key value =>
        obtain ⟨traces, h⟩ := hp
        simp only [add, bind_eq_ok_iff, pure_eq_ok_iff, Prod.mk.injEq, Prod.exists] at h
        obtain ⟨t, _, h, ha, _⟩ := h
        rw [← ha] at hs'
        exact (RxPorts.add_name h hs').elim id (hf p s)
      | modify key value =>
        obtain ⟨traces, h⟩ := hp
        simp only [modify, bind_eq_ok_iff, pure_eq_ok_iff, Prod.mk.injEq, Prod.exists] at h
        obtain ⟨t, _, h, ha, _⟩ := h
        rw [← ha] at hs'
        exact (RxPorts.modify_name h hs').elim id (hf p s)
      | delete key =>
        obtain ⟨traces, h⟩ := hp
        simp only [delete, bind_eq_ok_iff, pure_eq_ok_iff, Prod.mk.injEq, Prod.exists] at h
        obtain ⟨t, _, h, ha, _⟩ := h
        rw [← ha] at hs'
        exact hf p s (RxPorts.delete_name h hs')
    · rw [(performs_editedBy hs hp).beside.rxPorts ht] at hs'
      exact hf p s hs'

end Requests

variable [ControllerChannel χ] [PacketOut ω] {ev : Event χ ω} {xs : History χ ω}
  {reply : Reply χ ω Answer}

theorem namesFit_step (hs : a.Sound) (h : a.step now ev = .ok reply) (hf : a.NamesFit) :
    reply.agent.NamesFit := by
  cases ev with
  | request r =>
    cases h
    exact namesFit_request hs hf r now
  | startup rows =>
    cases h
    change (a.applyInitialTimeouts rows).1.NamesFit
    rw [applyInitialTimeouts_fst]
    exact hf
  | packet | tick | channel | out =>
    have hports := (config_step h (by simp) (by simp)).2.1
    intro p s hs'
    rw [hports] at hs'
    exact hf p s hs'

theorem namesFit_run (hs : a.Sound) (h : a.run xs = .ok b) (hf : a.NamesFit) : b.NamesFit :=
  run_keeps namesFit_step hs h hf

omit [ControllerChannel χ] [PacketOut ω] in
/-- The startup rows of a history are positive, if they come from configurations. -/
theorem startup_positive (hc : ∀ x ∈ xs, x.2.Configured) (n : TimeoutName) (d : Duration)
    (hm : .startup n d ∈ xs.operations) : 1 ≤ d.kept.toNat := by
  obtain ⟨⟨u, ev⟩, hx, hev⟩ := List.mem_flatMap.mp hm
  cases ev with
  | startup rows =>
    obtain ⟨config, hvalid, rfl⟩ := hc _ hx
    obtain ⟨row, hrow, he⟩ := List.mem_map.mp hev
    cases he
    exact Config.initialTimeouts_positive hvalid hrow
  | request r =>
    rw [Event.operations] at hev
    split at hev <;> simp at hev
  | packet | tick | channel | out => cases hev

section New

variable {maxPorts : UInt32} {channel : χ} {out : ω}
  (h : (new maxPorts channel out).run xs = .ok a)
include h

/-- A row that is there was spelled by the request that added it. -/
theorem fits_of_present {t : TableId} {k : t.Key} (hk : a.present t k = true) :
    t.Fits maxPorts k := by
  have hnew := sound_new maxPorts channel out
  rcases (present_run hnew h t k).mp hk with hsince | ⟨hnone, _⟩
  · obtain ⟨pre, u, ev, post, b, _, _, hb, hadd, _⟩ := hsince
    cases ev with
    | request r =>
      obtain ⟨_, _, hspells, _⟩ := hadd
      rw [maxPorts_run hnew hb] at hspells
      exact hspells.fits
    | startup rows => cases t <;> first | exact trivial | exact hadd.elim
    | packet | tick | channel | out => exact hadd.elim
  · rw [not_present_new] at hnone
    cases hnone

theorem fits_of_stored {e : EngineId} {k : e.Key} (hk : ((a.roster e).stored k).isSome = true) :
    e.Fits k := by
  cases e with
  | generalQueryExpectation =>
    exact fits_of_present h (t := .generalQueryExpectation)
      ((Roster.ofTable_isSome ..).symm.trans hk)
  | reportExpectation =>
    exact fits_of_present h (t := .reportExpectation) ((Roster.ofTable_isSome ..).symm.trans hk)
  | pimExpectation =>
    exact fits_of_present h (t := .pimExpectation) ((Roster.ofTable_isSome ..).symm.trans hk)
  | generalQueryTx =>
    exact fits_of_present h (t := .generalQueryTx) ((Roster.ofTable_isSome ..).symm.trans hk)
  | reportTx =>
    exact fits_of_present h (t := .reportTx) ((Roster.ofTable_isSome ..).symm.trans hk)

/-- The addressing of a row was spelled by the last request that gave it. -/
theorem fits_of_origin (he : e ∈ EngineId.senders) {o : Igmp.Origin}
    (ho : a.origin? e k = some o) : o.Fits := by
  rcases origin?_run (sound_new maxPorts channel out) h he ho with hsince | ⟨_, hnone⟩
  · obtain ⟨pre, u, ev, post, b, _, _, _, hadd, _⟩ := hsince
    cases ev with
    | request r => exact ((origin_takes.all _).ok_iff o |>.mp hadd.2).fits
    | _ => exact hadd.elim
  · cases e <;> cases hnone

theorem bounded_run (hc : ∀ x ∈ xs, x.2.Configured) : a.Bounded := by
  have hnew := sound_new maxPorts channel out
  have hs := sound_run hnew h
  have hmax : a.maxPorts = maxPorts := maxPorts_run hnew h
  refine ⟨?_, ?_, ?_, ?_, ?_, ?_, ?_, ?_⟩
  · intro t k hk
    rw [hmax]
    exact fits_of_present h hk
  · intro e k k' hk
    exact ⟨(hs e).key_eq hk, fits_of_stored h (by rw [hk]; rfl)⟩
  · intro e item hi
    have hk := ((hs e).queue.mem_keys).mp (List.mem_map_of_mem hi)
    exact fits_of_stored h (((hs e).contains_eq _).symm.trans hk)
  · intro e k hk
    exact fits_of_stored h (((hs e).contains_eq k).symm.trans hk)
  · exact namesFit_run hnew h nofun
  · exact portsBelow_run hnew h nofun
  · intro e he k o
    exact fits_of_origin h he
  · have ht : a.timeouts = TimeoutTable.empty.run xs.operations := timeouts_run hnew h
    rw [ht]
    exact TimeoutTable.positive_empty.run (startup_positive hc)

theorem fits_of_handed (he : e.isTransmission = false) (hk : k ∈ a.handed now ev e) :
    e.Fits k := by
  have hs := sound_run (sound_new maxPorts channel out) h
  cases ev with
  | request r =>
    obtain ⟨_, hk⟩ := List.mem_ite_nil_right.mp hk
    obtain ⟨⟨hsender, _⟩, _⟩ := List.mem_ite_nil_right.mp hk
    rw [he] at hsender
    cases hsender
  | tick e' =>
    obtain ⟨rfl, hk⟩ := List.mem_ite_nil_right.mp hk
    exact fits_of_stored h (by rw [(hs e').stored_served hk]; rfl)
  | packet | startup | channel | out => cases hk

theorem notices_fit {a' : Agent χ ω} {m : ControllerMessage}
    (hm : m ∈ EngineId.all.flatMap fun e => (a.handed now ev e).filterMap (a'.notice? e)) :
    ∃ n, m = .idleNotification n ∧ n.Fits := by
  obtain ⟨e, _, hm⟩ := List.mem_flatMap.mp hm
  obtain ⟨k, hk, hm⟩ := List.mem_filterMap.mp hm
  unfold notice? at hm
  split at hm
  · obtain ⟨n, hn, rfl⟩ := Option.map_eq_some_iff.mp hm
    have he : e.isTransmission = false := by cases e <;> first | rfl | cases hn
    exact ⟨n, rfl, (fits_of_handed h he hk).notification hn⟩
  · cases hm

omit h in
/-- A frame that is due carries the addressing of its row. -/
theorem frame_fits {o : Igmp.Origin} (he : e ∈ EngineId.senders) (ho : o.Fits) {port : UInt32}
    (hp : port < maxPorts) : OutboundFrame.Fits maxPorts ⟨port, e.frame k o⟩ := by
  refine ⟨hp, ?_⟩
  rcases EngineId.mem_senders.mp he with rfl | rfl
  · obtain ⟨f, hf, _, _, _, hsrc, _⟩ := Igmp.messageFrame_read Igmp.queryType
      Igmp.defaultResponseTime o Igmp.allHosts .unspecified
    exact ⟨f, hf, hsrc ▸ ho.src⟩
  · obtain ⟨f, hf, _, _, _, hsrc, _⟩ := Igmp.messageFrame_read Igmp.reportV2Type 0 o
      (GroupKey.group k) (GroupKey.group k)
    exact ⟨f, hf, hsrc ▸ ho.src⟩

theorem due_fits {f : OutboundFrame} (hd : a.due? e k = some f) : f.Fits maxPorts := by
  have hnew := sound_new maxPorts channel out
  obtain ⟨o, ho, hd⟩ := Option.bind_eq_some_iff.mp hd
  obtain ⟨port, hport, rfl⟩ := Option.map_eq_some_iff.mp hd
  have he : e ∈ EngineId.senders := by cases e <;> first | decide | cases ho
  have hbelow : port < a.maxPorts := portsBelow_run hnew h nofun _ port hport
  rw [maxPorts_run hnew h] at hbelow
  exact frame_fits he (fits_of_origin h he ho) hbelow

/-- A report of an address that is no group is missed, whoever waits for whatever. -/
theorem report_missed {frame : Bytes} {v : UInt16} {type : UInt8} {group : Ipv4}
    (hi : Classifier.IsIgmp frame v type group) (ht : type = 0x12 ∨ type = 0x16)
    (hg : ¬ group.IsGroup) (inPort : UInt32) (now : Nat) :
    (a.classify frame inPort now).answer = .reportMiss ∧
      (a.classify frame inPort now).agent =
        { a with classified := a.classified.record .reportMiss } := by
  have hs := sound_run (sound_new maxPorts channel out) h
  have hne : type ≠ 0x11 := by rcases ht with rfl | rfl <;> decide
  have hmiss : (a.classify frame inPort now).answer = .reportMiss := by
    have hout := hi.outcome (a.arrival inPort now) a.targets
    rw [if_neg hne, if_pos ht, Classifier.onReport_outcome] at hout
    refine hout.trans (if_neg fun hwait => hg ?_)
    obtain ⟨n, _, hk⟩ := (Option.any_eq_true ..).mp hwait
    exact (fits_of_present h (t := .reportExpectation) hk).group
  have hcls := classify_classified hs frame inPort now
  have hcount : (a.classify frame inPort now).agent.classified = a.classified.record .reportMiss :=
    congrArg a.classified.record hmiss
  rw [hmiss] at hcls
  exact ⟨hmiss, hcls.trans (by rw [hcount])⟩

end New

/-- After any history in which startup rows are those of configurations that were accepted, all that
is stored keeps within bounds. So does all that a further event lets out: every notification has a
name and a VLAN that were checked, and a group exactly if it is about a report; every frame leaves
on a port of the switch, from a source that is no group. A report of an address that is no group is
missed. -/
theorem bounded_of_history (maxPorts : UInt32) (channel : χ) (out : ω) (history : History χ ω)
    (hc : ∀ x ∈ history, x.2.Configured) :
    ∃ a, (new maxPorts channel out).run history = .ok a ∧ a.maxPorts = maxPorts ∧ a.Bounded ∧
      (∀ now ev reply, a.step now ev = .ok reply → (∀ f, ev ≠ .channel f) →
        (∀ f, ev ≠ .out f) →
        (∃ messages, reply.agent.channel = ControllerChannel.deliver a.channel messages ∧
          ∀ m ∈ messages, ∃ n, m = .idleNotification n ∧ n.Fits) ∧
        ∃ frames, reply.agent.out = PacketOut.deliver a.out frames ∧
          ∀ f ∈ frames, f.Fits maxPorts) ∧
      ∀ frame v type group, Classifier.IsIgmp frame v type group → type = 0x12 ∨ type = 0x16 →
        ¬ group.IsGroup → ∀ inPort now,
          (a.classify frame inPort now).answer = .reportMiss ∧
            (a.classify frame inPort now).agent =
              { a with classified := a.classified.record .reportMiss } := by
  have hnew := sound_new maxPorts channel out
  obtain ⟨a, ha, hs⟩ := run_ok hnew history
  refine ⟨a, ha, maxPorts_run hnew ha, bounded_run ha hc, ?_, ?_⟩
  · intro now ev reply hr hchannel hout
    have hways := step_ways hs hr hchannel hout
    have hs' := sound_step hs hr
    have hswap : (reply.agent.withWays a.channel a.out).Sound := fun e => by
      have he := hs' e
      cases e <;> exact he
    have hrun : (new maxPorts channel out).run (history ++ [(now, ev)]) = .ok reply.agent := by
      rw [run_append ha, run_cons hr]
      rfl
    refine ⟨⟨_, (congrArg Prod.fst hways).trans (handOut_channel ..), ?_⟩,
      ⟨_, (congrArg Prod.snd hways).trans (handOut_out hswap ..), ?_⟩⟩
    · intro m hm
      exact notices_fit ha hm
    · intro f hf
      obtain ⟨e, _, hf⟩ := List.mem_flatMap.mp hf
      obtain ⟨k, _, hf⟩ := List.mem_filterMap.mp hf
      have hdue : reply.agent.due? e k = some f := by
        cases e <;> exact hf
      exact due_fits hrun hdue
  · intro frame v type group hi ht hg inPort now
    exact report_missed ha hi ht hg inPort now

/-- Members are expected to report every five seconds. -/
def impatient : Config := { Config.default with timeouts := Rows.empty.insert .report 5000 }

/-- A member of a group is waited for under that configuration, with a controller to tell. -/
def started : History ControllerLink FrameSender :=
  [(0, .channel (·.connect 4)),
    (0, .startup impatient.initialTimeouts),
    (0, .request ⟨.reportExpectation,
      .add [.name "lan", .vlanVid 1, .ipv4 ⟨239, 1, 1, 1⟩] []⟩)]

/-- After five seconds the controller is told of the member, and of nothing else. -/
theorem bounded_of_history_started :
    ∃ a reply messages, (new 8 .initial .initial).run started = .ok a ∧ a.Bounded ∧
      a.step 5000 (.tick .reportExpectation) = .ok reply ∧
      reply.agent.channel = ControllerChannel.deliver a.channel messages ∧
      (∀ m ∈ messages, ∃ n, m = .idleNotification n ∧ n.Fits) ∧
      reply.agent.channel.queued =
        [.idleNotification ⟨.reportExpectation, "lan", 1, some ⟨239, 1, 1, 1⟩⟩] := by
  have hc : ∀ x ∈ started, x.2.Configured := by
    simp only [started, List.forall_mem_cons, List.not_mem_nil, false_implies, implies_true,
      and_true]
    exact ⟨trivial, ⟨impatient, by decide, rfl⟩, trivial⟩
  obtain ⟨a, ha, -, hbounded, hout, -⟩ := bounded_of_history 8 .initial .initial started hc
  have hs := sound_run (sound_new 8 ControllerLink.initial FrameSender.initial) ha
  obtain ⟨reply, hr⟩ := step_ok hs 5000 (.tick .reportExpectation)
  obtain ⟨⟨messages, hchannel, hfit⟩, -⟩ := hout 5000 _ reply hr nofun nofun
  refine ⟨a, reply, messages, ha, hbounded, hr, hchannel, hfit, ?_⟩
  cases ha
  cases hr
  rfl

end Agent
end Snooping
