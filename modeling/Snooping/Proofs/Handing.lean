import Snooping.Proofs.Edits

/-!
What an event hands to the ways out: the keys for which it does, and what is due for each. Frames
are those of the rows as the event leaves them, and the ways out are those that it finds.
-/
namespace Snooping

namespace Transmission.Table

variable {κ ω : Type} [DecidableEq κ] [PacketOut ω] {kind : Kind κ} {t t' : Table κ}
  {key value : List Field} {k : κ} {interval now : Nat} {ports : TxPorts} {out : ω} {e : Entry κ}
  {changed : Changed κ ω} {r : Ticked κ ω}

/-- A request hands out what is due for its key afterwards. -/
theorem add_emit
    (hr : ∀ k, (kind.reading (some ports)).all key = .ok k → (kind.reading none).all key = .ok k)
    (h : t.add kind ports key value interval now out = .ok changed) :
    ∃ k, (kind.reading none).all key = .ok k ∧
      changed.out = changed.table.emit kind ports out k := by
  obtain ⟨k, origin, hk, _, _, he, _, ho⟩ := add_ok h
  refine ⟨k, hr k hk, ?_⟩
  rw [ho, emit_eq]
  rw [he, Rows.find?_insert, if_pos rfl, Option.map_some, send_unsent]

theorem modify_emit (h : t.modify kind ports key value interval now out = .ok changed) :
    ∃ k, (kind.reading none).all key = .ok k ∧
      changed.out = changed.table.emit kind ports out k := by
  obtain ⟨k, origin, e, hk, _, _, he, _, ho⟩ := modify_ok h
  refine ⟨k, hk, ?_⟩
  rw [ho, emit_eq]
  rw [he, Rows.find?_insert, if_pos rfl, Option.map_some, send_unsent]

end Transmission.Table

namespace Agent

variable {χ ω : Type} {a a' : Agent χ ω} {table : TableId} {key value : List Field}
  {now : Nat} {traces : List Trace} {e : EngineId} {k : e.Key}

/-- The rows of an agent with other ways out. -/
def withWays (a : Agent χ ω) (channel : χ) (out : ω) : Agent χ ω := { a with channel, out }

section Edits

variable [PacketOut ω]

/-- The event is an accepted `op` on `k` of engine `e`. -/
def Edits (a : Agent χ ω) (now : Nat) (op : TableOp.Kind) (e : EngineId) (k : e.Key) :
    Event χ ω → Prop
  | .request r => r.table = e.table ∧ r.op.kind = op ∧ e.key? r.op.key = some k ∧
    (a.request r now).answer = .ok
  | _ => False

/-- The key of `e` whose frame is sent when its row is added or modified. -/
def prompted (table : TableId) (key : List Field) (e : EngineId) : List e.Key :=
  if e.isTransmission ∧ table = e.table then (e.key? key).toList else []

/-- The keys of `e` for which an event hands something out, in order. -/
def handed (a : Agent χ ω) (now : Nat) : Event χ ω → (e : EngineId) → List e.Key
  | .request r, e =>
    if (a.request r now).answer.isOk ∧ (r.op.kind = .add ∨ r.op.kind = .modify) then
      prompted r.table r.op.key e
    else []
  | .tick e', e => if e' = e then a.served e now else []
  | _, _ => []

variable {r : TableRequest} {op : TableOp.Kind}

theorem performs_of_edits (h : a.Edits now op e k (.request r)) :
    a.Performs (a.request r now).agent r.table now r.op := by
  obtain ⟨_, _, _, hok⟩ := h
  rcases request_cases a r now with ⟨hn, _⟩ | ⟨_, hp⟩
  · exact (hn hok).elim
  · exact hp

theorem handed_accepted (hok : (a.request r now).answer = .ok)
    (hop : r.op.kind = .add ∨ r.op.kind = .modify) :
    a.handed now (.request r) = prompted r.table r.op.key :=
  funext fun _ => if_pos ⟨TableResponse.isOk_iff.mpr hok, hop⟩

theorem handed_nil (h : (a.request r now).answer ≠ .ok ∨ r.op.kind = .delete) (e : EngineId) :
    a.handed now (.request r) e = [] := by
  refine if_neg ?_
  rintro ⟨hok, hop⟩
  rcases h with h | h
  · exact h (TableResponse.isOk_iff.mp hok)
  · simp [h] at hop

theorem handed_of_edits (h : a.Edits now op e k (.request r)) (hop : op = .add ∨ op = .modify) :
    a.handed now (.request r) e = if e.isTransmission then [k] else [] := by
  obtain ⟨ht, rfl, hk, hok⟩ := h
  rw [handed_accepted hok hop]
  simp [prompted, ht, hk]

/-- A request hands out nothing for a row that it does not edit. -/
theorem not_mem_handed (hadd : ¬ a.Edits now .add e k (.request r))
    (hmodify : ¬ a.Edits now .modify e k (.request r)) : k ∉ a.handed now (.request r) e := by
  intro hm
  obtain ⟨⟨hok, hop⟩, hm⟩ := List.mem_ite_nil_right.mp hm
  obtain ⟨⟨_, ht⟩, hk⟩ := List.mem_ite_nil_right.mp hm
  rw [TableResponse.isOk_iff] at hok
  rw [Option.mem_toList] at hk
  rcases hop with hop | hop
  · exact hadd ⟨ht, hop, hk, hok⟩
  · exact hmodify ⟨ht, hop, hk, hok⟩

end Edits

variable [ControllerChannel χ] [PacketOut ω] {ks : (e : EngineId) → List e.Key} {ways : χ × ω}

/-- Both ways out once they have been handed what is due for the keys of every engine. -/
def handOut (a : Agent χ ω) (ks : (e : EngineId) → List e.Key) (ways : χ × ω) : χ × ω :=
  EngineId.all.foldl (fun ways e => (ks e).foldl (a.emit e) ways) ways

theorem handOut_only (h : ∀ e', e' ≠ e → ks e' = []) :
    a.handOut ks ways = (ks e).foldl (a.emit e) ways := by
  cases e <;> simp [handOut, EngineId.all, h]

theorem handOut_none (h : ∀ e, ks e = []) : a.handOut ks ways = ways := by
  simp [handOut, EngineId.all, h]

/-- Engines have tables of their own, so a request hands something out for one key at most. -/
theorem handOut_prompted (he : e.isTransmission = true) (hk : e.key? key = some k) :
    a.handOut (prompted e.table key) ways = a.emit e ways k := by
  have hself : prompted e.table key e = [k] := by simp [prompted, he, hk]
  have hother : ∀ e', e' ≠ e → prompted e.table key e' = [] := by
    intro e' hne
    refine if_neg fun ⟨_, ht⟩ => hne ?_
    cases e <;> cases e' <;> first | rfl | cases ht
  rw [handOut_only hother, hself]
  rfl

theorem add_ways (h : a.add table key value now = .ok (a', traces)) :
    (a'.channel, a'.out) =
      (a'.withWays a.channel a.out).handOut (prompted table key) (a.channel, a.out) := by
  cases table <;>
    simp only [add, bind_eq_ok_iff, pure_eq_ok_iff, Prod.mk.injEq, Prod.exists] at h
  case generalQueryTx =>
    obtain ⟨_, h, rfl, _⟩ := h
    obtain ⟨k, hk, ho⟩ := Transmission.Table.add_emit
      (fun k hk => (Transmission.generalQuery_reading_some hk).1) h
    refine Eq.trans ?_ (Eq.symm (handOut_prompted (e := .generalQueryTx) (k := k) rfl ?_))
    · exact congrArg _ ho
    · exact congrArg Except.toOption hk
  case reportTx =>
    obtain ⟨_, h, rfl, _⟩ := h
    obtain ⟨k, hk, ho⟩ := Transmission.Table.add_emit
      (fun k hk => (Transmission.report_reading_some hk).1) h
    refine Eq.trans ?_ (Eq.symm (handOut_prompted (e := .reportTx) (k := k) rfl ?_))
    · exact congrArg _ ho
    · exact congrArg Except.toOption hk
  all_goals
    obtain ⟨_, _, _, rfl, _⟩ := h
    rfl

theorem modify_ways (h : a.modify table key value now = .ok (a', traces)) :
    (a'.channel, a'.out) =
      (a'.withWays a.channel a.out).handOut (prompted table key) (a.channel, a.out) := by
  cases table <;>
    simp only [modify, bind_eq_ok_iff, pure_eq_ok_iff, Prod.mk.injEq, Prod.exists] at h
  case generalQueryTx =>
    obtain ⟨_, h, rfl, _⟩ := h
    obtain ⟨k, hk, ho⟩ := Transmission.Table.modify_emit h
    refine Eq.trans ?_ (Eq.symm (handOut_prompted (e := .generalQueryTx) (k := k) rfl ?_))
    · exact congrArg _ ho
    · exact congrArg Except.toOption hk
  case reportTx =>
    obtain ⟨_, h, rfl, _⟩ := h
    obtain ⟨k, hk, ho⟩ := Transmission.Table.modify_emit h
    refine Eq.trans ?_ (Eq.symm (handOut_prompted (e := .reportTx) (k := k) rfl ?_))
    · exact congrArg _ ho
    · exact congrArg Except.toOption hk
  case generalQueryExpectation | reportExpectation | pimExpectation =>
    obtain ⟨_, _, rfl, _⟩ := h
    rfl
  all_goals
    obtain ⟨_, _, _, rfl, _⟩ := h
    rfl

omit [ControllerChannel χ] [PacketOut ω] in
theorem delete_ways (h : a.delete table key = .ok (a', traces)) :
    (a'.channel, a'.out) = (a.channel, a.out) := by
  cases table <;>
    simp only [delete, bind_eq_ok_iff, pure_eq_ok_iff, Prod.mk.injEq, Prod.exists] at h <;>
    obtain ⟨_, _, _, rfl, _⟩ := h <;> rfl

theorem request_ways (r : TableRequest) (now : Nat) :
    ((a.request r now).agent.channel, (a.request r now).agent.out) =
      ((a.request r now).agent.withWays a.channel a.out).handOut (a.handed now (.request r))
        (a.channel, a.out) := by
  rcases request_cases a r now with ⟨hn, ha⟩ | ⟨hok, hp⟩
  · rw [handOut_none (handed_nil (.inl hn)), ha]
  · obtain ⟨table, op⟩ := r
    cases op with
    | add key value =>
      rw [handed_accepted hok (.inl rfl)]
      exact add_ways hp.choose_spec
    | modify key value =>
      rw [handed_accepted hok (.inr rfl)]
      exact modify_ways hp.choose_spec
    | delete key =>
      rw [handOut_none (handed_nil (.inr rfl))]
      exact delete_ways hp.choose_spec
    | getStats key => exact hp.elim

/-- What is due in a transmission table is the same after a tick. -/
theorem tick_emit (hs : a.Sound) {t : Reply χ ω Nat} (h : a.tick e now = .ok t) :
    (t.agent.withWays a.channel a.out).emit e = a.emit e := by
  cases e <;> simp only [tick, bind_eq_ok_iff, pure_eq_ok_iff] at h <;> obtain ⟨r, hr, rfl⟩ := h
  case generalQueryExpectation | reportExpectation | pimExpectation => rfl
  case generalQueryTx =>
    obtain ⟨r', hr', _, _, hu⟩ := Transmission.Table.tick_ok hs.generalQueryTx
      Transmission.generalQuery a.txPorts (a.timeouts.get .queryTx) now a.out
    cases hr.symm.trans hr'
    have hemit := Transmission.Table.emit_congr (ω := ω) Transmission.generalQuery a.txPorts hu
    exact congrArg (fun f (ways : χ × ω) k => (ways.1, f ways.2 k)) hemit
  case reportTx =>
    obtain ⟨r', hr', _, _, hu⟩ := Transmission.Table.tick_ok hs.reportTx
      Transmission.report a.txPorts (a.timeouts.get .reportTx) now a.out
    cases hr.symm.trans hr'
    have hemit := Transmission.Table.emit_congr (ω := ω) Transmission.report a.txPorts hu
    exact congrArg (fun f (ways : χ × ω) k => (ways.1, f ways.2 k)) hemit

theorem tick_ways (hs : a.Sound) {t : Reply χ ω Nat} (h : a.tick e now = .ok t) :
    (t.agent.channel, t.agent.out) =
      (t.agent.withWays a.channel a.out).handOut (a.handed now (.tick e)) (a.channel, a.out) := by
  have hself : a.handed now (.tick e) e = a.served e now := if_pos rfl
  have hother : ∀ e', e' ≠ e → a.handed now (.tick e) e' = [] := fun _ he => if_neg he.symm
  obtain ⟨t', ht, _, hw⟩ := tick_ok hs e now
  cases h.symm.trans ht
  rw [handOut_only hother, hself, tick_emit hs h, hw]

/-- Whatever an event other than a change of the ways out hands to them is what it is due to. -/
theorem step_ways (hs : a.Sound) {ev : Event χ ω} {reply : Reply χ ω Answer}
    (h : a.step now ev = .ok reply) (hchannel : ∀ f, ev ≠ .channel f) (hout : ∀ f, ev ≠ .out f) :
    (reply.agent.channel, reply.agent.out) =
      (reply.agent.withWays a.channel a.out).handOut (a.handed now ev) (a.channel, a.out) := by
  cases ev with
  | request r =>
    cases h
    exact request_ways r now
  | packet frame inPort =>
    cases h
    exact (handOut_none fun _ => rfl).symm
  | tick e =>
    rw [step] at h
    split at h
    · cases h
    · rename_i t ht
      cases h
      exact tick_ways hs ht
  | startup rows =>
    cases h
    refine Eq.trans ?_ (handOut_none fun _ => rfl).symm
    change ((a.applyInitialTimeouts rows).1.channel, (a.applyInitialTimeouts rows).1.out) = _
    rw [applyInitialTimeouts_fst]
  | channel f => exact (hchannel f rfl).elim
  | out f => exact (hout f rfl).elim

end Agent
end Snooping
