import Snooping.Proofs.Registration

/-!
What an accepted request changes. Every table takes it as an edit of the one row that its key
names; a request that is refused, or that only asks, changes nothing.
-/
namespace Snooping

def TableOp.key : TableOp → List Field
  | add key _ | modify key _ | delete key | getStats key => key

/-- `f'` is `f` but for `k`. An addition finds `k` free and all else finds it taken; a deletion
leaves it free and all else leaves it taken. -/
structure Edited {κ α : Type} (op : TableOp.Kind) (k : κ) (f f' : κ → Option α) : Prop where
  others : ∀ k', k' ≠ k → f' k' = f k'
  before : (f k).isSome = decide (op ≠ .add)
  after : (f' k).isSome = decide (op ≠ .delete)

section Rows

variable {κ α : Type} [DecidableEq κ] {rows : Rows κ α} {k : κ} {op : TableOp.Kind}

theorem Edited.insert (hb : (rows.find? k).isSome = decide (op ≠ .add)) (hop : op ≠ .delete)
    (a : α) : Edited op k rows.find? (rows.insert k a).find? where
  others k' hk := by rw [Rows.find?_insert, if_neg hk]
  before := hb
  after := by simp [Rows.find?_insert, hop]

theorem Edited.erase (hb : (rows.find? k).isSome = true) :
    Edited .delete k rows.find? (rows.erase k).find? where
  others k' hk := by rw [Rows.find?_erase, if_neg hk]
  before := by simp [hb]
  after := by simp [Rows.find?_erase]

end Rows

namespace Expiry.Queue

variable {κ : Type} [DecidableEq κ] {q q' : Queue κ} {k : κ} {d : Nat}

/-- Every registration but that of `k` is as it was, and in the same order. -/
structure SameBut (k : κ) (q q' : Queue κ) : Prop where
  agenda : (q'.agenda.filter fun x => x.2 ≠ k) = q.agenda.filter fun x => x.2 ≠ k
  deadline? : ∀ k', k' ≠ k → q'.deadline? k' = q.deadline? k'

theorem SameBut.refl (k : κ) (q : Queue κ) : SameBut k q q := ⟨rfl, fun _ _ => rfl⟩

theorem Renewed.sameBut (hr : Renewed q q' k d) : SameBut k q q' where
  agenda := by
    rw [hr.agenda, filter_place _ (by simp), List.filter_filter]
    simp
  deadline? k' hk := by rw [Queue.deadline?, hr.find?, if_neg hk, Queue.deadline?]

theorem Cancelled.sameBut (hc : Cancelled q q' k) : SameBut k q q' where
  agenda := by
    rw [hc.agenda, List.filter_filter]
    simp
  deadline? k' hk := by rw [Queue.deadline?, hc.find?, if_neg hk, Queue.deadline?]

end Expiry.Queue

namespace TimeoutTable

variable {t t' : TimeoutTable} {key value : List Field} {traces : List Trace} {n : TimeoutName}

theorem edited_put {op : TableOp.Kind} {v : Option Nat}
    (hb : (t.configured? n).isSome = decide (op ≠ .add))
    (ha : v.isSome = decide (op ≠ .delete)) :
    Edited op n t.configured? (t.put n v).configured? where
  others m hm := by rw [configured?_put, if_neg hm]
  before := hb
  after := by rw [configured?_put, if_pos rfl, ha]

theorem add_edited (h : t.add key value = .ok (t', traces)) :
    ∃ n, keyReading.all key = .ok n ∧ Edited .add n t.configured? t'.configured? := by
  simp only [add, bind_eq_ok_iff, guard_eq_ok_iff, pure_eq_ok_iff, Prod.mk.injEq] at h
  obtain ⟨n, hn, ms, _, hc, rfl, _⟩ := h
  exact ⟨n, hn, edited_put (by simpa using hc) rfl⟩

theorem modify_edited (h : t.modify key value = .ok (t', traces)) :
    ∃ n, keyReading.all key = .ok n ∧ Edited .modify n t.configured? t'.configured? := by
  simp only [modify, bind_eq_ok_iff, guard_eq_ok_iff, pure_eq_ok_iff, Prod.mk.injEq] at h
  obtain ⟨n, hn, ms, _, hc, rfl, _⟩ := h
  exact ⟨n, hn, edited_put (by simpa [Option.isSome_iff_ne_none] using hc) rfl⟩

theorem delete_edited (h : t.delete key = .ok (t', traces)) :
    ∃ n, keyReading.all key = .ok n ∧ Edited .delete n t.configured? t'.configured? := by
  simp only [delete, bind_eq_ok_iff, guard_eq_ok_iff, pure_eq_ok_iff, Prod.mk.injEq] at h
  obtain ⟨n, hn, hc, rfl, _⟩ := h
  exact ⟨n, hn, edited_put (by simpa [Option.isSome_iff_ne_none] using hc) rfl⟩

end TimeoutTable

namespace RxPorts

variable {t t' : RxPorts} {maxPorts : UInt32} {key value : List Field} {traces : List Trace}

theorem add_edited (h : add t maxPorts key value = .ok (t', traces)) :
    ∃ p, (keyReading maxPorts).all key = .ok p ∧ Edited .add p t.find? t'.find? := by
  simp only [add, bind_eq_ok_iff, guard_eq_ok_iff, pure_eq_ok_iff, Prod.mk.injEq] at h
  obtain ⟨p, hp, name, _, hc, rfl, _⟩ := h
  exact ⟨p, hp, .insert (by simpa [Rows.contains] using hc) (by decide) name⟩

theorem modify_edited (h : modify t maxPorts key value = .ok (t', traces)) :
    ∃ p, (keyReading maxPorts).all key = .ok p ∧ Edited .modify p t.find? t'.find? := by
  simp only [modify, bind_eq_ok_iff, guard_eq_ok_iff, pure_eq_ok_iff, Prod.mk.injEq] at h
  obtain ⟨p, hp, name, _, hc, rfl, _⟩ := h
  exact ⟨p, hp, .insert (by simpa [Rows.contains, Option.isSome_iff_ne_none] using hc)
    (by decide) name⟩

theorem delete_edited (h : delete t maxPorts key = .ok (t', traces)) :
    ∃ p, (keyReading maxPorts).all key = .ok p ∧ Edited .delete p t.find? t'.find? := by
  simp only [delete, bind_eq_ok_iff] at h
  obtain ⟨p, hp, h⟩ := h
  split at h
  · cases h
  · rename_i name hn
    cases h
    exact ⟨p, hp, .erase (by rw [hn]; rfl)⟩

end RxPorts

namespace TxPorts

variable {t t' : TxPorts} {maxPorts : UInt32} {key value : List Field} {traces : List Trace}

theorem add_edited (h : add t maxPorts key value = .ok (t', traces)) :
    ∃ name, keyReading.all key = .ok name ∧ Edited .add name t.find? t'.find? := by
  simp only [add, bind_eq_ok_iff, guard_eq_ok_iff, pure_eq_ok_iff, Prod.mk.injEq] at h
  obtain ⟨name, hn, p, _, hc, rfl, _⟩ := h
  exact ⟨name, hn, .insert (by simpa [Rows.contains] using hc) (by decide) p⟩

theorem modify_edited (h : modify t maxPorts key value = .ok (t', traces)) :
    ∃ name, keyReading.all key = .ok name ∧ Edited .modify name t.find? t'.find? := by
  simp only [modify, bind_eq_ok_iff, guard_eq_ok_iff, pure_eq_ok_iff, Prod.mk.injEq] at h
  obtain ⟨name, hn, p, _, hc, rfl, _⟩ := h
  exact ⟨name, hn, .insert (by simpa [Rows.contains, Option.isSome_iff_ne_none] using hc)
    (by decide) p⟩

theorem delete_edited (h : delete t key = .ok (t', traces)) :
    ∃ name, keyReading.all key = .ok name ∧ Edited .delete name t.find? t'.find? := by
  simp only [delete, bind_eq_ok_iff] at h
  obtain ⟨name, hn, h⟩ := h
  split at h
  · cases h
  · rename_i p hp
    cases h
    exact ⟨name, hn, .erase (by rw [hp]; rfl)⟩

end TxPorts

namespace Expectation.Table

variable {κ : Type} [DecidableEq κ] {kind : Kind κ} {t t' : Table κ} {key value : List Field}
  {k : κ} {interval now : Nat} {traces : List Trace}

/-- One entry is edited, with its own registration; hits and notifications are not counted. -/
structure EditedAt (op : TableOp.Kind) (k : κ) (t t' : Table κ) : Prop where
  entries : Edited op k t.entries.find? t'.entries.find?
  queue : t.queue.SameBut k t'.queue
  counters : t'.counters = t.counters

theorem add_edited (hs : t.roster.Sound)
    (h : t.add kind key value interval now = .ok (t', traces)) :
    ∃ k, kind.reading.all key = .ok k ∧ t.EditedAt .add k t' := by
  obtain ⟨k, hk, hn, rfl⟩ := add_ok h
  exact ⟨k, hk, .insert (by simp [hn]) (by decide) _, (hs.queue.insert_renewed k _).sameBut, rfl⟩

theorem modify_edited {u : Unit} (h : t.modify kind key value = .ok u) :
    ∃ k, kind.reading.all key = .ok k ∧ t.EditedAt .modify k t := by
  obtain ⟨k, e, hk, he⟩ := modify_ok h
  exact ⟨k, hk, ⟨fun _ _ => rfl, by simp [he], by simp [he]⟩, .refl k _, rfl⟩

theorem delete_edited (hs : t.roster.Sound) (h : t.delete kind key = .ok (t', traces)) :
    ∃ k, kind.reading.all key = .ok k ∧ t.EditedAt .delete k t' := by
  obtain ⟨k, e, hk, he, rfl⟩ := delete_ok h
  exact ⟨k, hk, .erase (by simp [he]), (hs.queue.remove_cancelled k).sameBut, rfl⟩

end Expectation.Table

namespace Transmission.Table

variable {κ ω : Type} [DecidableEq κ] [PacketOut ω] {kind : Kind κ} {t t' : Table κ}
  {ports : TxPorts} {key value : List Field} {k : κ} {interval now : Nat} {traces : List Trace}
  {out : ω} {changed : Changed κ ω}

/-- One entry is edited, with its own registration. -/
structure EditedAt (op : TableOp.Kind) (k : κ) (t t' : Table κ) : Prop where
  entries : Edited op k t.entries.find? t'.entries.find?
  queue : t.queue.SameBut k t'.queue

theorem add_edited (hs : t.roster.Sound)
    (hr : ∀ k, (kind.reading (some ports)).all key = .ok k → (kind.reading none).all key = .ok k)
    (h : t.add kind ports key value interval now out = .ok changed) :
    ∃ k, (kind.reading none).all key = .ok k ∧ t.EditedAt .add k changed.table ∧
      (changed.out = out ∨ ∃ f, changed.out = (PacketOut.transmit out f).1) := by
  obtain ⟨k, origin, hk, _, hn, he, hq, ho⟩ := add_ok h
  refine ⟨k, hr k hk, ⟨?_, ?_⟩, ho ▸ sendOut_eq_or ..⟩
  · rw [he]
    exact .insert (by simp [hn]) (by decide) _
  · rw [hq]
    exact (hs.queue.insert_renewed k _).sameBut

theorem modify_edited (hs : t.roster.Sound)
    (h : t.modify kind ports key value interval now out = .ok changed) :
    ∃ k, (kind.reading none).all key = .ok k ∧ t.EditedAt .modify k changed.table ∧
      (changed.out = out ∨ ∃ f, changed.out = (PacketOut.transmit out f).1) := by
  obtain ⟨k, origin, e, hk, _, he, hes, hq, ho⟩ := modify_ok h
  have hc := hs.queue.remove_cancelled k
  refine ⟨k, hk, ⟨?_, ?_⟩, ho ▸ sendOut_eq_or ..⟩
  · rw [hes]
    exact .insert (by simp [he]) (by decide) _
  · rw [hq]
    exact (hc.renewed ((hs.queue.cancelled hc).insert_renewed k _)).sameBut

theorem delete_edited (hs : t.roster.Sound) (h : t.delete kind key = .ok (t', traces)) :
    ∃ k, (kind.reading none).all key = .ok k ∧ t.EditedAt .delete k t' := by
  obtain ⟨k, e, hk, he, rfl⟩ := delete_ok h
  exact ⟨k, hk, .erase (by simp [he]), (hs.queue.remove_cancelled k).sameBut⟩

end Transmission.Table

namespace Agent

variable {χ ω : Type} [PacketOut ω] {a a' : Agent χ ω} {r : TableRequest} {table : TableId}
  {key value : List Field} {now : Nat} {traces : List Trace}

/-- `a'` is `a` but for the row that the request names. -/
def EditedBy (a a' : Agent χ ω) (r : TableRequest) : Prop :=
  match r.table with
  | .timeout =>
    ∃ n, TimeoutTable.keyReading.all r.op.key = .ok n ∧
      Edited r.op.kind n a.timeouts.configured? a'.timeouts.configured? ∧
      a' = { a with timeouts := a'.timeouts }
  | .rxPortGroup =>
    ∃ p, (RxPorts.keyReading a.maxPorts).all r.op.key = .ok p ∧
      Edited r.op.kind p a.rxPorts.find? a'.rxPorts.find? ∧
      a' = { a with rxPorts := a'.rxPorts }
  | .txPortGroup =>
    ∃ name, TxPorts.keyReading.all r.op.key = .ok name ∧
      Edited r.op.kind name a.txPorts.find? a'.txPorts.find? ∧
      a' = { a with txPorts := a'.txPorts }
  | .generalQueryExpectation =>
    ∃ k, Expectation.generalQuery.reading.all r.op.key = .ok k ∧
      a.generalQuery.EditedAt r.op.kind k a'.generalQuery ∧
      a' = { a with generalQuery := a'.generalQuery }
  | .reportExpectation =>
    ∃ k, Expectation.report.reading.all r.op.key = .ok k ∧
      a.report.EditedAt r.op.kind k a'.report ∧ a' = { a with report := a'.report }
  | .pimExpectation =>
    ∃ k, Expectation.pim.reading.all r.op.key = .ok k ∧
      a.pim.EditedAt r.op.kind k a'.pim ∧ a' = { a with pim := a'.pim }
  | .generalQueryTx =>
    ∃ k, (Transmission.generalQuery.reading none).all r.op.key = .ok k ∧
      a.generalQueryTx.EditedAt r.op.kind k a'.generalQueryTx ∧
      (a'.out = a.out ∨ ∃ f, a'.out = (PacketOut.transmit a.out f).1) ∧
      a' = { a with generalQueryTx := a'.generalQueryTx, out := a'.out }
  | .reportTx =>
    ∃ k, (Transmission.report.reading none).all r.op.key = .ok k ∧
      a.reportTx.EditedAt r.op.kind k a'.reportTx ∧
      (a'.out = a.out ∨ ∃ f, a'.out = (PacketOut.transmit a.out f).1) ∧
      a' = { a with reportTx := a'.reportTx, out := a'.out }

/-- `a'` is `a` but for the table `t` and the way out. -/
structure SameBeside (a a' : Agent χ ω) (t : TableId) : Prop where
  maxPorts : a'.maxPorts = a.maxPorts
  timeouts : t ≠ .timeout → a'.timeouts = a.timeouts
  rxPorts : t ≠ .rxPortGroup → a'.rxPorts = a.rxPorts
  txPorts : t ≠ .txPortGroup → a'.txPorts = a.txPorts
  generalQuery : t ≠ .generalQueryExpectation → a'.generalQuery = a.generalQuery
  report : t ≠ .reportExpectation → a'.report = a.report
  pim : t ≠ .pimExpectation → a'.pim = a.pim
  generalQueryTx : t ≠ .generalQueryTx → a'.generalQueryTx = a.generalQueryTx
  reportTx : t ≠ .reportTx → a'.reportTx = a.reportTx
  classified : a'.classified = a.classified
  channel : a'.channel = a.channel

theorem EditedBy.beside (h : a.EditedBy a' r) : a.SameBeside a' r.table := by
  obtain ⟨table, op⟩ := r
  cases table
  case generalQueryTx | reportTx =>
    obtain ⟨_, _, _, _, h⟩ := h
    rw [h]
    constructor <;> first | rfl | exact fun _ => rfl | exact fun ht => (ht rfl).elim
  all_goals
    obtain ⟨_, _, _, h⟩ := h
    rw [h]
    constructor <;> first | rfl | exact fun _ => rfl | exact fun ht => (ht rfl).elim

theorem add_editedBy (hs : a.Sound)
    (h : a.add table key value now = .ok (a', traces)) :
    a.EditedBy a' ⟨table, .add key value⟩ := by
  cases table <;>
    simp only [add, bind_eq_ok_iff, pure_eq_ok_iff, Prod.mk.injEq, Prod.exists] at h
  case timeout =>
    obtain ⟨_, _, h, rfl, _⟩ := h
    obtain ⟨n, hn, he⟩ := TimeoutTable.add_edited h
    exact ⟨n, hn, he, rfl⟩
  case rxPortGroup =>
    obtain ⟨_, _, h, rfl, _⟩ := h
    obtain ⟨p, hp, he⟩ := RxPorts.add_edited h
    exact ⟨p, hp, he, rfl⟩
  case txPortGroup =>
    obtain ⟨_, _, h, rfl, _⟩ := h
    obtain ⟨name, hn, he⟩ := TxPorts.add_edited h
    exact ⟨name, hn, he, rfl⟩
  case generalQueryExpectation =>
    obtain ⟨_, _, h, rfl, _⟩ := h
    obtain ⟨k, hk, he⟩ := Expectation.Table.add_edited hs.generalQuery h
    exact ⟨k, hk, he, rfl⟩
  case reportExpectation =>
    obtain ⟨_, _, h, rfl, _⟩ := h
    obtain ⟨k, hk, he⟩ := Expectation.Table.add_edited hs.report h
    exact ⟨k, hk, he, rfl⟩
  case pimExpectation =>
    obtain ⟨_, _, h, rfl, _⟩ := h
    obtain ⟨k, hk, he⟩ := Expectation.Table.add_edited hs.pim h
    exact ⟨k, hk, he, rfl⟩
  case generalQueryTx =>
    obtain ⟨_, h, rfl, _⟩ := h
    obtain ⟨k, hk, he, ho⟩ := Transmission.Table.add_edited hs.generalQueryTx
      (fun k hk => (Transmission.generalQuery_reading_some hk).1) h
    exact ⟨k, hk, he, ho, rfl⟩
  case reportTx =>
    obtain ⟨_, h, rfl, _⟩ := h
    obtain ⟨k, hk, he, ho⟩ := Transmission.Table.add_edited hs.reportTx
      (fun k hk => (Transmission.report_reading_some hk).1) h
    exact ⟨k, hk, he, ho, rfl⟩

theorem modify_editedBy (hs : a.Sound)
    (h : a.modify table key value now = .ok (a', traces)) :
    a.EditedBy a' ⟨table, .modify key value⟩ := by
  cases table <;>
    simp only [modify, bind_eq_ok_iff, pure_eq_ok_iff, Prod.mk.injEq, Prod.exists] at h
  case timeout =>
    obtain ⟨_, _, h, rfl, _⟩ := h
    obtain ⟨n, hn, he⟩ := TimeoutTable.modify_edited h
    exact ⟨n, hn, he, rfl⟩
  case rxPortGroup =>
    obtain ⟨_, _, h, rfl, _⟩ := h
    obtain ⟨p, hp, he⟩ := RxPorts.modify_edited h
    exact ⟨p, hp, he, rfl⟩
  case txPortGroup =>
    obtain ⟨_, _, h, rfl, _⟩ := h
    obtain ⟨name, hn, he⟩ := TxPorts.modify_edited h
    exact ⟨name, hn, he, rfl⟩
  case generalQueryExpectation | reportExpectation | pimExpectation =>
    obtain ⟨_, h, rfl, _⟩ := h
    obtain ⟨k, hk, he⟩ := Expectation.Table.modify_edited h
    exact ⟨k, hk, he, rfl⟩
  case generalQueryTx =>
    obtain ⟨_, h, rfl, _⟩ := h
    obtain ⟨k, hk, he, ho⟩ := Transmission.Table.modify_edited hs.generalQueryTx h
    exact ⟨k, hk, he, ho, rfl⟩
  case reportTx =>
    obtain ⟨_, h, rfl, _⟩ := h
    obtain ⟨k, hk, he, ho⟩ := Transmission.Table.modify_edited hs.reportTx h
    exact ⟨k, hk, he, ho, rfl⟩

theorem delete_editedBy (hs : a.Sound)
    (h : a.delete table key = .ok (a', traces)) :
    a.EditedBy a' ⟨table, .delete key⟩ := by
  cases table <;>
    simp only [delete, bind_eq_ok_iff, pure_eq_ok_iff, Prod.mk.injEq, Prod.exists] at h <;>
    obtain ⟨_, _, h, rfl, _⟩ := h
  case timeout =>
    obtain ⟨n, hn, he⟩ := TimeoutTable.delete_edited h
    exact ⟨n, hn, he, rfl⟩
  case rxPortGroup =>
    obtain ⟨p, hp, he⟩ := RxPorts.delete_edited h
    exact ⟨p, hp, he, rfl⟩
  case txPortGroup =>
    obtain ⟨name, hn, he⟩ := TxPorts.delete_edited h
    exact ⟨name, hn, he, rfl⟩
  case generalQueryExpectation =>
    obtain ⟨k, hk, he⟩ := Expectation.Table.delete_edited hs.generalQuery h
    exact ⟨k, hk, he, rfl⟩
  case reportExpectation =>
    obtain ⟨k, hk, he⟩ := Expectation.Table.delete_edited hs.report h
    exact ⟨k, hk, he, rfl⟩
  case pimExpectation =>
    obtain ⟨k, hk, he⟩ := Expectation.Table.delete_edited hs.pim h
    exact ⟨k, hk, he, rfl⟩
  case generalQueryTx =>
    obtain ⟨k, hk, he⟩ := Transmission.Table.delete_edited hs.generalQueryTx h
    exact ⟨k, hk, he, .inl rfl, rfl⟩
  case reportTx =>
    obtain ⟨k, hk, he⟩ := Transmission.Table.delete_edited hs.reportTx h
    exact ⟨k, hk, he, .inl rfl, rfl⟩

theorem performs_editedBy (hs : a.Sound) (h : a.Performs a' r.table now r.op) :
    a.EditedBy a' r := by
  obtain ⟨table, op⟩ := r
  cases op with
  | add key value => exact add_editedBy hs h.choose_spec
  | modify key value => exact modify_editedBy hs h.choose_spec
  | delete key => exact delete_editedBy hs h.choose_spec
  | getStats key => exact h.elim

variable [ControllerChannel χ]

/-- A request that is refused, or that only asks, changes nothing: it leaves what was there, however
far it has got. One that is accepted edits one row; a timeout request moves no deadline. -/
theorem requests_edit_one_row (ha : a.Reachable) (r : TableRequest) (now : Nat) :
    (∀ e, (dispatch r.table r.op now a).answer = .error e →
        dispatch r.table r.op now a = ⟨.error e, a, []⟩) ∧
      ((a.request r now).answer ≠ .ok ∨ r.op.kind = .getStats → (a.request r now).agent = a) ∧
      ((a.request r now).answer = .ok → a.EditedBy (a.request r now).agent r) ∧
      (r.table = .timeout → ∀ e, (a.request r now).agent.queue e = a.queue e) := by
  refine ⟨fun e he => a.dispatch_refused r.table now he, ?_⟩
  rcases request_cases a r now with ⟨hn, hr⟩ | ⟨hok, hp⟩
  · exact ⟨fun _ => hr, fun h => (hn h).elim, fun _ _ => by rw [hr]⟩
  · have he := performs_editedBy (sound_reachable ha) hp
    refine ⟨?_, fun _ => he, fun ht e => ?_⟩
    · rintro (h | h)
      · exact (h hok).elim
      · cases hop : r.op <;> rw [hop] at h hp
        case getStats => exact hp.elim
        all_goals cases h
    · rw [EditedBy, ht] at he
      obtain ⟨_, _, _, hr⟩ := he
      rw [hr]
      cases e <;> rfl

/-- Two queries go out through one group of ports, and a querier is waited for. -/
def querying : History ControllerLink FrameSender :=
  let query (vlan : UInt16) : TableOp :=
    .add [.reference "tx_port_group" [.name "lan"], .vlanVid vlan]
      [.vlanVid vlan, .ipv4Src ⟨192, 0, 2, 1⟩, .ethSrc ⟨2, 0, 0, 0, 0, 1⟩]
  [(0, .request ⟨.txPortGroup, .add [.name "lan"] [.portNo 3]⟩),
    (0, .request ⟨.generalQueryExpectation, .add [.name "querier", .vlanVid 1] []⟩),
    (10, .request ⟨.generalQueryTx, query 1⟩),
    (20, .request ⟨.generalQueryTx, query 2⟩)]

/-- The queries of one VLAN are to come from elsewhere. -/
def readdressed (vlan : UInt16) : TableRequest :=
  ⟨.generalQueryTx, .modify [.reference "tx_port_group" [.name "lan"], .vlanVid vlan]
    [.vlanVid vlan, .ipv4Src ⟨192, 0, 2, 9⟩, .ethSrc ⟨2, 0, 0, 0, 0, 1⟩]⟩

/-- One of two queries is readdressed, which sends it and starts its interval again, while the other
one and the querier stay due when they were. For a VLAN that has none, all is left as it was. -/
theorem requests_edit_one_row_readdressed :
    ∃ a : Agent ControllerLink FrameSender, (new 8 .initial .initial).run querying = .ok a ∧
      (a.EditedBy (a.request (readdressed 1) 500).agent (readdressed 1) ∧
        (a.request (readdressed 1) 500).agent.out.queued.length = a.out.queued.length + 1 ∧
        a.generalQueryTx.queue.agenda =
          [(⟨125010, 0⟩, ⟨"lan", 1⟩), (⟨125020, 1⟩, ⟨"lan", 2⟩)] ∧
        (a.request (readdressed 1) 500).agent.generalQueryTx.queue.agenda =
          [(⟨125020, 1⟩, ⟨"lan", 2⟩), (⟨125500, 2⟩, ⟨"lan", 1⟩)] ∧
        a.generalQuery.queue.agenda = [(⟨255000, 0⟩, ⟨"querier", 1⟩)] ∧
        (a.request (readdressed 1) 500).agent.generalQuery = a.generalQuery) ∧
      (a.request (readdressed 3) 500).answer = .ofError .notFound ∧
      dispatch .generalQueryTx (readdressed 3).op 500 a = ⟨.error .notFound, a, []⟩ ∧
      (a.request (readdressed 3) 500).agent = a := by
  obtain ⟨a, ha, _⟩ := run_ok (sound_new 8 ControllerLink.initial FrameSender.initial) querying
  have hreachable := reachable_run (reachable_new 8 _ _) ha
  obtain ⟨-, -, hedited, -⟩ := requests_edit_one_row hreachable (readdressed 1) 500
  obtain ⟨hrefused, hkept, -, -⟩ := requests_edit_one_row hreachable (readdressed 3) 500
  have hmissing : (a.request (readdressed 3) 500).answer = .ofError .notFound := by
    cases ha
    rfl
  have hnot : (a.request (readdressed 3) 500).answer ≠ .ok := by
    rw [hmissing]
    nofun
  refine ⟨a, ha, ⟨hedited ?_, ?_, ?_, ?_, ?_, ?_⟩, hmissing, hrefused .notFound ?_,
    hkept (.inl hnot)⟩
  all_goals
    cases ha
    rfl

end Agent
end Snooping
