import Snooping.Proofs.Decision
import Snooping.Proofs.Edits

/-!
Which rows a table has: those added, or set at startup, and not deleted since. With it every answer
to a request is decided.
-/
namespace Snooping

namespace Agent

variable {χ ω : Type} {a a' b : Agent χ ω} {t : TableId} {k : t.Key} {now : Nat}

theorem SameBeside.present {table : TableId} (h : a.SameBeside a' table) (ht : t ≠ table)
    (k : t.Key) : a'.present t k = a.present t k := by
  cases t <;> simp only [Agent.present]
  case timeout => rw [h.timeouts ht.symm]
  case rxPortGroup => rw [h.rxPorts ht.symm]
  case txPortGroup => rw [h.txPorts ht.symm]
  case generalQueryExpectation => rw [h.generalQuery ht.symm]
  case reportExpectation => rw [h.report ht.symm]
  case pimExpectation => rw [h.pim ht.symm]
  case generalQueryTx => rw [h.generalQueryTx ht.symm]
  case reportTx => rw [h.reportTx ht.symm]

/-- An accepted request edits the presence of the row that its key spells, and no other. -/
theorem EditedBy.present [PacketOut ω] {r : TableRequest} (h : a.EditedBy a' r) :
    ∃ k, Spells a.maxPorts r.op.key r.table k ∧
      a.present r.table k = decide (r.op.kind ≠ .add) ∧
      a'.present r.table k = decide (r.op.kind ≠ .delete) ∧
      (∀ k', k' ≠ k → a'.present r.table k' = a.present r.table k') ∧
      ∀ t, t ≠ r.table → ∀ k', a'.present t k' = a.present t k' := by
  have hbeside := h.beside
  obtain ⟨table, op⟩ := r
  have hspelled := fun k => ((table.reading_decides a.maxPorts op.key).ok_iff k).mp
  cases table
  case timeout | rxPortGroup | txPortGroup =>
    obtain ⟨k, hk, he, _⟩ := h
    exact ⟨k, hspelled k hk, he.before, he.after,
      fun k' hk => congrArg Option.isSome (he.others k' hk), fun t ht => hbeside.present ht⟩
  all_goals
    obtain ⟨k, hk, he, _⟩ := h
    exact ⟨k, hspelled k hk, he.entries.before, he.entries.after,
      fun k' hk => congrArg Option.isSome (he.entries.others k' hk),
      fun t ht => hbeside.present ht⟩

theorem not_present_new (maxPorts : UInt32) (channel : χ) (out : ω) (t : TableId) (k : t.Key) :
    (new maxPorts channel out).present t k = false := by
  cases t with
  | timeout =>
    change (TimeoutTable.empty.configured? k).isSome = false
    obtain _ | _ | _ | _ := (k : TimeoutName) <;> rfl
  | _ => rfl

section
variable [PacketOut ω] [ControllerChannel χ] {ev : Event χ ω} {reply : Reply χ ω Answer}
  {xs : History χ ω}

/-- The request is an accepted `op` on row `k` of table `t`. -/
def Accepts (a : Agent χ ω) (now : Nat) (r : TableRequest) (op : TableOp.Kind) (t : TableId)
    (k : t.Key) : Prop :=
  t = r.table ∧ r.op.kind = op ∧ Spells a.maxPorts r.op.key t k ∧ (a.request r now).answer = .ok

/-- The event puts row `k` into table `t`. -/
def Adds (a : Agent χ ω) (now : Nat) : Event χ ω → (t : TableId) → t.Key → Prop
  | .request r, t, k => a.Accepts now r .add t k
  | .startup rows, .timeout, (n : TimeoutName) => n ∈ rows.map Prod.fst
  | _, _, _ => False

/-- The event takes row `k` out of table `t`. -/
def Removes (a : Agent χ ω) (now : Nat) : Event χ ω → (t : TableId) → t.Key → Prop
  | .request r, t, k => a.Accepts now r .delete t k
  | _, _, _ => False

omit [ControllerChannel χ] in
theorem request_present (hs : a.Sound) (r : TableRequest) (now : Nat) (t : TableId) (k : t.Key) :
    (a.request r now).agent.present t k = true ↔
      a.Accepts now r .add t k ∨ a.present t k = true ∧ ¬ a.Accepts now r .delete t k := by
  unfold Accepts
  rcases request_cases a r now with ⟨hn, hr⟩ | ⟨hok, hp⟩
  · simp [hn, hr]
  · obtain ⟨k₀, hk₀, hb, ha, hk, ht⟩ := (performs_editedBy hs hp).present
    by_cases hrt : t = r.table
    · subst hrt
      by_cases he : k = k₀
      · subst he
        rw [ha, hb]
        simp only [hok, hk₀]
        cases r.op.kind <;> decide
      · have hne : ¬ Spells a.maxPorts r.op.key r.table k := fun h => he (h.unique hk₀)
        simp [hk k he, hne]
    · simp [ht t hrt k, hrt]

omit [ControllerChannel χ] [PacketOut ω] in
/-- Startup rows are there afterwards, beside those that were. -/
theorem applyInitialTimeouts_configured (a : Agent χ ω) (rows : List (TimeoutName × Duration))
    (n : TimeoutName) :
    ((a.applyInitialTimeouts rows).1.timeouts.configured? n).isSome = true ↔
      n ∈ rows.map Prod.fst ∨ (a.timeouts.configured? n).isSome = true := by
  unfold applyInitialTimeouts
  generalize ([] : List Trace) = traces
  induction rows generalizing a traces with
  | nil => simp
  | cons row rows ih =>
    rw [List.foldl_cons, ih, List.map_cons, List.mem_cons]
    change _ ∨ ((a.timeouts.put row.1 (some row.2.kept.toNat)).configured? n).isSome = true ↔ _
    rw [TimeoutTable.configured?_put]
    by_cases hn : n = row.1 <;> simp [hn]

omit [ControllerChannel χ] [PacketOut ω] in
/-- A frame hits only rows that are there. -/
theorem isSome_of_hitKey? {frame : Bytes} {inPort : UInt32} {e : EngineId} {k : e.Key}
    (h : a.hitKey? now frame inPort e = some k) : ((a.roster e).stored k).isSome = true := by
  have heff := Classifier.classify_effect ⟨a.rxPorts, a.timeouts, inPort, now⟩ frame
    ⟨a.generalQuery, a.report, a.pim⟩
  cases e with
  | generalQueryExpectation => exact heff.generalQuery_met.isSome h
  | reportExpectation => exact heff.report_met.isSome h
  | pimExpectation => exact heff.pim_met.isSome h
  | generalQueryTx | reportTx => cases h

/-- Only requests bring rows into an engine or out of it. -/
theorem stored_step (hs : a.Sound) (h : a.step now ev = .ok reply)
    (hr : ∀ r, ev ≠ .request r) (e : EngineId) (k : e.Key) :
    ((reply.agent.roster e).stored k).isSome = ((a.roster e).stored k).isSome := by
  have ht := step_takes hs h e
  cases ev with
  | request r => exact (hr r rfl).elim
  | packet frame inPort =>
    cases hh : a.hitKey? now frame inPort e with
    | none =>
      rw [change, hh] at ht
      rw [show reply.agent.roster e = a.roster e from ht]
    | some k' =>
      rw [change, hh] at ht
      rw [ht.2, Function.update_apply]
      split
      · rename_i hk
        rw [hk, isSome_of_hitKey? hh]
        rfl
      · rfl
  | tick e' =>
    rw [change] at ht
    split at ht
    · rw [ht.2]
    · rw [show reply.agent.roster e = a.roster e from ht]
  | startup | channel | out => rw [show reply.agent.roster e = a.roster e from ht]

theorem tick_config {e : EngineId} {r : Reply χ ω Nat} (h : a.tick e now = .ok r) :
    r.agent.maxPorts = a.maxPorts ∧ r.agent.timeouts = a.timeouts ∧
      r.agent.rxPorts = a.rxPorts ∧ r.agent.txPorts = a.txPorts := by
  cases e <;> simp only [tick, bind_eq_ok_iff, pure_eq_ok_iff] at h <;>
    obtain ⟨t, _, rfl⟩ := h <;> exact ⟨rfl, rfl, rfl, rfl⟩

/-- Only requests and startup rows change the tables without a timer. -/
theorem config_step (h : a.step now ev = .ok reply) (hr : ∀ r, ev ≠ .request r)
    (hst : ∀ rows, ev ≠ .startup rows) :
    reply.agent.timeouts = a.timeouts ∧ reply.agent.rxPorts = a.rxPorts ∧
      reply.agent.txPorts = a.txPorts := by
  cases ev with
  | request r => exact (hr r rfl).elim
  | startup rows => exact (hst rows rfl).elim
  | packet | channel | out =>
    cases h
    exact ⟨rfl, rfl, rfl⟩
  | tick e =>
    rw [step] at h
    split at h
    · cases h
    · rename_i r ht
      cases h
      exact (tick_config ht).2

theorem present_kept (hs : a.Sound) (h : a.step now ev = .ok reply) (hr : ∀ r, ev ≠ .request r)
    (hst : ∀ rows, ev ≠ .startup rows) (t : TableId) (k : t.Key) :
    reply.agent.present t k = a.present t k := by
  obtain ⟨ht, hrx, htx⟩ := config_step h hr hst
  have hstored := stored_step hs h hr
  cases t with
  | timeout => exact congrArg (fun c => (TimeoutTable.configured? c k).isSome) ht
  | rxPortGroup => exact congrArg (fun c : RxPorts => c.contains k) hrx
  | txPortGroup => exact congrArg (fun c : TxPorts => c.contains k) htx
  | generalQueryExpectation =>
    exact ((Roster.ofTable_isSome ..).symm.trans (hstored .generalQueryExpectation k)).trans
      (Roster.ofTable_isSome ..)
  | reportExpectation =>
    exact ((Roster.ofTable_isSome ..).symm.trans (hstored .reportExpectation k)).trans
      (Roster.ofTable_isSome ..)
  | pimExpectation =>
    exact ((Roster.ofTable_isSome ..).symm.trans (hstored .pimExpectation k)).trans
      (Roster.ofTable_isSome ..)
  | generalQueryTx =>
    exact ((Roster.ofTable_isSome ..).symm.trans (hstored .generalQueryTx k)).trans
      (Roster.ofTable_isSome ..)
  | reportTx =>
    exact ((Roster.ofTable_isSome ..).symm.trans (hstored .reportTx k)).trans
      (Roster.ofTable_isSome ..)

theorem present_step (hs : a.Sound) (h : a.step now ev = .ok reply) (t : TableId) (k : t.Key) :
    reply.agent.present t k = true ↔
      a.Adds now ev t k ∨ a.present t k = true ∧ ¬ a.Removes now ev t k := by
  cases ev with
  | request r =>
    cases h
    exact request_present hs r now t k
  | startup rows =>
    cases h
    cases t with
    | timeout =>
      refine (applyInitialTimeouts_configured a rows k).trans ?_
      simp [Adds, Removes, present]
    | _ =>
      change (a.applyInitialTimeouts rows).1.present _ k = true ↔ _
      rw [applyInitialTimeouts_fst]
      simp [Adds, Removes, present]
  | packet | tick | channel | out =>
    rw [present_kept hs h (by simp) (by simp)]
    simp [Adds, Removes]

theorem maxPorts_step (hs : a.Sound) (h : a.step now ev = .ok reply) :
    reply.agent.maxPorts = a.maxPorts := by
  cases ev with
  | request r =>
    cases h
    rcases request_cases a r now with ⟨_, hr⟩ | ⟨_, hp⟩
    · exact congrArg Agent.maxPorts hr
    · exact (performs_editedBy hs hp).beside.maxPorts
  | startup rows =>
    cases h
    change (a.applyInitialTimeouts rows).1.maxPorts = _
    rw [applyInitialTimeouts_fst]
  | packet | channel | out =>
    cases h
    rfl
  | tick e =>
    rw [step] at h
    split at h
    · cases h
    · rename_i r ht
      cases h
      exact (tick_config ht).1

theorem maxPorts_run (hs : a.Sound) (h : a.run xs = .ok b) : b.maxPorts = a.maxPorts :=
  run_keeps (P := fun c => c.maxPorts = a.maxPorts)
    (fun hs hr hmax => (maxPorts_step hs hr).trans hmax) hs h rfl

/-- Rows are there if they were added during the run, or before it, and not removed since. -/
theorem present_run (hs : a.Sound) (h : a.run xs = .ok b) (t : TableId) (k : t.Key) :
    b.present t k = true ↔
      a.Since (fun c now ev => c.Adds now ev t k) (fun c now ev => c.Removes now ev t k) xs ∨
        a.present t k = true ∧ a.Throughout (fun c now ev => ¬ c.Removes now ev t k) xs := by
  induction xs generalizing a with
  | nil =>
    cases h
    simp [not_since_nil, Throughout]
  | cons x xs ih =>
    obtain ⟨now, ev⟩ := x
    obtain ⟨reply, hr, hx⟩ := run_cons_ok h
    rw [ih (sound_step hs hr) hx, present_step hs hr, since_cons hr, throughout_cons hr]
    tauto

/-- Every answer of an agent with any history is decided. The rows of its tables are those that the
history added and has not removed since. A request for figures is not supported where a table keeps
none. Any other request of the form that its table asks for is decided by whether its row is there,
and one of no such form is a parameter error. -/
theorem requests_decided (maxPorts : UInt32) (channel : χ) (out : ω) (history : History χ ω) :
    ∃ a, (new maxPorts channel out).run history = .ok a ∧ a.maxPorts = maxPorts ∧
      (∀ t k, a.present t k = true ↔ (new maxPorts channel out).Since
        (fun c now ev => c.Adds now ev t k) (fun c now ev => c.Removes now ev t k) history) ∧
      ∀ r now, (r.op.kind = .getStats ∧ ¬ r.table.HasStats →
          (a.request r now).answer.verdict = .refused .notSupported) ∧
        ((r.op.kind = .getStats → r.table.HasStats) →
          (∀ k, a.WellFormed r.table k r.op →
            (a.request r now).answer.verdict = r.op.kind.verdict (a.present r.table k)) ∧
          ((∀ k, ¬ a.WellFormed r.table k r.op) →
            (a.request r now).answer.verdict = .refused .param)) := by
  obtain ⟨a, ha, hs⟩ := run_ok (sound_new maxPorts channel out) history
  refine ⟨a, ha, maxPorts_run (sound_new _ _ _) ha, fun t k => ?_, fun r now => ⟨?_, ?_⟩⟩
  · rw [present_run (sound_new _ _ _) ha, not_present_new]
    simp
  · rintro ⟨hop, ht⟩
    rw [request_verdict, a.perform_not_supported hop ht]
    rfl
  · exact a.request_decided r now

end
end Agent
end Snooping
