import Snooping.Proofs.History

/-! Every event makes of each roster what its `change` says, and no event fails. -/
namespace Snooping.Agent

variable {χ ω : Type} {a a' : Agent χ ω} {table : TableId} {key value : List Field}
  {now : Nat} {traces : List Trace}

theorem applyInitialTimeouts_fst (a : Agent χ ω) (rows : List (TimeoutName × Duration)) :
    (a.applyInitialTimeouts rows).1 =
      { a with timeouts := (a.applyInitialTimeouts rows).1.timeouts } := by
  refine List.foldlRecOn (motive := fun s : Agent χ ω × List Trace =>
    s.1 = { a with timeouts := s.1.timeouts }) rows _ rfl ?_
  rintro ⟨b, _⟩ hb ⟨n, ms⟩ _
  rw [show b = { a with timeouts := b.timeouts } from hb]
  rfl

section Requests
variable [PacketOut ω]

theorem add_takes (hs : a.Sound) (h : a.add table key value now = .ok (a', traces))
    (e : EngineId) :
    (if table = e.table then (e.key? key).elim .none .renew else Change.none).Takes now
      (a.interval e) (a.roster e) (a'.roster e) := by
  cases table <;>
    simp only [add, bind_eq_ok_iff, pure_eq_ok_iff, Prod.mk.injEq, Prod.exists] at h
  case timeout | rxPortGroup | txPortGroup =>
    obtain ⟨_, _, _, rfl, _⟩ := h
    cases e <;> exact rfl
  case generalQueryExpectation | reportExpectation | pimExpectation =>
    obtain ⟨_, _, h, rfl, _⟩ := h
    cases e <;> first | exact rfl | exact Expectation.Table.add_takes (hs _) h
  case generalQueryTx =>
    obtain ⟨_, h, rfl, _⟩ := h
    cases e
    case generalQueryTx =>
      exact Transmission.Table.add_takes hs.generalQueryTx
        (fun k hk => (Transmission.generalQuery_reading_some hk).1) h
    all_goals exact rfl
  case reportTx =>
    obtain ⟨_, h, rfl, _⟩ := h
    cases e
    case reportTx =>
      exact Transmission.Table.add_takes hs.reportTx
        (fun k hk => (Transmission.report_reading_some hk).1) h
    all_goals exact rfl

theorem modify_takes (hs : a.Sound) (h : a.modify table key value now = .ok (a', traces))
    (e : EngineId) :
    (if table = e.table then
      if e.isTransmission then (e.key? key).elim .none .renew else .none
      else Change.none).Takes now (a.interval e) (a.roster e) (a'.roster e) := by
  cases table <;>
    simp only [modify, bind_eq_ok_iff, pure_eq_ok_iff, Prod.mk.injEq, Prod.exists] at h
  case timeout | rxPortGroup | txPortGroup =>
    obtain ⟨_, _, _, rfl, _⟩ := h
    cases e <;> exact rfl
  case generalQueryExpectation | reportExpectation | pimExpectation =>
    obtain ⟨_, _, rfl, _⟩ := h
    cases e <;> exact rfl
  case generalQueryTx | reportTx =>
    obtain ⟨_, h, rfl, _⟩ := h
    cases e <;> first | exact rfl | exact Transmission.Table.modify_takes (hs _) h

omit [PacketOut ω] in
theorem delete_takes (hs : a.Sound) (h : a.delete table key = .ok (a', traces))
    (e : EngineId) :
    (if table = e.table then (e.key? key).elim .none .cancel else Change.none).Takes now
      (a.interval e) (a.roster e) (a'.roster e) := by
  cases table <;>
    simp only [delete, bind_eq_ok_iff, pure_eq_ok_iff, Prod.mk.injEq, Prod.exists] at h <;>
    obtain ⟨_, _, h, rfl, _⟩ := h
  case timeout | rxPortGroup | txPortGroup => cases e <;> exact rfl
  case generalQueryExpectation | reportExpectation | pimExpectation =>
    cases e <;> first | exact rfl | exact Expectation.Table.delete_takes (hs _) h
  case generalQueryTx | reportTx =>
    cases e <;> first | exact rfl | exact Transmission.Table.delete_takes (hs _) h

/-- `a'` is what the operation makes of `a` when it is accepted. -/
def Performs (a a' : Agent χ ω) (table : TableId) (now : Nat) : TableOp → Prop
  | .add key value => ∃ traces, a.add table key value now = .ok (a', traces)
  | .modify key value => ∃ traces, a.modify table key value now = .ok (a', traces)
  | .delete key => ∃ traces, a.delete table key = .ok (a', traces)
  | .getStats _ => False

/-- Only an operation that is answered with ok changes the agent. -/
theorem request_cases (a : Agent χ ω) (r : TableRequest) (now : Nat) :
    (a.request r now).answer ≠ .ok ∧ (a.request r now).agent = a ∨
      (a.request r now).answer = .ok ∧ a.Performs (a.request r now).agent r.table now r.op := by
  rw [request_eq]
  split
  · rename_i a' response traces h
    cases hop : r.op <;> rw [hop] at h <;>
      simp only [perform, bind_eq_ok_iff, pure_eq_ok_iff, Prod.mk.injEq, Prod.exists] at h
    case getStats =>
      obtain ⟨_, _, rfl, rfl, _⟩ := h
      exact .inl ⟨by simp, rfl⟩
    all_goals
      obtain ⟨_, _, h, rfl, rfl, _⟩ := h
      exact .inr ⟨rfl, _, h⟩
  · exact .inl ⟨by simp [TableResponse.ofError], rfl⟩

theorem request_takes (hs : a.Sound) (r : TableRequest) (now : Nat) (e : EngineId) :
    (a.requestChange now r e).Takes now (a.interval e) (a.roster e)
      ((a.request r now).agent.roster e) := by
  unfold requestChange
  rcases request_cases a r now with ⟨hn, ha⟩ | ⟨hok, hp⟩
  · rw [if_neg (by simp [TableResponse.isOk_iff, hn])]
    exact congrArg (roster · e) ha
  · simp only [TableResponse.isOk_iff.mpr hok, and_true]
    cases hop : r.op <;> rw [hop] at hp
    case add => exact add_takes hs hp.choose_spec e
    case modify => exact modify_takes hs hp.choose_spec e
    case delete => exact delete_takes hs hp.choose_spec e
    case getStats => exact hp.elim

end Requests

/-- A frame changes the expectation tables by its effect, and counts its outcome. -/
theorem classify_effect (a : Agent χ ω) (frame : Bytes) (inPort : UInt32) (now : Nat) :
    ∃ targets, Classifier.Effect ⟨a.rxPorts, a.timeouts, inPort, now⟩ frame
        ⟨a.generalQuery, a.report, a.pim⟩ (a.classify frame inPort now).answer targets ∧
      (a.classify frame inPort now).agent = { a with
        generalQuery := targets.generalQuery
        report := targets.report
        pim := targets.pim
        classified := a.classified.record (a.classify frame inPort now).answer } :=
  ⟨_, Classifier.classify_effect .., rfl⟩

theorem classify_takes (hs : a.Sound) (frame : Bytes) (inPort : UInt32) (now : Nat)
    (e : EngineId) :
    ((a.hitKey? now frame inPort e).elim .none .renew : Change e.Key).Takes now (a.interval e)
      (a.roster e) ((a.classify frame inPort now).agent.roster e) := by
  have heff := Classifier.classify_effect ⟨a.rxPorts, a.timeouts, inPort, now⟩ frame
    ⟨a.generalQuery, a.report, a.pim⟩
  cases e with
  | generalQueryExpectation => exact heff.generalQuery_met.takes hs.generalQuery
  | reportExpectation => exact heff.report_met.takes hs.report
  | pimExpectation => exact heff.pim_met.takes hs.pim
  | generalQueryTx | reportTx => exact rfl

variable [ControllerChannel χ] [PacketOut ω]

/-- A tick of a sound agent succeeds. It serves what is due on its own engine, and hands both ways
out what the served keys are due and nothing else. -/
theorem tick_ok (hs : a.Sound) (e : EngineId) (now : Nat) :
    ∃ reply, a.tick e now = .ok reply ∧
      (∀ e', (if e = e' then .serve else Change.none).Takes now (a.interval e') (a.roster e')
        (reply.agent.roster e')) ∧
      (reply.agent.channel, reply.agent.out) =
        (a.served e now).foldl (a.emit e) (a.channel, a.out) := by
  cases e with
  | generalQueryExpectation =>
    obtain ⟨r, hr, ht, hw⟩ := a.announce_tick hs.generalQuery Expectation.generalQuery
      (a.timeouts.get .query) now
    refine ⟨_, by rw [tick, hr]; rfl, ?_, hw⟩
    intro e'
    cases e' <;> first | exact rfl | exact ht
  | reportExpectation =>
    obtain ⟨r, hr, ht, hw⟩ := a.announce_tick hs.report Expectation.report
      (a.timeouts.get .report) now
    refine ⟨_, by rw [tick, hr]; rfl, ?_, hw⟩
    intro e'
    cases e' <;> first | exact rfl | exact ht
  | pimExpectation =>
    obtain ⟨r, hr, ht, hw⟩ := a.announce_tick hs.pim Expectation.pim
      (a.timeouts.get .query) now
    refine ⟨_, by rw [tick, hr]; rfl, ?_, hw⟩
    intro e'
    cases e' <;> first | exact rfl | exact ht
  | generalQueryTx =>
    obtain ⟨r, hr, ht, hw⟩ := a.resend_tick hs.generalQueryTx Transmission.generalQuery
      (a.timeouts.get .queryTx) now
    refine ⟨_, by rw [tick, hr]; rfl, ?_, hw⟩
    intro e'
    cases e' <;> first | exact rfl | exact ht
  | reportTx =>
    obtain ⟨r, hr, ht, hw⟩ := a.resend_tick hs.reportTx Transmission.report
      (a.timeouts.get .reportTx) now
    refine ⟨_, by rw [tick, hr]; rfl, ?_, hw⟩
    intro e'
    cases e' <;> first | exact rfl | exact ht

theorem step_ok (hs : a.Sound) (now : Nat) (ev : Event χ ω) :
    ∃ reply, a.step now ev = .ok reply := by
  cases ev with
  | tick e =>
    obtain ⟨reply, h, _⟩ := tick_ok hs e now
    exact ⟨_, by rw [step, h]⟩
  | _ => exact ⟨_, rfl⟩

theorem step_takes {ev : Event χ ω} {reply : Reply χ ω Answer} (hs : a.Sound)
    (h : a.step now ev = .ok reply) (e : EngineId) :
    (a.change now ev e).Takes now (a.interval e) (a.roster e) (reply.agent.roster e) := by
  cases ev with
  | request r =>
    cases h
    exact request_takes hs r now e
  | packet frame inPort =>
    cases h
    exact classify_takes hs frame inPort now e
  | tick e' =>
    obtain ⟨r, hr, ht, _⟩ := tick_ok hs e' now
    rw [step, hr] at h
    cases h
    exact ht e
  | startup rows =>
    cases h
    change (a.applyInitialTimeouts rows).1.roster e = a.roster e
    rw [applyInitialTimeouts_fst]
    cases e <;> rfl
  | channel f | out f =>
    cases h
    cases e <;> exact rfl

end Snooping.Agent
