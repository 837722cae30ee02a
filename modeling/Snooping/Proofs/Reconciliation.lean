import Mathlib.Algebra.BigOperators.Group.List.Basic
import Mathlib.Algebra.GroupWithZero.Nat
import Snooping.Proofs.Absorption
import Snooping.Proofs.Accounts
import Snooping.Proofs.Egress

/-!
Counters against the past of an agent: what it has counted is what the events of its history did,
and what they left in the two queues.
-/
namespace Snooping

/-- Recording an outcome adds one to the total. -/
theorem Classifier.Counters.total_record (c : Counters) (o : Outcome) :
    (c.record o).total = c.total + 1 := by
  simp only [total, Outcome.all, List.foldl_cons, List.foldl_nil, get_record]
  cases o <;> simp only [reduceCtorEq, if_true, if_false] <;> omega

/-- Each lookup counts once, as sent or as failed if a port was found, and else as unresolved. -/
theorem Transmission.Counters.CountsOn.total {ports : List (Option UInt32)} {c c' : Counters}
    (h : CountsOn ports c c') :
    c'.sent + c'.unresolved + c'.failed = c.sent + c.unresolved + c.failed + ports.length := by
  have hattempted := h.attempted
  have hunresolved := h.unresolved
  have hlength := List.length_eq_countP_add_countP (·.isSome) (l := ports)
  simp only [Bool.not_eq_true, Option.isSome_eq_false_iff, Bool.decide_eq_true] at hlength
  simp only [Transmission.Counters.attempted] at hattempted
  omega

/-- The outcome that a hit on an expectation table has. -/
def EngineId.hit? : EngineId → Option Outcome
  | generalQueryExpectation => some .generalQueryHit
  | reportExpectation => some .reportHit
  | pimExpectation => some .pimHelloHit
  | generalQueryTx | reportTx => none

namespace Agent

variable {χ ω : Type}

/-- An event with the agent that met it and the reply. -/
structure Turn (χ ω : Type) where
  agent : Agent χ ω
  now : Nat
  event : Event χ ω
  reply : Reply χ ω Answer

namespace Turn

/-- Frames classified. -/
def classified (t : Turn χ ω) : Nat :=
  match t.event with
  | .packet .. => 1
  | _ => 0

/-- Keys of `e` that a timer served. -/
def serviced (t : Turn χ ω) (e : EngineId) : Nat :=
  match t.event with
  | .tick e' => if e' = e then (t.agent.served e t.now).length else 0
  | _ => 0

/-- Messages about a table that a timer queued for the controller. -/
def told (t : Turn ControllerLink ω) (table : TableId) : Nat :=
  match t.event with
  | .tick _ => (t.reply.agent.channel.queued.drop t.agent.channel.queued.length).countP
      (·.isAbout table)
  | _ => 0

/-- Frames queued for packet-out. What a change of the queue itself does is not counted. -/
def forwarded (t : Turn χ FrameSender) : Nat :=
  match t.event with
  | .out _ => 0
  | _ => t.reply.agent.out.queued.length - t.agent.out.queued.length

/-- Accepted requests for `e` of one kind. -/
def accepted [PacketOut ω] (t : Turn χ ω) (op : TableOp.Kind) (e : EngineId) : Nat :=
  match t.event with
  | .request r =>
    if r.table = e.table ∧ r.op.kind = op ∧ (t.agent.request r t.now).answer.isOk then 1 else 0
  | _ => 0

end Turn

/-- What an expectation table has counted. -/
def awaiting (a : Agent χ ω) : EngineId → Expectation.Counters
  | .generalQueryExpectation => a.generalQuery.counters
  | .reportExpectation => a.report.counters
  | .pimExpectation => a.pim.counters
  | .generalQueryTx | .reportTx => ⟨0, 0, 0, 0, 0⟩

section Runs

variable [ControllerChannel χ] [PacketOut ω] {a b : Agent χ ω} {xs : History χ ω}

/-- The turns of a run. -/
def turns (a : Agent χ ω) : History χ ω → List (Turn χ ω)
  | [] => []
  | (now, ev) :: rest =>
    match a.step now ev with
    | .error _ => []
    | .ok reply => ⟨a, now, ev, reply⟩ :: turns reply.agent rest

theorem turns_cons {now : Nat} {ev : Event χ ω} {reply : Reply χ ω Answer}
    (h : a.step now ev = .ok reply) :
    a.turns ((now, ev) :: xs) = ⟨a, now, ev, reply⟩ :: reply.agent.turns xs := by
  rw [turns, h]

/-- The sum of a figure over all turns of a run. -/
def sumOver (a : Agent χ ω) (xs : History χ ω) (f : Turn χ ω → Nat) : Nat :=
  ((a.turns xs).map f).sum

/-- A count that every step adds a figure to has added up the figure in the end. -/
theorem count_run {m : Agent χ ω → Nat} {f : Turn χ ω → Nat}
    (hstep : ∀ {a : Agent χ ω} {now ev reply}, a.Sound → a.step now ev = .ok reply →
      m reply.agent = m a + f ⟨a, now, ev, reply⟩)
    (hs : a.Sound) (h : a.run xs = .ok b) : m b = m a + a.sumOver xs f := by
  induction xs generalizing a with
  | nil =>
    cases h
    rfl
  | cons x xs ih =>
    obtain ⟨now, ev⟩ := x
    obtain ⟨reply, hr, hx⟩ := run_cons_ok h
    have hrest := ih (sound_step hs hr) hx
    have hfirst := hstep hs hr
    simp only [sumOver, turns_cons hr, List.map_cons, List.sum_cons] at hrest ⊢
    omega

/-- What every step of a run does, all its turns do. -/
theorem turns_of_step {P : Turn χ ω → Prop}
    (hstep : ∀ {a : Agent χ ω} {now ev reply}, a.Sound → a.step now ev = .ok reply →
      P ⟨a, now, ev, reply⟩) (hs : a.Sound) : ∀ t ∈ a.turns xs, P t := by
  induction xs generalizing a with
  | nil => simp [turns]
  | cons x xs ih =>
    obtain ⟨now, ev⟩ := x
    obtain ⟨reply, hr⟩ := step_ok hs now ev
    intro t ht
    rw [turns_cons hr] at ht
    rcases List.mem_cons.mp ht with rfl | ht
    · exact hstep hs hr
    · exact ih (sound_step hs hr) t ht

end Runs

section Expectations

variable [PacketOut ω] {a b : Agent χ ω} {r : TableRequest} {now : Nat} {e : EngineId}

/-- Requests do not count towards expectations or outcomes. -/
theorem request_awaiting (hs : a.Sound) (r : TableRequest) (now : Nat) :
    (a.request r now).agent.awaiting = a.awaiting ∧
      (a.request r now).agent.classified = a.classified ∧
      (a.request r now).agent.channel = a.channel := by
  rcases request_cases a r now with ⟨_, hr⟩ | ⟨_, hp⟩
  · rw [hr]
    exact ⟨rfl, rfl, rfl⟩
  · have hedited := performs_editedBy hs hp
    generalize (a.request r now).agent = a' at hedited
    obtain ⟨table, op⟩ := r
    cases table
    case generalQueryTx | reportTx =>
      obtain ⟨_, _, _, _, h⟩ := hedited
      rw [h]
      exact ⟨rfl, rfl, rfl⟩
    case timeout | rxPortGroup | txPortGroup =>
      obtain ⟨_, _, _, h⟩ := hedited
      rw [h]
      exact ⟨rfl, rfl, rfl⟩
    all_goals
      obtain ⟨_, _, hat, h⟩ := hedited
      rw [h]
      refine ⟨funext fun e => ?_, rfl, rfl⟩
      cases e <;> first | rfl | exact hat.counters

omit [PacketOut ω] in
/-- A frame counts its outcome, and a hit counts in its table too. -/
theorem classify_awaiting (a : Agent χ ω) (frame : Bytes) (inPort : UInt32) (now : Nat) :
    (a.classify frame inPort now).agent.classified =
        a.classified.record (a.classify frame inPort now).answer ∧
      ∀ e, (a.classify frame inPort now).agent.awaiting e = { a.awaiting e with
        hits := (a.awaiting e).hits +
          if e.hit? = some (a.classify frame inPort now).answer then 1 else 0 } := by
  obtain ⟨targets, heff, ha⟩ := a.classify_effect frame inPort now
  rw [ha]
  refine ⟨rfl, fun e => ?_⟩
  generalize (a.classify frame inPort now).answer = o at heff
  cases heff with
  | miss h =>
    obtain ⟨hq, hr, hp⟩ := h
    have hno : e.hit? ≠ some o := by
      cases e <;> simp [EngineId.hit?, Ne.symm hq, Ne.symm hr, Ne.symm hp]
    rw [if_neg hno]
    cases e <;> rfl
  | generalQuery _ hit | report _ hit | pim _ hit =>
    obtain ⟨_, _, rfl⟩ := Expectation.Table.hit?_some hit
    cases e <;> rfl

theorem tick_classified [ControllerChannel χ] {r : Reply χ ω Nat}
    (h : a.tick e now = .ok r) : r.agent.classified = a.classified := by
  cases e <;> simp only [tick, bind_eq_ok_iff, pure_eq_ok_iff] at h <;>
    obtain ⟨t, _, rfl⟩ := h <;> rfl

/-- Every frame counts one outcome, and nothing else counts any. -/
theorem step_classified [ControllerChannel χ] {ev : Event χ ω} {reply : Reply χ ω Answer}
    (hs : a.Sound) (h : a.step now ev = .ok reply) :
    reply.agent.classified.total = a.classified.total + Turn.classified ⟨a, now, ev, reply⟩ := by
  cases ev with
  | request r =>
    cases h
    obtain ⟨_, hclassified, _⟩ := request_awaiting hs r now
    change (a.request r now).agent.classified.total = a.classified.total + 0
    rw [hclassified, Nat.add_zero]
  | packet frame inPort =>
    cases h
    obtain ⟨hclassified, _⟩ := a.classify_awaiting frame inPort now
    change (a.classify frame inPort now).agent.classified.total = a.classified.total + 1
    rw [hclassified, Classifier.Counters.total_record]
  | tick e =>
    rw [step] at h
    split at h
    · cases h
    · rename_i r ht
      cases h
      change r.agent.classified.total = a.classified.total + 0
      rw [tick_classified ht, Nat.add_zero]
  | startup rows =>
    cases h
    change (a.applyInitialTimeouts rows).1.classified.total = a.classified.total + 0
    rw [applyInitialTimeouts_fst, Nat.add_zero]
  | channel | out =>
    cases h
    exact (Nat.add_zero _).symm

end Expectations

section Links

variable [PacketOut ω] {a b : Agent ControllerLink ω} {now : Nat} {e : EngineId}
  {ev : Event ControllerLink ω} {xs : History ControllerLink ω}
  {reply : Reply ControllerLink ω Answer}

/-- What `e` counts over a tick of `e'`, which queues messages about its own table only. -/
structure Announced (e' e : EngineId) (messages : List ControllerMessage)
    (c c' : Expectation.Counters) : Prop where
  hits : c'.hits = c.hits
  sent : c'.sent = c.sent + if e = e' then messages.length else 0
  balanced : c.Balanced → c'.Balanced

theorem announced_of_tells {ms : List ControllerMessage} {l l' : ControllerLink}
    {c c' : Expectation.Counters} (h : c.Tells e.table ms l l' c') : Announced e e ms c c' :=
  ⟨h.hits, by rw [h.sent, if_pos rfl], h.balanced⟩

theorem announced_other {e' : EngineId} (he : e ≠ e') (ms : List ControllerMessage)
    (c : Expectation.Counters) : Announced e' e ms c c :=
  ⟨rfl, by rw [if_neg he, Nat.add_zero], id⟩

theorem announced_nil (e' e : EngineId) (c : Expectation.Counters) : Announced e' e [] c c :=
  ⟨rfl, by split <;> rfl, id⟩

theorem tick_announced {e' : EngineId} {r : Reply ControllerLink ω Nat}
    (h : a.tick e' now = .ok r) :
    ∃ ms, r.agent.channel.queued = a.channel.queued ++ ms ∧
      (∀ m ∈ ms, m.isAbout e'.table = true) ∧
      ∀ e, Announced e' e ms (a.awaiting e) (r.agent.awaiting e) := by
  cases e' <;> simp only [tick, bind_eq_ok_iff, pure_eq_ok_iff] at h <;> obtain ⟨t, ht, rfl⟩ := h
  case generalQueryExpectation | reportExpectation | pimExpectation =>
    obtain ⟨ms, htells⟩ := Expectation.Table.tick_tells (fun _ => rfl) ht
    refine ⟨ms, htells.queued, htells.about, fun e => ?_⟩
    cases e
    all_goals first
      | exact announced_of_tells htells
      | exact announced_other (by decide) ms _
  case generalQueryTx | reportTx =>
    refine ⟨[], (List.append_nil _).symm, (by intro _ hm; cases hm), fun e => ?_⟩
    cases e <;> exact announced_nil _ _ _

theorem isAbout_inj {m : ControllerMessage} {table table' : TableId}
    (h : m.isAbout table = true) (h' : m.isAbout table' = true) : table = table' := by
  obtain ⟨n⟩ := m
  exact (of_decide_eq_true h).symm.trans (of_decide_eq_true h')

theorem table_inj {e e' : EngineId} (h : e.table = e'.table) : e = e' := by
  cases e <;> cases e' <;> first | rfl | cases h

/-- Messages about the table of one engine are about that of no other. -/
theorem countP_isAbout {e' : EngineId} {ms : List ControllerMessage}
    (h : ∀ m ∈ ms, m.isAbout e'.table = true) (e : EngineId) :
    ms.countP (·.isAbout e.table) = if e = e' then ms.length else 0 := by
  by_cases he : e = e'
  · subst he
    rw [if_pos rfl, List.countP_eq_length.mpr h]
  · rw [if_neg he, List.countP_eq_zero]
    intro m hm hm'
    exact he (table_inj (isAbout_inj hm' (h m hm)))

/-- From `a` to `a'`, table `e` counts hits with the classifier, accounts for every expiration, and
counts `told` notifications as sent. -/
structure Reckons (a a' : Agent ControllerLink ω) (e : EngineId) (told : Nat) : Prop where
  hits : ∀ o, e.hit? = some o → a.classified.get o = (a.awaiting e).hits →
    a'.classified.get o = (a'.awaiting e).hits
  balanced : (a.awaiting e).Balanced → (a'.awaiting e).Balanced
  sent : (a'.awaiting e).sent = (a.awaiting e).sent + told

omit [PacketOut ω] in
theorem reckons_of_eq {a' : Agent ControllerLink ω} (hawaiting : a'.awaiting e = a.awaiting e)
    (hclassified : a'.classified = a.classified) : a.Reckons a' e 0 := by
  refine ⟨fun o _ hget => ?_, fun hb => ?_, ?_⟩
  · rwa [hawaiting, hclassified]
  · rwa [hawaiting]
  · rw [hawaiting, Nat.add_zero]

/-- What a timer counts as sent it has queued. -/
theorem tick_reckons {e' : EngineId} {r : Reply ControllerLink ω Nat} (h : a.tick e' now = .ok r)
    (e : EngineId) : a.Reckons r.agent e
      ((r.agent.channel.queued.drop a.channel.queued.length).countP (·.isAbout e.table)) := by
  obtain ⟨ms, hqueued, habout, hannounced⟩ := tick_announced h
  have hcounts := hannounced e
  rw [hqueued, List.drop_left, countP_isAbout habout]
  refine ⟨fun o _ hget => ?_, hcounts.balanced, hcounts.sent⟩
  rw [tick_classified h, hget, hcounts.hits]

omit [PacketOut ω] in
theorem classify_reckons (a : Agent ControllerLink ω) (frame : Bytes) (inPort : UInt32)
    (now : Nat) (e : EngineId) : a.Reckons (a.classify frame inPort now).agent e 0 := by
  obtain ⟨hclassified, hawaiting⟩ := a.classify_awaiting frame inPort now
  refine ⟨fun o ho hget => ?_, ?_, ?_⟩
  · rw [hclassified, hawaiting e, Classifier.Counters.get_record, hget, ho]
    simp only [Option.some.injEq]
  · rw [hawaiting e]
    exact id
  · rw [hawaiting e, Nat.add_zero]

theorem step_reckons (hs : a.Sound) (h : a.step now ev = .ok reply) (e : EngineId) :
    a.Reckons reply.agent e (Turn.told ⟨a, now, ev, reply⟩ e.table) := by
  cases ev with
  | request r =>
    cases h
    obtain ⟨hawaiting, hclassified, _⟩ := request_awaiting hs r now
    exact reckons_of_eq (congrFun hawaiting e) hclassified
  | packet frame inPort =>
    cases h
    exact a.classify_reckons frame inPort now e
  | tick e' =>
    rw [step] at h
    split at h
    · cases h
    · rename_i r ht
      cases h
      exact tick_reckons ht e
  | startup rows =>
    cases h
    change a.Reckons (a.applyInitialTimeouts rows).1 e 0
    rw [applyInitialTimeouts_fst]
    exact reckons_of_eq (by cases e <;> rfl) rfl
  | channel f | out f =>
    cases h
    exact reckons_of_eq (by cases e <;> rfl) rfl

theorem hits_run {o : Outcome} (hs : a.Sound) (h : a.run xs = .ok b) (ho : e.hit? = some o)
    (hget : a.classified.get o = (a.awaiting e).hits) : b.classified.get o = (b.awaiting e).hits :=
  run_keeps (P := fun c => c.classified.get o = (c.awaiting e).hits)
    (fun hs hr => (step_reckons hs hr e).hits o ho) hs h hget

theorem balanced_run (hs : a.Sound) (h : a.run xs = .ok b) (hb : (a.awaiting e).Balanced) :
    (b.awaiting e).Balanced :=
  run_keeps (P := fun c => (c.awaiting e).Balanced)
    (fun hs hr => (step_reckons hs hr e).balanced) hs h hb

/-- Nothing but a change of the connection takes a message back. -/
theorem step_queued (hs : a.Sound) (h : a.step now ev = .ok reply)
    (hchannel : ∀ f, ev ≠ .channel f) : a.channel.queued <+: reply.agent.channel.queued := by
  cases ev with
  | request r =>
    cases h
    obtain ⟨_, _, hkept⟩ := request_awaiting hs r now
    exact hkept ▸ List.prefix_rfl
  | tick e =>
    rw [step] at h
    split at h
    · cases h
    · rename_i r ht
      cases h
      obtain ⟨ms, hqueued, _⟩ := tick_announced ht
      exact ⟨ms, hqueued.symm⟩
  | startup rows =>
    cases h
    have hkept : (a.applyInitialTimeouts rows).1.channel.queued = a.channel.queued := by
      rw [applyInitialTimeouts_fst]
    exact hkept ▸ List.prefix_rfl
  | packet | out =>
    cases h
    exact List.prefix_rfl
  | channel f => exact (hchannel f rfl).elim

end Links

section Senders

/-- Frames that the senders have counted as sent. -/
def sent (a : Agent χ ω) : Nat := a.generalQueryTx.counters.sent + a.reportTx.counters.sent

variable {a a' : Agent χ FrameSender} {now : Nat} {table : TableId} {op : TableOp}

/-- From `a` to `a'`, the frames that were queued are those that were counted as sent. -/
def Forwards (a a' : Agent χ FrameSender) : Prop :=
  ∃ frames, a'.out.queued = a.out.queued ++ frames ∧ a'.sent = a.sent + frames.length

theorem forwards_of_eq (hout : a'.out = a.out)
    (hquery : a'.generalQueryTx.counters = a.generalQueryTx.counters)
    (hreport : a'.reportTx.counters = a.reportTx.counters) : a.Forwards a' := by
  refine ⟨[], ?_, ?_⟩
  · rw [hout, List.append_nil]
  · rw [sent, sent, hquery, hreport]
    rfl

theorem forwards_generalQueryTx {fs : List OutboundFrame} {t : Transmission.Table VlanKey}
    {out : FrameSender} (h : a.generalQueryTx.counters.Queues fs a.out out t.counters) :
    a.Forwards { a with generalQueryTx := t, out } := by
  refine ⟨fs, h.queued, ?_⟩
  have hsent := h.sent
  simp only [sent]
  omega

theorem forwards_reportTx {fs : List OutboundFrame} {t : Transmission.Table GroupKey}
    {out : FrameSender} (h : a.reportTx.counters.Queues fs a.out out t.counters) :
    a.Forwards { a with reportTx := t, out } := by
  refine ⟨fs, h.queued, ?_⟩
  have hsent := h.sent
  simp only [sent]
  omega

theorem performs_forwards (hp : a.Performs a' table now op) : a.Forwards a' := by
  cases op with
  | getStats key => exact hp.elim
  | add key value =>
    obtain ⟨traces, h⟩ := hp
    cases table <;>
      simp only [add, bind_eq_ok_iff, pure_eq_ok_iff, Prod.mk.injEq, Prod.exists] at h
    case generalQueryTx =>
      obtain ⟨c, h, rfl, _⟩ := h
      obtain ⟨fs, hq⟩ := Transmission.Table.add_queues h
      exact forwards_generalQueryTx hq
    case reportTx =>
      obtain ⟨c, h, rfl, _⟩ := h
      obtain ⟨fs, hq⟩ := Transmission.Table.add_queues h
      exact forwards_reportTx hq
    all_goals
      obtain ⟨_, _, _, rfl, _⟩ := h
      exact forwards_of_eq rfl rfl rfl
  | modify key value =>
    obtain ⟨traces, h⟩ := hp
    cases table <;>
      simp only [modify, bind_eq_ok_iff, pure_eq_ok_iff, Prod.mk.injEq, Prod.exists] at h
    case generalQueryTx =>
      obtain ⟨c, h, rfl, _⟩ := h
      obtain ⟨fs, hq⟩ := Transmission.Table.modify_queues h
      exact forwards_generalQueryTx hq
    case reportTx =>
      obtain ⟨c, h, rfl, _⟩ := h
      obtain ⟨fs, hq⟩ := Transmission.Table.modify_queues h
      exact forwards_reportTx hq
    case generalQueryExpectation | reportExpectation | pimExpectation =>
      obtain ⟨_, _, rfl, _⟩ := h
      exact forwards_of_eq rfl rfl rfl
    all_goals
      obtain ⟨_, _, _, rfl, _⟩ := h
      exact forwards_of_eq rfl rfl rfl
  | delete key =>
    obtain ⟨traces, h⟩ := hp
    cases table <;>
      simp only [delete, bind_eq_ok_iff, pure_eq_ok_iff, Prod.mk.injEq, Prod.exists] at h <;>
      obtain ⟨_, _, h, rfl, _⟩ := h
    case generalQueryTx | reportTx =>
      obtain ⟨_, _, _, _, rfl⟩ := Transmission.Table.delete_ok h
      exact forwards_of_eq rfl rfl rfl
    all_goals exact forwards_of_eq rfl rfl rfl

variable [ControllerChannel χ] {ev : Event χ FrameSender} {reply : Reply χ FrameSender Answer}

theorem tick_forwards {e : EngineId} {r : Reply χ FrameSender Nat} (h : a.tick e now = .ok r) :
    a.Forwards r.agent := by
  cases e <;> simp only [tick, bind_eq_ok_iff, pure_eq_ok_iff] at h <;> obtain ⟨t, ht, rfl⟩ := h
  case generalQueryTx =>
    obtain ⟨fs, hq⟩ := Transmission.Table.tick_queues ht
    exact forwards_generalQueryTx hq
  case reportTx =>
    obtain ⟨fs, hq⟩ := Transmission.Table.tick_queues ht
    exact forwards_reportTx hq
  all_goals exact forwards_of_eq rfl rfl rfl

theorem step_forwards (h : a.step now ev = .ok reply) (hout : ∀ f, ev ≠ .out f) :
    a.Forwards reply.agent := by
  cases ev with
  | request r =>
    cases h
    rcases request_cases a r now with ⟨_, hr⟩ | ⟨_, hp⟩
    · exact forwards_of_eq (congrArg Agent.out hr) (congrArg (·.generalQueryTx.counters) hr)
        (congrArg (·.reportTx.counters) hr)
    · exact performs_forwards hp
  | tick e =>
    rw [step] at h
    split at h
    · cases h
    · rename_i r ht
      cases h
      exact tick_forwards ht
  | startup rows =>
    cases h
    change a.Forwards (a.applyInitialTimeouts rows).1
    rw [applyInitialTimeouts_fst]
    exact forwards_of_eq rfl rfl rfl
  | packet | channel =>
    cases h
    exact forwards_of_eq rfl rfl rfl
  | out f => exact (hout f rfl).elim

theorem step_out (h : a.step now ev = .ok reply) (hout : ∀ f, ev ≠ .out f) :
    a.out.queued <+: reply.agent.out.queued := by
  obtain ⟨frames, hqueued, _⟩ := step_forwards h hout
  exact ⟨frames, hqueued.symm⟩

theorem step_sent (h : a.step now ev = .ok reply) :
    reply.agent.sent = a.sent + Turn.forwarded ⟨a, now, ev, reply⟩ := by
  by_cases hout : ∃ f, ev = .out f
  · obtain ⟨f, rfl⟩ := hout
    cases h
    rfl
  · obtain ⟨frames, hqueued, hsent⟩ := step_forwards h (not_exists.mp hout)
    have hlength : Turn.forwarded ⟨a, now, ev, reply⟩ =
        reply.agent.out.queued.length - a.out.queued.length := by
      cases ev with
      | out f => exact (hout ⟨f, rfl⟩).elim
      | _ => rfl
    rw [hlength, hqueued, List.length_append, hsent]
    omega

end Senders

section Attempts

variable [PacketOut ω] {a : Agent χ ω} {now : Nat} {e : EngineId}

/-- An accepted request for a sender prompts one attempt, unless it deletes. -/
theorem length_handed_request (hs : a.Sound) (r : TableRequest) (he : e ∈ EngineId.senders) :
    (a.handed now (.request r) e).length =
      if r.table = e.table ∧ (r.op.kind = .add ∨ r.op.kind = .modify) ∧
        (a.request r now).answer.isOk then 1 else 0 := by
  rcases request_cases a r now with ⟨hn, _⟩ | ⟨hok, hp⟩
  · have hnot : ¬ (a.request r now).answer.isOk = true := fun h => hn (TableResponse.isOk_iff.mp h)
    rw [handed_nil (.inl hn), if_neg fun h => hnot h.2.2]
    rfl
  · obtain ⟨table, op⟩ := r
    by_cases ht : table = e.table
    · subst ht
      obtain ⟨k, hk, _⟩ := performs_sends hs he hp
      rw [handed_of_performs he hp hk hok, TableResponse.isOk_iff.mpr hok]
      cases op with
      | getStats key => exact hp.elim
      | add key value | modify key value | delete key => simp [TableOp.kind]
    · have hnone : a.handed now (.request ⟨table, op⟩) e = [] := by
        refine List.eq_nil_iff_forall_not_mem.mpr fun k => not_mem_handed ?_ ?_ <;>
          exact fun h => ht h.1
      rw [hnone, if_neg fun h => ht h.1]
      rfl

/-- An attempt is prompted by an accepted addition or modification, or by a timer. -/
theorem length_handed (hs : a.Sound) (ev : Event χ ω) (reply : Reply χ ω Answer)
    (he : e ∈ EngineId.senders) :
    let t : Turn χ ω := ⟨a, now, ev, reply⟩
    (a.handed now ev e).length = t.accepted .add e + t.accepted .modify e + t.serviced e := by
  intro t
  cases ev with
  | request r =>
    have haccepted : ∀ kind, t.accepted kind e =
        if r.table = e.table ∧ r.op.kind = kind ∧ (a.request r now).answer.isOk then 1 else 0 :=
      fun _ => rfl
    have hserviced : t.serviced e = 0 := rfl
    rw [length_handed_request hs r he, haccepted, haccepted, hserviced]
    cases r.op.kind <;> simp
  | tick e' =>
    have hserviced : t.serviced e = if e' = e then (a.served e now).length else 0 := rfl
    have haccepted : ∀ kind, t.accepted kind e = 0 := fun _ => rfl
    rw [hserviced, haccepted, haccepted, handed]
    split <;> simp
  | packet | startup | channel | out => rfl

variable [ControllerChannel χ] {ev : Event χ ω} {reply : Reply χ ω Answer}

/-- Every attempt counts once: its frame is sent, or refused, or its group has no port. -/
theorem step_attempts (hs : a.Sound) (h : a.step now ev = .ok reply) (he : e ∈ EngineId.senders) :
    let t : Turn χ ω := ⟨a, now, ev, reply⟩
    let c := a.sending e
    let c' := reply.agent.sending e
    c'.sent + c'.unresolved + c'.failed = c.sent + c.unresolved + c.failed +
      (t.accepted .add e + t.accepted .modify e + t.serviced e) := by
  intro t c c'
  have hcounts := (step_sends hs h he).1.total
  rw [portsOf, List.length_map, length_handed hs ev reply he] at hcounts
  exact hcounts

end Attempts

section Runs

theorem sumOver_add {χ ω : Type} [ControllerChannel χ] [PacketOut ω] (a : Agent χ ω)
    (xs : History χ ω) (f g : Turn χ ω → Nat) :
    a.sumOver xs (fun t => f t + g t) = a.sumOver xs f + a.sumOver xs g :=
  List.sum_map_add

/-- After any history, with requests, frames, timers and changes of both connections in any order:
as many outcomes are counted as frames were classified, and hits are those of the tables. Every
expiration was told, skipped or failed, and those told are the messages that timers have queued for
the controller. Every attempt of a sender was sent, refused, or without a port; there was one for
each accepted addition or modification and for each key that a timer served, and those sent are the
frames that were queued for packet-out. -/
theorem counters_reconcile (maxPorts : UInt32) (channel : ControllerLink) (out : FrameSender)
    (history : History ControllerLink FrameSender) :
    ∃ a, (new maxPorts channel out).run history = .ok a ∧
      let sum := (new maxPorts channel out).sumOver history
      a.classified.total = sum (·.classified) ∧
      a.classified.get .generalQueryHit = a.generalQuery.counters.hits ∧
      a.classified.get .reportHit = a.report.counters.hits ∧
      a.classified.get .pimHelloHit = a.pim.counters.hits ∧
      (∀ e, e ∉ EngineId.senders →
        (a.awaiting e).expirations =
          (a.awaiting e).sent + (a.awaiting e).skipped + (a.awaiting e).failed ∧
        (a.awaiting e).sent = sum (·.told e.table)) ∧
      (∀ e ∈ EngineId.senders,
        (a.sending e).sent + (a.sending e).unresolved + (a.sending e).failed =
          sum (·.accepted .add e) + sum (·.accepted .modify e) + sum (·.serviced e)) ∧
      a.generalQueryTx.counters.sent + a.reportTx.counters.sent = sum (·.forwarded) ∧
      ∀ t ∈ (new maxPorts channel out).turns history,
        ((∀ f, t.event ≠ .channel f) → t.agent.channel.queued <+: t.reply.agent.channel.queued) ∧
        ((∀ f, t.event ≠ .out f) → t.agent.out.queued <+: t.reply.agent.out.queued) := by
  have hnew := sound_new maxPorts channel out
  obtain ⟨a, ha, hs⟩ := run_ok hnew history
  have hits := fun e o => hits_run hnew ha (e := e) (o := o)
  refine ⟨a, ha, ?_, hits .generalQueryExpectation _ rfl rfl, hits .reportExpectation _ rfl rfl,
    hits .pimExpectation _ rfl rfl, ?_, ?_, ?_, ?_⟩
  · have htotal := count_run (m := fun c => c.classified.total) (f := Turn.classified)
      step_classified hnew ha
    exact htotal.trans (Nat.zero_add _)
  · intro e _
    refine ⟨balanced_run hnew ha (by cases e <;> rfl), ?_⟩
    have hsent := count_run (m := fun c => (c.awaiting e).sent) (f := fun t => t.told e.table)
      (fun hs hr => (step_reckons hs hr e).sent) hnew ha
    refine hsent.trans ?_
    cases e <;> exact Nat.zero_add _
  · intro e he
    have hattempts := count_run
      (m := fun c => (c.sending e).sent + (c.sending e).unresolved + (c.sending e).failed)
      (f := fun t => t.accepted .add e + t.accepted .modify e + t.serviced e)
      (fun hs hr => step_attempts hs hr he) hnew ha
    refine hattempts.trans ?_
    rw [sumOver_add, sumOver_add]
    cases e <;> exact Nat.zero_add _
  · have hsent := count_run (m := sent) (f := Turn.forwarded) (fun _ hr => step_sent hr) hnew ha
    exact hsent.trans (Nat.zero_add _)
  · exact turns_of_step (fun hs hr => ⟨step_queued hs hr, fun hout => step_out hr hout⟩) hnew

end Runs

end Agent
end Snooping
