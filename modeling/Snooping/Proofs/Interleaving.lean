import Snooping.Proofs.Bounds
import Snooping.Proofs.Reconciliation
import Snooping.Proofs.Serialization

/-!
Ticks of several engines at the same time. They share the ways out and an interval, but each has a
table of its own and never looks at what the ways out have taken, so their order does not matter.
-/
namespace Snooping

/-- Sending changes nothing of a link but its queue. -/
theorem ControllerLink.deliver_eq (l : ControllerLink) (messages : List ControllerMessage) :
    ∃ queued, ControllerChannel.deliver l messages = { l with queued } := by
  induction messages generalizing l with
  | nil => exact ⟨l.queued, rfl⟩
  | cons m messages ih =>
    obtain ⟨queued, h⟩ := ih (l.send m).1
    refine ⟨queued, h.trans ?_⟩
    rcases l.send_cases m with hm | ⟨e, hm⟩
    · rw [hm]
    · rw [hm]

theorem FrameSender.deliver_eq (s : FrameSender) (frames : List OutboundFrame) :
    ∃ queued, PacketOut.deliver s frames = { s with queued } := by
  induction frames generalizing s with
  | nil => exact ⟨s.queued, rfl⟩
  | cons f frames ih =>
    obtain ⟨queued, h⟩ := ih (s.transmit f).1
    refine ⟨queued, h.trans ?_⟩
    rcases s.transmit_cases f with hf | ⟨e, hf⟩
    · rw [hf]
    · rw [hf]

namespace Agent

section Tables

variable {χ ω : Type} {a : Agent χ ω} {e e' : EngineId} {now : Nat}

/-- The agent with the table of `e` that `b` has. -/
def withTable (a : Agent χ ω) (e : EngineId) (b : Agent χ ω) : Agent χ ω :=
  match e with
  | .generalQueryExpectation => { a with generalQuery := b.generalQuery }
  | .reportExpectation => { a with report := b.report }
  | .pimExpectation => { a with pim := b.pim }
  | .generalQueryTx => { a with generalQueryTx := b.generalQueryTx }
  | .reportTx => { a with reportTx := b.reportTx }

theorem withTable_channel (a : Agent χ ω) (e : EngineId) (b : Agent χ ω) :
    (a.withTable e b).channel = a.channel := by
  cases e <;> rfl

theorem withTable_out (a : Agent χ ω) (e : EngineId) (b : Agent χ ω) :
    (a.withTable e b).out = a.out := by
  cases e <;> rfl

theorem withTable_comm (h : e ≠ e') (a b c : Agent χ ω) :
    (a.withTable e b).withTable e' c = (a.withTable e' c).withTable e b := by
  cases e <;> cases e' <;> first | rfl | exact (h rfl).elim

/-- The agent with a table from another one for each of the engines. -/
def withTables (a : Agent χ ω) (next : EngineId → Agent χ ω) (es : List EngineId) : Agent χ ω :=
  es.foldl (fun b e => b.withTable e (next e)) a

theorem withTables_perm {es es' : List EngineId} (h : es.Perm es') (next : EngineId → Agent χ ω) :
    a.withTables next es = a.withTables next es' := by
  refine h.foldl_eq' (fun e _ e' _ b => ?_) a
  by_cases he : e = e'
  · rw [he]
  · exact withTable_comm he ..

theorem withTables_ways (a : Agent χ ω) (next : EngineId → Agent χ ω) (es : List EngineId) :
    (a.withTables next es).channel = a.channel ∧ (a.withTables next es).out = a.out := by
  refine List.foldlRecOn (motive := fun b : Agent χ ω => b.channel = a.channel ∧ b.out = a.out)
    es _ ⟨rfl, rfl⟩ ?_
  intro b hb e _
  rw [withTable_channel, withTable_out]
  exact hb

variable [ControllerChannel χ] [PacketOut ω]

/-- A tick changes the table of its engine and one of the ways out. -/
theorem tick_changes {r : Reply χ ω Nat} (h : a.tick e now = .ok r) :
    r.agent = (a.withTable e r.agent).withWays r.agent.channel r.agent.out ∧
      if e.isTransmission then r.agent.channel = a.channel else r.agent.out = a.out := by
  cases e <;> simp only [tick, bind_eq_ok_iff, pure_eq_ok_iff] at h <;> obtain ⟨t, -, rfl⟩ := h
  all_goals exact ⟨rfl, rfl⟩

/-- A tick does not look at the tables of other engines. -/
theorem tick_withTable (h : e ≠ e') (a b : Agent χ ω) (now : Nat) :
    (a.withTable e' b).tick e now =
      (a.tick e now).map fun r => { r with agent := r.agent.withTable e' b } := by
  cases e <;> cases e' <;> first | exact bind_map fun _ => rfl | exact (h rfl).elim

theorem step_withTable (h : e ≠ e') (a b : Agent χ ω) (now : Nat) :
    (a.withTable e' b).step now (.tick e) =
      (a.step now (.tick e)).map fun r => { r with agent := r.agent.withTable e' b } := by
  rw [step, step, tick_withTable h]
  cases a.tick e now <;> rfl

end Tables

variable {a : Agent ControllerLink FrameSender} {e e' : EngineId} {now : Nat}

/-- What an event is answered, and what it leaves in the queues to both ways out. -/
structure Given where
  answer : Answer
  traces : List Trace
  messages : List ControllerMessage
  frames : List OutboundFrame

/-- What a turn is given is behind what was queued before. -/
def Turn.given (t : Turn ControllerLink FrameSender) : Given where
  answer := t.reply.answer
  traces := t.reply.traces
  messages := t.reply.agent.channel.queued.drop t.agent.channel.queued.length
  frames := t.reply.agent.out.queued.drop t.agent.out.queued.length

/-- A tick of `e` can be given that: a delay, and notifications of its own table or frames. -/
structure Given.IsOf (g : Given) (e : EngineId) : Prop where
  delay : ∃ ms, g.answer = .delay ms
  about : ∀ m ∈ g.messages, m.isAbout e.table = true
  messages : e.isTransmission = true → g.messages = []
  frames : e.isTransmission = false → g.frames = []

/-- The agent with other queues to its ways out. -/
def holding (a : Agent ControllerLink FrameSender) (messages : List ControllerMessage)
    (frames : List OutboundFrame) : Agent ControllerLink FrameSender :=
  a.withWays { a.channel with queued := messages } { a.out with queued := frames }

theorem holding_withTable (a : Agent ControllerLink FrameSender) (e : EngineId)
    (b : Agent ControllerLink FrameSender) (messages : List ControllerMessage)
    (frames : List OutboundFrame) :
    (a.withTable e b).holding messages frames = (a.holding messages frames).withTable e b := by
  cases e <;> rfl

theorem holding_behind (a : Agent ControllerLink FrameSender)
    (messages messages' : List ControllerMessage) (frames frames' : List OutboundFrame) :
    (a.holding messages frames).mapWays (.behind messages') (.behind frames') =
      a.holding (messages' ++ messages) (frames' ++ frames) :=
  rfl

theorem sound_holding (hs : a.Sound) (messages : List ControllerMessage)
    (frames : List OutboundFrame) : (a.holding messages frames).Sound := by
  intro e
  have he := hs e
  cases e <;> exact he

/-- Of the ways out, a tick changes the queues only. -/
theorem tick_holding (hs : a.Sound) {r : Reply ControllerLink FrameSender Nat}
    (h : a.tick e now = .ok r) :
    r.agent = (a.withTable e r.agent).holding r.agent.channel.queued r.agent.out.queued := by
  obtain ⟨r', hr, -, hways⟩ := tick_ok hs e now
  cases h.symm.trans hr
  obtain ⟨messages, hmessages⟩ := ControllerLink.deliver_eq a.channel
    ((a.served e now).filterMap (a.notice? e))
  obtain ⟨frames, hframes⟩ := FrameSender.deliver_eq a.out ((a.served e now).filterMap (a.due? e))
  have hchannel : r.agent.channel = { a.channel with queued := messages } :=
    ((congrArg Prod.fst hways).trans (foldl_emit_channel ..)).trans hmessages
  have hout : r.agent.out = { a.out with queued := frames } :=
    ((congrArg Prod.snd hways).trans (foldl_emit_out hs ..)).trans hframes
  obtain ⟨hagent, -⟩ := tick_changes h
  rw [hchannel, hout] at hagent ⊢
  rw [holding, withTable_channel, withTable_out]
  exact hagent

/-- Whatever is queued, a tick of `e` takes its table from `next` and is given `g`. -/
def Ticks (a : Agent ControllerLink FrameSender) (now : Nat) (e : EngineId)
    (next : Agent ControllerLink FrameSender) (g : Given) : Prop :=
  ∀ messages frames, (a.holding messages frames).step now (.tick e) = .ok
    ⟨(a.withTable e next).holding (messages ++ g.messages) (frames ++ g.frames), g.answer, g.traces⟩

/-- What a tick is given when nothing is queued, it is given in any case. -/
theorem ticks_of_tick (hs : a.Sound) {r : Reply ControllerLink FrameSender Nat}
    (h : (a.holding [] []).tick e now = .ok r) :
    a.Ticks now e r.agent
      ⟨.delay r.answer, r.traces, r.agent.channel.queued, r.agent.out.queued⟩ := by
  intro messages frames
  have hstep : (a.holding [] []).step now (.tick e) =
      .ok ⟨r.agent, .delay r.answer, r.traces⟩ := by
    rw [step, h]
  have hbehind : ((a.holding [] []).mapWays (.behind messages) (.behind frames)).step now
      (.tick e) = _ :=
    step_mapWays (ControllerLink.respects_behind messages) (FrameSender.respects_behind frames)
      trivial
  rw [holding_behind, List.append_nil, List.append_nil, hstep] at hbehind
  have hagent := tick_holding (sound_holding hs [] []) h
  rw [← holding_withTable] at hagent
  have hnext : r.agent.mapWays (.behind messages) (.behind frames) =
      (a.withTable e r.agent).holding (messages ++ r.agent.channel.queued)
        (frames ++ r.agent.out.queued) :=
    (congrArg (mapWays · _ _) hagent).trans (holding_behind ..)
  rw [hbehind, ← hnext]
  rfl

theorem exists_ticks (hs : a.Sound) (now : Nat) (e : EngineId) :
    ∃ next g, a.Ticks now e next g ∧ g.IsOf e := by
  obtain ⟨r, hr, -⟩ := tick_ok (sound_holding hs [] []) e now
  obtain ⟨-, hway⟩ := tick_changes hr
  obtain ⟨ms, hqueued, habout, -⟩ := tick_announced hr
  refine ⟨r.agent, _, ticks_of_tick hs hr, ⟨r.answer, rfl⟩, ?_, ?_, ?_⟩
  · intro m hm
    apply habout
    rwa [hqueued] at hm
  · intro he
    rw [if_pos he] at hway
    exact congrArg ControllerLink.queued hway
  · intro he
    rw [if_neg (Bool.eq_false_iff.mp he)] at hway
    exact congrArg FrameSender.queued hway

/-- The tables of other engines do not matter to a tick. -/
theorem Ticks.withTable {next b : Agent ControllerLink FrameSender} {g : Given}
    (h : a.Ticks now e next g) (hne : e ≠ e') : (a.withTable e' b).Ticks now e next g := by
  intro messages frames
  rw [holding_withTable, step_withTable hne, h, withTable_comm hne.symm,
    holding_withTable (a.withTable e next)]
  rfl

/-- What is appended to both queues is given. -/
theorem Turn.given_holding (a b : Agent ControllerLink FrameSender) (now : Nat)
    (ev : Event ControllerLink FrameSender) (messages : List ControllerMessage)
    (frames : List OutboundFrame) (g : Given) :
    Turn.given ⟨a.holding messages frames, now, ev,
      ⟨b.holding (messages ++ g.messages) (frames ++ g.frames), g.answer, g.traces⟩⟩ = g := by
  obtain ⟨answer, traces, messages', frames'⟩ := g
  rw [given]
  congr
  · exact List.drop_left
  · exact List.drop_left

/-- Ticks of engines at `now`, in that order. -/
def ticking {χ ω : Type} (now : Nat) (es : List EngineId) : History χ ω :=
  es.map fun e => (now, .tick e)

variable {next : EngineId → Agent ControllerLink FrameSender} {given : EngineId → Given}
  {es : List EngineId}

/-- Ticks of distinct engines are given what each is given by itself. -/
theorem run_ticking (hd : es.Nodup) (h : ∀ e ∈ es, a.Ticks now e (next e) (given e))
    (messages : List ControllerMessage) (frames : List OutboundFrame) :
    (a.holding messages frames).run (ticking now es) = .ok ((a.withTables next es).holding
        (messages ++ es.flatMap fun e => (given e).messages)
        (frames ++ es.flatMap fun e => (given e).frames)) ∧
      ((a.holding messages frames).turns (ticking now es)).map Turn.given = es.map given := by
  induction es generalizing a messages frames with
  | nil =>
    rw [List.flatMap_nil, List.append_nil, List.flatMap_nil, List.append_nil]
    exact ⟨rfl, rfl⟩
  | cons e es ih =>
    obtain ⟨he, hd⟩ := List.nodup_cons.mp hd
    have hstep := h e List.mem_cons_self messages frames
    -- The engines that are still to come do not see that `e` has been served.
    have hrest : ∀ e' ∈ es, (a.withTable e (next e)).Ticks now e' (next e') (given e') := by
      intro e' hm
      apply (h e' (List.mem_cons_of_mem e hm)).withTable
      rintro rfl
      exact he hm
    obtain ⟨hrun, hturns⟩ :=
      ih hd hrest (messages ++ (given e).messages) (frames ++ (given e).frames)
    constructor
    · rw [ticking, List.map_cons, run_cons hstep, List.flatMap_cons, List.flatMap_cons,
        ← List.append_assoc, ← List.append_assoc]
      exact hrun
    · rw [ticking, List.map_cons, turns_cons hstep, List.map_cons, List.map_cons,
        Turn.given_holding]
      exact congrArg _ hturns

/-- Of all notifications, those of one table are in the order in which its engine gave them. -/
theorem filter_messages (hd : es.Nodup) (h : ∀ e, (given e).IsOf e) (e : EngineId) :
    (es.flatMap fun e => (given e).messages).filter (·.isAbout e.table) =
      if e ∈ es then (given e).messages else [] := by
  induction es with
  | nil => rfl
  | cons e' es ih =>
    obtain ⟨he', hd⟩ := List.nodup_cons.mp hd
    rw [List.flatMap_cons, List.filter_append, ih hd]
    by_cases he : e = e'
    · subst he
      rw [List.filter_eq_self.mpr (h e).about, if_neg he', if_pos List.mem_cons_self,
        List.append_nil]
    · have hnone : (given e').messages.filter (·.isAbout e.table) = [] := by
        apply List.filter_eq_nil_iff.mpr
        intro m hm hm'
        exact he (table_inj (isAbout_inj hm' ((h e').about m hm)))
      rw [hnone, List.nil_append]
      simp only [List.mem_cons, he, false_or]

/-- Ticks of distinct engines at one time never fail, and their order does not matter. Each has its
delay, its traces, its notifications and its frames, the same in every order and beside whatever
other engines. The queues to the ways out hold them in the order of the ticks, and all else is the
same in the end. -/
theorem ticks_in_any_order (ha : a.Reachable) (now : Nat) :
    ∃ given : EngineId → Given, (∀ e, (given e).IsOf e) ∧ ∀ es, es.Nodup →
      ∃ b, a.run (ticking now es) = .ok b ∧
        (a.turns (ticking now es)).map Turn.given = es.map given ∧
        b.channel = { a.channel with
          queued := a.channel.queued ++ es.flatMap fun e => (given e).messages } ∧
        b.out = { a.out with queued := a.out.queued ++ es.flatMap fun e => (given e).frames } ∧
        (∀ e ∈ es, (b.channel.queued.drop a.channel.queued.length).filter (·.isAbout e.table) =
          (given e).messages) ∧
        ∀ es', es.Perm es' → ∃ channel out,
          a.run (ticking now es') = .ok (b.withWays channel out) := by
  have hs := sound_reachable ha
  choose next given hticks hof using fun e => exists_ticks hs now e
  refine ⟨given, hof, fun es hd => ?_⟩
  obtain ⟨hrun, hturns⟩ := run_ticking hd (fun e _ => hticks e) a.channel.queued a.out.queued
  obtain ⟨hchannel, hout⟩ := withTables_ways (a := a) next es
  refine ⟨_, hrun, hturns, ?_, ?_, ?_, ?_⟩
  · rw [holding, hchannel]
    rfl
  · rw [holding, hout]
    rfl
  · intro e he
    have hfilter := filter_messages hd hof e
    rw [if_pos he] at hfilter
    rw [← hfilter]
    exact congrArg _ List.drop_left
  · intro es' hp
    obtain ⟨hrun', -⟩ := run_ticking (hp.nodup_iff.mp hd) (fun e _ => hticks e) a.channel.queued
      a.out.queued
    rw [← withTables_perm hp] at hrun'
    exact ⟨_, _, hrun'⟩

/-- A controller connects, and has a querier and a neighbor router expected. -/
def expectingBoth : History ControllerLink FrameSender :=
  [(0, .channel (·.connect 4)),
    (0, .request ⟨.generalQueryExpectation, .add [.name "querier", .vlanVid 1] []⟩),
    (0, .request ⟨.pimExpectation, .add [.name "router", .vlanVid 1] []⟩)]

/-- Neither is heard of. The engine that ticks first has its notification first, and that is all
that is different. -/
theorem ticks_in_any_order_both : ∃ a b channel out,
    (new 8 .initial .initial).run expectingBoth = .ok a ∧
      a.run (ticking 255000 [.generalQueryExpectation, .pimExpectation]) = .ok b ∧
      a.run (ticking 255000 [.pimExpectation, .generalQueryExpectation]) =
        .ok (b.withWays channel out) ∧
      b.channel.queued = [.idleNotification ⟨.generalQueryExpectation, "querier", 1, none⟩,
        .idleNotification ⟨.pimExpectation, "router", 1, none⟩] ∧
      channel.queued = [.idleNotification ⟨.pimExpectation, "router", 1, none⟩,
        .idleNotification ⟨.generalQueryExpectation, "querier", 1, none⟩] := by
  have hboth : ∃ a b b', (new 8 .initial .initial).run expectingBoth = .ok a ∧
      a.run (ticking 255000 [.generalQueryExpectation, .pimExpectation]) = .ok b ∧
      a.run (ticking 255000 [.pimExpectation, .generalQueryExpectation]) = .ok b' ∧
      b.channel.queued = [.idleNotification ⟨.generalQueryExpectation, "querier", 1, none⟩,
        .idleNotification ⟨.pimExpectation, "router", 1, none⟩] ∧
      b'.channel.queued = [.idleNotification ⟨.pimExpectation, "router", 1, none⟩,
        .idleNotification ⟨.generalQueryExpectation, "querier", 1, none⟩] :=
    ⟨_, _, _, rfl, rfl, rfl, rfl, rfl⟩
  obtain ⟨a, b, b', ha, hb, hb', hfirst, hsecond⟩ := hboth
  obtain ⟨given, -, h⟩ := ticks_in_any_order ⟨8, .initial, .initial, expectingBoth, ha⟩ 255000
  obtain ⟨c, hc, -, -, -, -, hany⟩ := h [.generalQueryExpectation, .pimExpectation] (by decide)
  obtain ⟨channel, out, hreverse⟩ := hany [.pimExpectation, .generalQueryExpectation] (by decide)
  cases hb.symm.trans hc
  cases hb'.symm.trans hreverse
  exact ⟨a, b, channel, out, ha, hb, hb', hfirst, hsecond⟩

end Agent
end Snooping
