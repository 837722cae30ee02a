import Snooping.Proofs.Clock
import Snooping.Proofs.Ways

/-!
The event loop against a bare agent that nothing empties. Whatever the clock allows, the loop
answers as the bare agent does, and what it sends out in an iteration is what the bare agent queues
in it.
-/
namespace Snooping

/-- The link with its messages queued behind those of `sent`. -/
def ControllerLink.behind (sent : List ControllerMessage) (l : ControllerLink) : ControllerLink :=
  { l with queued := sent ++ l.queued }

/-- The sender with its frames queued behind those of `sent`. -/
def FrameSender.behind (sent : List OutboundFrame) (s : FrameSender) : FrameSender :=
  { s with queued := sent ++ s.queued }

theorem ControllerLink.respects_behind (sent : List ControllerMessage) :
    ControllerChannel.Respects (behind sent) where
  version? _ := rfl
  send l m := by
    change ControllerLink.send (l.behind sent) m =
      ((ControllerLink.send l m).1.behind sent, (ControllerLink.send l m).2)
    obtain ⟨version, isOpen, queued⟩ := l
    cases version with
    | none => rfl
    | some v =>
      simp only [send, behind]
      split
      · rfl
      · cases isOpen with
        | false => rfl
        | true => simp [List.append_assoc]

theorem FrameSender.respects_behind (sent : List OutboundFrame) :
    PacketOut.Respects (behind sent) := by
  intro s f
  change FrameSender.transmit (s.behind sent) f =
    ((FrameSender.transmit s f).1.behind sent, (FrameSender.transmit s f).2)
  obtain ⟨isOpen, queued⟩ := s
  cases isOpen with
  | false => rfl
  | true => simp [transmit, behind, List.append_assoc]

namespace Outbound

def message? : Outbound → Option ControllerMessage
  | controller m => some m
  | _ => none

def frame? : Outbound → Option OutboundFrame
  | packetOut f => some f
  | _ => none

end Outbound

namespace EventLoop

variable {bare : Agent ControllerLink FrameSender} {now : Nat}
  {ev : Agent.Event ControllerLink FrameSender}
  {reply : Agent.Reply ControllerLink FrameSender Agent.Answer}

/-- An agent is the one that has been emptied, with all behind what that has sent. -/
theorem mapWays_forward (a : Agent ControllerLink FrameSender) :
    (forward a).1.mapWays (.behind a.channel.queued) (.behind a.out.queued) = a := by
  simp [forward, Agent.mapWays, Agent.mapChannel, Agent.mapOut, ControllerLink.behind,
    ControllerLink.emptied, FrameSender.behind, FrameSender.emptied]

theorem filterMap_message?_forward (a : Agent ControllerLink FrameSender) :
    (forward a).2.filterMap Outbound.message? = a.channel.queued := by
  simp [forward, List.filterMap_map, Function.comp_def, Outbound.message?]

theorem filterMap_frame?_forward (a : Agent ControllerLink FrameSender) :
    (forward a).2.filterMap Outbound.frame? = a.out.queued := by
  simp [forward, List.filterMap_map, Function.comp_def, Outbound.frame?]

/-- The bare agent does what the emptied one does, with all of it behind what was queued before. -/
theorem step_behind
    (hev : ∀ messages frames, ev.Respects (ControllerLink.behind messages)
      (FrameSender.behind frames))
    (h : (forward bare).1.step now ev = .ok reply) :
    bare.step now ev =
      .ok (reply.mapWays (.behind bare.channel.queued) (.behind bare.out.queued)) := by
  have hstep : ((forward bare).1.mapWays (.behind bare.channel.queued)
      (.behind bare.out.queued)).step now ev = _ :=
    Agent.step_mapWays (ControllerLink.respects_behind _) (FrameSender.respects_behind _) (hev _ _)
  rw [mapWays_forward, h] at hstep
  exact hstep

end EventLoop

namespace Run

open EventLoop (forward)

/-- What an iteration is to the agent, at its time. -/
def Iteration.agentEvent? (i : Iteration) : Option (Nat × Agent.Event ControllerLink FrameSender) :=
  if i.before.isRunning then i.move.agentEvent?.map (i.before.now, ·) else none

/-- What the agent has been through since before the loop started. -/
def history (rows : List (TimeoutName × Duration)) (log : List Iteration) :
    Agent.History ControllerLink FrameSender :=
  (0, .startup rows) :: log.filterMap Iteration.agentEvent?

/-- A move of the loop is what the bare agent does at that time. -/
structure Refines (bare : Agent ControllerLink FrameSender) (r : Run) (m : Move) (s : Step) :
    Prop where
  /-- The packet goes out first if it is passed, then what is queued meanwhile. -/
  served : r.isRunning = true → ∀ ev, m.agentEvent? = some ev → ∃ reply messages frames,
    bare.step r.now ev = .ok reply ∧
      reply.agent.channel.queued = bare.channel.queued ++ messages ∧
      reply.agent.out.queued = bare.out.queued ++ frames ∧
      s.answer = m.heard reply.answer ∧
      s.outbound = m.passed reply.answer ++ messages.map .controller ++ frames.map .packetOut
  idle : r.isRunning = false ∨ m.agentEvent? = none → s.run.loop = r.loop ∧ s.outbound = []
  running : s.run.isRunning = true ↔ r.isRunning = true ∧ m ≠ .shutdown
  stopped : r.isRunning = false → ∀ e, m = .event e → s.answer = .stopped

variable {r₀ r : Run} {m : Move} {s : Step} {log : List Iteration}
  {bare : Agent ControllerLink FrameSender} {ev : Agent.Event ControllerLink FrameSender}

theorem respects_behind (h : m.agentEvent? = some ev) (messages : List ControllerMessage)
    (frames : List OutboundFrame) :
    ev.Respects (ControllerLink.behind messages) (FrameSender.behind frames) := by
  cases m with
  | event e =>
    cases h
    cases e with
    | request | packetIn => trivial
    | connected | disconnected => exact fun _ => rfl
  | tick e =>
    cases h
    trivial
  | wait | shutdown => cases h

/-- While the loop has the agent that the bare one would be if it were emptied, its next move is
what the bare one does. -/
theorem moved_refines (hbare : (forward bare).1 = r.loop.agent) (h : r.Moved m s) :
    Refines bare r m s := by
  cases h with
  | @served _ ev reply _ hrun hev hstep =>
    rw [← hbare] at hstep
    have hstep := EventLoop.step_behind (respects_behind hev) hstep
    refine ⟨fun _ ev' hev' => ?_, ?_, ⟨fun _ => ⟨hrun, ?_⟩, fun _ => hrun⟩, ?_⟩
    · cases hev.symm.trans hev'
      refine ⟨_, reply.agent.channel.queued, reply.agent.out.queued, hstep, rfl, rfl, rfl, ?_⟩
      rw [List.append_assoc]
      rfl
    · rintro (hstopped | hnone)
      · cases hrun.symm.trans hstopped
      · cases hev.symm.trans hnone
    · rintro rfl
      cases hev
    · intro hstopped
      cases hrun.symm.trans hstopped
  | waited ms => exact ⟨nofun, fun _ => ⟨rfl, rfl⟩, by simp, nofun⟩
  | shutdown hrun => exact ⟨nofun, fun _ => ⟨rfl, rfl⟩, by simp, nofun⟩
  | ignored hstopped =>
    refine ⟨fun hrun => ?_, fun _ => ⟨rfl, rfl⟩, ?_, fun _ _ _ => rfl⟩
    · cases hrun.symm.trans hstopped
    · simp [hstopped]

/-- The loop has the bare agent, emptied of what it has sent. -/
structure Follows (bare : Agent ControllerLink FrameSender) (sent : List Outbound) (r : Run) :
    Prop where
  agent : (forward bare).1 = r.loop.agent
  messages : sent.filterMap Outbound.message? = bare.channel.queued
  frames : sent.filterMap Outbound.frame? = bare.out.queued

theorem follows_initial (maxPorts : UInt32) (rows : List (TimeoutName × Duration)) :
    Follows (initial maxPorts rows).loop.agent [] (initial maxPorts rows) := by
  have hagent : (initial maxPorts rows).loop.agent = { Agent.new maxPorts .initial .initial with
      timeouts := (initial maxPorts rows).loop.agent.timeouts } :=
    Agent.applyInitialTimeouts_fst ..
  rw [hagent]
  exact ⟨hagent.symm, rfl, rfl⟩

theorem filterMap_passed (m : Move) (a : Agent.Answer) :
    (m.passed a).filterMap Outbound.message? = [] ∧
      (m.passed a).filterMap Outbound.frame? = [] := by
  cases m with
  | event e =>
    cases e <;> cases a <;> simp only [Move.passed, EventLoop.Event.passed, List.filterMap_nil,
      and_self]
    split <;> exact ⟨rfl, rfl⟩
  | tick | wait | shutdown => exact ⟨rfl, rfl⟩

/-- Along a move, the bare agent goes through what the move is to it. -/
theorem Follows.moved {sent : List Outbound} (h : Follows bare sent r) (hm : r.Moved m s) :
    ∃ bare', bare.run (Iteration.agentEvent? ⟨r, m, s⟩).toList = .ok bare' ∧
      Follows bare' (sent ++ s.outbound) s.run := by
  cases hm with
  | @served _ ev reply _ hrun hev hstep =>
    rw [← h.agent] at hstep
    have hbare := EventLoop.step_behind (respects_behind hev) hstep
    obtain ⟨hmessages, hframes⟩ := filterMap_passed m reply.answer
    simp only [Iteration.agentEvent?, hrun, if_true, hev, Option.map_some, Option.toList_some]
    refine ⟨_, Agent.run_cons hbare, rfl, ?_, ?_⟩
    · rw [List.filterMap_append, List.filterMap_append, h.messages, hmessages,
        EventLoop.filterMap_message?_forward]
      rfl
    · rw [List.filterMap_append, List.filterMap_append, h.frames, hframes,
        EventLoop.filterMap_frame?_forward]
      rfl
  | waited | shutdown =>
    simp only [Iteration.agentEvent?, Move.agentEvent?, Option.map_none, ite_self, List.append_nil]
    exact ⟨bare, rfl, h.agent, h.messages, h.frames⟩
  | ignored hstopped =>
    simp only [Iteration.agentEvent?, hstopped, Bool.false_eq_true, if_false, List.append_nil]
    exact ⟨bare, rfl, h.agent, h.messages, h.frames⟩

theorem follows_path {maxPorts : UInt32} {rows : List (TimeoutName × Duration)}
    (hp : (initial maxPorts rows).Path log r) :
    ∃ bare, (Agent.new maxPorts .initial .initial).run (history rows log) = .ok bare ∧
      Follows bare (log.flatMap (·.step.outbound)) r := by
  induction hp with
  | start => exact ⟨_, rfl, follows_initial maxPorts rows⟩
  | @next log r m s _ ha hs ih =>
    obtain ⟨bare, hrun, hfollows⟩ := ih
    obtain ⟨bare', hnext, hfollows'⟩ := hfollows.moved (moved ha hs)
    refine ⟨bare', ?_, ?_⟩
    · rw [history, List.filterMap_append, ← List.cons_append]
      refine (Agent.run_append hrun).trans ?_
      rw [← hnext]
      cases h : Iteration.agentEvent? ⟨r, m, s⟩ <;> simp [h]
    · rw [List.flatMap_append, List.flatMap_cons, List.flatMap_nil, List.append_nil]
      exact hfollows'

/-- Each iteration of a path is a move that the clock allows after the iterations before it. -/
theorem Path.split {pre post : List Iteration} {i : Iteration} (hp : r₀.Path log r)
    (h : log = pre ++ i :: post) :
    r₀.Path pre i.before ∧ i.before.Allows i.move ∧ i.before.move i.move = .ok i.step := by
  induction hp generalizing post with
  | start => simp at h
  | next hp ha hs ih =>
    rcases List.eq_nil_or_concat post with rfl | ⟨post, last, rfl⟩
    · obtain ⟨rfl, hlast⟩ := List.append_inj' h rfl
      cases hlast
      exact ⟨hp, ha, hs⟩
    · rw [List.concat_eq_append, ← List.cons_append, ← List.append_assoc] at h
      exact ih (List.append_inj' h rfl).1

/-- However the events and ticks of a loop come, an agent that takes the same in the same order at
the same times gives the same answers. The loop never fails; in each iteration it sends out the
packet if that is passed, then the messages and then the frames that the agent queues, and over all
of them just what the agent has queued. Once it is shut down, nothing comes of an event. Every input
of the program is a path of such iterations, an event one of them. -/
theorem refines_agent {maxPorts : UInt32} {rows : List (TimeoutName × Duration)}
    (hp : (initial maxPorts rows).Path log r) :
    (∀ pre i post, log = pre ++ i :: post → ∃ bare,
      (Agent.new maxPorts .initial .initial).run (history rows pre) = .ok bare ∧
        Refines bare i.before i.move i.step) ∧
    (∃ bare, (Agent.new maxPorts .initial .initial).run (history rows log) = .ok bare ∧
      (forward bare).1 = r.loop.agent ∧
      (log.flatMap (·.step.outbound)).filterMap Outbound.message? = bare.channel.queued ∧
      (log.flatMap (·.step.outbound)).filterMap Outbound.frame? = bare.out.queued) ∧
    (∀ m, r.Allows m → ∃ s, r.move m = .ok s) ∧
    ∀ input, ∃ s log', r.step input = .ok s ∧
      (initial maxPorts rows).Path (log ++ log') s.run ∧
      s.outbound = log'.flatMap (·.step.outbound) ∧
      ∀ e, input = .event e → log' = [⟨r, .event e, s⟩] := by
  have hready := ready_initial maxPorts rows
  refine ⟨fun pre i post hlog => ?_, ?_, fun m _ => move_ok (ready_path hready hp) m,
    step_path hready hp⟩
  · obtain ⟨hpre, ha, hs⟩ := hp.split hlog
    obtain ⟨bare, hrun, hfollows⟩ := follows_path hpre
    exact ⟨bare, hrun, moved_refines hfollows.agent (moved ha hs)⟩
  · obtain ⟨bare, hrun, hfollows⟩ := follows_path hp
    exact ⟨bare, hrun, hfollows.agent, hfollows.messages, hfollows.frames⟩

/-- A controller connects, and a querier that is not heard of for a second is reported to it. -/
theorem refines_agent_reported :
    ∃ log r, (initial 8 hurried).Path log r ∧
      log.flatMap (·.step.outbound) = [.controller (.idleNotification
        ⟨.generalQueryExpectation, "querier", 1, none⟩)] ∧
      ∃ bare, (Agent.new 8 .initial .initial).run (history hurried log) = .ok bare ∧
        bare.channel.queued =
          [.idleNotification ⟨.generalQueryExpectation, "querier", 1, none⟩] := by
  have hstart : (initial 8 hurried).Path [] (initial 8 hurried) := .start
  have hconnected := hstart.next (m := .event (.connected 4)) trivial rfl
  have hadded := hconnected.next (m := .event (.request
    ⟨.generalQueryExpectation, .add [.name "querier", .vlanVid 1] []⟩)) trivial rfl
  have hwaited := hadded.next (m := .wait 1000) (by intro _ e; cases e <;> decide) rfl
  have hpath := hwaited.next (m := .tick .generalQueryExpectation) ⟨rfl, rfl⟩ rfl
  obtain ⟨bare, hrun, _, hmessages, _⟩ := (refines_agent hpath).2.1
  exact ⟨_, _, hpath, rfl, bare, hrun, hmessages.symm⟩

end Run
end Snooping
