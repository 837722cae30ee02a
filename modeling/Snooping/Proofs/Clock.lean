import Mathlib.Algebra.GroupWithZero.Nat
import Snooping.Proofs.Agreement
import Snooping.Proofs.Overtaking
import Snooping.Run

/-!
The event loop under a virtual clock. Handling takes no time, an engine ticks exactly at its own
time, and no time passes while a tick is due; what happens at one time happens in any order. The
runs of the program are among those that the clock allows.
-/
namespace Snooping

namespace Schedule

variable {s : Schedule} {e : EngineId} {t horizon : Nat}

theorem foldl_earliest (s : Schedule) (es : List EngineId) (best : EngineId) :
    s.get (es.foldl (fun best e => if s.get e < s.get best then e else best) best) ≤ s.get best ∧
      ∀ e ∈ es,
        s.get (es.foldl (fun best e => if s.get e < s.get best then e else best) best) ≤
          s.get e := by
  induction es generalizing best with
  | nil => exact ⟨Nat.le_refl _, nofun⟩
  | cons e es ih =>
    obtain ⟨hbest, hall⟩ := ih (if s.get e < s.get best then e else best)
    rw [List.foldl_cons]
    have hle : s.get (if s.get e < s.get best then e else best) ≤ s.get best ∧
        s.get (if s.get e < s.get best then e else best) ≤ s.get e := by
      split <;> constructor <;> omega
    refine ⟨Nat.le_trans hbest hle.1, fun e' he' => ?_⟩
    rcases List.mem_cons.mp he' with rfl | he'
    · exact Nat.le_trans hbest hle.2
    · exact hall e' he'

theorem earliest_le (s : Schedule) (e : EngineId) : s.get s.earliest ≤ s.get e :=
  (s.foldl_earliest EngineId.all _).2 e (by cases e <;> decide)

/-- How many ticks there can still be up to `horizon`, if each moves its engine on by the busy
delay at least. -/
def ticksLeft (s : Schedule) (horizon : Nat) : Nat :=
  (EngineId.all.map fun e => horizon / Expiry.busyDelay + 1 - s.get e / Expiry.busyDelay).sum

theorem ticksLeft_le (s : Schedule) (horizon : Nat) :
    s.ticksLeft horizon ≤ EngineId.all.length * (horizon / Expiry.busyDelay + 1) := by
  simp only [ticksLeft, EngineId.all, List.map_cons, List.map_nil, List.sum_cons, List.sum_nil,
    List.length_cons, List.length_nil, Expiry.busyDelay]
  omega

theorem ticksLeft_put_lt (he : s.get e ≤ horizon) (ht : s.get e + Expiry.busyDelay ≤ t) :
    (s.put e t).ticksLeft horizon < s.ticksLeft horizon := by
  simp only [ticksLeft, EngineId.all, List.map_cons, List.map_nil, List.sum_cons, List.sum_nil,
    Expiry.busyDelay] at ht ⊢
  cases e <;> simp only [put, get] at he ht ⊢ <;> omega

theorem horizon_lt_of_ticksLeft (h : s.ticksLeft horizon = 0) (e : EngineId) :
    horizon < s.get e := by
  simp only [ticksLeft, EngineId.all, List.map_cons, List.map_nil, List.sum_cons, List.sum_nil,
    Expiry.busyDelay] at h
  cases e <;> omega

end Schedule

theorem Expiry.Queue.delay_bounds {κ : Type} (q : Expiry.Queue κ) (now : Nat) :
    Expiry.busyDelay ≤ q.delay now ∧ q.delay now ≤ Expiry.idleDelay := by
  unfold delay
  split <;> decide

namespace Agent

variable {χ ω : Type} [ControllerChannel χ] [PacketOut ω] {a : Agent χ ω} {e : EngineId}
  {now : Nat}

/-- The delay that a tick asks for is that of its own queue. -/
theorem tick_answer {reply : Reply χ ω Nat} (h : a.tick e now = .ok reply) :
    reply.answer = (reply.agent.queue e).delay now := by
  cases e <;> simp only [tick, bind_eq_ok_iff, pure_eq_ok_iff] at h <;> obtain ⟨r, hr, rfl⟩ := h
  case generalQueryExpectation | reportExpectation | pimExpectation =>
    exact (Expectation.Table.tick_counts hr).2.2
  case generalQueryTx | reportTx => exact Transmission.Table.tick_delay hr

end Agent

namespace EventLoop

variable {l : EventLoop} {e : EngineId} {now : Nat}

/-- What an event of the loop is to its agent. -/
def Event.agentEvent : Event → Agent.Event ControllerLink FrameSender
  | request r => .request r
  | packetIn inPort frame => .packet frame inPort
  | connected version => .channel (·.connect version)
  | disconnected => .channel ControllerLink.disconnect

/-- What the loop answers when its agent answers so. -/
def Answer.ofAgent : Agent.Answer → Answer
  | .response r => .response r
  | .outcome o => .disposition o.disposition
  | .delay _ | .done => .accepted

/-- The packet itself, if it is passed. -/
def Event.passed : Event → Agent.Answer → List Outbound
  | packetIn inPort frame, .outcome o =>
    match o.disposition with
    | .pass => [.packetIn inPort frame]
    | .drop => []
  | _, _ => []

theorem onEvent_step (a : Agent ControllerLink FrameSender) (now : Nat) (event : Event) :
    ∃ reply, a.step now event.agentEvent = .ok reply ∧
      reply.agent = (onEvent a now event).agent ∧
      (onEvent a now event).answer = (.ofAgent reply.answer, event.passed reply.answer) := by
  cases event <;> exact ⟨_, rfl, rfl, rfl⟩

/-- Forwarding touches no table. -/
theorem forward_roster (a : Agent ControllerLink FrameSender) (e : EngineId) :
    (forward a).1.roster e = a.roster e := by
  cases e <;> rfl

theorem forward_sound {a : Agent ControllerLink FrameSender} (hs : a.Sound) :
    (forward a).1.Sound := by
  intro e
  rw [forward_roster]
  exact hs e

theorem tick_eq {reply : Agent.Reply ControllerLink FrameSender Nat}
    (h : l.agent.tick e now = .ok reply) :
    l.tick e now = .ok ⟨⟨(forward reply.agent).1, l.schedule.put e (now + reply.answer)⟩, (),
      (forward reply.agent).2, reply.traces⟩ := by
  rw [tick, h]
  rfl

section Ticks

variable {horizon fuel : Nat} {outbound : List Outbound} {traces : List Trace}

theorem ticksUntil_zero : l.ticksUntil horizon 0 outbound traces =
    .ok ⟨l, (), outbound.reverse, traces.reverse⟩ := (rfl)

theorem ticksUntil_succ : l.ticksUntil horizon (fuel + 1) outbound traces =
    if horizon < l.schedule.get l.schedule.earliest then
      .ok ⟨l, (), outbound.reverse, traces.reverse⟩
    else
      match l.tick l.schedule.earliest (l.schedule.get l.schedule.earliest) with
      | .error f => .error f
      | .ok t => ticksUntil horizon fuel t.loop (t.outbound.reverse ++ outbound)
          (t.traces.reverse ++ traces) := (rfl)

end Ticks
end EventLoop

namespace Run

/-- What can happen next: an event from outside, a tick, or that time passes. -/
inductive Move
  | event (e : EventLoop.Event)
  | tick (e : EngineId)
  | wait (ms : Nat)
  | shutdown

/-- Events come at any time. A running loop ticks an engine exactly at its time, and the clock does
not move past a tick that is due. -/
def Allows (r : Run) : Move → Prop
  | .event _ | .shutdown => True
  | .tick e => r.isRunning = true ∧ r.loop.schedule.get e = r.now
  | .wait ms => r.isRunning = true → ∀ e, r.now + ms ≤ r.loop.schedule.get e

def move (r : Run) : Move → Except Fault Step
  | .event e => r.step (.event e)
  | .shutdown => r.step .shutdown
  | .wait ms => .ok ⟨{ r with now := r.now + ms }, .done, [], []⟩
  | .tick e =>
    match r.loop.tick e r.now with
    | .error f => .error f
    | .ok t => .ok ⟨{ r with loop := t.loop }, .done, t.outbound, t.traces⟩

/-- What a move is to the agent of a running loop. -/
def Move.agentEvent? : Move → Option (Agent.Event ControllerLink FrameSender)
  | event e => some e.agentEvent
  | tick e => some (.tick e)
  | wait _ | shutdown => none

/-- What is heard after a move that the agent answers so. -/
def Move.heard : Move → Agent.Answer → Answer
  | event _, a => .event (.ofAgent a)
  | _, _ => .done

def Move.passed : Move → Agent.Answer → List Outbound
  | event e, a => e.passed a
  | _, _ => []

/-- A tick puts its engine off by the delay that the agent asks for. -/
def Move.reschedule (now : Nat) (s : Schedule) : Move → Agent.Answer → Schedule
  | tick e, .delay ms => s.put e (now + ms)
  | _, _ => s

/-- A move with the run that it met and what came of it. -/
structure Iteration where
  before : Run
  move : Move
  step : Step

/-- The iterations lead from `r₀` to a run, each allowed by the clock. -/
inductive Path (r₀ : Run) : List Iteration → Run → Prop
  | start : Path r₀ [] r₀
  | next {log : List Iteration} {r : Run} {m : Move} {s : Step} : Path r₀ log r →
      r.Allows m → r.move m = .ok s → Path r₀ (log ++ [⟨r, m, s⟩]) s.run

/-- The loop at time zero, with the timeouts that are set before it starts. -/
def initial (maxPorts : UInt32) (rows : List (TimeoutName × Duration)) : Run :=
  let loop := EventLoop.start maxPorts 0
  start { loop with agent := (loop.agent.applyInitialTimeouts rows).1 }

/-- The tables are sound, and every engine of a running loop ticks within the idle delay. -/
structure Ready (r : Run) : Prop where
  sound : r.loop.agent.Sound
  due : r.isRunning = true → ∀ e, r.now ≤ r.loop.schedule.get e
  near : r.isRunning = true → ∀ e, r.loop.schedule.get e ≤ r.now + Expiry.idleDelay

variable {r₀ r : Run} {m : Move} {s : Step} {log : List Iteration}

theorem ready_initial (maxPorts : UInt32) (rows : List (TimeoutName × Duration)) :
    (initial maxPorts rows).Ready where
  sound := by
    have hs := Agent.sound_new maxPorts ControllerLink.initial FrameSender.initial
    have hstep : (Agent.new maxPorts ControllerLink.initial FrameSender.initial).step 0
        (.startup rows) = .ok ⟨(initial maxPorts rows).loop.agent, .done,
          (Agent.applyInitialTimeouts _ rows).2⟩ := rfl
    exact Agent.sound_step hs hstep
  due _ e := by cases e <;> exact Nat.zero_le _
  near _ e := by cases e <;> exact Nat.le_refl _

/-- No move fails. -/
theorem move_ok (h : r.Ready) (m : Move) : ∃ s, r.move m = .ok s := by
  cases m with
  | event event =>
    rw [move, step]
    split <;> exact ⟨_, rfl⟩
  | shutdown =>
    rw [move, step]
    split <;> exact ⟨_, rfl⟩
  | wait ms => exact ⟨_, rfl⟩
  | tick e =>
    obtain ⟨reply, hreply, _⟩ := Agent.tick_ok h.sound e r.now
    rw [move, EventLoop.tick_eq hreply]
    exact ⟨_, rfl⟩

/-- All that can come of a move. -/
inductive Moved (r : Run) : Move → Step → Prop
  /-- The agent takes an event, and is emptied. -/
  | served {m : Move} {ev : Agent.Event ControllerLink FrameSender}
      {reply : Agent.Reply ControllerLink FrameSender Agent.Answer} {traces : List Trace} :
      r.isRunning = true → m.agentEvent? = some ev → r.loop.agent.step r.now ev = .ok reply →
      Moved r m
        ⟨{ r with loop := ⟨(EventLoop.forward reply.agent).1,
            m.reschedule r.now r.loop.schedule reply.answer⟩ },
          m.heard reply.answer, m.passed reply.answer ++ (EventLoop.forward reply.agent).2, traces⟩
  | waited (ms : Nat) : Moved r (.wait ms) ⟨{ r with now := r.now + ms }, .done, [], []⟩
  | shutdown {traces : List Trace} : r.isRunning = true →
      Moved r .shutdown ⟨{ r with isRunning := false }, .done, [], traces⟩
  | ignored {m : Move} : r.isRunning = false → Moved r m ⟨r, .stopped, [], []⟩

theorem moved (ha : r.Allows m) (hs : r.move m = .ok s) : r.Moved m s := by
  cases m with
  | event event =>
    rw [move, step] at hs
    split at hs
    · rename_i hrun
      cases hs
      obtain ⟨reply, hstep, hagent, hanswer⟩ := EventLoop.onEvent_step r.loop.agent r.now event
      have hserved : r.Moved (.event event) ⟨_, _, _, (r.loop.handle event r.now).traces⟩ :=
        .served hrun rfl hstep
      rw [hagent] at hserved
      simp only [EventLoop.handle, hanswer]
      exact hserved
    · rename_i hstopped
      cases hs
      exact .ignored (Bool.eq_false_iff.mpr hstopped)
  | tick e =>
    rw [move] at hs
    cases htick : r.loop.agent.tick e r.now with
    | error f =>
      rw [EventLoop.tick, htick] at hs
      cases hs
    | ok reply =>
      rw [EventLoop.tick_eq htick] at hs
      cases hs
      have hstep : r.loop.agent.step r.now (.tick e) =
          .ok ⟨reply.agent, .delay reply.answer, reply.traces⟩ := by
        rw [Agent.step, htick]
      exact .served ha.1 rfl hstep
  | wait ms =>
    cases hs
    exact .waited ms
  | shutdown =>
    rw [move, step] at hs
    split at hs
    · rename_i hrun
      cases hs
      exact .shutdown hrun
    · rename_i hstopped
      cases hs
      exact .ignored (Bool.eq_false_iff.mpr hstopped)

/-- A tick comes exactly at its engine's time. -/
theorem allows_tick {ev : Agent.Event ControllerLink FrameSender} {e : EngineId} (ha : r.Allows m)
    (hev : m.agentEvent? = some ev) (ht : ev.isTick e) : r.loop.schedule.get e = r.now := by
  cases m with
  | event event =>
    cases hev
    cases event <;> cases ht
  | tick e' =>
    cases hev
    cases of_decide_eq_true ht
    exact ha.2
  | wait | shutdown => cases hev

/-- An engine's next tick moves with its own ticks only. -/
theorem get_reschedule {ev : Agent.Event ControllerLink FrameSender}
    {reply : Agent.Reply ControllerLink FrameSender Agent.Answer}
    (hev : m.agentEvent? = some ev) (hstep : r.loop.agent.step r.now ev = .ok reply)
    (e : EngineId) :
    (m.reschedule r.now r.loop.schedule reply.answer).get e =
      if ev.isTick e then r.now + (reply.agent.queue e).delay r.now
      else r.loop.schedule.get e := by
  cases m with
  | event event =>
    cases hev
    cases event <;> rfl
  | tick e' =>
    cases hev
    rw [Agent.step] at hstep
    split at hstep
    · cases hstep
    · rename_i t ht
      cases hstep
      refine (Schedule.get_put ..).trans ?_
      by_cases he : e = e'
      · subst he
        rw [if_pos rfl, Agent.tick_answer ht]
        exact (if_pos (decide_eq_true rfl)).symm
      · rw [if_neg he, if_neg (by simpa [Agent.Event.isTick] using Ne.symm he)]
  | wait | shutdown => cases hev

theorem ready_move (h : r.Ready) (ha : r.Allows m) (hs : r.move m = .ok s) : s.run.Ready := by
  cases moved ha hs with
  | served hrun hev hstep =>
    have hget := get_reschedule hev hstep
    refine ⟨EventLoop.forward_sound (Agent.sound_step h.sound hstep), fun _ e => ?_, fun _ e => ?_⟩
    · have hdue := h.due hrun e
      refine Nat.le_trans ?_ (Nat.le_of_eq (hget e).symm)
      split
      · exact Nat.le_add_right _ _
      · exact hdue
    · have hnear := h.near hrun e
      refine Nat.le_trans (Nat.le_of_eq (hget e)) ?_
      split
      · exact Nat.add_le_add_left (Expiry.Queue.delay_bounds ..).2 _
      · exact hnear
  | waited ms =>
    refine ⟨h.sound, ha, fun hrun e => ?_⟩
    have hnear := h.near hrun e
    change r.loop.schedule.get e ≤ r.now + ms + Expiry.idleDelay
    omega
  | shutdown => exact ⟨h.sound, nofun, nofun⟩
  | ignored => exact h

theorem ready_path (h : r₀.Ready) (hp : r₀.Path log r) : r.Ready := by
  induction hp with
  | start => exact h
  | next _ ha hs ih => exact ready_move ih ha hs

/-- The clock can go to a time before which nothing is due. -/
theorem Path.wait_until {t : Nat} (hp : r₀.Path log r) (ht : r.now ≤ t)
    (hall : r.isRunning = true → ∀ e, t ≤ r.loop.schedule.get e) :
    ∃ log', r₀.Path (log ++ log') { r with now := t } ∧
      log'.flatMap (·.step.outbound) = [] := by
  have hallowed : r.Allows (.wait (t - r.now)) := fun hr e => by
    have := hall hr e
    omega
  have hpath := hp.next hallowed rfl
  rw [show r.now + (t - r.now) = t by omega] at hpath
  exact ⟨_, hpath, rfl⟩

/-- The ticks of the program up to a horizon are a path to it, and they send out what it says. -/
theorem ticksUntil_path {horizon fuel : Nat} (h : r₀.Ready) (hp : r₀.Path log r)
    (hrun : r.isRunning = true) (hnow : r.now ≤ horizon)
    (hfuel : r.loop.schedule.ticksLeft horizon ≤ fuel) (outbound : List Outbound)
    (traces : List Trace) :
    ∃ t log', r.loop.ticksUntil horizon fuel outbound traces = .ok t ∧
      r₀.Path (log ++ log') { r with loop := t.loop, now := horizon } ∧
      t.outbound = outbound.reverse ++ log'.flatMap (·.step.outbound) := by
  induction fuel generalizing r log outbound traces with
  | zero =>
    have hall := Schedule.horizon_lt_of_ticksLeft (Nat.le_zero.mp hfuel)
    obtain ⟨log', hpath, hnone⟩ := hp.wait_until hnow fun _ e => Nat.le_of_lt (hall e)
    refine ⟨⟨r.loop, (), outbound.reverse, traces.reverse⟩, log', ?_, hpath, ?_⟩
    · exact EventLoop.ticksUntil_zero
    · rw [hnone, List.append_nil]
  | succ fuel ih =>
    have hready := ready_path h hp
    have hmin := r.loop.schedule.earliest_le
    have hdue := hready.due hrun r.loop.schedule.earliest
    rw [EventLoop.ticksUntil_succ]
    generalize r.loop.schedule.earliest = e at hmin hdue
    by_cases hlate : horizon < r.loop.schedule.get e
    · -- Nothing is due any more.
      obtain ⟨log', hpath, hnone⟩ := hp.wait_until hnow fun _ e' => by
        have := hmin e'
        omega
      refine ⟨⟨r.loop, (), outbound.reverse, traces.reverse⟩, log', if_pos hlate, hpath, ?_⟩
      rw [hnone, List.append_nil]
    · -- The clock goes to the earliest tick, which moves its engine on.
      obtain ⟨log₁, hwaited, hnone⟩ := hp.wait_until hdue fun _ => hmin
      obtain ⟨reply, hreply, _⟩ := Agent.tick_ok hready.sound e (r.loop.schedule.get e)
      have htick := EventLoop.tick_eq hreply
      have hbusy := ((reply.agent.queue e).delay_bounds (r.loop.schedule.get e)).1
      rw [← Agent.tick_answer hreply] at hbusy
      have hnext := hwaited.next (m := .tick e) ⟨hrun, rfl⟩ (by rw [move, htick])
      have hleft := Schedule.ticksLeft_put_lt (Nat.le_of_not_lt hlate)
        (Nat.add_le_add_left hbusy (r.loop.schedule.get e))
      rw [if_neg hlate, htick]
      obtain ⟨t, log₂, ht, hpath, hout⟩ := ih hnext hrun (Nat.le_of_not_lt hlate)
        (Nat.le_of_lt_succ (Nat.lt_of_lt_of_le hleft hfuel)) _ _
      rw [List.append_assoc, List.append_assoc] at hpath
      refine ⟨t, _, ht, hpath, ?_⟩
      rw [hout, List.flatMap_append, List.flatMap_append, hnone]
      simp

/-- Every input of the program is a path, an event one iteration of it, and the program sends out
what the path does. -/
theorem step_path (h : r₀.Ready) (hp : r₀.Path log r) (input : Input) :
    ∃ s log', r.step input = .ok s ∧ r₀.Path (log ++ log') s.run ∧
      s.outbound = log'.flatMap (·.step.outbound) ∧
      ∀ e, input = .event e → log' = [⟨r, .event e, s⟩] := by
  cases input with
  | event e =>
    obtain ⟨s, hs⟩ := move_ok (ready_path h hp) (.event e)
    refine ⟨s, _, hs, hp.next (m := .event e) trivial hs, by simp, ?_⟩
    rintro _ ⟨⟩
    rfl
  | shutdown =>
    obtain ⟨s, hs⟩ := move_ok (ready_path h hp) .shutdown
    exact ⟨s, _, hs, hp.next (m := .shutdown) trivial hs, by simp, nofun⟩
  | sleep ms =>
    rw [step]
    by_cases hrun : r.isRunning = true
    · obtain ⟨t, log', ht, hpath, hout⟩ := ticksUntil_path h hp hrun (Nat.le_add_right r.now ms)
        (r.loop.schedule.ticksLeft_le _) [] []
      rw [if_pos hrun, EventLoop.sleep, ht]
      exact ⟨_, log', rfl, hpath, hout, nofun⟩
    · obtain ⟨log', hpath, hnone⟩ := hp.wait_until (Nat.le_add_right r.now ms)
        fun hr => (hrun hr).elim
      rw [if_neg hrun]
      exact ⟨_, log', rfl, hpath, hnone.symm, nofun⟩

/-- Startup rows with which queries are expected every half second. -/
def hurried : List (TimeoutName × Duration) := [(.query, .ofMillis 500)]

end Run
end Snooping
