import Snooping.Proofs.Clock
import Snooping.Proofs.Overtaking

/-!
How late a deadline can be met. A due key is served once its engine has ticked for all that is
before it, and the next tick of an engine is never more than the idle delay away, or than the busy
delay while a key is waiting.
-/
namespace Snooping

/-- The longest that a key can be overdue in a table that has had `n` entries at most. -/
def lateness (n : Nat) : Nat :=
  Expiry.idleDelay + Expiry.busyDelay * ((n - 1) / Expiry.maxServiced)

theorem lateness_mono {n n' : Nat} (h : n ≤ n') : lateness n ≤ lateness n' := by
  have := Nat.div_le_div_right (c := Expiry.maxServiced) (Nat.sub_le_sub_right h 1)
  exact Nat.add_le_add_left (Nat.mul_le_mul_left _ this) _

namespace Roster

variable {κ : Type} [DecidableEq κ] {r r' : Roster κ} {c : Change κ} {k : κ} {t : Expiry.Ticket}
  {now interval next next' n n' : Nat}

/-- With its next tick at `next`, and one busy delay for each full number of keys before it, every
key is served in time. -/
def Timely (r : Roster κ) (next n : Nat) : Prop :=
  ∀ k t, r.queue.tickets.find? k = some t →
    next + Expiry.busyDelay * (r.queue.ahead k / Expiry.maxServiced) ≤ t.deadline + lateness n

/-- A key is in time if the next tick is within the idle delay of its deadline. -/
theorem timely_of_near (hs : r.Sound) (hn : r.queue.agenda.length ≤ n)
    (hk : r.queue.tickets.find? k = some t) (hnear : next ≤ t.deadline + Expiry.idleDelay) :
    next + Expiry.busyDelay * (r.queue.ahead k / Expiry.maxServiced) ≤
      t.deadline + lateness n := by
  have hahead := hs.queue.ahead_lt hk
  have hle : r.queue.ahead k / Expiry.maxServiced ≤ (n - 1) / Expiry.maxServiced :=
    Nat.div_le_div_right (by omega)
  have hmul := Nat.mul_le_mul_left Expiry.busyDelay hle
  rw [lateness]
  omega

/-- What a change of the roster at `now` makes of the next tick: a service asks for the delay that
its queue calls for, and nothing else moves it. -/
structure Reschedules (c : Change κ) (r' : Roster κ) (now next next' : Nat) : Prop where
  near : next' ≤ now + Expiry.idleDelay
  kept : c ≠ .serve → next' = next
  served : c = .serve → next = now ∧ next' = now + r'.queue.delay now

/-- A due key that is not served by a tick has moved up by a full number, which makes up for the
delay to the next tick. -/
theorem Timely.change (h : r.Timely next n) (hs : r.Sound) (hc : c.Takes now interval r r')
    (hnext : Reschedules c r' now next next') (hn : n ≤ n')
    (hsize : r'.queue.agenda.length ≤ n') : r'.Timely next' n' := by
  intro k t hk
  have hs' := Change.sound hs hc
  by_cases hsched : c.Schedules now interval r k
  · -- A key that was just scheduled is not due before now.
    have hd := Change.deadline?_of_schedules hs hc hsched
    rw [Expiry.Queue.deadline?, hk] at hd
    have hdeadline : t.deadline = now + interval := Option.some.inj hd
    have hnear := hnext.near
    exact timely_of_near hs' hsize hk (by omega)
  · have hcancel : c ≠ .cancel k := by
      rintro rfl
      have hnone := Change.deadline?_of_cancel hc
      rw [Expiry.Queue.deadline?, hk] at hnone
      cases hnone
    have hold : r.queue.tickets.find? k = some t := by
      rw [← Change.find?_of_not_schedules hs hc hsched hcancel]
      exact hk
    by_cases hdue : t.deadline ≤ now
    · obtain ⟨hahead, hfull⟩ := Change.ahead_of_not_schedules hs hc hold hdue hsched hcancel
      have hbefore := h k t hold
      have hmono := lateness_mono hn
      by_cases hserve : c = .serve
      · -- The key waits for another tick, so the queue is busy.
        obtain ⟨hnow, hdelay⟩ := hnext.served hserve
        have hbusy : r'.queue.delay now = Expiry.busyDelay :=
          if_pos (hs'.queue.hasExpired_of_due hk hdue)
        rw [← hfull hserve, Nat.add_div_right _ (by decide), Nat.mul_succ] at hbefore
        omega
      · have hkept := hnext.kept hserve
        have hle := Nat.mul_le_mul_left Expiry.busyDelay
          (Nat.div_le_div_right (c := Expiry.maxServiced) hahead)
        omega
    · have hnear := hnext.near
      exact timely_of_near hs' hsize hk (by omega)

theorem Timely.mono (h : r.Timely next n) (hn : n ≤ n') : r.Timely next n' := fun k t hk =>
  Nat.le_trans (h k t hk) (Nat.add_le_add_left (lateness_mono hn) _)

end Roster

namespace Agent

variable {χ ω : Type}

/-- How many entries an engine's table has. -/
def live (a : Agent χ ω) : EngineId → Nat
  | .generalQueryExpectation => a.generalQuery.entries.size
  | .reportExpectation => a.report.entries.size
  | .pimExpectation => a.pim.entries.size
  | .generalQueryTx => a.generalQueryTx.entries.size
  | .reportTx => a.reportTx.entries.size

theorem length_agenda {a : Agent χ ω} (hs : a.Sound) (e : EngineId) :
    (a.queue e).agenda.length = a.live e := by
  cases e
  case generalQueryExpectation => exact hs.generalQuery.length_agenda
  case reportExpectation => exact hs.report.length_agenda
  case pimExpectation => exact hs.pim.length_agenda
  case generalQueryTx => exact hs.generalQueryTx.length_agenda
  case reportTx => exact hs.reportTx.length_agenda

end Agent

namespace Run

variable {r₀ r : Run} {m : Move} {s : Step} {log : List Iteration} {most : EngineId → Nat}

/-- The most entries that an engine's table has had on a path, one at least. -/
def peak (r₀ : Run) (log : List Iteration) (e : EngineId) : Nat :=
  log.foldl (fun n i => max n (i.step.run.loop.agent.live e)) (max 1 (r₀.loop.agent.live e))

theorem peak_append (r₀ : Run) (log : List Iteration) (i : Iteration) (e : EngineId) :
    r₀.peak (log ++ [i]) e = max (r₀.peak log e) (i.step.run.loop.agent.live e) :=
  List.foldl_append

/-- Every engine of a running loop is in time, given the most entries it has had. -/
def Timely (r : Run) (most : EngineId → Nat) : Prop :=
  r.isRunning = true → ∀ e,
    (r.loop.agent.roster e).Timely (r.loop.schedule.get e) (most e)

theorem Timely.move (h : r.Timely most) (hr : r.Ready) (ha : r.Allows m)
    (hs : r.move m = .ok s) :
    s.run.Timely fun e => max (most e) (s.run.loop.agent.live e) := by
  have hsound := (ready_move hr ha hs).sound
  have hsize (e : EngineId) : (s.run.loop.agent.roster e).queue.agenda.length ≤
      max (most e) (s.run.loop.agent.live e) := by
    rw [show (s.run.loop.agent.roster e).queue.agenda.length = _ from Agent.length_agenda hsound e]
    exact Nat.le_max_right _ _
  have hnear := (ready_move hr ha hs).near
  cases moved ha hs with
  | @served _ ev reply _ hrun hev hstep =>
    intro _ e
    have htakes := Agent.step_takes hr.sound hstep e
    rw [← EventLoop.forward_roster reply.agent] at htakes
    have hget := get_reschedule hev hstep e
    refine (h hrun e).change (hr.sound e) htakes ⟨hnear hrun e, fun hkept => ?_, fun hserve => ?_⟩
      (Nat.le_max_left _ _) (hsize e)
    · exact hget.trans (if_neg fun ht => hkept (Agent.change_eq_serve_iff.mpr ht))
    · have ht := Agent.change_eq_serve_iff.mp hserve
      refine ⟨allows_tick ha hev ht, hget.trans ((if_pos ht).trans ?_)⟩
      rw [EventLoop.forward_roster]
      rfl
  | waited | ignored => exact fun hrun e => (h hrun e).mono (Nat.le_max_left _ _)
  | shutdown => nofun

theorem timely_initial (maxPorts : UInt32) (rows : List (TimeoutName × Duration))
    (most : EngineId → Nat) : (initial maxPorts rows).Timely most := by
  intro _ e k t hk
  have hnew : (initial maxPorts rows).loop.agent.roster e =
      (Agent.new maxPorts ControllerLink.initial FrameSender.initial).roster e := by
    change (Agent.applyInitialTimeouts _ rows).1.roster e = _
    rw [Agent.applyInitialTimeouts_fst]
    cases e <;> rfl
  rw [hnew] at hk
  cases e <;> cases hk

theorem timely_path {maxPorts : UInt32} {rows : List (TimeoutName × Duration)}
    (hp : (initial maxPorts rows).Path log r) : r.Timely ((initial maxPorts rows).peak log) := by
  induction hp with
  | start => exact timely_initial maxPorts rows _
  | next hp ha hs ih =>
    have htimely := ih.move (ready_path (ready_initial maxPorts rows) hp) ha hs
    intro hrun e
    rw [peak_append]
    exact htimely hrun e

/-- Whatever happens to a running loop, and in whatever order it takes what happens at one time, no
key is overdue for longer than an idle delay and a busy delay for each 32 entries but the last that
its table has had. So whatever a tick serves, it serves in that time. -/
theorem overdue_bounded {maxPorts : UInt32} {rows : List (TimeoutName × Duration)}
    (hp : (initial maxPorts rows).Path log r) (hrun : r.isRunning = true) (e : EngineId)
    (k : e.Key) :
    (∀ d, (r.loop.agent.queue e).deadline? k = some d →
      r.now ≤ d + 1000 + 100 * (((initial maxPorts rows).peak log e - 1) / 32)) ∧
    (k ∈ r.loop.agent.served e r.now → ∃ d, (r.loop.agent.queue e).deadline? k = some d ∧
      d ≤ r.now ∧ r.now ≤ d + 1000 + 100 * (((initial maxPorts rows).peak log e - 1) / 32)) := by
  have hready := ready_path (ready_initial maxPorts rows) hp
  have hbound : ∀ d, (r.loop.agent.queue e).deadline? k = some d →
      r.now ≤ d + 1000 + 100 * (((initial maxPorts rows).peak log e - 1) / 32) := by
    intro d hd
    obtain ⟨t, ht, rfl⟩ := Option.map_eq_some_iff.mp hd
    have htimely := timely_path hp hrun e k t ht
    have hdue := hready.due hrun e
    simp only [lateness, Expiry.idleDelay, Expiry.busyDelay, Expiry.maxServiced] at htimely
    omega
  refine ⟨hbound, fun hk => ?_⟩
  obtain ⟨t, ht, hle⟩ := Expiry.Queue.due_of_mem_served (hready.sound e).queue hk
  have hd : (r.loop.agent.queue e).deadline? k = some t.deadline := congrArg (Option.map _) ht
  exact ⟨t.deadline, hd, hle, hbound _ hd⟩

/-- A querier that is due after half a second is overdue by another half when its engine first
ticks, which is within the bound for one entry. -/
theorem overdue_bounded_first :
    ∃ log r, (initial 8 hurried).Path log r ∧ r.isRunning = true ∧ r.now = 1000 ∧
      (r.loop.agent.queue .generalQueryExpectation).deadline? (⟨"querier", 1⟩ : VlanKey) =
        some 500 ∧
      r.now ≤ 500 + 1000 +
        100 * (((initial 8 hurried).peak log .generalQueryExpectation - 1) / 32) := by
  have hstart : (initial 8 hurried).Path [] (initial 8 hurried) := .start
  have hadded := hstart.next (m := .event (.request
    ⟨.generalQueryExpectation, .add [.name "querier", .vlanVid 1] []⟩)) trivial rfl
  have hpath := hadded.next (m := .wait 1000) (by intro _ e; cases e <;> decide) rfl
  exact ⟨_, _, hpath, rfl, rfl, rfl,
    (overdue_bounded hpath rfl .generalQueryExpectation (⟨"querier", 1⟩ : VlanKey)).1 500 rfl⟩

end Run
end Snooping
