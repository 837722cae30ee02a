import Snooping.Proofs.Edits

/-!
Where deadlines come from: each is the time of the last event that scheduled its key plus the
interval then in force, and no tick serves a key before it.
-/
namespace Snooping.Agent

variable {χ ω : Type} {a a' b : Agent χ ω} {now d : Nat} {e : EngineId} {k : e.Key}

theorem deadline_le_of_served (hs : a.Sound) (hd : (a.queue e).deadline? k = some d)
    (hk : k ∈ a.served e now) : d ≤ now := by
  obtain ⟨t, ht, hle⟩ := Expiry.Queue.due_of_mem_served (hs e).queue hk
  rw [Expiry.Queue.deadline?, queue, ht] at hd
  cases hd
  exact hle

variable [PacketOut ω]

variable [ControllerChannel χ] {ev : Event χ ω} {xs : History χ ω} {reply : Reply χ ω Answer}

/-- Whether an event may hand the channel a message: a tick, or the channel itself. -/
def Event.speaks : Event χ ω → Bool
  | tick _ | channel _ => true
  | _ => false

/-- The last event of the history that scheduled `k` gave it the deadline `d`. -/
def LastScheduled (a : Agent χ ω) (xs : History χ ω) (e : EngineId) (k : e.Key) (d : Nat) : Prop :=
  ∃ pre u ev post b reply, xs = pre ++ (u, ev) :: post ∧ a.run pre = .ok b ∧
    b.Schedules u ev e k ∧ b.step u ev = .ok reply ∧
    reply.agent.Throughout (fun c now ev => ¬ c.Schedules now ev e k) post ∧ d = u + b.interval e

theorem LastScheduled.cons (h : a.step now ev = .ok reply)
    (hl : reply.agent.LastScheduled xs e k d) :
    a.LastScheduled ((now, ev) :: xs) e k d := by
  obtain ⟨pre, u, ev', post, b, reply', rfl, hb, hl⟩ := hl
  exact ⟨(now, ev) :: pre, u, ev', post, b, reply', rfl, (run_cons h).trans hb, hl⟩

theorem deadline?_step (hs : a.Sound) (h : a.step now ev = .ok reply)
    (hk : ¬ a.Schedules now ev e k) (hn : a.change now ev e ≠ .cancel k) :
    (reply.agent.queue e).deadline? k = (a.queue e).deadline? k :=
  congrArg (Option.map _) (Change.find?_of_not_schedules (hs e) (step_takes hs h e) hk hn)

/-- Any final deadline was given inside the history, or was there before and never scheduled. -/
theorem deadline?_run (hs : a.Sound) (h : a.run xs = .ok b)
    (hd : (b.queue e).deadline? k = some d) :
    a.LastScheduled xs e k d ∨
      a.Throughout (fun c now ev => ¬ c.Schedules now ev e k) xs ∧
        (a.queue e).deadline? k = some d := by
  induction xs generalizing a with
  | nil =>
    cases h
    exact .inr ⟨trivial, hd⟩
  | cons x xs ih =>
    obtain ⟨now, ev⟩ := x
    obtain ⟨reply, hr, hx⟩ := run_cons_ok h
    have ht := step_takes hs hr e
    rcases ih (sound_step hs hr) hx with hl | ⟨hq, hd'⟩
    · exact .inl (hl.cons hr)
    · by_cases hk : a.Schedules now ev e k
      · have hu := Change.deadline?_of_schedules (hs e) ht hk
        rw [show (reply.agent.roster e).queue = reply.agent.queue e from rfl, hd'] at hu
        exact .inl ⟨[], now, ev, xs, a, reply, rfl, rfl, hk, hr, hq, Option.some.inj hu⟩
      · have hn : a.change now ev e ≠ .cancel k := by
          intro hc
          rw [hc] at ht
          have hu := Change.deadline?_of_cancel ht
          rw [show (reply.agent.roster e).queue = reply.agent.queue e from rfl, hd'] at hu
          cases hu
        have hkept := deadline?_step hs hr hk hn
        exact .inr ⟨(throughout_cons hr).mpr ⟨hk, hq⟩, hkept.symm.trans hd'⟩

theorem channel_step (hs : a.Sound) (h : a.step now ev = .ok reply) (hv : ev.speaks = false) :
    reply.agent.channel = a.channel := by
  cases ev with
  | request r =>
    cases h
    rcases request_cases a r now with ⟨_, hr⟩ | ⟨_, hp⟩
    · exact congrArg Agent.channel hr
    · exact (performs_editedBy hs hp).beside.channel
  | startup rows =>
    cases h
    change (a.applyInitialTimeouts rows).1.channel = _
    rw [applyInitialTimeouts_fst]
  | packet frame inPort | out f =>
    cases h
    rfl
  | tick e | channel f => cases hv

/-- After any history, the deadline of a live key is the time of the last event that scheduled it
plus the interval then in force, and no other event moves it. Ticks serve no key before its
deadline, and what they serve is all that the channel hears of. -/
theorem deadlines_of_last_scheduled (maxPorts : UInt32) (channel : χ) (out : ω)
    (history : History χ ω) :
    ∃ a, (new maxPorts channel out).run history = .ok a ∧
      (∀ e k, ((a.roster e).stored k).isSome → ∃ d, (a.queue e).deadline? k = some d ∧
        (new maxPorts channel out).LastScheduled history e k d ∧
        ∀ now, k ∈ a.served e now → d ≤ now) ∧
      (∀ now ev reply e k, a.step now ev = .ok reply → ¬ a.Schedules now ev e k →
        a.change now ev e ≠ .cancel k →
        (reply.agent.queue e).deadline? k = (a.queue e).deadline? k) ∧
      (∀ e now, (0 < a.interval e → (a.served e now).Nodup) ∧
        ∃ reply, a.tick e now = .ok reply ∧ (reply.agent.channel, reply.agent.out) =
          (a.served e now).foldl (a.emit e) (a.channel, a.out)) ∧
      ∀ now ev reply, a.step now ev = .ok reply → ev.speaks = false →
        reply.agent.channel = a.channel := by
  obtain ⟨a, ha, hs⟩ := run_ok (sound_new maxPorts channel out) history
  refine ⟨a, ha, ?_, ?_, ?_, ?_⟩
  · intro e k hk
    rw [← (hs e).contains_eq, Expiry.Queue.contains_eq] at hk
    obtain ⟨t, ht⟩ := Option.isSome_iff_exists.mp hk
    have hd : (a.queue e).deadline? k = some t.deadline := congrArg (Option.map _) ht
    refine ⟨t.deadline, hd, ?_, fun now => deadline_le_of_served hs hd⟩
    rcases deadline?_run (sound_new maxPorts channel out) ha hd with hl | ⟨_, hn⟩
    · exact hl
    · cases e <;> cases hn
  · intro now ev reply e k h
    exact deadline?_step hs h
  · intro e now
    obtain ⟨reply, hr, _, hw⟩ := tick_ok hs e now
    exact ⟨Expiry.Queue.nodup_served (hs e).queue, reply, hr, hw⟩
  · intro now ev reply h
    exact channel_step hs h

end Snooping.Agent
