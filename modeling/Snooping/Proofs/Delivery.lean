import Snooping.Proofs.Agreement
import Snooping.Proofs.Registration

/-!
Scheduling does not depend on delivery. Two histories with the same stimuli, whatever becomes of
the ways out between them, lead to agreeing agents.
-/
namespace Snooping.Agent

variable {χ ω χ' ω' : Type}

/-- What an agent is asked to do, as opposed to what happens to its ways out. -/
inductive Stimulus
  | request (r : TableRequest)
  | packet (frame : Bytes) (inPort : UInt32)
  | tick (e : EngineId)
  | startup (rows : List (TimeoutName × Duration))

def Stimulus.event : Stimulus → Event χ ω
  | request r => .request r
  | packet frame inPort => .packet frame inPort
  | tick e => .tick e
  | startup rows => .startup rows

def Event.stimulus? : Event χ ω → Option Stimulus
  | request r => some (.request r)
  | packet frame inPort => some (.packet frame inPort)
  | tick e => some (.tick e)
  | startup rows => some (.startup rows)
  | channel _ | out _ => none

/-- The stimuli of a history with their times. -/
def stimuli (xs : History χ ω) : List (Nat × Stimulus) :=
  xs.filterMap fun x => x.2.stimulus?.map (x.1, ·)

/-- An answer but for the figures that deliveries change. -/
def Stimulus.steady : Stimulus → Answer → Answer
  | request r, .response response => .response (response.steady r.table)
  | _, answer => answer

theorem Event.eq_of_stimulus? {ev : Event χ ω} {s : Stimulus} (h : ev.stimulus? = some s) :
    ev = s.event := by
  cases ev <;> cases h <;> rfl

variable {a a' : Agent χ ω} {b b' : Agent χ' ω'} {now : Nat} {s : Stimulus} {ev : Event χ ω}
  {xs : History χ ω} {ys : History χ' ω'}

theorem stimuli_cons_none (hev : ev.stimulus? = none) : stimuli ((now, ev) :: xs) = stimuli xs := by
  simp [stimuli, hev]

theorem stimuli_cons_some (hev : ev.stimulus? = some s) :
    stimuli ((now, ev) :: xs) = (now, s) :: stimuli xs := by
  simp [stimuli, hev]

/-- Before the first stimulus of a history stands only what happens to the ways out. -/
theorem stimuli_eq_cons {rest : List (Nat × Stimulus)} (h : stimuli xs = (now, s) :: rest) :
    ∃ pre post, xs = pre ++ (now, s.event) :: post ∧ stimuli pre = [] ∧ stimuli post = rest := by
  obtain ⟨pre, ⟨u, ev⟩, post, rfl, hpre, hx, hpost⟩ := List.filterMap_eq_cons_iff.mp h
  obtain ⟨s', hs', he⟩ := Option.map_eq_some_iff.mp hx
  cases he
  change ev.stimulus? = some s at hs'
  rw [Event.eq_of_stimulus? hs']
  exact ⟨pre, post, rfl, List.filterMap_eq_nil_iff.mpr hpre, hpost⟩

theorem agree_new (maxPorts : UInt32) (channel : χ) (out : ω) (channel' : χ') (out' : ω') :
    (new maxPorts channel out).Agree (new maxPorts channel' out') :=
  ⟨rfl, rfl, rfl, rfl, ⟨fun _ => rfl, rfl, rfl, rfl⟩, ⟨fun _ => rfl, rfl, rfl, rfl⟩,
    ⟨fun _ => rfl, rfl, rfl, rfl⟩, ⟨fun _ => rfl, rfl⟩, ⟨fun _ => rfl, rfl⟩, rfl⟩

variable [ControllerChannel χ] [PacketOut ω] {reply : Reply χ ω Answer}

/-- What happens to the ways out changes nothing else. -/
theorem Agree.step_quiet (h : a.Agree b) (hr : a.step now ev = .ok reply)
    (hev : ev.stimulus? = none) : reply.agent.Agree b := by
  cases ev with
  | channel | out =>
    cases hr
    exact { h with }
  | request | packet | tick | startup => cases hev

theorem Agree.run_quiet (h : a.Agree b) (hr : a.run xs = .ok a') (hx : stimuli xs = []) :
    a'.Agree b := by
  induction xs generalizing a with
  | nil =>
    cases hr
    exact h
  | cons x xs ih =>
    obtain ⟨now, ev⟩ := x
    obtain ⟨reply, hs, hr⟩ := run_cons_ok hr
    cases hev : ev.stimulus? with
    | none => exact ih (h.step_quiet hs hev) hr (stimuli_cons_none hev ▸ hx)
    | some s =>
      rw [stimuli_cons_some hev] at hx
      cases hx

variable [ControllerChannel χ'] [PacketOut ω']

/-- Agreeing agents answer a stimulus alike and agree after it. -/
theorem Agree.step (h : a.Agree b) (hs : a.Sound) (hs' : b.Sound) (now : Nat) (s : Stimulus) :
    ∃ r r', a.step now s.event = .ok r ∧ b.step now s.event = .ok r' ∧
      r.agent.Agree r'.agent ∧ s.steady r.answer = s.steady r'.answer := by
  cases s with
  | request r =>
    obtain ⟨hr, ha⟩ := h.request now r
    exact ⟨_, _, rfl, rfl, hr, congrArg Answer.response ha⟩
  | packet frame inPort =>
    obtain ⟨hc, ha⟩ := h.classify frame inPort now
    exact ⟨_, _, rfl, rfl, hc, congrArg Answer.outcome ha⟩
  | tick e =>
    obtain ⟨r, r', hr, hr', ht, hd⟩ := h.tick hs hs' e now
    refine ⟨⟨r.agent, .delay r.answer, r.traces⟩, ⟨r'.agent, .delay r'.answer, r'.traces⟩, ?_, ?_,
      ht, congrArg Answer.delay hd⟩
    · rw [Stimulus.event, Agent.step, hr]
    · rw [Stimulus.event, Agent.step, hr']
  | startup rows => exact ⟨_, _, rfl, rfl, h.applyInitialTimeouts rows, rfl⟩

/-- The stimuli alone decide what two histories lead to. -/
theorem Agree.run (h : a.Agree b) (hs : a.Sound) (hs' : b.Sound) (ha : a.run xs = .ok a')
    (hb : b.run ys = .ok b') (hxy : stimuli xs = stimuli ys) : a'.Agree b' := by
  induction xs generalizing a b ys with
  | nil =>
    cases ha
    exact (h.symm.run_quiet hb hxy.symm).symm
  | cons x xs ih =>
    obtain ⟨now, ev⟩ := x
    obtain ⟨reply, hr, ha⟩ := run_cons_ok ha
    cases hev : ev.stimulus? with
    | none =>
      rw [stimuli_cons_none hev] at hxy
      exact ih (h.step_quiet hr hev) (sound_step hs hr) hs' ha hb hxy
    | some s =>
      rw [stimuli_cons_some hev] at hxy
      obtain ⟨pre, post, rfl, hpre, hpost⟩ := stimuli_eq_cons hxy.symm
      -- The other run first takes what comes before its copy of the stimulus.
      obtain ⟨b₁, hb₁, hs₁⟩ := run_ok hs' pre
      have h₁ := (h.symm.run_quiet hb₁ hpre).symm
      rw [run_append hb₁] at hb
      obtain ⟨reply', hr', hb⟩ := run_cons_ok hb
      obtain ⟨r, r', hst, hst', hagree, _⟩ := h₁.step hs hs₁ now s
      rw [Event.eq_of_stimulus? hev, hst] at hr
      rw [hst'] at hr'
      cases hr
      cases hr'
      exact ih hagree (sound_step hs hst) (sound_step hs₁ hst') ha hb hpost.symm

/-- Two histories with the same stimuli at the same times, whatever the ways out are and whatever
happens to them in between, lead to agents that agree but for what was delivered, and that answer
every further stimulus alike but for the figures of deliveries. -/
theorem delivery_is_immaterial (maxPorts : UInt32) (channel : χ) (out : ω) (channel' : χ')
    (out' : ω') (xs : History χ ω) (ys : History χ' ω') (h : stimuli xs = stimuli ys) :
    ∃ a b, (new maxPorts channel out).run xs = .ok a ∧
      (new maxPorts channel' out').run ys = .ok b ∧ a.Agree b ∧
      ∀ now (s : Stimulus), ∃ r r', a.step now s.event = .ok r ∧ b.step now s.event = .ok r' ∧
        r.agent.Agree r'.agent ∧ s.steady r.answer = s.steady r'.answer := by
  have hs := sound_new maxPorts channel out
  have hs' := sound_new maxPorts channel' out'
  obtain ⟨a, ha, hsa⟩ := run_ok hs xs
  obtain ⟨b, hb, hsb⟩ := run_ok hs' ys
  have hagree := (agree_new maxPorts channel out channel' out').run hs hs' ha hb h
  exact ⟨a, b, ha, hb, hagree, fun now s => hagree.step hsa hsb now s⟩

/-- Once a controller hears that the querier is idle, and once the channel is closed. -/
theorem delivery_is_immaterial_closed :
    let ask : TableRequest := ⟨.generalQueryExpectation, .add [.name "querier", .vlanVid 1] []⟩
    let heard : History ControllerLink FrameSender :=
      [(0, .channel (·.connect 4)), (0, .request ask), (255000, .tick .generalQueryExpectation)]
    let closed : History ControllerLink PortSender :=
      [(0, .request ask), (7, .channel (·.close)), (255000, .tick .generalQueryExpectation)]
    stimuli heard = stimuli closed ∧
      ∃ a b, (new 8 .initial .initial).run heard = .ok a ∧
        (new 8 .initial .initial).run closed = .ok b ∧ a.Agree b := by
  intro ask heard closed
  have h : stimuli heard = stimuli closed := rfl
  obtain ⟨a, b, ha, hb, hab, _⟩ :=
    delivery_is_immaterial 8 .initial .initial .initial .initial heard closed h
  exact ⟨h, a, b, ha, hb, hab⟩

end Snooping.Agent
