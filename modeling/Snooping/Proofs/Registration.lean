import Snooping.Proofs.Steps

/-! In every run an engine's queue holds exactly the keys of its entries, so no timer fires for a
deleted one. -/
namespace Snooping.Agent

variable {χ ω : Type} [ControllerChannel χ] [PacketOut ω] {a b : Agent χ ω} {now : Nat}
  {ev : Event χ ω} {reply : Reply χ ω Answer}

theorem sound_step (hs : a.Sound) (h : a.step now ev = .ok reply) : reply.agent.Sound :=
  fun e => Change.sound (hs e) (step_takes hs h e)

theorem run_ok (hs : a.Sound) (xs : History χ ω) : ∃ b, a.run xs = .ok b ∧ b.Sound := by
  induction xs generalizing a with
  | nil => exact ⟨a, rfl, hs⟩
  | cons x xs ih =>
    obtain ⟨now, ev⟩ := x
    obtain ⟨reply, h⟩ := step_ok hs now ev
    obtain ⟨b, hb, hsb⟩ := ih (sound_step hs h)
    exact ⟨b, (run_cons h).trans hb, hsb⟩

theorem sound_run {xs : History χ ω} (hs : a.Sound) (h : a.run xs = .ok b) : b.Sound := by
  obtain ⟨b', hb, hsb⟩ := run_ok hs xs
  rw [hb] at h
  cases h
  exact hsb

theorem sound_reachable (h : a.Reachable) : a.Sound := by
  obtain ⟨maxPorts, channel, out, history, hr⟩ := h
  exact sound_run (sound_new maxPorts channel out) hr

/-- What every step keeps, a run keeps. -/
theorem run_keeps {P : Agent χ ω → Prop} (hstep : ∀ {a : Agent χ ω} {now ev reply}, a.Sound →
    a.step now ev = .ok reply → P a → P reply.agent) {xs : History χ ω} (hs : a.Sound)
    (h : a.run xs = .ok b) (ha : P a) : P b := by
  induction xs generalizing a with
  | nil =>
    cases h
    exact ha
  | cons x xs ih =>
    obtain ⟨now, ev⟩ := x
    obtain ⟨reply, hr, hx⟩ := run_cons_ok h
    exact ih (sound_step hs hr) hx (hstep hs hr ha)

/-- What holds after a run came about at some event and was not undone since, or it held before and
was never undone. -/
theorem since_or_throughout_of_step {P Q : Agent χ ω → Nat → Event χ ω → Prop}
    {F : Agent χ ω → Prop} (hstep : ∀ {a : Agent χ ω} {now ev reply}, a.Sound →
      a.step now ev = .ok reply → F reply.agent → P a now ev ∨ ¬ Q a now ev ∧ F a)
    {xs : History χ ω} (hs : a.Sound) (h : a.run xs = .ok b) (hf : F b) :
    a.Since P Q xs ∨ a.Throughout (fun c now ev => ¬ Q c now ev) xs ∧ F a := by
  induction xs generalizing a with
  | nil =>
    cases h
    exact .inr ⟨trivial, hf⟩
  | cons x xs ih =>
    obtain ⟨now, ev⟩ := x
    obtain ⟨reply, hr, hx⟩ := run_cons_ok h
    rw [since_cons hr, throughout_cons hr]
    -- What came about in the rest is later than the head, so the rest is asked first.
    rcases ih (sound_step hs hr) hx with hsince | ⟨hthroughout, hf'⟩
    · exact .inl (.inl hsince)
    · rcases hstep hs hr hf' with hp | ⟨hq, ha⟩
      · exact .inl (.inr ⟨hp, hthroughout⟩)
      · exact .inr ⟨⟨hq, hthroughout⟩, ha⟩

/-- No event of any history fails. After it, a key is registered exactly if it has an entry, then
once, and its entry is stored under the key that the entry names. -/
theorem registrations_match_entries (maxPorts : UInt32) (channel : χ) (out : ω)
    (history : History χ ω) :
    ∃ a, (new maxPorts channel out).run history = .ok a ∧
      ∀ e k, (a.queue e).contains k = ((a.roster e).stored k).isSome ∧
        ((a.queue e).agenda.map Prod.snd).count k = (if (a.queue e).contains k then 1 else 0) ∧
        ∀ k', (a.roster e).stored k = some k' → k' = k := by
  obtain ⟨a, ha, hs⟩ := run_ok (sound_new maxPorts channel out) history
  refine ⟨a, ha, fun e k => ⟨(hs e).contains_eq k, (hs e).queue.count_key k, fun k' hk => ?_⟩⟩
  exact (hs e).key_eq hk

end Snooping.Agent
