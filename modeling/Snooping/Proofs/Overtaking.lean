import Snooping.Proofs.Registration

/-!
Nothing overtakes a key that is due: no registration gets before it any more, and every tick of its
engine takes off a full number of those that are before it. So it is served within a bounded number
of ticks.
-/
namespace Snooping.Agent

variable {χ ω : Type} [PacketOut ω] {a b : Agent χ ω} {now d : Nat} {ev : Event χ ω}
  {xs : History χ ω} {e : EngineId} {k : e.Key} {t : Expiry.Ticket} {reply : Reply χ ω Answer}

def Event.isTick (e : EngineId) : Event χ ω → Bool
  | tick e' => e' = e
  | _ => false

/-- The event neither gives `k` a new deadline nor takes it away. -/
def Spares (e : EngineId) (k : e.Key) (a : Agent χ ω) (now : Nat) (ev : Event χ ω) : Prop :=
  ¬ a.Schedules now ev e k ∧ a.change now ev e ≠ .cancel k

theorem change_eq_serve_iff : a.change now ev e = .serve ↔ ev.isTick e := by
  cases ev with
  | tick e' =>
    simp only [change, Event.isTick, decide_eq_true_eq]
    split <;> simp_all
  | request r =>
    simp only [change, Event.isTick, requestChange, Bool.false_eq_true, iff_false]
    split
    · split
      · cases e.key? _ <;> simp
      · split
        · cases e.key? _ <;> simp
        · simp
      · cases e.key? _ <;> simp
      · simp
    · simp
  | packet frame inPort =>
    simp only [change, Event.isTick, Bool.false_eq_true, iff_false]
    cases a.hitKey? now frame inPort e <;> simp
  | startup rows | channel f | out f => simp [change, Event.isTick]

theorem not_spares (h : ¬ Spares e k a now ev) :
    a.change now ev e = .cancel k ∨ a.change now ev e = .renew k ∨
      ev.isTick e ∧ k ∈ a.served e now := by
  by_cases hc : a.change now ev e = .cancel k
  · exact .inl hc
  · have hs : a.Schedules now ev e k := by
      by_contra hs
      exact h ⟨hs, hc⟩
    rcases hs with hr | ⟨hv, hm⟩
    · exact .inr (.inl hr)
    · exact .inr (.inr ⟨change_eq_serve_iff.mp hv, hm⟩)

/-- A tick of the engine spares the keys that it does not serve. -/
theorem spares_tick (h : k ∉ a.served e now) : Spares e k a now (.tick e) := by
  have hv : a.change now (.tick e) e = .serve := if_pos rfl
  constructor
  · intro hs
    rcases hs with hr | ⟨_, hm⟩
    · simp [hv] at hr
    · exact h hm
  · simp [hv]

variable [ControllerChannel χ]

/-- One event that spares a due key keeps its place or brings it forward. -/
theorem ahead_step (hs : a.Sound) (h : a.step now ev = .ok reply)
    (ht : (a.queue e).tickets.find? k = some t) (hd : t.deadline ≤ now) (hk : Spares e k a now ev) :
    (reply.agent.queue e).tickets.find? k = some t ∧
      (reply.agent.queue e).ahead k ≤ (a.queue e).ahead k ∧
      (ev.isTick e →
        (reply.agent.queue e).ahead k + Expiry.maxServiced = (a.queue e).ahead k) := by
  have hc := step_takes hs h e
  obtain ⟨hle, hserve⟩ := Change.ahead_of_not_schedules (hs e) hc ht hd hk.1 hk.2
  refine ⟨(Change.find?_of_not_schedules (hs e) hc hk.1 hk.2).trans ht, hle, ?_⟩
  exact fun hi => hserve (change_eq_serve_iff.mpr hi)

theorem ahead_run (hs : a.Sound) (h : a.run xs = .ok b)
    (ht : (a.queue e).tickets.find? k = some t) (hx : ∀ x ∈ xs, t.deadline ≤ x.1)
    (hk : a.Throughout (Spares e k) xs) :
    (b.queue e).tickets.find? k = some t ∧
      (b.queue e).ahead k + Expiry.maxServiced * xs.countP (·.2.isTick e) ≤
        (a.queue e).ahead k := by
  induction xs generalizing a with
  | nil =>
    cases h
    exact ⟨ht, Nat.le_refl _⟩
  | cons x xs ih =>
    obtain ⟨now, ev⟩ := x
    obtain ⟨reply, hr, hrun⟩ := run_cons_ok h
    obtain ⟨hn, hx⟩ := List.forall_mem_cons.mp hx
    obtain ⟨ht', hle, htick⟩ := ahead_step hs hr ht hn hk.1
    obtain ⟨hb, hsum⟩ := ih (sound_step hs hr) hrun ht' hx (hk.2 reply hr)
    refine ⟨hb, ?_⟩
    by_cases hi : ev.isTick e
    · have := htick hi
      rw [List.countP_cons_of_pos (by simpa using hi), Nat.mul_succ]
      omega
    · rw [List.countP_cons_of_neg (by simpa using hi)]
      omega

/-- Either a property holds throughout, or there is a first event that breaks it. -/
theorem throughout_or_first (P : Agent χ ω → Nat → Event χ ω → Prop) (a : Agent χ ω)
    (xs : History χ ω) :
    a.Throughout P xs ∨ ∃ pre u ev post b, xs = pre ++ (u, ev) :: post ∧ a.run pre = .ok b ∧
      a.Throughout P pre ∧ ¬ P b u ev := by
  induction xs generalizing a with
  | nil => exact .inl trivial
  | cons x xs ih =>
    obtain ⟨now, ev⟩ := x
    by_cases hp : P a now ev
    · cases hr : a.step now ev with
      | error f => exact .inl ⟨hp, fun reply h => by rw [hr] at h; cases h⟩
      | ok reply =>
        rcases ih reply.agent with h | ⟨pre, u, ev', post, b, rfl, hb, hpre, hn⟩
        · exact .inl ((throughout_cons hr).mpr ⟨hp, h⟩)
        · have hpre' := (throughout_cons hr).mpr ⟨hp, hpre⟩
          exact .inr ⟨(now, ev) :: pre, u, ev', post, b, rfl, (run_cons hr).trans hb, hpre', hn⟩
    · exact .inr ⟨[], now, ev, xs, a, rfl, rfl, trivial, hp⟩

theorem ahead_tick (hs : a.Sound) (ht : (a.queue e).tickets.find? k = some t)
    (hd : t.deadline ≤ now) :
    ∃ reply, a.step now (.tick e) = .ok reply ∧ (k ∈ a.served e now ∨
      (reply.agent.queue e).ahead k + Expiry.maxServiced = (a.queue e).ahead k) := by
  obtain ⟨reply, hr⟩ := step_ok hs now (.tick e)
  refine ⟨reply, hr, ?_⟩
  by_cases hm : k ∈ a.served e now
  · exact .inl hm
  · obtain ⟨_, _, htick⟩ := ahead_step hs hr ht hd (spares_tick hm)
    exact .inr (htick (by simp [Event.isTick]))

/-- A due key is not spared by more ticks than it takes to serve all that are before it. -/
theorem first_not_spared (hs : a.Sound) (ht : (a.queue e).tickets.find? k = some t)
    (hx : ∀ x ∈ xs, t.deadline ≤ x.1)
    (hc : (a.queue e).ahead k < Expiry.maxServiced * xs.countP (·.2.isTick e)) :
    ∃ pre u ev post b, xs = pre ++ (u, ev) :: post ∧ a.run pre = .ok b ∧
      a.Throughout (Spares e k) pre ∧
      Expiry.maxServiced * pre.countP (·.2.isTick e) ≤ (a.queue e).ahead k ∧
      ¬ Spares e k b u ev := by
  rcases throughout_or_first (Spares e k) a xs with
    hk | ⟨pre, u, ev, post, b, rfl, hb, hpre, hn⟩
  · obtain ⟨b, hb, _⟩ := run_ok hs xs
    obtain ⟨_, hle⟩ := ahead_run hs hb ht hx hk
    omega
  · have hx' : ∀ x ∈ pre, t.deadline ≤ x.1 := by
      intro x hm
      exact hx x (List.mem_append_left _ hm)
    obtain ⟨_, hle⟩ := ahead_run hs hb ht hx' hpre
    exact ⟨pre, u, ev, post, b, rfl, hb, hpre, by omega, hn⟩

/-- Let `k` be due. While events at no earlier times spare it, nothing gets before it, and each tick
of its engine serves it or brings it forward by 32. So among more than `ahead / 32` ticks it is
served, unless it is renewed or deleted before. -/
theorem due_not_overtaken (ha : a.Reachable) (hd : (a.queue e).deadline? k = some d) (hn : d ≤ now)
    (xs : History χ ω) (hx : ∀ x ∈ xs, now ≤ x.1) :
    (∀ b, a.run xs = .ok b → a.Throughout (Spares e k) xs →
      (b.queue e).deadline? k = some d ∧
      (b.queue e).ahead k + 32 * xs.countP (·.2.isTick e) ≤ (a.queue e).ahead k ∧
      (∀ u ev reply, now ≤ u → b.step u ev = .ok reply → Spares e k b u ev →
        (reply.agent.queue e).ahead k ≤ (b.queue e).ahead k) ∧
      ∀ u, now ≤ u → ∃ reply, b.step u (.tick e) = .ok reply ∧
        (k ∈ b.served e u ∨ (reply.agent.queue e).ahead k + 32 = (b.queue e).ahead k)) ∧
    ((a.queue e).ahead k / 32 < xs.countP (·.2.isTick e) →
      ∃ pre u ev post b, xs = pre ++ (u, ev) :: post ∧ a.run pre = .ok b ∧
        a.Throughout (Spares e k) pre ∧ pre.countP (·.2.isTick e) ≤ (a.queue e).ahead k / 32 ∧
        (b.change u ev e = .cancel k ∨ b.change u ev e = .renew k ∨
          ev.isTick e ∧ k ∈ b.served e u)) := by
  have hs := sound_reachable ha
  obtain ⟨t, ht, rfl⟩ := Option.map_eq_some_iff.mp hd
  have hdue : ∀ x ∈ xs, t.deadline ≤ x.1 := by
    intro x hm
    exact Nat.le_trans hn (hx x hm)
  constructor
  · intro b hb hk
    have hsb := sound_run hs hb
    obtain ⟨htb, hle⟩ := ahead_run hs hb ht hdue hk
    refine ⟨congrArg (Option.map _) htb, hle, ?_, ?_⟩
    · intro u ev reply hu hr hsp
      exact (ahead_step hsb hr htb (Nat.le_trans hn hu) hsp).2.1
    · intro u hu
      exact ahead_tick hsb htb (Nat.le_trans hn hu)
  · intro hc
    have hmax : Expiry.maxServiced = 32 := rfl
    obtain ⟨pre, u, ev, post, b, hxs, hb, hpre, hle, hsp⟩ :=
      first_not_spared hs ht hdue (by rw [hmax]; omega)
    rw [hmax] at hle
    exact ⟨pre, u, ev, post, b, hxs, hb, hpre, by omega, not_spares hsp⟩

/-- An agent that expects `n` queriers, and has not heard of them since it was told to. -/
def expecting : Nat → Agent ControllerLink FrameSender
  | 0 => new 8 .initial .initial
  | n + 1 => ((expecting n).request ⟨.generalQueryExpectation,
      .add [.name "querier", .vlanVid (.ofNat (n + 1))] []⟩ 0).agent

theorem expecting_reachable (n : Nat) : (expecting n).Reachable := by
  induction n with
  | zero => exact reachable_new ..
  | succ n ih =>
    have hadded : (expecting n).run [(0, .request ⟨.generalQueryExpectation,
      .add [.name "querier", .vlanVid (.ofNat (n + 1))] []⟩)] = .ok (expecting (n + 1)) := rfl
    exact reachable_run ih hadded

/-- The last of 34 queriers. -/
def lastExpected : EngineId.generalQueryExpectation.Key := VlanKey.mk "querier" 34

/-- Of 34 queriers that are due at once the first tick serves 32, which brings the last one forward
by as many, and the second tick serves it. -/
theorem due_not_overtaken_expecting :
    ((expecting 34).queue .generalQueryExpectation).ahead lastExpected = 33 ∧
      ∃ b, (expecting 34).run [(255000, .tick .generalQueryExpectation)] = .ok b ∧
        (b.queue .generalQueryExpectation).ahead lastExpected ≤ 1 ∧
        lastExpected ∈ b.served .generalQueryExpectation 255100 := by
  have hahead : ((expecting 34).queue .generalQueryExpectation).ahead lastExpected = 33 := by
    decide +kernel
  have hdue : ((expecting 34).queue .generalQueryExpectation).deadline? lastExpected =
      some 255000 := by
    decide +kernel
  have hspared : lastExpected ∉ (expecting 34).served .generalQueryExpectation 255000 := by
    decide +kernel
  obtain ⟨b, hb, _⟩ := run_ok (sound_reachable (expecting_reachable 34))
    [(255000, .tick .generalQueryExpectation)]
  obtain ⟨-, hle, -, htick⟩ := (due_not_overtaken (expecting_reachable 34) hdue
    (Nat.le_refl 255000) [(255000, .tick .generalQueryExpectation)] (by simp)).1 b hb
      ⟨spares_tick hspared, fun _ _ => trivial⟩
  obtain ⟨reply, -, hnext⟩ := htick 255100 (by decide)
  change (b.queue .generalQueryExpectation).ahead lastExpected + 32 * 1 ≤ _ at hle
  exact ⟨hahead, b, hb, by omega, hnext.resolve_right (by omega)⟩

end Snooping.Agent
