import Snooping.Expiry.Drain
import Snooping.Proofs.Queue

/-!
Which keys a drain serves, and in which order. A key that is registered anew during the drain goes
behind every key that was due before it, so nothing that is due can be overtaken.
-/
namespace Snooping.Expiry.Queue

variable {κ σ ε : Type} [DecidableEq κ] {q q' : Queue κ} {k k' : κ} {t : Ticket}
  {now interval n d : Nat}

/-- The keys that a drain of at most `n` hands over, in order. -/
def served (now interval : Nat) : Nat → Queue κ → List κ
  | 0, _ => []
  | n + 1, q =>
    match q.popExpired? now with
    | none => []
    | some (k, q) => k :: served now interval n (q.insert k (now + interval))

/-- The queue that such a drain leaves. -/
def settled (now interval : Nat) : Nat → Queue κ → Queue κ
  | 0, q => q
  | n + 1, q =>
    match q.popExpired? now with
    | none => q
    | some (k, q) => settled now interval n (q.insert k (now + interval))

/-- How many registrations are ordered before that of `k`. -/
def ahead (q : Queue κ) (k : κ) : Nat :=
  match q.tickets.find? k with
  | some t => q.agenda.countP fun x => x.1.before t
  | none => 0

theorem ahead_eq (hk : q.tickets.find? k = some t) :
    q.ahead k = q.agenda.countP fun x => x.1.before t := by
  simp [ahead, hk]

/-- A registration is not ordered before itself. -/
theorem WellFormed.ahead_lt (h : q.WellFormed) (hk : q.tickets.find? k = some t) :
    q.ahead k < q.agenda.length := by
  rw [ahead_eq hk]
  refine Nat.lt_of_le_of_ne List.countP_le_length fun hall => ?_
  exact Ticket.before_irrefl t (List.countP_eq_length.mp hall _ ((h.mem_iff t k).mpr hk))

/-- The action runs on the served keys in order, and only its failure stops the drain. -/
theorem serve_eq (act : κ → σ → Except ε σ) (now interval n : Nat) (q : Queue κ) (s : σ) :
    serve act now interval n q s =
      ((served now interval n q).foldlM (fun s k => act k s) s).map fun s =>
        ⟨settled now interval n q, s, (served now interval n q).length⟩ := by
  induction n generalizing q s with
  | zero => rfl
  | succ n ih =>
    unfold serve served settled
    cases q.popExpired? now with
    | none => rfl
    | some p =>
      obtain ⟨k, q₁⟩ := p
      simp only [List.foldlM_cons]
      cases act k s with
      | error e => rfl
      | ok s₁ =>
        simp only [ih]
        change _ = Except.map _ (List.foldlM _ s₁ _)
        cases List.foldlM (fun s k => act k s) s₁
          (served now interval n (q₁.insert k (now + interval))) <;> rfl

/-- A drain that succeeds has run the action on all that it serves. -/
theorem drain_ok {act : κ → σ → Except ε σ} {s : σ} {d : Drained κ σ}
    (h : q.drain act now interval s = .ok d) :
    (served now interval maxServiced q).foldlM (fun s k => act k s) s = .ok d.state ∧
      d.queue = settled now interval maxServiced q := by
  rw [drain, serve_eq] at h
  cases hf : (served now interval maxServiced q).foldlM (fun s k => act k s) s with
  | error e =>
    rw [hf] at h
    cases h
  | ok s' =>
    rw [hf] at h
    cases h
    exact ⟨rfl, rfl⟩

/-- A drain runs the action key by key, so what one more run in front goes along with, it does. -/
theorem drain_induct {act : κ → σ → Except ε σ} {R : List κ → σ → σ → Prop}
    (hnil : ∀ s, R [] s s)
    (hcons : ∀ k ks s s' s'', act k s = .ok s' → R ks s' s'' → R (k :: ks) s s'')
    {s : σ} {d : Drained κ σ} (h : q.drain act now interval s = .ok d) :
    R (served now interval maxServiced q) s d.state := by
  obtain ⟨hf, _⟩ := drain_ok h
  clear h
  generalize served now interval maxServiced q = ks at hf ⊢
  induction ks generalizing s with
  | nil =>
    cases hf
    exact hnil _
  | cons k ks ih =>
    rw [List.foldlM_cons] at hf
    cases hk : act k s with
    | error e =>
      rw [hk] at hf
      cases hf
    | ok s' =>
      rw [hk] at hf
      exact hcons k ks s s' d.state hk (ih hf)

/-- One round of a drain: the key is taken off and registered behind its equals. -/
theorem WellFormed.round (h : q.WellFormed) (hp : q.popExpired? now = some (k, q')) :
    Renewed q (q'.insert k d) k d := by
  obtain ⟨_, _, _, _, hc⟩ := h.popExpired?_some hp
  exact hc.renewed ((h.cancelled hc).insert_renewed k d)

theorem WellFormed.settled (h : q.WellFormed) (now interval n : Nat) :
    (settled now interval n q).WellFormed := by
  induction n generalizing q with
  | zero => exact h
  | succ n ih =>
    unfold Queue.settled
    cases hp : q.popExpired? now with
    | none => exact h
    | some p => exact ih (h.renewed (h.round hp))

theorem find?_settled_of_not_mem (h : q.WellFormed) (hk : k ∉ served now interval n q) :
    (settled now interval n q).tickets.find? k = q.tickets.find? k := by
  induction n generalizing q with
  | zero => rfl
  | succ n ih =>
    unfold settled
    unfold served at hk
    cases hp : q.popExpired? now with
    | none => rfl
    | some p =>
      simp only [hp, List.mem_cons, not_or] at hk ⊢
      have hr := h.round (d := now + interval) hp
      rw [ih (h.renewed hr) hk.2, hr.find?, if_neg hk.1]

/-- A drain serves registered keys that are due. -/
theorem due_of_mem_served (h : q.WellFormed) (hk : k ∈ served now interval n q) :
    ∃ t, q.tickets.find? k = some t ∧ t.deadline ≤ now := by
  induction n generalizing q with
  | zero => simp [served] at hk
  | succ n ih =>
    unfold served at hk
    cases hp : q.popExpired? now with
    | none => simp [hp] at hk
    | some p =>
      obtain ⟨k₁, q₁⟩ := p
      obtain ⟨t, rest, ha, hd, _⟩ := h.popExpired?_some hp
      have hm := (h.mem_iff t k₁).mp (by simp [ha])
      simp only [hp, List.mem_cons] at hk
      by_cases he : k = k₁
      · exact ⟨t, he ▸ hm, hd⟩
      · have hr := h.round (d := now + interval) hp
        obtain ⟨t', ht', hd'⟩ := ih (h.renewed hr) (hk.resolve_left he)
        rw [hr.find?, if_neg he] at ht'
        exact ⟨t', ht', hd'⟩

theorem deadline?_settled_of_mem (h : q.WellFormed) (hk : k ∈ served now interval n q) :
    (settled now interval n q).deadline? k = some (now + interval) := by
  induction n generalizing q with
  | zero => simp [served] at hk
  | succ n ih =>
    unfold settled
    unfold served at hk
    cases hp : q.popExpired? now with
    | none => simp [hp] at hk
    | some p =>
      obtain ⟨k₁, q₁⟩ := p
      simp only [hp, List.mem_cons] at hk ⊢
      have hr := h.round (d := now + interval) hp
      by_cases hm : k ∈ served now interval n (q₁.insert k₁ (now + interval))
      · exact ih (h.renewed hr) hm
      · rw [deadline?, find?_settled_of_not_mem (h.renewed hr) hm, hr.find?,
          if_pos (hk.resolve_right hm)]
        rfl

theorem contains_settled (h : q.WellFormed) (now interval n : Nat) (k : κ) :
    (settled now interval n q).contains k = q.contains k := by
  by_cases hk : k ∈ served now interval n q
  · obtain ⟨t, ht, _⟩ := due_of_mem_served h hk
    have hd := deadline?_settled_of_mem h hk
    obtain ⟨t', ht', _⟩ := Option.map_eq_some_iff.mp hd
    simp [contains_eq, ht, ht']
  · rw [contains_eq, contains_eq, find?_settled_of_not_mem h hk]

/-- With a proper interval no key is served twice in one drain. -/
theorem nodup_served (h : q.WellFormed) (hi : 0 < interval) : (served now interval n q).Nodup := by
  induction n generalizing q with
  | zero => simp [served]
  | succ n ih =>
    unfold served
    cases hp : q.popExpired? now with
    | none => simp
    | some p =>
      have hr := h.round (d := now + interval) hp
      refine List.nodup_cons.mpr ⟨?_, ih (h.renewed hr)⟩
      intro hm
      obtain ⟨t, ht, hd⟩ := due_of_mem_served (h.renewed hr) hm
      rw [hr.find?, if_pos rfl] at ht
      cases ht
      simp only at hd
      omega

/-- A registration of another key takes no place before a ticket that is due no later. -/
theorem countP_renewed (h : q.WellFormed) (hk : q.tickets.find? k = some t)
    (hr : Renewed q q' k' d) (hd : t.deadline ≤ d) :
    (q'.agenda.countP fun x => x.1.before t) =
      (q.agenda.filter fun x => x.2 ≠ k').countP fun x => x.1.before t := by
  have hs := h.serial_lt _ ((h.mem_iff t k).mpr hk)
  have hb : Ticket.before ⟨d, q.nextSerial⟩ t = false := by
    simpa using Ticket.not_before_of_later (a := ⟨d, q.nextSerial⟩) hd hs
  rw [hr.agenda, (place_perm _ _ _).countP_eq, List.countP_cons_of_neg (by simp [hb])]

/-- Renewing another key never puts it before `k`, once `k` is due. -/
theorem ahead_renewed_le (h : q.WellFormed) (hk : q.tickets.find? k = some t) (hne : k ≠ k')
    (hr : Renewed q q' k' d) (hd : t.deadline ≤ d) : q'.ahead k ≤ q.ahead k := by
  have hk' : q'.tickets.find? k = some t := by rw [hr.find?, if_neg hne, hk]
  rw [ahead_eq hk, ahead_eq hk', countP_renewed h hk hr hd]
  exact List.filter_sublist.countP_le

theorem ahead_cancelled_le (hc : Cancelled q q' k') (hne : k ≠ k') : q'.ahead k ≤ q.ahead k := by
  unfold ahead
  rw [hc.find?, if_neg hne]
  cases q.tickets.find? k with
  | none => exact Nat.le_refl _
  | some t =>
    simp only [hc.agenda]
    exact List.filter_sublist.countP_le

/-- While `k` is due, a round that takes another key off brings `k` one place forward. -/
theorem ahead_round (interval : Nat) (h : q.WellFormed) (hp : q.popExpired? now = some (k', q'))
    (hk : q.tickets.find? k = some t) (hne : k ≠ k') (hd : t.deadline ≤ now) :
    (q'.insert k' (now + interval)).ahead k + 1 = q.ahead k := by
  have hr := h.round (d := now + interval) hp
  obtain ⟨t', rest, ha, _, hc⟩ := h.popExpired?_some hp
  have hk' : (q'.insert k' (now + interval)).tickets.find? k = some t := by
    rw [hr.find?, if_neg hne, hk]
  have hm := (h.mem_iff t k).mpr hk
  have hs := h.sorted
  have hf := h.filter_head ha
  rw [ha, List.pairwise_cons] at hs
  rw [ha, List.mem_cons] at hm
  have hb : t'.before t = true := hs.1 _ (hm.resolve_left fun he => hne (Prod.mk.inj he).2)
  rw [ahead_eq hk, ahead_eq hk', countP_renewed h hk hr (by omega), hf, ha,
    List.countP_cons_of_pos (by simpa using hb)]

/-- A drain that does not get to a due key has served its full number of keys before it. -/
theorem ahead_settled (h : q.WellFormed) (hk : q.tickets.find? k = some t)
    (hd : t.deadline ≤ now) (hn : k ∉ served now interval n q) :
    (settled now interval n q).ahead k + n = q.ahead k := by
  induction n generalizing q with
  | zero => rfl
  | succ n ih =>
    unfold settled
    unfold served at hn
    cases hp : q.popExpired? now with
    | none => have := h.popExpired?_none hp hk; omega
    | some p =>
      simp only [hp, List.mem_cons, not_or] at hn ⊢
      have hr := h.round (d := now + interval) hp
      have hk' := (hr.find? k).trans ((if_neg hn.1).trans hk)
      have := ih (h.renewed hr) hk' hn.2
      have := ahead_round interval h hp hk hn.1 hd
      omega

end Snooping.Expiry.Queue
