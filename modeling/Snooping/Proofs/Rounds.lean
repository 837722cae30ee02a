import Snooping.Proofs.Drain
import Snooping.Proofs.Ledger

/-!
A drain against the list of keys that are due. With a proper interval it serves the first ones of
the list and puts them behind all others that are due, so that drains one after another go through
the list once. With no interval a served key is due at once, and a drain goes up to its bound.
-/
namespace Snooping.Expiry.Queue

variable {κ : Type} [DecidableEq κ] {q q' : Queue κ} {k k' : κ} {t : Ticket}
  {now interval n d : Nat}

/-- The keys that are due, as they stand on the agenda. -/
def due (q : Queue κ) (now : Nat) : List κ :=
  (q.agenda.filter fun x => x.1.deadline ≤ now).map Prod.snd

/-- `k` is due before `k'`, or with it and was registered first. -/
def Precedes (q : Queue κ) (k k' : κ) : Prop :=
  ∃ t t', q.tickets.find? k = some t ∧ q.tickets.find? k' = some t' ∧ t.before t' = true

/-- `ks` are the keys that are due, each once and in order. -/
structure ListsDue (q : Queue κ) (now : Nat) (ks : List κ) : Prop where
  mem_iff : ∀ k, k ∈ ks ↔ ∃ d ≤ now, q.deadline? k = some d
  ordered : ks.Pairwise q.Precedes
  nodup : ks.Nodup

/-- Whatever its action, a drain runs it on `ks` one after another, and leaves `q'`. -/
def DrainsTo (q q' : Queue κ) (now interval : Nat) (ks : List κ) : Prop :=
  ∀ (σ ε : Type) (act : κ → σ → Except ε σ) (s : σ), q.drain act now interval s =
    (ks.foldlM (fun s k => act k s) s).map fun s => ⟨q', s, ks.length⟩

/-- `ks` are registered anew at `d`, one behind the other. A key that is none of them keeps its
ticket, which is its deadline and its place among the others. -/
structure Rescheduled (q q' : Queue κ) (ks : List κ) (d : Nat) : Prop where
  deadline? : ∀ k ∈ ks, q'.deadline? k = some d
  ordered : ks.Pairwise q'.Precedes
  kept : ∀ k ∉ ks, q'.tickets.find? k = q.tickets.find? k
  contains : ∀ k, q'.contains k = q.contains k

def record (k : κ) (ks : List κ) : Except Empty (List κ) := .ok (ks ++ [k])

/-- The keys that each of `n` drains hands over, and the queue after all of them. -/
def redrain (now interval : Nat) : Nat → Queue κ → List (List κ) × Queue κ
  | 0, q => ([], q)
  | n + 1, q =>
    match q.drain record now interval [] with
    | .ok d =>
      let (rounds, q') := redrain now interval n d.queue
      (d.state :: rounds, q')
    | .error e => nomatch e

section Due

variable (h : q.WellFormed)
include h

theorem WellFormed.mem_due :
    k ∈ q.due now ↔ ∃ t, q.tickets.find? k = some t ∧ t.deadline ≤ now := by
  simp only [due, List.mem_map, List.mem_filter, decide_eq_true_iff]
  constructor
  · rintro ⟨⟨t, k'⟩, ⟨hm, hd⟩, rfl⟩
    exact ⟨t, (h.mem_iff t k').mp hm, hd⟩
  · rintro ⟨t, hk, hd⟩
    exact ⟨(t, k), ⟨(h.mem_iff t k).mpr hk, hd⟩, rfl⟩

theorem WellFormed.listsDue (now : Nat) : q.ListsDue now (q.due now) where
  mem_iff k := by
    simp only [h.mem_due, deadline?, Option.map_eq_some_iff]
    grind
  ordered := by
    refine List.pairwise_map.mpr ((h.sorted.filter _).imp_of_mem fun {x y} hx hy hb => ?_)
    exact ⟨x.1, y.1, (h.mem_iff _ _).mp (List.mem_of_mem_filter hx),
      (h.mem_iff _ _).mp (List.mem_of_mem_filter hy), hb⟩
  nodup := h.nodup_keys.sublist (List.filter_sublist.map Prod.snd)

theorem due_eq_nil (hp : q.popExpired? now = none) : q.due now = [] := by
  refine List.eq_nil_iff_forall_not_mem.mpr fun k hk => ?_
  obtain ⟨t, ht, hd⟩ := h.mem_due.mp hk
  have := h.popExpired?_none hp ht
  omega

theorem hasExpired_iff : q.hasExpired now = true ↔ q.due now ≠ [] := by
  constructor
  · intro he
    unfold hasExpired nextDeadline? at he
    cases ha : q.agenda with
    | nil => simp [ha] at he
    | cons x rest =>
      have hd : x.1.deadline ≤ now := by simpa [ha] using he
      simp [due, ha, hd]
  · intro hne
    obtain ⟨k, hk⟩ := List.exists_mem_of_ne_nil _ hne
    obtain ⟨t, ht, hd⟩ := h.mem_due.mp hk
    exact h.hasExpired_of_due ht hd

theorem delay_eq : q.delay now = if q.due now = [] then idleDelay else busyDelay := by
  unfold delay
  by_cases hd : q.due now = [] <;> simp [hd, hasExpired_iff h]

/-- A round takes the first key that is due off the list, if it is put behind `now`. -/
theorem due_round (hp : q.popExpired? now = some (k, q')) (hd : now < d) :
    q.due now = k :: (q'.insert k d).due now := by
  obtain ⟨t, rest, ha, ht, hc⟩ := h.popExpired?_some hp
  have hr := h.round (d := d) hp
  have hf : (q'.insert k d).agenda.filter (fun x => x.1.deadline ≤ now) =
      rest.filter fun x => x.1.deadline ≤ now := by
    rw [hr.agenda, filter_place _ (by simpa using hd), h.filter_head ha]
  rw [due, due, hf, ha, List.filter_cons_of_pos (by simpa using ht), List.map_cons]

theorem served_eq_take (hi : 0 < interval) : served now interval n q = (q.due now).take n := by
  induction n generalizing q with
  | zero => simp [served]
  | succ n ih =>
    unfold served
    cases hp : q.popExpired? now with
    | none => simp [due_eq_nil h hp]
    | some p =>
      have hw := h.renewed (h.round (d := now + interval) hp)
      rw [due_round h hp (Nat.lt_add_of_pos_right hi), List.take_succ_cons]
      exact congrArg (p.1 :: ·) (ih hw)

theorem due_settled (hi : 0 < interval) :
    (settled now interval n q).due now = (q.due now).drop n := by
  induction n generalizing q with
  | zero => simp [settled]
  | succ n ih =>
    unfold settled
    cases hp : q.popExpired? now with
    | none => simp [due_eq_nil h hp]
    | some p =>
      have hw := h.renewed (h.round (d := now + interval) hp)
      rw [due_round h hp (Nat.lt_add_of_pos_right hi), List.drop_succ_cons]
      exact ih hw

end Due

/-- A drain that finds nothing due leaves the queue as it is. -/
theorem drainsTo_self (h : q.WellFormed) (hd : q.due now = []) (interval : Nat) :
    q.DrainsTo q now interval [] := by
  intro σ ε act s
  rw [drain, maxServiced, serve]
  cases hp : q.popExpired? now with
  | none => rfl
  | some p => exact absurd (due_round h hp (Nat.lt_succ_self now)) (by simp [hd])

theorem drainsTo_settled (now interval : Nat) (q : Queue κ) :
    q.DrainsTo (settled now interval maxServiced q) now interval
      (served now interval maxServiced q) :=
  fun _ _ act s => serve_eq act now interval maxServiced q s

/-- The served keys get serial numbers one after another. -/
theorem find?_settled_served (h : q.WellFormed) (hi : 0 < interval) {j : Nat}
    (hk : (served now interval n q)[j]? = some k) :
    (settled now interval n q).tickets.find? k = some ⟨now + interval, q.nextSerial + j⟩ := by
  induction n generalizing q j with
  | zero => simp [served] at hk
  | succ n ih =>
    have hnd : (served now interval (n + 1) q).Nodup := nodup_served h hi
    unfold settled
    unfold served at hk hnd
    cases hp : q.popExpired? now with
    | none => simp [hp] at hk
    | some p =>
      simp only [hp] at hk hnd ⊢
      have hr := h.round (d := now + interval) hp
      have hw := h.renewed hr
      cases j with
      | zero =>
        cases hk
        rw [find?_settled_of_not_mem hw (List.nodup_cons.mp hnd).1, hr.find?, if_pos rfl]
        rfl
      | succ j =>
        rw [ih hw hk, hr.nextSerial, Nat.add_assoc, Nat.add_comm 1 j]

theorem rescheduled_settled (h : q.WellFormed) (hi : 0 < interval) :
    q.Rescheduled (settled now interval n q) (served now interval n q) (now + interval) where
  deadline? _ hk := deadline?_settled_of_mem h hk
  ordered := by
    refine List.pairwise_iff_getElem.mpr fun i j hi' hj' hij => ?_
    refine ⟨_, _, find?_settled_served h hi (List.getElem?_eq_getElem hi'),
      find?_settled_served h hi (List.getElem?_eq_getElem hj'), ?_⟩
    exact Ticket.before_iff.mpr (.inr ⟨rfl, Nat.add_lt_add_left hij _⟩)
  kept _ hk := find?_settled_of_not_mem h hk
  contains := contains_settled h now interval n

omit [DecidableEq κ] in
theorem foldlM_record (ks ks' : List κ) :
    ks.foldlM (fun s k => record k s) ks' = .ok (ks' ++ ks) := by
  induction ks generalizing ks' with
  | nil => simp [pure, Except.pure]
  | cons k ks ih =>
    rw [List.foldlM_cons]
    exact (ih (ks' ++ [k])).trans (by rw [List.append_assoc, List.singleton_append])

theorem drain_record (now interval : Nat) (q : Queue κ) :
    q.drain record now interval [] = .ok ⟨settled now interval maxServiced q,
      served now interval maxServiced q, (served now interval maxServiced q).length⟩ := by
  rw [drainsTo_settled now interval q, foldlM_record]
  rfl

theorem redrain_succ (now interval n : Nat) (q : Queue κ) :
    redrain now interval (n + 1) q =
      (served now interval maxServiced q ::
          (redrain now interval n (settled now interval maxServiced q)).1,
        (redrain now interval n (settled now interval maxServiced q)).2) := by
  rw [redrain, drain_record]

theorem redrain_spec (now : Nat) (h : q.WellFormed) (hi : 0 < interval) (n : Nat) :
    (redrain now interval n q).1.flatten = (q.due now).take (maxServiced * n) ∧
      (redrain now interval n q).2.due now = (q.due now).drop (maxServiced * n) ∧
      (redrain now interval n q).2.WellFormed := by
  induction n generalizing q with
  | zero => exact ⟨by simp [redrain], by simp [redrain], h⟩
  | succ n ih =>
    obtain ⟨hf, hd, hw⟩ := ih (h.settled now interval maxServiced)
    rw [redrain_succ]
    refine ⟨?_, ?_, hw⟩
    · rw [List.flatten_cons, hf, due_settled h hi, served_eq_take h hi, ← List.take_add,
        Nat.mul_succ, Nat.add_comm]
    · rw [hd, due_settled h hi, List.drop_drop, Nat.mul_succ, Nat.add_comm]

/-- With no interval a served key is due again, so nothing but the bound ends a drain. -/
theorem served_of_zero_interval (h : q.WellFormed) (hd : q.due now ≠ []) (n : Nat) :
    (served now 0 n q).length = n ∧ (settled now 0 n q).due now ≠ [] := by
  induction n generalizing q with
  | zero => exact ⟨rfl, hd⟩
  | succ n ih =>
    unfold served settled
    cases hp : q.popExpired? now with
    | none => exact absurd (due_eq_nil h hp) hd
    | some p =>
      have hr := h.round (d := now + 0) hp
      have hw := h.renewed hr
      have hm : p.1 ∈ (p.2.insert p.1 (now + 0)).due now :=
        hw.mem_due.mpr ⟨_, (hr.find? p.1).trans (if_pos rfl), Nat.le_refl now⟩
      obtain ⟨hl, hd'⟩ := ih hw (List.ne_nil_of_mem hm)
      exact ⟨congrArg (· + 1) hl, hd'⟩

/-- What drains do to any queue that operations lead to. With a proper interval, one drain serves
the first 32 of the keys that are due, and as many drains as it takes serve all of them; then there
is nothing to serve. With no interval a drain serves 32 keys if any is due. -/
theorem drains_serve_due (ops : List (Operation κ)) (now interval : Nat) :
    let q := ((empty : Queue κ).run ops).2
    let ks := q.due now
    let rounds := (ks.length + 31) / 32
    q.ListsDue now ks ∧
      (0 < interval →
        (∃ q', q.DrainsTo q' now interval (ks.take 32) ∧
          q.Rescheduled q' (ks.take 32) (now + interval) ∧
          q'.delay now = if 32 < ks.length then 100 else 1000) ∧
        (redrain now interval rounds q).1.flatten = ks ∧
        ∀ n ≥ rounds, let r := (redrain now interval n q).2
          r.DrainsTo r now interval [] ∧ r.delay now = 1000) ∧
      (interval = 0 → ks ≠ [] → ∃ q' served, served.length = 32 ∧
        q.DrainsTo q' now interval served ∧ q'.delay now = 100) := by
  intro q ks rounds
  obtain ⟨m, -, hm⟩ := keeps_empty.run ops
  have h : q.WellFormed := hm.wellFormed
  have hrounds : ks.length ≤ maxServiced * rounds := by
    simp only [rounds, maxServiced]
    omega
  refine ⟨h.listsDue now, fun hi => ⟨?_, ?_, ?_⟩, ?_⟩
  · have hs : served now interval 32 q = ks.take 32 := served_eq_take h hi
    refine ⟨settled now interval 32 q, ?_, ?_, ?_⟩
    · rw [← hs]
      exact drainsTo_settled now interval q
    · rw [← hs]
      exact rescheduled_settled h hi
    · rw [delay_eq (h.settled now interval 32), due_settled h hi]
      simp only [List.drop_eq_nil_iff, ← Nat.not_lt, ite_not]
      rfl
  · obtain ⟨hf, -, -⟩ := redrain_spec now h hi rounds
    rw [hf, List.take_of_length_le hrounds]
  · intro n hn r
    obtain ⟨-, hd, hw⟩ := redrain_spec now h hi n
    rw [List.drop_eq_nil_of_le (hrounds.trans (Nat.mul_le_mul_left _ hn))] at hd
    exact ⟨drainsTo_self hw hd interval, by rw [delay_eq hw, if_pos hd]; rfl⟩
  · rintro rfl hne
    obtain ⟨hl, hd⟩ := served_of_zero_interval h hne maxServiced
    refine ⟨_, _, hl, drainsTo_settled now 0 q, ?_⟩
    rw [delay_eq (h.settled now 0 maxServiced), if_neg hd]
    rfl

/-- Of forty keys that are due, one drain serves 32, registers them again behind the other eight,
and asks to be back soon; two drains serve all of them. -/
theorem drains_serve_due_forty :
    let q := ((empty : Queue Nat).run ((List.range 40).map (.insert · 5))).2
    (∃ q', q.DrainsTo q' 7 10 (List.range 32) ∧ q.Rescheduled q' (List.range 32) 17 ∧
      q'.delay 7 = 100) ∧
      (redrain 7 10 2 q).1.flatten = List.range 40 := by
  have hdue : ((empty : Queue Nat).run ((List.range 40).map (.insert · 5))).2.due 7 =
      List.range 40 := by decide +kernel
  obtain ⟨-, hproper, -⟩ := drains_serve_due ((List.range 40).map (.insert · 5)) 7 10
  obtain ⟨⟨q', hdrains, hrescheduled, hdelay⟩, hall, -⟩ := hproper (by decide)
  rw [hdue] at hdrains hrescheduled hdelay hall
  exact ⟨⟨q', hdrains, hrescheduled, hdelay⟩, hall⟩

end Snooping.Expiry.Queue
