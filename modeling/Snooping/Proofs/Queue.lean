import Mathlib.Data.List.Nodup
import Snooping.Expiry.Queue

/-! The two views of a queue agree under every operation, and each operation moves one key only. -/
namespace Snooping.Expiry

namespace Ticket

variable {a b c : Ticket}

theorem before_iff : a.before b = true ↔
    a.deadline < b.deadline ∨ a.deadline = b.deadline ∧ a.serial < b.serial := by
  simp [before]

theorem before_irrefl (a : Ticket) : ¬ a.before a = true := by
  simp [before_iff]

theorem before_trans (h : a.before b = true) (h' : b.before c = true) : a.before c = true := by
  rw [before_iff] at *
  omega

theorem before_of_not_before (hne : a ≠ b) (h : ¬ a.before b = true) : b.before a = true := by
  rw [before_iff] at *
  have hs : a.deadline ≠ b.deadline ∨ a.serial ≠ b.serial := by
    by_contra hc
    obtain ⟨hd, hn⟩ := not_or.mp hc
    exact hne (by cases a; cases b; simp_all)
  omega

/-- A ticket with a later serial is not before one that is due no later. -/
theorem not_before_of_later (hd : b.deadline ≤ a.deadline) (hs : b.serial < a.serial) :
    ¬ a.before b = true := by
  rw [before_iff]
  omega

end Ticket

section Agenda

variable {κ : Type} {t : Ticket} {k : κ} {l : List (Ticket × κ)}

theorem place_perm (t : Ticket) (k : κ) (l : List (Ticket × κ)) :
    (place t k l).Perm ((t, k) :: l) := by
  induction l with
  | nil => exact .refl _
  | cons item rest ih =>
    unfold place
    split
    · exact .refl _
    · exact (ih.cons item).trans (.swap _ _ _)

theorem mem_place {x : Ticket × κ} : x ∈ place t k l ↔ x = (t, k) ∨ x ∈ l := by
  rw [(place_perm t k l).mem_iff, List.mem_cons]

theorem place_sorted (hl : l.Pairwise fun x y => x.1.before y.1)
    (hne : ∀ x ∈ l, x.1 ≠ t) : (place t k l).Pairwise fun x y => x.1.before y.1 := by
  induction l with
  | nil => simp [place]
  | cons item rest ih =>
    rw [List.pairwise_cons] at hl
    unfold place
    split
    · rename_i hb
      refine List.pairwise_cons.mpr ⟨?_, List.pairwise_cons.mpr hl⟩
      intro x hx
      rcases List.mem_cons.mp hx with rfl | hx
      · exact hb
      · exact Ticket.before_trans hb (hl.1 x hx)
    · rename_i hb
      refine List.pairwise_cons.mpr ⟨?_, ih hl.2 fun x hx => hne x (List.mem_cons_of_mem _ hx)⟩
      intro x hx
      rcases mem_place.mp hx with rfl | hx
      · exact Ticket.before_of_not_before (Ne.symm (hne item (by simp))) hb
      · exact hl.1 x hx

theorem filter_place (p : Ticket × κ → Bool) (hp : p (t, k) = false) :
    (place t k l).filter p = l.filter p := by
  induction l with
  | nil => simp [place, hp]
  | cons item rest ih =>
    unfold place
    split
    · rw [List.filter_cons_of_neg (by simp [hp])]
    · simp only [List.filter_cons, ih]

end Agenda

namespace Queue

variable {κ : Type} [DecidableEq κ] {q q' q'' : Queue κ} {k k' : κ} {t : Ticket} {d now : Nat}

/-- The agenda is in order and holds exactly the tickets that are out. -/
structure WellFormed (q : Queue κ) : Prop where
  sorted : q.agenda.Pairwise fun x y => x.1.before y.1
  mem_iff : ∀ t k, (t, k) ∈ q.agenda ↔ q.tickets.find? k = some t
  serial_lt : ∀ x ∈ q.agenda, x.1.serial < q.nextSerial

/-- `k` is no longer registered; all else is as it was. -/
structure Cancelled (q q' : Queue κ) (k : κ) : Prop where
  agenda : q'.agenda = q.agenda.filter fun x => x.2 ≠ k
  find? : ∀ k', q'.tickets.find? k' = if k' = k then none else q.tickets.find? k'
  nextSerial : q'.nextSerial = q.nextSerial

/-- `k` is registered anew with the latest serial; all else is as it was. -/
structure Renewed (q q' : Queue κ) (k : κ) (d : Nat) : Prop where
  agenda : q'.agenda = place ⟨d, q.nextSerial⟩ k (q.agenda.filter fun x => x.2 ≠ k)
  find? : ∀ k', q'.tickets.find? k' =
    if k' = k then some ⟨d, q.nextSerial⟩ else q.tickets.find? k'
  nextSerial : q'.nextSerial = q.nextSerial + 1

theorem contains_eq (q : Queue κ) (k : κ) : q.contains k = (q.tickets.find? k).isSome := rfl

theorem Cancelled.contains (hc : Cancelled q q' k) (k' : κ) :
    q'.contains k' = (decide (k' ≠ k) && q.contains k') := by
  rw [contains_eq, contains_eq, hc.find?]
  by_cases he : k' = k <;> simp [he]

theorem Renewed.contains (hr : Renewed q q' k d) (k' : κ) :
    q'.contains k' = (decide (k' = k) || q.contains k') := by
  rw [contains_eq, contains_eq, hr.find?]
  by_cases he : k' = k <;> simp [he]

theorem wellFormed_empty : (empty : Queue κ).WellFormed where
  sorted := .nil
  mem_iff t k := by simp [empty, Rows.find?_empty]
  serial_lt := by simp [empty]

namespace WellFormed

variable (h : q.WellFormed)
include h

theorem ticket_inj {x y : Ticket × κ} (hx : x ∈ q.agenda) (hy : y ∈ q.agenda)
    (he : x.1 = y.1) : x = y := by
  by_contra hne
  have hb : x.1.before y.1 = true ∨ y.1.before x.1 = true :=
    List.Pairwise.forall_of_forall_of_flip (R := fun a b => a ≠ b →
      a.1.before b.1 = true ∨ b.1.before a.1 = true) (fun z _ hz => (hz rfl).elim)
      (h.sorted.imp fun hb _ => .inl hb) (h.sorted.imp fun hb _ => .inr hb) hx hy hne
  rw [he] at hb
  exact hb.elim (Ticket.before_irrefl _) (Ticket.before_irrefl _)

/-- Among the registrations, a ticket and its key tell the same one. -/
theorem key_eq_iff {x : Ticket × κ} (hx : x ∈ q.agenda) (hk : q.tickets.find? k = some t) :
    x.2 = k ↔ x.1 = t := by
  have hm := (h.mem_iff t k).mpr hk
  constructor
  · rintro rfl
    have := (h.mem_iff x.1 x.2).mp hx
    simp_all
  · intro he
    rw [h.ticket_inj hx hm he]

theorem strike_eq_filter (hk : q.tickets.find? k = some t) :
    strike t q.agenda = q.agenda.filter fun x => x.2 ≠ k := by
  apply List.filter_congr
  intro x hx
  simp [h.key_eq_iff hx hk]

theorem filter_eq_self (hk : q.tickets.find? k = none) :
    (q.agenda.filter fun x => x.2 ≠ k) = q.agenda := by
  apply List.filter_eq_self.mpr
  rintro ⟨t, k'⟩ hx
  have := (h.mem_iff t k').mp hx
  simp only [ne_eq, decide_not, Bool.not_eq_eq_eq_not, Bool.not_true, decide_eq_false_iff_not]
  rintro rfl
  simp_all

theorem cancelled (hc : Cancelled q q' k) : q'.WellFormed where
  sorted := by rw [hc.agenda]; exact h.sorted.filter _
  mem_iff t' k' := by
    rw [hc.agenda, hc.find?, List.mem_filter, h.mem_iff]
    by_cases he : k' = k <;> simp [he]
  serial_lt x hx := by
    rw [hc.agenda] at hx
    rw [hc.nextSerial]
    exact h.serial_lt x (List.mem_of_mem_filter hx)

theorem renewed (hr : Renewed q q' k d) : q'.WellFormed where
  sorted := by
    rw [hr.agenda]
    apply place_sorted (h.sorted.filter _)
    intro x hx he
    have := h.serial_lt x (List.mem_of_mem_filter hx)
    simp [he] at this
  mem_iff t' k' := by
    rw [hr.agenda, hr.find?, mem_place, List.mem_filter, h.mem_iff]
    by_cases he : k' = k <;> simp [he, eq_comm]
  serial_lt x hx := by
    rw [hr.nextSerial]
    rw [hr.agenda] at hx
    rcases mem_place.mp hx with rfl | hx
    · exact Nat.lt_succ_self _
    · exact Nat.lt_succ_of_lt (h.serial_lt x (List.mem_of_mem_filter hx))

theorem remove_cancelled (k : κ) : Cancelled q (q.remove k) k := by
  unfold remove
  cases hk : q.tickets.find? k with
  | none =>
    refine ⟨(h.filter_eq_self hk).symm, ?_, rfl⟩
    intro k'
    split <;> simp_all
  | some t => exact ⟨h.strike_eq_filter hk, fun k' => Rows.find?_erase _ _ _, rfl⟩

theorem insert_renewed (k : κ) (d : Nat) : Renewed q (q.insert k d) k d := by
  refine ⟨?_, fun k' => Rows.find?_insert _ _ _ _, rfl⟩
  simp only [insert]
  cases hk : q.tickets.find? k with
  | none => rw [h.filter_eq_self hk]
  | some t => simp only [h.strike_eq_filter hk]

/-- Without the key at its head, the agenda is its tail. -/
theorem filter_head {rest : List (Ticket × κ)} (ha : q.agenda = (t, k) :: rest) :
    (q.agenda.filter fun x => x.2 ≠ k) = rest := by
  have hk : q.tickets.find? k = some t := (h.mem_iff t k).mp (by simp [ha])
  have hs := h.sorted
  rw [← h.strike_eq_filter hk]
  rw [ha, List.pairwise_cons] at hs
  rw [strike, ha, List.filter_cons_of_neg (by simp)]
  refine List.filter_eq_self.mpr fun x hx => ?_
  have hb := hs.1 x hx
  simp only [ne_eq, decide_not, Bool.not_eq_eq_eq_not, Bool.not_true, decide_eq_false_iff_not]
  intro he
  rw [he] at hb
  exact Ticket.before_irrefl _ hb

/-- The key that is taken off was at the head, due, and the only one to go. -/
theorem popExpired?_some (hp : q.popExpired? now = some (k, q')) :
    ∃ t rest, q.agenda = (t, k) :: rest ∧ t.deadline ≤ now ∧ Cancelled q q' k := by
  unfold popExpired? at hp
  split at hp
  · cases hp
  · rename_i t k₀ rest ha
    split at hp
    · cases hp
    · rename_i hd
      obtain ⟨rfl, rfl⟩ := Prod.mk.inj (Option.some.inj hp)
      exact ⟨t, rest, ha, by omega, (h.filter_head ha).symm, fun k' => Rows.find?_erase _ _ _, rfl⟩

theorem popExpired?_none (hp : q.popExpired? now = none) (hk : q.tickets.find? k = some t) :
    now < t.deadline := by
  have hm := (h.mem_iff t k).mpr hk
  have hs := h.sorted
  unfold popExpired? at hp
  split at hp
  · rename_i ha
    simp [ha] at hm
  · rename_i t₀ k₀ rest ha
    split at hp
    · rename_i hd
      rw [ha] at hm hs
      rcases List.mem_cons.mp hm with he | hm
      · cases he
        exact hd
      · have := Ticket.before_iff.mp ((List.pairwise_cons.mp hs).1 _ hm)
        simp only at this
        omega
    · cases hp

/-- A key that is due shows at the head of the agenda. -/
theorem hasExpired_of_due (hk : q.tickets.find? k = some t) (hd : t.deadline ≤ now) :
    q.hasExpired now = true := by
  have hpop : q.popExpired? now ≠ none := by
    intro hp
    have := h.popExpired?_none hp hk
    omega
  unfold popExpired? at hpop
  unfold hasExpired nextDeadline?
  split at hpop
  · exact (hpop rfl).elim
  · rename_i t₀ k₀ rest ha
    split at hpop
    · exact (hpop rfl).elim
    · rename_i hdue
      rw [ha]
      exact decide_eq_true (Nat.le_of_not_lt hdue)

theorem nodup_keys : (q.agenda.map Prod.snd).Nodup := by
  refine List.Nodup.map_on ?_ (h.sorted.imp fun hb he => ?_)
  · intro x hx y hy he
    have hk := (h.mem_iff y.1 y.2).mp hy
    exact h.ticket_inj hx hy ((h.key_eq_iff hx hk).mp he)
  · rw [he] at hb
    exact Ticket.before_irrefl _ hb

/-- The agenda lists the keys that are registered. -/
theorem mem_keys : k ∈ q.agenda.map Prod.snd ↔ q.contains k = true := by
  rw [List.mem_map, contains_eq, Option.isSome_iff_exists]
  constructor
  · rintro ⟨⟨t, k'⟩, hx, rfl⟩
    exact ⟨t, (h.mem_iff t k').mp hx⟩
  · rintro ⟨t, ht⟩
    exact ⟨(t, k), (h.mem_iff t k).mpr ht, rfl⟩

/-- Each registered key stands on the agenda once, and no other does. -/
theorem count_key (k : κ) :
    (q.agenda.map Prod.snd).count k = if q.contains k then 1 else 0 := by
  rw [h.nodup_keys.count]
  congr 1
  exact propext h.mem_keys

end WellFormed

/-- Cancelling first makes no difference to a new registration. -/
theorem Cancelled.renewed (hc : Cancelled q q' k) (hr : Renewed q' q'' k d) :
    Renewed q q'' k d where
  agenda := by rw [hr.agenda, hc.agenda, hc.nextSerial, List.filter_filter]; simp
  find? k' := by
    rw [hr.find?, hc.find?, hc.nextSerial]
    split <;> rfl
  nextSerial := by rw [hr.nextSerial, hc.nextSerial]

end Queue
end Snooping.Expiry
