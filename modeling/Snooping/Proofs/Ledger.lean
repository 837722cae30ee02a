import Mathlib.Data.Finmap
import Snooping.Proofs.Queue

/-!
A queue is no more than a finite map from keys to deadlines and numbers of insertions. Every
sequence of operations answers as it does on the map, and so does every question at its end.
-/
namespace Snooping.Expiry

/-- What can be done to a queue. -/
inductive Operation (κ : Type)
  | insert (k : κ) (deadline : Nat)
  | remove (k : κ)
  | pop (now : Nat)

/-- What the caller hears of an operation. -/
inductive Answer (κ : Type)
  | done
  | removed (present : Bool)
  | popped (k : Option κ)
deriving DecidableEq

namespace Queue

variable {κ : Type} [DecidableEq κ]

def perform (q : Queue κ) : Operation κ → Answer κ × Queue κ
  | .insert k d => (.done, q.insert k d)
  | .remove k => (.removed (q.contains k), q.remove k)
  | .pop now =>
    match q.popExpired? now with
    | some (k, q') => (.popped (some k), q')
    | none => (.popped none, q)

/-- The answers to operations one after another, and the queue after them. -/
def run (q : Queue κ) : List (Operation κ) → List (Answer κ) × Queue κ
  | [] => ([], q)
  | op :: ops =>
    let (answer, q') := q.perform op
    let (answers, q'') := run q' ops
    (answer :: answers, q'')

end Queue

/-- What is registered: for each key its deadline and the number of its latest insertion. -/
structure Ledger (κ : Type) where
  rows : Finmap fun _ : κ => Nat × Nat
  inserts : Nat

namespace Ledger

variable {κ : Type} [DecidableEq κ]

def empty : Ledger κ := ⟨∅, 0⟩

/-- `k` is due first, and of the keys with its deadline it was inserted first. -/
structure IsFirst (m : Ledger κ) (k : κ) (d i : Nat) : Prop where
  lookup : m.rows.lookup k = some (d, i)
  least : ∀ k' d' i', m.rows.lookup k' = some (d', i') → d < d' ∨ d = d' ∧ i ≤ i'

/-- What an operation answers, and what it leaves registered. -/
inductive Step : Ledger κ → Operation κ → Answer κ → Ledger κ → Prop
  | insert (m : Ledger κ) (k : κ) (d : Nat) :
    Step m (.insert k d) .done ⟨m.rows.insert k (d, m.inserts), m.inserts + 1⟩
  | remove (m : Ledger κ) (k : κ) :
    Step m (.remove k) (.removed (decide (k ∈ m.rows))) { m with rows := m.rows.erase k }
  | pop (m : Ledger κ) (k : κ) (d i now : Nat) (hk : m.IsFirst k d i) (hd : d ≤ now) :
    Step m (.pop now) (.popped (some k)) { m with rows := m.rows.erase k }
  | idle (m : Ledger κ) (now : Nat) (h : ∀ k d i, m.rows.lookup k = some (d, i) → now < d) :
    Step m (.pop now) (.popped none) m

inductive Run : Ledger κ → List (Operation κ) → List (Answer κ) → Ledger κ → Prop
  | nil (m : Ledger κ) : Run m [] [] m
  | cons {m m' m'' : Ledger κ} {op ops answer answers} (h : Step m op answer m')
    (hs : Run m' ops answers m'') : Run m (op :: ops) (answer :: answers) m''

end Ledger

namespace Queue

variable {κ : Type} [DecidableEq κ] {q q' : Queue κ} {m m' : Ledger κ} {k : κ} {t : Ticket}
  {d i now : Nat}

/-- A ticket is the deadline of a key with the number of its insertion. -/
structure Keeps (q : Queue κ) (m : Ledger κ) : Prop where
  wellFormed : q.WellFormed
  find? : ∀ k, q.tickets.find? k = (m.rows.lookup k).map fun row => ⟨row.1, row.2⟩
  nextSerial : q.nextSerial = m.inserts

/-- Every question has the answer that the map gives. -/
structure AnswersAs (q : Queue κ) (m : Ledger κ) : Prop where
  deadline? : ∀ k, q.deadline? k = (m.rows.lookup k).map Prod.fst
  contains : ∀ k, q.contains k = true ↔ k ∈ m.rows
  size : q.size = m.rows.keys.card
  isEmpty : q.isEmpty = true ↔ m.rows = ∅
  nextDeadline? : ∀ d, q.nextDeadline? = some d ↔ ∃ k i, m.IsFirst k d i
  hasExpired : ∀ now, q.hasExpired now = true ↔ ∃ k d i, m.rows.lookup k = some (d, i) ∧ d ≤ now

/-- The agenda and the tickets undo each other. -/
structure Mirrored (q : Queue κ) : Prop where
  mem_iff : ∀ t k, (t, k) ∈ q.agenda ↔ q.tickets.find? k = some t
  nodup_tickets : (q.agenda.map Prod.fst).Nodup
  nodup_keys : (q.agenda.map Prod.snd).Nodup
  length : q.agenda.length = q.size

theorem contains_iff : q.contains k = true ↔ k ∈ q.tickets.keys := by
  rw [contains_eq, ← not_iff_not, ← Rows.find?_eq_none_iff]
  simp

theorem keeps_empty : (empty : Queue κ).Keeps .empty where
  wellFormed := wellFormed_empty
  find? k := by simp [empty, Ledger.empty, Rows.find?_empty]
  nextSerial := rfl

namespace Keeps

variable (h : q.Keeps m)
include h

theorem lookup_iff : m.rows.lookup k = some (d, i) ↔ q.tickets.find? k = some ⟨d, i⟩ := by
  rw [h.find?]
  cases m.rows.lookup k <;> simp [Prod.ext_iff]

theorem contains (k : κ) : q.contains k = decide (k ∈ m.rows) := by
  rw [contains_eq, h.find?, Option.isSome_map, Bool.eq_iff_iff, Finmap.lookup_isSome,
    decide_eq_true_iff]

theorem cancelled (hc : Cancelled q q' k) : q'.Keeps { m with rows := m.rows.erase k } where
  wellFormed := h.wellFormed.cancelled hc
  find? k' := by
    rw [hc.find?]
    by_cases he : k' = k
    · subst he
      simp
    · rw [if_neg he, h.find?, Finmap.lookup_erase_ne he]
  nextSerial := hc.nextSerial.trans h.nextSerial

theorem renewed (hr : Renewed q q' k d) :
    q'.Keeps ⟨m.rows.insert k (d, m.inserts), m.inserts + 1⟩ where
  wellFormed := h.wellFormed.renewed hr
  find? k' := by
    rw [hr.find?]
    by_cases he : k' = k
    · subst he
      simp [h.nextSerial]
    · rw [if_neg he, h.find?, Finmap.lookup_insert_of_ne _ he]
  nextSerial := by rw [hr.nextSerial, h.nextSerial]

/-- What stands at the head of the agenda is due first. -/
theorem isFirst_of_head {rest : List (Ticket × κ)} (ha : q.agenda = (t, k) :: rest) :
    m.IsFirst k t.deadline t.serial where
  lookup := h.lookup_iff.mpr ((h.wellFormed.mem_iff t k).mp (by simp [ha]))
  least k' d' i' hk' := by
    have hm := (h.wellFormed.mem_iff ⟨d', i'⟩ k').mpr (h.lookup_iff.mp hk')
    have hs := h.wellFormed.sorted
    rw [ha, List.pairwise_cons] at hs
    rw [ha] at hm
    rcases List.mem_cons.mp hm with he | hm
    · cases he
      exact .inr ⟨rfl, Nat.le_refl _⟩
    · exact (Ticket.before_iff.mp (hs.1 _ hm)).imp_right fun hb => ⟨hb.1, Nat.le_of_lt hb.2⟩

theorem popExpired?_some (hp : q.popExpired? now = some (k, q')) :
    ∃ d i, m.IsFirst k d i ∧ d ≤ now ∧ q'.Keeps { m with rows := m.rows.erase k } := by
  obtain ⟨t, rest, ha, hd, hc⟩ := h.wellFormed.popExpired?_some hp
  exact ⟨t.deadline, t.serial, h.isFirst_of_head ha, hd, h.cancelled hc⟩

/-- One operation answers as on the map, and keeps to it. -/
theorem perform (op : Operation κ) :
    ∃ m', m.Step op (q.perform op).1 m' ∧ (q.perform op).2.Keeps m' := by
  cases op with
  | insert k d => exact ⟨_, .insert m k d, h.renewed (h.wellFormed.insert_renewed k d)⟩
  | remove k =>
    refine ⟨_, ?_, h.cancelled (h.wellFormed.remove_cancelled k)⟩
    rw [Queue.perform, h.contains]
    exact .remove m k
  | pop now =>
    rw [Queue.perform]
    cases hp : q.popExpired? now with
    | some p =>
      obtain ⟨d, i, hf, hd, hk⟩ := h.popExpired?_some hp
      exact ⟨_, .pop m p.1 d i now hf hd, hk⟩
    | none =>
      refine ⟨m, .idle m now fun k d i hk => ?_, h⟩
      exact h.wellFormed.popExpired?_none hp (h.lookup_iff.mp hk)

theorem run (ops : List (Operation κ)) :
    ∃ m', m.Run ops (q.run ops).1 m' ∧ (q.run ops).2.Keeps m' := by
  induction ops generalizing q m with
  | nil => exact ⟨m, .nil m, h⟩
  | cons op ops ih =>
    obtain ⟨m₁, hs, h₁⟩ := h.perform op
    obtain ⟨m₂, hr, h₂⟩ := ih h₁
    exact ⟨m₂, .cons hs hr, h₂⟩

theorem keys : m.rows.keys = q.tickets.keys.toFinset := by
  ext k
  rw [Finmap.mem_keys, List.mem_toFinset, ← contains_iff, h.contains, decide_eq_true_iff]

theorem size : q.size = m.rows.keys.card := by
  have hn : q.tickets.keys.Nodup := q.tickets.nodup
  rw [h.keys, List.toFinset_card_of_nodup hn, Rows.keys, List.length_map]
  rfl

theorem nextDeadline?_iff : q.nextDeadline? = some d ↔ ∃ k i, m.IsFirst k d i := by
  unfold nextDeadline?
  constructor
  · intro hd
    obtain ⟨⟨t, k⟩, ht, rfl⟩ := Option.map_eq_some_iff.mp hd
    obtain ⟨rest, ha⟩ := List.head?_eq_some_iff.mp ht
    exact ⟨k, t.serial, h.isFirst_of_head ha⟩
  · rintro ⟨k, i, hf⟩
    have hm := (h.wellFormed.mem_iff ⟨d, i⟩ k).mpr (h.lookup_iff.mp hf.lookup)
    cases ha : q.agenda with
    | nil => simp [ha] at hm
    | cons x rest =>
      obtain ⟨t, k'⟩ := x
      -- Of two first ones neither is due later than the other.
      have hf' := h.isFirst_of_head ha
      have hle := hf.least _ _ _ hf'.lookup
      have hge := hf'.least _ _ _ hf.lookup
      simp only [List.head?_cons, Option.map_some, Option.some.injEq]
      omega

theorem hasExpired_iff :
    q.hasExpired now = true ↔ ∃ k d i, m.rows.lookup k = some (d, i) ∧ d ≤ now := by
  constructor
  · intro he
    unfold hasExpired at he
    cases hd : q.nextDeadline? with
    | none => simp [hd] at he
    | some d =>
      obtain ⟨k, i, hf⟩ := h.nextDeadline?_iff.mp hd
      exact ⟨k, d, i, hf.lookup, by simpa [hd] using he⟩
  · rintro ⟨k, d, i, hk, hd⟩
    exact h.wellFormed.hasExpired_of_due (h.lookup_iff.mp hk) hd

theorem answersAs : q.AnswersAs m where
  deadline? k := by rw [Queue.deadline?, h.find?, Option.map_map]; rfl
  contains k := by rw [h.contains, decide_eq_true_iff]
  size := h.size
  isEmpty := by
    have he : q.isEmpty = true ↔ q.size = 0 := List.isEmpty_iff_length_eq_zero
    rw [he, h.size, Finset.card_eq_zero]
    constructor
    · intro hk
      refine Finmap.ext_lookup fun k => ?_
      rw [Finmap.lookup_empty, Finmap.lookup_eq_none, ← Finmap.mem_keys, hk]
      exact Finset.notMem_empty k
    · rintro hm
      rw [hm, Finmap.keys_empty]
  nextDeadline? _ := h.nextDeadline?_iff
  hasExpired _ := h.hasExpired_iff

end Keeps

theorem WellFormed.mirrored (h : q.WellFormed) : q.Mirrored where
  mem_iff := h.mem_iff
  nodup_tickets := by
    refine List.pairwise_map.mpr (h.sorted.imp fun hb he => ?_)
    rw [he] at hb
    exact Ticket.before_irrefl _ hb
  nodup_keys := h.nodup_keys
  length := by
    have hp : (q.agenda.map Prod.snd).Perm q.tickets.keys := by
      refine (List.perm_ext_iff_of_nodup h.nodup_keys q.tickets.nodup).mpr fun k => ?_
      rw [h.mem_keys, contains_iff]
      rfl
    have hl := hp.length_eq
    rwa [List.length_map, Rows.keys, List.length_map] at hl

/-- Any operations on an empty queue answer as on a finite map, and so does every question that is
asked after them. The two views of the queue never get out of step. -/
theorem operations_refine_map (ops : List (Operation κ)) :
    ∃ m, Ledger.empty.Run ops (empty.run ops).1 m ∧ (empty.run ops).2.AnswersAs m ∧
      (empty.run ops).2.Mirrored := by
  obtain ⟨m, hr, hk⟩ := keeps_empty.run ops
  exact ⟨m, hr, hk.answersAs, hk.wellFormed.mirrored⟩

/-- A key that is inserted again waits behind its equals, and is popped once. -/
example :
    ((empty : Queue Nat).run
      [.insert 1 5, .insert 2 5, .insert 1 5, .remove 3, .pop 4, .pop 5, .pop 5, .pop 5]).1 =
      [.done, .done, .done, .removed false, .popped none, .popped (some 2), .popped (some 1),
        .popped none] := by
  decide

end Queue
end Snooping.Expiry
