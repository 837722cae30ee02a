import Mathlib.Logic.Function.Basic
import Snooping.Proofs.Drain

/-!
The roster of an engine: its deadline queue beside the key fields of its entries. Every event
changes it in one of four ways.
-/
namespace Snooping

structure Roster (κ : Type) where
  queue : Expiry.Queue κ
  stored : κ → Option κ

/-- What an event does to a roster. -/
inductive Change (κ : Type)
  | none
  | renew (k : κ)
  | cancel (k : κ)
  | serve
deriving DecidableEq

variable {κ : Type} [DecidableEq κ] {r r' : Roster κ} {c : Change κ} {k : κ}
  {t : Expiry.Ticket} {now interval d : Nat}

namespace Roster

def ofTable {α : Type} (queue : Expiry.Queue κ) (entries : Rows κ α) (key : α → κ) : Roster κ :=
  ⟨queue, fun k => (entries.find? k).map key⟩

/-- The keys that a tick at `now` serves, in order. -/
def served (r : Roster κ) (now interval : Nat) : List κ :=
  r.queue.served now interval Expiry.maxServiced

/-- Exactly the keys of entries are registered, and every entry is stored under its own key. -/
structure Sound (r : Roster κ) : Prop where
  queue : r.queue.WellFormed
  stored : ∀ k, r.stored k = if r.queue.contains k then some k else none

theorem sound_empty : (⟨.empty, fun _ => none⟩ : Roster κ).Sound :=
  ⟨Expiry.Queue.wellFormed_empty, fun _ => rfl⟩

theorem Sound.contains_eq (h : r.Sound) (k : κ) : r.queue.contains k = (r.stored k).isSome := by
  rw [h.stored]
  split <;> simp_all

theorem Sound.stored_served (h : r.Sound) (hk : k ∈ r.served now interval) :
    r.stored k = some k := by
  obtain ⟨t, ht, _⟩ := Expiry.Queue.due_of_mem_served h.queue hk
  rw [h.stored, if_pos]
  simp [Expiry.Queue.contains_eq, ht]

theorem Sound.key_eq {k' : κ} (h : r.Sound) (hk : r.stored k = some k') : k' = k := by
  rw [h.stored] at hk
  split at hk <;> simp_all

section Tables

variable {α : Type} {key : α → κ} {q : Expiry.Queue κ} {entries : Rows κ α} {a : α}

theorem ofTable_stored (ha : entries.find? k = some a) :
    (ofTable q entries key).stored k = some (key a) :=
  congrArg (Option.map key) ha

theorem ofTable_isSome (q : Expiry.Queue κ) (entries : Rows κ α) (key : α → κ) (k : κ) :
    ((ofTable q entries key).stored k).isSome = entries.contains k :=
  Option.isSome_map

/-- What is served has an entry. -/
theorem Sound.isSome_of_served (h : (ofTable q entries key).Sound)
    (hk : k ∈ (ofTable q entries key).served now interval) : (entries.find? k).isSome := by
  have hs := h.stored_served hk
  obtain ⟨a, ha, _⟩ := Option.map_eq_some_iff.mp hs
  rw [ha]
  rfl

/-- The agenda is as long as the table. -/
theorem Sound.length_agenda (h : (ofTable q entries key).Sound) :
    q.agenda.length = entries.size := by
  have hq : q.WellFormed := h.queue
  have hmem : ∀ k, k ∈ q.agenda.map Prod.snd ↔ k ∈ entries.keys := by
    intro k
    have hcontains : q.contains k = entries.contains k :=
      (h.contains_eq k).trans (ofTable_isSome q entries key k)
    have hkeys := Rows.find?_eq_none_iff (r := entries) (k := k)
    rw [hq.mem_keys, hcontains, Rows.contains, Option.isSome_iff_ne_none, Ne, hkeys, not_not]
  have hperm := (List.perm_ext_iff_of_nodup hq.nodup_keys entries.nodup).mpr hmem
  simpa [Rows.size] using hperm.length_eq

end Tables

end Roster

namespace Change

/-- `r'` is what the change makes of `r` at `now`, given the interval in force. -/
def Takes (now interval : Nat) (r r' : Roster κ) : Change κ → Prop
  | none => r' = r
  | renew k => r.queue.Renewed r'.queue k (now + interval) ∧
      r'.stored = Function.update r.stored k (some k)
  | cancel k => r.queue.Cancelled r'.queue k ∧
      r'.stored = Function.update r.stored k Option.none
  | serve => r'.queue = r.queue.settled now interval Expiry.maxServiced ∧ r'.stored = r.stored

/-- The change gives `k` a new deadline. -/
def Schedules (now interval : Nat) (r : Roster κ) (k : κ) (c : Change κ) : Prop :=
  c = .renew k ∨ c = .serve ∧ k ∈ r.served now interval

theorem sound (hs : r.Sound) (hc : c.Takes now interval r r') : r'.Sound := by
  cases c with
  | none => exact hc ▸ hs
  | renew k =>
    obtain ⟨hr, he⟩ := hc
    refine ⟨hs.queue.renewed hr, fun k' => ?_⟩
    rw [he, Function.update_apply, hr.contains, hs.stored]
    by_cases hk : k' = k <;> simp [hk]
  | cancel k =>
    obtain ⟨hr, he⟩ := hc
    refine ⟨hs.queue.cancelled hr, fun k' => ?_⟩
    rw [he, Function.update_apply, hr.contains, hs.stored]
    by_cases hk : k' = k <;> simp [hk]
  | serve =>
    obtain ⟨hq, he⟩ := hc
    refine ⟨hq ▸ hs.queue.settled _ _ _, fun k' => ?_⟩
    rw [he, hs.stored, hq, Expiry.Queue.contains_settled hs.queue]

theorem deadline?_of_schedules (hs : r.Sound) (hc : c.Takes now interval r r')
    (hk : c.Schedules now interval r k) : r'.queue.deadline? k = some (now + interval) := by
  rcases hk with rfl | ⟨rfl, hm⟩
  · rw [Expiry.Queue.deadline?, hc.1.find?, if_pos rfl]
    rfl
  · rw [hc.1]
    exact Expiry.Queue.deadline?_settled_of_mem hs.queue hm

/-- Nothing but scheduling or cancelling `k` itself moves its registration. -/
theorem find?_of_not_schedules (hs : r.Sound) (hc : c.Takes now interval r r')
    (hk : ¬ c.Schedules now interval r k) (hn : c ≠ .cancel k) :
    r'.queue.tickets.find? k = r.queue.tickets.find? k := by
  cases c with
  | none => rw [show r' = r from hc]
  | renew k' =>
    have hne : k ≠ k' := fun he => hk (.inl (he ▸ rfl))
    rw [hc.1.find?, if_neg hne]
  | cancel k' =>
    have hne : k ≠ k' := fun he => hn (he ▸ rfl)
    rw [hc.1.find?, if_neg hne]
  | serve =>
    rw [hc.1]
    exact Expiry.Queue.find?_settled_of_not_mem hs.queue fun hm => hk (.inr ⟨rfl, hm⟩)

theorem deadline?_of_cancel (hc : (Change.cancel k).Takes now interval r r') :
    r'.queue.deadline? k = Option.none := by
  rw [Expiry.Queue.deadline?, hc.1.find?, if_pos rfl]
  rfl

/-- Nothing gets before a key that is due, and a tick brings it forward by its full number. -/
theorem ahead_of_not_schedules (hs : r.Sound) (hc : c.Takes now interval r r')
    (ht : r.queue.tickets.find? k = some t) (hd : t.deadline ≤ now)
    (hk : ¬ c.Schedules now interval r k) (hn : c ≠ .cancel k) :
    r'.queue.ahead k ≤ r.queue.ahead k ∧
      (c = .serve → r'.queue.ahead k + Expiry.maxServiced = r.queue.ahead k) := by
  cases c with
  | none => simp [show r' = r from hc]
  | renew k' =>
    have hne : k ≠ k' := fun he => hk (.inl (he ▸ rfl))
    refine ⟨Expiry.Queue.ahead_renewed_le hs.queue ht hne hc.1 (by omega), ?_⟩
    intro h
    cases h
  | cancel k' =>
    have hne : k ≠ k' := fun he => hn (he ▸ rfl)
    refine ⟨Expiry.Queue.ahead_cancelled_le hc.1 hne, ?_⟩
    intro h
    cases h
  | serve =>
    have := Expiry.Queue.ahead_settled hs.queue ht hd fun hm => hk (.inr ⟨rfl, hm⟩)
    rw [hc.1]
    exact ⟨by omega, fun _ => this⟩

section Tables

variable {α β : Type} {key : α → κ} {q q' : Expiry.Queue κ} {entries entries' : Rows κ α} {a : α}

/-- Writing the entry of a key and registering it anew belong together. -/
theorem takes_insert (hq : q.Renewed q' k (now + interval)) (ha : key a = k) :
    (renew k).Takes now interval (.ofTable q entries key)
      (.ofTable q' (entries.insert k a) key) := by
  refine ⟨hq, ?_⟩
  funext k'
  simp only [Roster.ofTable, Rows.find?_insert, Function.update_apply]
  split <;> simp [ha]

theorem takes_erase (hq : q.Cancelled q' k) :
    (cancel k).Takes now interval (.ofTable q entries key)
      (.ofTable q' (entries.erase k) key) := by
  refine ⟨hq, ?_⟩
  funext k'
  simp only [Roster.ofTable, Rows.find?_erase, Function.update_apply]
  split <;> simp

/-- A drain that leaves in every entry the part with its key does no more to the roster. -/
theorem takes_settled (part : α → β) (key' : β → κ) (hp : ∀ a, key' (part a) = key a)
    (he : ∀ k, (entries'.find? k).map part = (entries.find? k).map part) :
    serve.Takes now interval (.ofTable q entries key)
      (.ofTable (q.settled now interval Expiry.maxServiced) entries' key) := by
  refine ⟨rfl, ?_⟩
  funext k
  have hk := congrArg (Option.map key') (he k)
  have hc : key' ∘ part = key := funext hp
  rwa [Option.map_map, Option.map_map, hc] at hk

end Tables
end Change
end Snooping
