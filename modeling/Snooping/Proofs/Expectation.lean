import Snooping.Expectation
import Snooping.Proofs.Outright
import Snooping.Proofs.Roster

/-! What each operation of an expectation table does when it is accepted. -/
namespace Snooping.Expectation

/-- An entry without its count of notifications. -/
def Entry.unsent {κ : Type} (e : Entry κ) : Entry κ := { e with txPackets := 0 }

namespace Table

variable {κ χ : Type} [DecidableEq κ] [ControllerChannel χ] {kind : Kind κ} {t t' : Table κ}
  {key value : List Field} {k : κ} {e : Entry κ} {interval now : Nat} {traces : List Trace}
  {capable : Bool} {channel : χ} {s : Service κ χ}

def roster (t : Table κ) : Roster κ := .ofTable t.queue t.entries (·.key)

/-- The channel once it has been handed the notification of `k`. -/
def announce (kind : Kind κ) (channel : χ) (k : κ) : χ :=
  (ControllerChannel.send channel (.idleNotification (kind.notification k))).1

theorem add_ok (h : t.add kind key value interval now = .ok (t', traces)) :
    ∃ k, kind.reading.all key = .ok k ∧ t.entries.find? k = none ∧
      t' = { t with
        queue := t.queue.insert k (now + interval)
        entries := t.entries.insert k ⟨k, now, 0, 0⟩ } := by
  simp only [add, bind_eq_ok_iff, guard_eq_ok_iff, pure_eq_ok_iff, Prod.mk.injEq] at h
  obtain ⟨k, hk, _, _, hn, ht, _⟩ := h
  exact ⟨k, hk, by simpa [Rows.contains] using hn, ht.symm⟩

theorem modify_ok {u : Unit} (h : t.modify kind key value = .ok u) :
    ∃ k e, kind.reading.all key = .ok k ∧ t.entries.find? k = some e := by
  simp only [modify, bind_eq_ok_iff] at h
  obtain ⟨k, hk, _, _, h⟩ := h
  split at h
  · cases h
  · rename_i hc
    simp only [Rows.contains, Bool.not_eq_true', Bool.not_eq_false] at hc
    obtain ⟨e, he⟩ := Option.isSome_iff_exists.mp hc
    exact ⟨k, e, hk, he⟩

theorem delete_ok (h : t.delete kind key = .ok (t', traces)) :
    ∃ k e, kind.reading.all key = .ok k ∧ t.entries.find? k = some e ∧
      t' = { t with queue := t.queue.remove k, entries := t.entries.erase k } := by
  simp only [delete, bind_eq_ok_iff, guard_eq_ok_iff, pure_eq_ok_iff, Prod.mk.injEq] at h
  obtain ⟨k, hk, hc, ht, _⟩ := h
  simp only [Rows.contains, Bool.not_eq_true', Bool.not_eq_false] at hc
  obtain ⟨e, he⟩ := Option.isSome_iff_exists.mp hc
  exact ⟨k, e, hk, he, ht.symm⟩

theorem hit?_some (h : t.hit? kind k interval now = some (t', traces)) :
    ∃ e, t.entries.find? k = some e ∧
      t' = { entries := t.entries.insert k { e with lastHit := now, rxPackets := e.rxPackets + 1 }
             queue := t.queue.insert k (now + interval)
             counters := { t.counters with hits := t.counters.hits + 1 } } := by
  unfold hit? at h
  split at h
  · cases h
  · rename_i e he
    cases h
    exact ⟨e, he, rfl⟩

/-- A notification is handed out if it can be; no entry changes but for its count. -/
theorem notify_ok (kind : Kind κ) (capable : Bool) (he : s.entries.find? k = some e) :
    ∃ s', notify kind capable k s = .ok s' ∧
      s'.channel = (if capable then announce kind s.channel k else s.channel) ∧
      ∀ k', (s'.entries.find? k').map Entry.unsent = (s.entries.find? k').map Entry.unsent := by
  simp only [notify, he]
  cases capable with
  | false => exact ⟨_, rfl, rfl, fun _ => rfl⟩
  | true =>
    simp only [Bool.not_true, Bool.false_eq_true, if_false, if_true, announce]
    generalize ControllerChannel.send s.channel _ = sent
    obtain ⟨channel, _ | _⟩ := sent
    · exact ⟨_, rfl, rfl, fun _ => rfl⟩
    · refine ⟨_, rfl, rfl, fun k' => ?_⟩
      rw [Rows.find?_insert]
      split
      · rename_i hk
        rw [hk, he]
        rfl
      · rfl

/-- Entries are all there for the service of a list of keys, whatever becomes of their messages. -/
theorem foldlM_notify (kind : Kind κ) (capable : Bool) (ks : List κ)
    (hs : ∀ k ∈ ks, (s.entries.find? k).isSome) :
    ∃ s', ks.foldlM (fun s k => notify kind capable k s) s = .ok s' ∧
      s'.channel = (if capable then ks.foldl (announce kind) s.channel else s.channel) ∧
      ∀ k, (s'.entries.find? k).map Entry.unsent = (s.entries.find? k).map Entry.unsent := by
  induction ks generalizing s with
  | nil => exact ⟨s, rfl, by simp, fun _ => rfl⟩
  | cons k ks ih =>
    obtain ⟨e, he⟩ := Option.isSome_iff_exists.mp (hs k (by simp))
    obtain ⟨s₁, h₁, hc₁, hu₁⟩ := notify_ok kind capable he
    obtain ⟨s₂, h₂, hc₂, hu₂⟩ := ih (s := s₁) fun k' hk' => by
      rw [← Option.isSome_map (f := Entry.unsent), hu₁, Option.isSome_map]
      exact hs k' (List.mem_cons_of_mem _ hk')
    refine ⟨s₂, ?_, ?_, fun k' => (hu₂ k').trans (hu₁ k')⟩
    · rw [List.foldlM_cons, h₁]
      exact h₂
    · rw [hc₂, hc₁]
      cases capable <;> rfl

/-- A tick of a sound table succeeds. It serves what is due and hands out nothing else. -/
theorem tick_ok (h : t.roster.Sound) (kind : Kind κ) (interval now : Nat) (channel : χ) :
    ∃ r, t.tick kind interval now channel = .ok r ∧
      Change.serve.Takes now interval t.roster r.table.roster ∧
      r.channel = (if asyncCapable channel then
        (t.roster.served now interval).foldl (announce kind) channel else channel) ∧
      ∀ k, (r.table.entries.find? k).map Entry.unsent =
        (t.entries.find? k).map Entry.unsent := by
  obtain ⟨s, hs, hc, hu⟩ := foldlM_notify kind (asyncCapable channel)
    (t.roster.served now interval) (s := ⟨t.entries, t.counters, channel, []⟩)
    fun k hk => h.isSome_of_served hk
  have hd : t.queue.drain (notify kind (asyncCapable channel)) now interval
      ⟨t.entries, t.counters, channel, []⟩ =
      .ok ⟨t.queue.settled now interval Expiry.maxServiced, s,
        (t.roster.served now interval).length⟩ := by
    rw [Expiry.Queue.drain, Expiry.Queue.serve_eq]
    exact congrArg (Except.map _) hs
  refine ⟨_, by rw [tick, hd]; rfl, ?_, hc, hu⟩
  exact Change.takes_settled Entry.unsent (·.key) (fun _ => rfl) hu

/-- What an accepted request or a hit does to the roster. -/
theorem add_takes (hs : t.roster.Sound)
    (h : t.add kind key value interval now = .ok (t', traces)) :
    ((kind.reading.all key).toOption.elim .none .renew : Change κ).Takes now interval
      t.roster t'.roster := by
  obtain ⟨k, hk, _, rfl⟩ := add_ok h
  rw [hk]
  exact Change.takes_insert (hs.queue.insert_renewed k _) rfl

theorem delete_takes (hs : t.roster.Sound) (h : t.delete kind key = .ok (t', traces)) :
    ((kind.reading.all key).toOption.elim .none .cancel : Change κ).Takes now interval
      t.roster t'.roster := by
  obtain ⟨k, _, hk, _, rfl⟩ := delete_ok h
  rw [hk]
  exact Change.takes_erase (hs.queue.remove_cancelled k)

theorem hit?_takes (hs : t.roster.Sound) (h : t.hit? kind k interval now = some (t', traces)) :
    (Change.renew k).Takes now interval t.roster t'.roster := by
  obtain ⟨e, he, rfl⟩ := hit?_some h
  have hkey : e.key = k := hs.key_eq (Roster.ofTable_stored he)
  exact Change.takes_insert (hs.queue.insert_renewed k _) hkey

/-- `t'` is `t` after a hit on the key, if there is one. -/
def Met (kind : Kind κ) (interval now : Nat) (t t' : Table κ) : Option κ → Prop
  | none => t' = t
  | some k => ∃ traces, t.hit? kind k interval now = some (t', traces)

/-- Only an entry can be hit. -/
theorem Met.isSome {k? : Option κ} (h : Met kind interval now t t' k?) (hk : k? = some k) :
    (t.roster.stored k).isSome = true := by
  subst hk
  obtain ⟨traces, hit⟩ := h
  obtain ⟨e, he, _⟩ := hit?_some hit
  exact congrArg Option.isSome (Roster.ofTable_stored he)

theorem Met.takes {k? : Option κ} (h : Met kind interval now t t' k?) (hs : t.roster.Sound) :
    (k?.elim .none .renew : Change κ).Takes now interval t.roster t'.roster := by
  cases k? with
  | none => exact congrArg roster h
  | some k =>
    obtain ⟨traces, hit⟩ := h
    exact hit?_takes hs hit

end Table
end Snooping.Expectation
