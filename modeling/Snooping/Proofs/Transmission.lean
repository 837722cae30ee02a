import Snooping.Proofs.Outright
import Snooping.Proofs.Roster
import Snooping.Transmission

/-! What each operation of a transmission table does when it is accepted. -/
namespace Snooping.Transmission

/-- A reference that has to resolve reads the same name, and the row is there. -/
theorem portGroupReading_some {ports : TxPorts} {fields rest : List Field} {name : String}
    (h : portGroupReading (some ports) fields = (.ok name, rest)) :
    portGroupReading none fields = (.ok name, rest) ∧ ports.contains name = true := by
  simp only [portGroupReading, Reading.bind_eq_ok_iff, Reading.lift_eq_ok_iff, TxPorts.resolve,
    bind_eq_ok_iff, pure_eq_ok_iff] at h ⊢
  obtain ⟨key, mid, hf, ⟨name', hk, hn⟩, hm⟩ := h
  split at hn
  · rename_i hc
    cases hn
    exact ⟨⟨key, mid, hf, ⟨name, hk, rfl⟩, hm⟩, hc⟩
  · cases hn

theorem generalQuery_reading_some {ports : TxPorts} {key : List Field} {k : VlanKey}
    (h : (generalQuery.reading (some ports)).all key = .ok k) :
    (generalQuery.reading none).all key = .ok k ∧
      ports.contains (generalQuery.portGroup k) = true := by
  simp only [Reading.all_eq_ok_iff, generalQuery, Reading.bind_eq_ok_iff,
    Reading.pure_eq_ok_iff] at h ⊢
  obtain ⟨name, mid, hn, vlan, mid', hv, rfl, rfl⟩ := h
  obtain ⟨hn, hc⟩ := portGroupReading_some hn
  exact ⟨⟨name, mid, hn, vlan, [], hv, rfl, rfl⟩, hc⟩

theorem report_reading_some {ports : TxPorts} {key : List Field} {k : GroupKey}
    (h : (report.reading (some ports)).all key = .ok k) :
    (report.reading none).all key = .ok k ∧ ports.contains (report.portGroup k) = true := by
  simp only [Reading.all_eq_ok_iff, report, Reading.bind_eq_ok_iff,
    Reading.pure_eq_ok_iff] at h ⊢
  obtain ⟨name, mid, hn, vlan, mid', hv, group, mid'', hg, rfl, rfl⟩ := h
  obtain ⟨hn, hc⟩ := portGroupReading_some hn
  exact ⟨⟨name, mid, hn, vlan, mid', hv, group, [], hg, rfl, rfl⟩, hc⟩

/-- An entry without what sending changes. -/
def Entry.unsent {κ : Type} (e : Entry κ) : Entry κ := { e with lastHit := 0, txPackets := 0 }

theorem Entry.unsent_key {κ : Type} (e : Entry κ) : e.unsent.key = e.key := rfl

theorem Entry.unsent_origin {κ : Type} (e : Entry κ) : e.unsent.origin = e.origin := rfl

namespace Table

variable {κ ω : Type} [PacketOut ω] {kind : Kind κ} {e : Entry κ}

/-- The way out once it has been handed the frame of an entry, if the entry's group has a port. -/
def sendOut (kind : Kind κ) (ports : TxPorts) (e : Entry κ) (out : ω) : ω :=
  match ports.find? (kind.portGroup e.key) with
  | none => out
  | some port => (PacketOut.transmit out ⟨port, kind.frame e.key e.origin⟩).1

theorem send_unsent (kind : Kind κ) (ports : TxPorts) (now : Nat) (e : Entry κ)
    (counters : Counters) (out : ω) :
    (send kind ports now e counters out).entry.unsent = e.unsent := by
  simp only [send]
  split
  · rfl
  · split <;> rfl

theorem send_key (kind : Kind κ) (ports : TxPorts) (now : Nat) (e : Entry κ)
    (counters : Counters) (out : ω) : (send kind ports now e counters out).entry.key = e.key := by
  rw [← Entry.unsent_key, send_unsent, Entry.unsent_key]

theorem send_out (kind : Kind κ) (ports : TxPorts) (now : Nat) (e : Entry κ)
    (counters : Counters) (out : ω) :
    (send kind ports now e counters out).out = sendOut kind ports e out := by
  simp only [send, sendOut]
  cases ports.find? (kind.portGroup e.key) with
  | none => rfl
  | some port =>
    simp only
    split <;> rename_i h <;> rw [h]

/-- At most one frame is handed out for an entry. -/
theorem sendOut_eq_or (kind : Kind κ) (ports : TxPorts) (e : Entry κ) (out : ω) :
    sendOut kind ports e out = out ∨
      ∃ f, sendOut kind ports e out = (PacketOut.transmit out f).1 := by
  unfold sendOut
  split
  · exact .inl rfl
  · exact .inr ⟨_, rfl⟩

theorem sendOut_congr {e' : Entry κ} (h : e'.unsent = e.unsent) (ports : TxPorts) (out : ω) :
    sendOut kind ports e' out = sendOut kind ports e out := by
  have hk : e'.key = e.key := by rw [← Entry.unsent_key, h, Entry.unsent_key]
  have ho : e'.origin = e.origin := by rw [← Entry.unsent_origin, h, Entry.unsent_origin]
  simp only [sendOut, hk, ho]

variable [DecidableEq κ] {t t' : Table κ} {ports : TxPorts}
  {key value : List Field} {k : κ} {interval now : Nat} {traces : List Trace} {out : ω}
  {changed : Changed κ ω} {s : Service κ ω}

def roster (t : Table κ) : Roster κ := .ofTable t.queue t.entries (·.key)

/-- The way out once it has been handed the frame that is due for `k`. -/
def emit (kind : Kind κ) (ports : TxPorts) (t : Table κ) (out : ω) (k : κ) : ω :=
  match t.entries.find? k with
  | none => out
  | some e => sendOut kind ports e out

/-- What is due for `k` does not depend on the marks of sending in its entry. -/
theorem emit_eq (h : (t.entries.find? k).map Entry.unsent = some e.unsent) :
    emit kind ports t out k = sendOut kind ports e out := by
  obtain ⟨e', he, hu⟩ := Option.map_eq_some_iff.mp h
  unfold emit
  rw [he]
  exact sendOut_congr hu ports out

theorem emit_congr (kind : Kind κ) (ports : TxPorts)
    (h : ∀ k, (t'.entries.find? k).map Entry.unsent = (t.entries.find? k).map Entry.unsent) :
    t'.emit (ω := ω) kind ports = t.emit kind ports := by
  funext out k
  cases he : t.entries.find? k with
  | none =>
    have he' : t'.entries.find? k = none := by simpa [he] using h k
    simp [emit, he, he']
  | some e =>
    rw [emit_eq (e := e) (by rw [h, he, Option.map_some]),
      emit_eq (e := e) (by rw [he, Option.map_some])]

theorem add_ok (h : t.add kind ports key value interval now out = .ok changed) :
    ∃ k origin, (kind.reading (some ports)).all key = .ok k ∧
      originReading.all value = .ok origin ∧ t.entries.find? k = none ∧
      changed.table.entries = t.entries.insert k
        (send kind ports now ⟨k, origin, now, 0⟩ t.counters out).entry ∧
      changed.table.queue = t.queue.insert k (now + interval) ∧
      changed.out = sendOut kind ports ⟨k, origin, now, 0⟩ out := by
  simp only [add, bind_eq_ok_iff, guard_eq_ok_iff, pure_eq_ok_iff] at h
  obtain ⟨k, hk, origin, ho, hn, rfl⟩ := h
  exact ⟨k, origin, hk, ho, by simpa [Rows.contains] using hn, rfl, rfl, send_out ..⟩

theorem modify_ok (h : t.modify kind ports key value interval now out = .ok changed) :
    ∃ k origin e, (kind.reading none).all key = .ok k ∧ originReading.all value = .ok origin ∧
      t.entries.find? k = some e ∧
      changed.table.entries = t.entries.insert k
        (send kind ports now { e with origin } t.counters out).entry ∧
      changed.table.queue = (t.queue.remove k).insert k (now + interval) ∧
      changed.out = sendOut kind ports { e with origin } out := by
  simp only [modify, bind_eq_ok_iff] at h
  obtain ⟨k, hk, origin, ho, h⟩ := h
  split at h
  · cases h
  · rename_i e he
    cases h
    exact ⟨k, origin, e, hk, ho, he, rfl, rfl, send_out ..⟩

theorem delete_ok (h : t.delete kind key = .ok (t', traces)) :
    ∃ k e, (kind.reading none).all key = .ok k ∧ t.entries.find? k = some e ∧
      t' = { t with queue := t.queue.remove k, entries := t.entries.erase k } := by
  simp only [delete, bind_eq_ok_iff, guard_eq_ok_iff, pure_eq_ok_iff, Prod.mk.injEq] at h
  obtain ⟨k, hk, hc, ht, _⟩ := h
  simp only [Rows.contains, Bool.not_eq_true', Bool.not_eq_false] at hc
  obtain ⟨e, he⟩ := Option.isSome_iff_exists.mp hc
  exact ⟨k, e, hk, he, ht.symm⟩

/-- Sending what is due for `k` changes its entry in nothing but the marks of sending. -/
theorem resend_ok (kind : Kind κ) (ports : TxPorts) (now : Nat)
    (he : s.entries.find? k = some e) :
    ∃ s', resend kind ports now k s = .ok s' ∧ s'.out = sendOut kind ports e s.out ∧
      ∀ k', (s'.entries.find? k').map Entry.unsent = (s.entries.find? k').map Entry.unsent := by
  simp only [resend, he]
  refine ⟨_, rfl, send_out .., fun k' => ?_⟩
  rw [Rows.find?_insert]
  split
  · rename_i hk
    rw [hk, he, Option.map_some, Option.map_some, send_unsent]
  · rfl

theorem foldlM_resend (kind : Kind κ) (ports : TxPorts) (now : Nat) (ks : List κ)
    (hs : ∀ k ∈ ks, (s.entries.find? k).isSome)
    (ht : ∀ k, (s.entries.find? k).map Entry.unsent = (t.entries.find? k).map Entry.unsent) :
    ∃ s', ks.foldlM (fun s k => resend kind ports now k s) s = .ok s' ∧
      s'.out = ks.foldl (emit kind ports t) s.out ∧
      ∀ k, (s'.entries.find? k).map Entry.unsent = (t.entries.find? k).map Entry.unsent := by
  induction ks generalizing s with
  | nil => exact ⟨s, rfl, rfl, ht⟩
  | cons k ks ih =>
    obtain ⟨e, he⟩ := Option.isSome_iff_exists.mp (hs k (by simp))
    obtain ⟨s₁, h₁, ho₁, hu₁⟩ := resend_ok kind ports now he
    obtain ⟨s₂, h₂, ho₂, hu₂⟩ := ih (s := s₁)
      (fun k' hk' => by
        rw [← Option.isSome_map (f := Entry.unsent), hu₁, Option.isSome_map]
        exact hs k' (List.mem_cons_of_mem _ hk'))
      fun k' => (hu₁ k').trans (ht k')
    have hemit : emit kind ports t s.out k = sendOut kind ports e s.out := by
      apply emit_eq
      rw [← ht, he]
      rfl
    refine ⟨s₂, ?_, ?_, hu₂⟩
    · rw [List.foldlM_cons, h₁]
      exact h₂
    · rw [ho₂, ho₁, List.foldl_cons, hemit]

/-- A tick of a sound table succeeds. It serves what is due and hands out nothing else. -/
theorem tick_ok (h : t.roster.Sound) (kind : Kind κ) (ports : TxPorts) (interval now : Nat)
    (out : ω) :
    ∃ r, t.tick kind ports interval now out = .ok r ∧
      Change.serve.Takes now interval t.roster r.table.roster ∧
      r.out = (t.roster.served now interval).foldl (emit kind ports t) out ∧
      ∀ k, (r.table.entries.find? k).map Entry.unsent =
        (t.entries.find? k).map Entry.unsent := by
  obtain ⟨s, hs, ho, hu⟩ := foldlM_resend kind ports now
    (t.roster.served now interval) (s := ⟨t.entries, t.counters, out, []⟩) (t := t)
    (fun k hk => h.isSome_of_served hk) fun _ => rfl
  have hd : t.queue.drain (resend kind ports now) now interval ⟨t.entries, t.counters, out, []⟩ =
      .ok ⟨t.queue.settled now interval Expiry.maxServiced, s,
        (t.roster.served now interval).length⟩ := by
    rw [Expiry.Queue.drain, Expiry.Queue.serve_eq]
    exact congrArg (Except.map _) hs
  refine ⟨_, by rw [tick, hd]; rfl, ?_, ho, hu⟩
  exact Change.takes_settled Entry.unsent (·.key) (fun _ => rfl) hu

/-- What an accepted request does to the roster. -/
theorem add_takes (hs : t.roster.Sound)
    (hr : ∀ k, (kind.reading (some ports)).all key = .ok k → (kind.reading none).all key = .ok k)
    (h : t.add kind ports key value interval now out = .ok changed) :
    (((kind.reading none).all key).toOption.elim .none .renew : Change κ).Takes now interval
      t.roster changed.table.roster := by
  obtain ⟨k, origin, hk, _, _, he, hq, _⟩ := add_ok h
  rw [hr k hk, roster, roster, he, hq]
  exact Change.takes_insert (hs.queue.insert_renewed k _) (send_key ..)

theorem modify_takes (hs : t.roster.Sound)
    (h : t.modify kind ports key value interval now out = .ok changed) :
    (((kind.reading none).all key).toOption.elim .none .renew : Change κ).Takes now interval
      t.roster changed.table.roster := by
  obtain ⟨k, origin, e, hk, _, he, hes, hq, _⟩ := modify_ok h
  have hc := hs.queue.remove_cancelled k
  rw [hk, roster, roster, hes, hq]
  refine Change.takes_insert (hc.renewed ((hs.queue.cancelled hc).insert_renewed k _)) ?_
  have hkey : e.key = k := hs.key_eq (Roster.ofTable_stored he)
  rw [send_key]
  exact hkey

theorem delete_takes (hs : t.roster.Sound) (h : t.delete kind key = .ok (t', traces)) :
    (((kind.reading none).all key).toOption.elim .none .cancel : Change κ).Takes now interval
      t.roster t'.roster := by
  obtain ⟨k, _, hk, _, rfl⟩ := delete_ok h
  rw [hk]
  exact Change.takes_erase (hs.queue.remove_cancelled k)

end Table
end Snooping.Transmission
