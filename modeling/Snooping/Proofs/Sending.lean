import Snooping.Proofs.Transmission

/-!
What a transmission table sends and counts. The frame of a row is told by its key, the addressing
that the row was last given, and the port that its group has; each attempt is counted once.
-/
namespace Snooping

/-- The way out once it has been handed frames, in order. -/
def PacketOut.deliver {ω : Type} [PacketOut ω] (out : ω) (frames : List OutboundFrame) : ω :=
  frames.foldl (fun out f => (transmit out f).1) out

theorem PacketOut.deliver_append {ω : Type} [PacketOut ω] (out : ω) (xs ys : List OutboundFrame) :
    deliver out (xs ++ ys) = deliver (deliver out xs) ys :=
  List.foldl_append

namespace Transmission

/-- How many frames packet-out was handed. -/
def Counters.attempted (c : Counters) : Nat := c.sent + c.failed

/-- `c'` counts on from `c`, given the ports that were looked up: one attempt for each that was
found, and one unresolved group for each that was not. -/
structure Counters.CountsOn (ports : List (Option UInt32)) (c c' : Counters) : Prop where
  attempted : c'.attempted = c.attempted + ports.countP (·.isSome)
  unresolved : c'.unresolved = c.unresolved + ports.countP (·.isNone)

namespace Counters.CountsOn

variable {c c₁ c₂ : Counters} {xs ys : List (Option UInt32)}

theorem refl (c : Counters) : CountsOn [] c c := ⟨rfl, rfl⟩

theorem append (h₁ : CountsOn xs c c₁) (h₂ : CountsOn ys c₁ c₂) : CountsOn (xs ++ ys) c c₂ where
  attempted := by
    rw [h₂.attempted, h₁.attempted, List.countP_append]
    omega
  unresolved := by
    rw [h₂.unresolved, h₁.unresolved, List.countP_append]
    omega

end Counters.CountsOn

namespace Table

variable {κ ω : Type} [PacketOut ω] {kind : Kind κ} {e : Entry κ}

theorem send_counts (kind : Kind κ) (ports : TxPorts) (now : Nat) (e : Entry κ) (c : Counters)
    (out : ω) :
    Counters.CountsOn [ports.find? (kind.portGroup e.key)] c
      (send kind ports now e c out).counters := by
  simp only [send]
  cases hp : ports.find? (kind.portGroup e.key) with
  | none => exact ⟨rfl, rfl⟩
  | some port =>
    simp only
    split
    · exact ⟨Nat.add_right_comm .., rfl⟩
    · exact ⟨rfl, rfl⟩

variable [DecidableEq κ] {t t' : Table κ} {ports : TxPorts} {key value : List Field} {k : κ}
  {interval now : Nat} {traces : List Trace} {out : ω} {changed : Changed κ ω} {s s' : Service κ ω}
  {r : Ticked κ ω}

/-- The addressing that the row of `k` has now. -/
def origin? (t : Table κ) (k : κ) : Option Igmp.Origin := (t.entries.find? k).map (·.origin)

/-- The frame that is due for `k`, if its group has a port. -/
def due? (kind : Kind κ) (ports : TxPorts) (t : Table κ) (k : κ) : Option OutboundFrame :=
  (t.origin? k).bind fun origin =>
    (ports.find? (kind.portGroup k)).map fun port => ⟨port, kind.frame k origin⟩

omit [PacketOut ω] in
theorem origin?_eq_unsent (t : Table κ) (k : κ) :
    t.origin? k = ((t.entries.find? k).map Entry.unsent).map (·.origin) := by
  rw [origin?, Option.map_map]
  rfl

/-- Service hands out the frame that is due and no other. -/
theorem emit_due (hs : t.roster.Sound) (kind : Kind κ) (ports : TxPorts) (out : ω) (k : κ) :
    t.emit kind ports out k = PacketOut.deliver out (t.due? kind ports k).toList := by
  unfold emit due? origin?
  cases he : t.entries.find? k with
  | none => rfl
  | some e =>
    have hkey : e.key = k := hs.key_eq (Roster.ofTable_stored he)
    simp only [sendOut, hkey, Option.map_some, Option.bind_some]
    cases ports.find? (kind.portGroup k) <;> rfl

/-- A row that is sent and stored keeps the addressing it was sent with. -/
theorem origin?_of_stored {e : Entry κ} {c : Counters}
    (h : t'.entries = t.entries.insert k (send kind ports now e c out).entry) (k' : κ) :
    t'.origin? k' = if k' = k then some e.origin else t.origin? k' := by
  have horigin := congrArg Entry.origin (send_unsent kind ports now e c out)
  rw [origin?, h, Rows.find?_insert]
  split
  · exact congrArg some horigin
  · rfl

/-- A new row has its addressing from the request, and its group has a port. -/
theorem add_sends (hr : ∀ k, (kind.reading (some ports)).all key = .ok k →
      (kind.reading none).all key = .ok k ∧ ports.contains (kind.portGroup k) = true)
    (h : t.add kind ports key value interval now out = .ok changed) :
    ∃ k, (kind.reading none).all key = .ok k ∧ ports.contains (kind.portGroup k) = true ∧
      (∀ k', changed.table.origin? k' =
        if k' = k then (originReading.all value).toOption else t.origin? k') ∧
      Counters.CountsOn [ports.find? (kind.portGroup k)] t.counters changed.table.counters := by
  simp only [add, bind_eq_ok_iff, guard_eq_ok_iff, pure_eq_ok_iff] at h
  obtain ⟨k, hk, origin, ho, _, rfl⟩ := h
  obtain ⟨hkey, hport⟩ := hr k hk
  rw [ho]
  exact ⟨k, hkey, hport, origin?_of_stored (e := ⟨k, origin, now, 0⟩) rfl,
    send_counts kind ports now ⟨k, origin, now, 0⟩ _ out⟩

theorem modify_sends (hs : t.roster.Sound)
    (h : t.modify kind ports key value interval now out = .ok changed) :
    ∃ k, (kind.reading none).all key = .ok k ∧
      (∀ k', changed.table.origin? k' =
        if k' = k then (originReading.all value).toOption else t.origin? k') ∧
      Counters.CountsOn [ports.find? (kind.portGroup k)] t.counters changed.table.counters := by
  simp only [modify, bind_eq_ok_iff] at h
  obtain ⟨k, hk, origin, ho, h⟩ := h
  split at h
  · cases h
  · rename_i e he
    cases h
    have hkey : e.key = k := hs.key_eq (Roster.ofTable_stored he)
    have hcounts := send_counts kind ports now { e with origin } t.counters out
    rw [ho]
    exact ⟨k, hk, origin?_of_stored (e := { e with origin }) rfl, hkey ▸ hcounts⟩

theorem delete_sends (h : t.delete kind key = .ok (t', traces)) :
    ∃ k, (kind.reading none).all key = .ok k ∧
      (∀ k', t'.origin? k' = if k' = k then none else t.origin? k') ∧
      Counters.CountsOn [] t.counters t'.counters := by
  obtain ⟨k, e, hk, _, rfl⟩ := delete_ok h
  refine ⟨k, hk, fun k' => ?_, .refl _⟩
  rw [origin?, Rows.find?_erase]
  split <;> rfl

/-- Every entry is stored under the key that it names. -/
def Keyed (entries : Rows κ (Entry κ)) : Prop := ∀ k e, entries.find? k = some e → e.key = k

theorem resend_counts (hkeyed : Keyed s.entries) (h : resend kind ports now k s = .ok s') :
    Keyed s'.entries ∧
      Counters.CountsOn [ports.find? (kind.portGroup k)] s.counters s'.counters := by
  unfold resend at h
  split at h
  · cases h
  · rename_i e he
    cases h
    have hkey := hkeyed k e he
    have hcounts := send_counts kind ports now e s.counters s.out
    refine ⟨fun k' e' he' => ?_, hkey ▸ hcounts⟩
    rw [Rows.find?_insert] at he'
    split at he'
    · rename_i hk
      cases he'
      rw [send_key, hkey, hk]
    · exact hkeyed k' e' he'

/-- A tick leaves every addressing as it is, and counts each service once. -/
theorem tick_sends (hs : t.roster.Sound)
    (h : t.tick kind ports interval now out = .ok r) :
    (∀ k, r.table.origin? k = t.origin? k) ∧
      Counters.CountsOn
        ((t.roster.served now interval).map fun k => ports.find? (kind.portGroup k))
        t.counters r.table.counters := by
  obtain ⟨r', hr', _, _, hu⟩ := tick_ok hs kind ports interval now out
  cases h.symm.trans hr'
  refine ⟨fun k => by rw [origin?_eq_unsent, origin?_eq_unsent, hu], ?_⟩
  simp only [tick, bind_eq_ok_iff, pure_eq_ok_iff] at h
  obtain ⟨d, hd, rfl⟩ := h
  have hkeyed : Keyed t.entries := fun k e he => hs.key_eq (Roster.ofTable_stored he)
  refine Expiry.Queue.drain_induct (R := fun ks (s s' : Service κ ω) => Keyed s.entries →
    Counters.CountsOn (ks.map fun k => ports.find? (kind.portGroup k)) s.counters s'.counters)
    (fun s _ => .refl _) ?_ hd hkeyed
  intro k ks s s₁ s' h₁ ih hkeyed
  obtain ⟨hkeyed₁, hcounts⟩ := resend_counts hkeyed h₁
  exact hcounts.append (ih hkeyed₁)

end Table
end Transmission
end Snooping
