import Snooping.Proofs.Expectation
import Snooping.Proofs.Transmission

/-!
The figures on entries: when each was last touched, how many packets met it, and how many messages
or frames for it were taken. Every operation adds to them what it is told by the ways out.
-/
namespace Snooping

section Accepted

variable {κ σ τ : Type} {emit : σ → κ → σ} {emit' : τ → κ → τ} {takes : σ → κ → Bool}
  {takes' : τ → κ → Bool} {ks : List κ} {k k' : κ} {s : σ}

/-- Of what is handed out for the keys in turn, that which is taken. -/
def accepted (emit : σ → κ → σ) (takes : σ → κ → Bool) : List κ → σ → List κ
  | [], _ => []
  | k :: ks, s =>
    if takes s k then k :: accepted emit takes ks (emit s k) else accepted emit takes ks (emit s k)

/-- Only the part of the ways out that is used matters. -/
theorem accepted_map (g : σ → τ) (hemit : ∀ s k, g (emit s k) = emit' (g s) k)
    (htakes : ∀ s k, takes s k = takes' (g s) k) (ks : List κ) (s : σ) :
    accepted emit takes ks s = accepted emit' takes' ks (g s) := by
  induction ks generalizing s with
  | nil => rfl
  | cons k ks ih => simp only [accepted, ih, hemit, htakes]

theorem accepted_sublist (ks : List κ) (s : σ) : (accepted emit takes ks s).Sublist ks := by
  induction ks generalizing s with
  | nil => exact .slnil
  | cons k ks ih =>
    unfold accepted
    split
    · exact (ih _).cons_cons k
    · exact (ih _).cons k

variable [DecidableEq κ] {now : Nat}

/-- The times at `now` of what is taken for `k`. -/
def marks (emit : σ → κ → σ) (takes : σ → κ → Bool) (ks : List κ) (s : σ) (now : Nat) (k : κ) :
    List Nat :=
  .replicate ((accepted emit takes ks s).count k) now

theorem marks_map (g : σ → τ) (hemit : ∀ s k, g (emit s k) = emit' (g s) k)
    (htakes : ∀ s k, takes s k = takes' (g s) k) (ks : List κ) (s : σ) (now : Nat) (k : κ) :
    marks emit takes ks s now k = marks emit' takes' ks (g s) now k := by
  rw [marks, marks, accepted_map g hemit htakes]

theorem marks_of_not_mem (hk : k ∉ ks) : marks emit takes ks s now k = [] := by
  rw [marks, List.count_eq_zero_of_not_mem fun h => hk ((accepted_sublist ks s).mem h)]
  rfl

theorem marks_nil : marks emit takes [] s now k = [] := rfl

theorem marks_cons : marks emit takes (k' :: ks) s now k =
    (if k' = k ∧ takes s k' then [now] else []) ++ marks emit takes ks (emit s k') now k := by
  rw [marks, marks, accepted]
  by_cases ht : takes s k' = true
  · by_cases hk : k' = k
    · subst hk
      simp [ht, List.replicate_succ]
    · simp [ht, hk]
  · simp [ht]

theorem marks_singleton : marks emit takes [k] s now k = if takes s k then [now] else [] := by
  simp [marks_cons, marks_nil]

end Accepted

/-- What a row tells of itself: when it was last touched, and its packets in and out. -/
structure Figures where
  lastHit : Nat
  rx : Nat
  tx : Nat
deriving DecidableEq

namespace Figures

def fresh (now : Nat) : Figures := ⟨now, 0, 0⟩

/-- The figures after hits and deliveries at the given times. The idle time of an entry that sends
starts again with its last delivery, and that of one that waits with its last hit. -/
def after (f : Figures) (sends : Bool) (hits deliveries : List Nat) : Figures :=
  ⟨(if sends then deliveries else hits).getLastD f.lastHit, f.rx + hits.length,
    f.tx + deliveries.length⟩

variable {f : Figures} {sends : Bool} {hs ds hs' ds' : List Nat}

theorem after_nil (f : Figures) (sends : Bool) : f.after sends [] [] = f := by
  cases sends <;> rfl

theorem map_after_nil (o : Option Figures) (sends : Bool) : o.map (·.after sends [] []) = o := by
  simp [after_nil]

theorem after_after :
    (f.after sends hs ds).after sends hs' ds' = f.after sends (hs ++ hs') (ds ++ ds') := by
  cases sends <;>
    simp [after, List.getLastD_eq_getLast?, List.getLast?_append, Nat.add_assoc, Option.getD_or]

end Figures

namespace Expectation

def Entry.figures {κ : Type} (e : Entry κ) : Figures := ⟨e.lastHit, e.rxPackets, e.txPackets⟩

namespace Table

variable {κ χ : Type} [DecidableEq κ] [ControllerChannel χ] {kind : Kind κ} {t t' : Table κ}
  {key value : List Field} {k k' : κ} {interval now : Nat} {traces : List Trace} {capable : Bool}
  {s s' : Service κ χ} {channel : χ} {r : Ticked κ χ}

def figures (t : Table κ) (k : κ) : Option Figures := (t.entries.find? k).map Entry.figures

/-- The channel once the service of `k` has had its turn. -/
def tell (kind : Kind κ) (capable : Bool) (channel : χ) (k : κ) : χ :=
  if capable then announce kind channel k else channel

/-- Whether the channel takes the notification of `k`. -/
def hears (kind : Kind κ) (capable : Bool) (channel : χ) (k : κ) : Bool :=
  capable && (ControllerChannel.send channel (.idleNotification (kind.notification k))).2.isOk

theorem add_figures (h : t.add kind key value interval now = .ok (t', traces)) (k : κ) :
    t'.figures k =
      if (kind.reading.all key).toOption = some k then some (.fresh now) else t.figures k := by
  obtain ⟨k', hk, _, rfl⟩ := add_ok h
  rw [hk, figures, Rows.find?_insert]
  by_cases he : k = k'
  · simp [he, Except.toOption, Entry.figures, Figures.fresh]
  · simp [he, Ne.symm he, Except.toOption, figures]

theorem delete_figures (h : t.delete kind key = .ok (t', traces)) (k : κ) :
    t'.figures k =
      if (kind.reading.all key).toOption = some k then none else t.figures k := by
  obtain ⟨k', _, hk, _, rfl⟩ := delete_ok h
  rw [hk, figures, Rows.find?_erase]
  by_cases he : k = k'
  · simp [he, Except.toOption]
  · simp [he, Ne.symm he, Except.toOption, figures]

/-- A hit is counted for the entry that it meets, and for no other. -/
theorem Met.figures {k? : Option κ} (h : Met kind interval now t t' k?) (k : κ) :
    t'.figures k = (t.figures k).map (·.after false (if k? = some k then [now] else []) []) := by
  cases k? with
  | none =>
    rw [show t' = t from h, if_neg nofun, Figures.map_after_nil]
  | some k' =>
    obtain ⟨traces, hit⟩ := h
    obtain ⟨e, he, rfl⟩ := hit?_some hit
    rw [Table.figures, Table.figures, Rows.find?_insert]
    by_cases hk : k = k'
    · simp [hk, he, Entry.figures, Figures.after]
    · simp [hk, Ne.symm hk, Figures.after_nil, Function.comp_def]

theorem stats_ok {f : Figures} (hf : t.figures k = some f)
    (hk : (kind.reading.all key).toOption = some k) (now : Nat) :
    t.stats kind key now =
      .ok ([.idleTime (UInt64.ofNat (now - f.lastHit)), .rxPackets (UInt64.ofNat f.rx)] ++
        if kind.statsIncludeTx then [.txPackets (UInt64.ofNat f.tx)] else []) := by
  obtain ⟨e, he, rfl⟩ := Option.map_eq_some_iff.mp hf
  have hr := toOption_eq_some_iff.mp hk
  simp [stats, hr, he, bind, Except.bind, pure, Except.pure, Entry.figures]

/-- A notification marks its entry if it is taken. -/
theorem notify_figures (now : Nat) (h : notify kind capable k' s = .ok s') (k : κ) :
    s'.channel = tell kind capable s.channel k' ∧
    (s'.entries.find? k).map Entry.figures = ((s.entries.find? k).map Entry.figures).map
      (·.after false [] (if k' = k ∧ hears kind capable s.channel k' then [now] else [])) := by
  unfold notify at h
  split at h
  · cases h
  · rename_i e he
    cases capable with
    | false =>
      cases h
      exact ⟨rfl, by simp [hears, Figures.after_nil, Function.comp_def]⟩
    | true =>
      simp only [Bool.not_true, Bool.false_eq_true, if_false] at h
      split at h <;> rename_i hsend <;> cases h <;> simp only [tell, announce, hears, hsend]
      · refine ⟨rfl, ?_⟩
        rw [Rows.find?_insert]
        by_cases hk : k = k'
        · simp [hk, he, Except.isOk, Except.toBool, Entry.figures, Figures.after]
        · simp [hk, Ne.symm hk, Figures.after_nil, Function.comp_def]
      · exact ⟨rfl, by simp [Except.isOk, Except.toBool, Figures.after_nil, Function.comp_def]⟩

theorem tick_figures (h : t.tick kind interval now channel = .ok r) (k : κ) :
    r.table.figures k = (t.figures k).map (·.after false []
      (marks (tell kind (asyncCapable channel)) (hears kind (asyncCapable channel))
        (t.roster.served now interval) channel now k)) := by
  simp only [tick, bind_eq_ok_iff, pure_eq_ok_iff] at h
  obtain ⟨d, hd, rfl⟩ := h
  refine Expiry.Queue.drain_induct (R := fun ks (s s' : Service κ χ) =>
    (s'.entries.find? k).map Entry.figures = ((s.entries.find? k).map Entry.figures).map
      (·.after false [] (marks (tell kind (asyncCapable channel))
        (hears kind (asyncCapable channel)) ks s.channel now k))) ?_ ?_ hd
  · intro s
    simp [marks_nil, Figures.after_nil, Function.comp_def]
  · intro k₁ ks s s₁ s' h₁ ih
    obtain ⟨hc, hf⟩ := notify_figures now h₁ k
    rw [ih, hf, hc, marks_cons, Option.map_map]
    simp only [Function.comp_def, Figures.after_after, List.append_nil]

end Table
end Expectation

namespace Transmission

def Entry.figures {κ : Type} (e : Entry κ) : Figures := ⟨e.lastHit, 0, e.txPackets⟩

namespace Table

variable {κ ω : Type} [DecidableEq κ] [PacketOut ω] {kind : Kind κ} {t t' : Table κ}
  {key value : List Field} {k k' : κ} {interval now : Nat} {traces : List Trace} {ports : TxPorts}
  {s s' : Service κ ω} {out : ω} {r : Ticked κ ω} {e e' : Entry κ} {changed : Changed κ ω}

def figures (t : Table κ) (k : κ) : Option Figures := (t.entries.find? k).map Entry.figures

/-- Whether packet-out takes the frame of an entry, on the port that its group has. -/
def sends (kind : Kind κ) (ports : TxPorts) (e : Entry κ) (out : ω) : Bool :=
  (ports.find? (kind.portGroup e.key)).any fun port =>
    (PacketOut.transmit out ⟨port, kind.frame e.key e.origin⟩).2.isOk

/-- Whether packet-out takes the frame that is due for `k`. -/
def takes (kind : Kind κ) (ports : TxPorts) (t : Table κ) (out : ω) (k : κ) : Bool :=
  (t.entries.find? k).any (sends kind ports · out)

omit [DecidableEq κ] in
theorem sends_congr (h : e'.unsent = e.unsent) (ports : TxPorts) (out : ω) :
    sends kind ports e' out = sends kind ports e out := by
  have hk : e'.key = e.key := by rw [← Entry.unsent_key, h, Entry.unsent_key]
  have ho : e'.origin = e.origin := by rw [← Entry.unsent_origin, h, Entry.unsent_origin]
  simp only [sends, hk, ho]

theorem takes_eq (h : (t.entries.find? k).map Entry.unsent = some e.unsent) :
    takes kind ports t out k = sends kind ports e out := by
  obtain ⟨e', he, hu⟩ := Option.map_eq_some_iff.mp h
  rw [takes, he, Option.any_some, sends_congr hu]

omit [DecidableEq κ] in
/-- A frame that is taken marks its entry; one that is not leaves it as it was. -/
theorem send_figures (kind : Kind κ) (ports : TxPorts) (now : Nat) (e : Entry κ)
    (counters : Counters) (out : ω) :
    (send kind ports now e counters out).entry.figures =
      e.figures.after true [] (if sends kind ports e out then [now] else []) := by
  simp only [send]
  split
  · rename_i hp
    simp [sends, hp, Figures.after_nil]
  · rename_i port hp
    split <;> rename_i h
    · simp [sends, hp, h, Except.isOk, Except.toBool, Entry.figures, Figures.after]
    · simp [sends, hp, h, Except.isOk, Except.toBool, Figures.after_nil]

/-- A send on behalf of a request, told by the entry that it leaves behind. -/
theorem figures_of_send {counters : Counters}
    (he : t'.entries.find? k = some (send kind ports now e counters out).entry) :
    t'.figures k = some (e.figures.after true []
      (marks (t'.emit kind ports) (t'.takes kind ports) [k] out now k)) := by
  have htakes : takes kind ports t' out k = sends kind ports e out :=
    takes_eq (by rw [he, Option.map_some, send_unsent])
  rw [figures, he, Option.map_some, send_figures, marks_singleton, htakes]

theorem add_figures
    (hr : ∀ k, (kind.reading (some ports)).all key = .ok k → (kind.reading none).all key = .ok k)
    (h : t.add kind ports key value interval now out = .ok changed) (k : κ) :
    changed.table.figures k = if ((kind.reading none).all key).toOption = some k then
      some ((Figures.fresh now).after true []
        (marks (changed.table.emit kind ports) (changed.table.takes kind ports) [k] out now k))
      else t.figures k := by
  obtain ⟨k', origin, hk, _, _, he, _⟩ := add_ok h
  rw [hr k' hk]
  by_cases hkk : k = k'
  · subst hkk
    rw [figures_of_send (by rw [he, Rows.find?_insert, if_pos rfl])]
    exact (if_pos rfl).symm
  · rw [figures, he, Rows.find?_insert, if_neg hkk]
    exact (if_neg fun hc => hkk (Option.some.inj hc).symm).symm

/-- New addressing leaves the figures of an entry as they are, but for the frame that is sent. -/
theorem modify_figures (h : t.modify kind ports key value interval now out = .ok changed) (k : κ) :
    changed.table.figures k = if ((kind.reading none).all key).toOption = some k then
      (t.figures k).map (·.after true []
        (marks (changed.table.emit kind ports) (changed.table.takes kind ports) [k] out now k))
      else t.figures k := by
  obtain ⟨k', origin, e, hk, _, hf, he, _⟩ := modify_ok h
  rw [hk]
  by_cases hkk : k = k'
  · subst hkk
    rw [figures_of_send (by rw [he, Rows.find?_insert, if_pos rfl]), figures, hf]
    exact (if_pos rfl).symm
  · rw [figures, he, Rows.find?_insert, if_neg hkk]
    exact (if_neg fun hc => hkk (Option.some.inj hc).symm).symm

theorem delete_figures (h : t.delete kind key = .ok (t', traces)) (k : κ) :
    t'.figures k =
      if ((kind.reading none).all key).toOption = some k then none else t.figures k := by
  obtain ⟨k', _, hk, _, rfl⟩ := delete_ok h
  rw [hk, figures, Rows.find?_erase]
  by_cases he : k = k'
  · simp [he, Except.toOption]
  · simp [he, Ne.symm he, Except.toOption, figures]

theorem stats_ok {f : Figures} (hf : t.figures k = some f)
    (hk : ((kind.reading none).all key).toOption = some k) (now : Nat) :
    t.stats kind key now =
      .ok [.idleTime (UInt64.ofNat (now - f.lastHit)), .txPackets (UInt64.ofNat f.tx)] := by
  obtain ⟨e, he, rfl⟩ := Option.map_eq_some_iff.mp hf
  have hr := toOption_eq_some_iff.mp hk
  simp [stats, hr, he, bind, Except.bind, pure, Except.pure, Entry.figures]

/-- Sending what is due for one key marks its entry if the frame is taken. -/
theorem resend_figures
    (ht : ∀ k, (s.entries.find? k).map Entry.unsent = (t.entries.find? k).map Entry.unsent)
    (h : resend kind ports now k' s = .ok s') (k : κ) :
    s'.out = t.emit kind ports s.out k' ∧
    (∀ k, (s'.entries.find? k).map Entry.unsent = (t.entries.find? k).map Entry.unsent) ∧
    (s'.entries.find? k).map Entry.figures = ((s.entries.find? k).map Entry.figures).map
      (·.after true [] (if k' = k ∧ t.takes kind ports s.out k' then [now] else [])) := by
  cases he : s.entries.find? k' with
  | none => simp [resend, he] at h
  | some e =>
    have hu : (t.entries.find? k').map Entry.unsent = some e.unsent := by
      rw [← ht, he, Option.map_some]
    obtain ⟨_, h', ho, hs'⟩ := resend_ok kind ports now he
    cases h.symm.trans h'
    refine ⟨ho.trans (emit_eq hu).symm, fun k => (hs' k).trans (ht k), ?_⟩
    simp only [resend, he, Except.ok.injEq] at h
    subst h
    rw [takes_eq hu, Rows.find?_insert]
    by_cases hk : k = k'
    · rw [if_pos hk, hk, he, Option.map_some, Option.map_some, Option.map_some, send_figures]
      simp
    · simp [hk, Ne.symm hk, Figures.after_nil, Function.comp_def]

theorem takes_congr (kind : Kind κ) (ports : TxPorts)
    (h : ∀ k, (t'.entries.find? k).map Entry.unsent = (t.entries.find? k).map Entry.unsent) :
    t'.takes (ω := ω) kind ports = t.takes kind ports := by
  funext out k
  cases he : t.entries.find? k with
  | none =>
    have he' : t'.entries.find? k = none := by simpa [he] using h k
    simp [takes, he, he']
  | some e =>
    rw [takes_eq (e := e) (by rw [h, he, Option.map_some]),
      takes_eq (e := e) (by rw [he, Option.map_some])]

/-- A tick is told by the table that it leaves, which has the same frames due as the one before. -/
theorem tick_figures (h : t.tick kind ports interval now out = .ok r) (k : κ) :
    r.table.figures k = (t.figures k).map (·.after true []
      (marks (r.table.emit kind ports) (r.table.takes kind ports) (t.roster.served now interval)
        out now k)) := by
  simp only [tick, bind_eq_ok_iff, pure_eq_ok_iff] at h
  obtain ⟨d, hd, rfl⟩ := h
  have hdrain : (∀ k, (d.state.entries.find? k).map Entry.unsent =
        (t.entries.find? k).map Entry.unsent) ∧
      (d.state.entries.find? k).map Entry.figures = (t.figures k).map (·.after true []
        (marks (t.emit kind ports) (t.takes kind ports) (t.roster.served now interval)
          out now k)) := by
    refine Expiry.Queue.drain_induct (R := fun ks (s s' : Service κ ω) =>
      (∀ k, (s.entries.find? k).map Entry.unsent = (t.entries.find? k).map Entry.unsent) →
      (∀ k, (s'.entries.find? k).map Entry.unsent = (t.entries.find? k).map Entry.unsent) ∧
      (s'.entries.find? k).map Entry.figures = ((s.entries.find? k).map Entry.figures).map
        (·.after true [] (marks (t.emit kind ports) (t.takes kind ports) ks s.out now k)))
      ?_ ?_ hd (fun _ => rfl)
    · intro s ht
      exact ⟨ht, by simp [marks_nil, Figures.after_nil, Function.comp_def]⟩
    · intro k₁ ks s s₁ s' h₁ ih ht
      obtain ⟨ho, hu₁, hf₁⟩ := resend_figures ht h₁ k
      obtain ⟨hu, hf⟩ := ih hu₁
      refine ⟨hu, ?_⟩
      rw [hf, hf₁, ho, marks_cons, Option.map_map]
      simp only [Function.comp_def, Figures.after_after, List.append_nil]
  obtain ⟨hu, hf⟩ := hdrain
  rw [emit_congr kind ports hu, takes_congr kind ports hu]
  exact hf

end Table
end Transmission
end Snooping
