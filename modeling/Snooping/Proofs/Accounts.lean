import Snooping.Proofs.Expectation
import Snooping.Proofs.Transmission

/-!
Accounts of the two ways out: what a table counts as sent, against what its service leaves in the
queue to the controller or in that of packet-out.
-/
namespace Snooping

/-- The message tells of a row of the table. -/
def ControllerMessage.isAbout (table : TableId) : ControllerMessage → Bool
  | idleNotification n => n.table = table

/-- A message is queued and taken, or it is refused and nothing happens. -/
theorem ControllerLink.send_cases (l : ControllerLink) (m : ControllerMessage) :
    l.send m = ({ l with queued := l.queued ++ [m] }, .ok ()) ∨ ∃ e, l.send m = (l, .error e) := by
  unfold send
  split
  · exact .inr ⟨_, rfl⟩
  · split
    · exact .inr ⟨_, rfl⟩
    · split
      · exact .inl rfl
      · exact .inr ⟨_, rfl⟩

theorem FrameSender.transmit_cases (s : FrameSender) (f : OutboundFrame) :
    s.transmit f = ({ s with queued := s.queued ++ [f] }, .ok ()) ∨
      ∃ e, s.transmit f = (s, .error e) := by
  unfold transmit
  split
  · exact .inl rfl
  · exact .inr ⟨_, rfl⟩

namespace Expectation

/-- Every expiration is accounted for. -/
def Counters.Balanced (c : Counters) : Prop := c.expirations = c.sent + c.skipped + c.failed

/-- From `c` to `c'`, the messages that were queued are those that were counted as sent. -/
structure Counters.Tells (table : TableId) (messages : List ControllerMessage)
    (link link' : ControllerLink) (c c' : Counters) : Prop where
  queued : link'.queued = link.queued ++ messages
  about : ∀ m ∈ messages, m.isAbout table = true
  sent : c'.sent = c.sent + messages.length
  hits : c'.hits = c.hits
  balanced : c.Balanced → c'.Balanced

namespace Counters.Tells

variable {table : TableId} {ms ms' : List ControllerMessage} {l l' l'' : ControllerLink}
  {c c' c'' : Counters}

theorem refl (table : TableId) (l : ControllerLink) (c : Counters) : Tells table [] l l c c :=
  ⟨(List.append_nil _).symm, nofun, rfl, rfl, id⟩

theorem append (h : Tells table ms l l' c c') (h' : Tells table ms' l' l'' c' c'') :
    Tells table (ms ++ ms') l l'' c c'' where
  queued := by rw [h'.queued, h.queued, List.append_assoc]
  about m hm := (List.mem_append.mp hm).elim (h.about m) (h'.about m)
  sent := by rw [h'.sent, h.sent, List.length_append, Nat.add_assoc]
  hits := h'.hits.trans h.hits
  balanced hb := h'.balanced (h.balanced hb)

end Counters.Tells

namespace Table

variable {κ : Type} [DecidableEq κ] {kind : Kind κ} {t : Table κ} {k : κ} {interval now : Nat}
  {capable : Bool} {link : ControllerLink} {s s' : Service κ ControllerLink}
  {r : Ticked κ ControllerLink}

/-- One expiration has one of three ends, and only the first leaves a message. -/
theorem notify_tells (hkind : ∀ k, (kind.notification k).table = kind.table)
    (h : notify kind capable k s = .ok s') :
    ∃ ms, Counters.Tells kind.table ms s.channel s'.channel s.counters s'.counters := by
  unfold notify at h
  split at h
  · cases h
  · cases capable with
    | false =>
      cases h
      refine ⟨[], (List.append_nil _).symm, nofun, rfl, rfl, fun hb => ?_⟩
      simp only [Counters.Balanced] at hb ⊢
      omega
    | true =>
      rcases s.channel.send_cases (.idleNotification (kind.notification k)) with hsend | ⟨e, hsend⟩
      · simp only [ControllerChannel.send, hsend] at h
        cases h
        refine ⟨[.idleNotification (kind.notification k)], rfl, ?_, rfl, rfl, fun hb => ?_⟩
        · intro m hm
          rw [List.mem_singleton] at hm
          rw [hm]
          exact decide_eq_true (hkind k)
        · simp only [Counters.Balanced] at hb ⊢
          omega
      · simp only [ControllerChannel.send, hsend] at h
        cases h
        refine ⟨[], (List.append_nil _).symm, nofun, rfl, rfl, fun hb => ?_⟩
        simp only [Counters.Balanced] at hb ⊢
        omega

theorem tick_tells (hkind : ∀ k, (kind.notification k).table = kind.table)
    (h : t.tick kind interval now link = .ok r) :
    ∃ ms, Counters.Tells kind.table ms link r.channel t.counters r.table.counters := by
  simp only [tick, bind_eq_ok_iff, pure_eq_ok_iff] at h
  obtain ⟨d, hd, rfl⟩ := h
  refine Expiry.Queue.drain_induct (R := fun _ (s s' : Service κ ControllerLink) =>
    ∃ ms, Counters.Tells kind.table ms s.channel s'.channel s.counters s'.counters)
    (fun s => ⟨[], .refl ..⟩) ?_ hd
  rintro k ks s s' s'' hk ⟨ms', h'⟩
  obtain ⟨ms, h⟩ := notify_tells hkind hk
  exact ⟨ms ++ ms', h.append h'⟩

end Table
end Expectation

namespace Transmission

/-- From `c` to `c'`, the frames that were queued are those that were counted as sent. -/
structure Counters.Queues (frames : List OutboundFrame) (out out' : FrameSender)
    (c c' : Counters) : Prop where
  queued : out'.queued = out.queued ++ frames
  sent : c'.sent = c.sent + frames.length

namespace Counters.Queues

variable {fs fs' : List OutboundFrame} {out out' out'' : FrameSender} {c c' c'' : Counters}

theorem refl (out : FrameSender) (c : Counters) : Queues [] out out c c :=
  ⟨(List.append_nil _).symm, rfl⟩

theorem append (h : Queues fs out out' c c') (h' : Queues fs' out' out'' c' c'') :
    Queues (fs ++ fs') out out'' c c'' where
  queued := by rw [h'.queued, h.queued, List.append_assoc]
  sent := by rw [h'.sent, h.sent, List.length_append, Nat.add_assoc]

end Counters.Queues

namespace Table

variable {κ : Type} [DecidableEq κ] {kind : Kind κ} {t : Table κ} {ports : TxPorts}
  {key value : List Field} {k : κ} {interval now : Nat} {out : FrameSender}
  {changed : Changed κ FrameSender} {s s' : Service κ FrameSender} {r : Ticked κ FrameSender}

omit [DecidableEq κ] in
/-- One attempt leaves a frame exactly if it counts as sent. -/
theorem send_queues (kind : Kind κ) (ports : TxPorts) (now : Nat) (e : Entry κ) (c : Counters)
    (out : FrameSender) : ∃ fs,
      Counters.Queues fs out (send kind ports now e c out).out c
        (send kind ports now e c out).counters := by
  simp only [send]
  cases ports.find? (kind.portGroup e.key) with
  | none => exact ⟨[], (List.append_nil _).symm, rfl⟩
  | some port =>
    rcases out.transmit_cases ⟨port, kind.frame e.key e.origin⟩ with hsend | ⟨err, hsend⟩
    · simp only [PacketOut.transmit, hsend]
      exact ⟨[⟨port, kind.frame e.key e.origin⟩], rfl, rfl⟩
    · simp only [PacketOut.transmit, hsend]
      exact ⟨[], (List.append_nil _).symm, rfl⟩

theorem add_queues (h : t.add kind ports key value interval now out = .ok changed) :
    ∃ fs, Counters.Queues fs out changed.out t.counters changed.table.counters := by
  simp only [add, bind_eq_ok_iff, guard_eq_ok_iff, pure_eq_ok_iff] at h
  obtain ⟨k, _, origin, _, _, rfl⟩ := h
  exact send_queues ..

theorem modify_queues (h : t.modify kind ports key value interval now out = .ok changed) :
    ∃ fs, Counters.Queues fs out changed.out t.counters changed.table.counters := by
  simp only [modify, bind_eq_ok_iff] at h
  obtain ⟨k, _, origin, _, h⟩ := h
  split at h
  · cases h
  · cases h
    exact send_queues ..

theorem resend_queues (h : resend kind ports now k s = .ok s') :
    ∃ fs, Counters.Queues fs s.out s'.out s.counters s'.counters := by
  unfold resend at h
  split at h
  · cases h
  · cases h
    exact send_queues ..

theorem tick_queues (h : t.tick kind ports interval now out = .ok r) :
    ∃ fs, Counters.Queues fs out r.out t.counters r.table.counters := by
  simp only [tick, bind_eq_ok_iff, pure_eq_ok_iff] at h
  obtain ⟨d, hd, rfl⟩ := h
  refine Expiry.Queue.drain_induct (R := fun _ (s s' : Service κ FrameSender) =>
    ∃ fs, Counters.Queues fs s.out s'.out s.counters s'.counters)
    (fun s => ⟨[], .refl ..⟩) ?_ hd
  rintro k ks s s' s'' hk ⟨fs', h'⟩
  obtain ⟨fs, h⟩ := resend_queues hk
  exact ⟨fs ++ fs', h.append h'⟩

end Table
end Transmission
end Snooping
