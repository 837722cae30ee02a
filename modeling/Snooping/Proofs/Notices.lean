import Snooping.Proofs.Expectation
import Snooping.Proofs.Rounds

/-!
What a tick tells the controller. A link takes every notification of a tick or none of them, so
that they all count alike: as sent, as skipped, or as failed, and then because the link is closed.
-/
namespace Snooping

namespace ControllerLink

variable {l : ControllerLink}

/-- What becomes of the notifications of a tick. -/
def delivery (l : ControllerLink) : NotificationResult :=
  match l.version with
  | none => .skipped
  | some v => if v < 4 then .skipped else if l.isOpen then .sent else .failed

/-- The link once it has been handed these notifications. -/
def told (l : ControllerLink) (ns : List IdleNotification) : ControllerLink :=
  if l.delivery = .sent then { l with queued := l.queued ++ ns.map .idleNotification } else l

theorem told_of_sent (h : l.delivery = .sent) (ns : List IdleNotification) :
    l.told ns = { l with queued := l.queued ++ ns.map .idleNotification } :=
  if_pos h

theorem told_of_not_sent (h : l.delivery ≠ .sent) (ns : List IdleNotification) : l.told ns = l :=
  if_neg h

theorem told_nil (l : ControllerLink) : l.told [] = l := by
  unfold told
  split
  · rw [List.map_nil, List.append_nil]
  · rfl

theorem delivery_told (l : ControllerLink) (ns : List IdleNotification) :
    (l.told ns).delivery = l.delivery := by
  unfold told
  split <;> rfl

theorem asyncCapable_told (l : ControllerLink) (ns : List IdleNotification) :
    asyncCapable (l.told ns) = asyncCapable l := by
  unfold told
  split <;> rfl

theorem told_told (l : ControllerLink) (ns ns' : List IdleNotification) :
    (l.told ns).told ns' = l.told (ns ++ ns') := by
  by_cases h : l.delivery = .sent
  · have h' := (l.delivery_told ns).trans h
    rw [told_of_sent h', told_of_sent h, told_of_sent h, List.map_append, List.append_assoc]
  · have h' : (l.told ns).delivery ≠ .sent := by rwa [delivery_told]
    rw [told_of_not_sent h', told_of_not_sent h, told_of_not_sent h]

/-- The version is checked alike before a tick and for each message. -/
theorem send_cases_of_asyncCapable (h : asyncCapable l = true) (m : ControllerMessage) :
    l.delivery = .sent ∧ l.send m = ({ l with queued := l.queued ++ [m] }, .ok ()) ∨
      l.delivery = .failed ∧ l.send m = (l, .error .closed) := by
  obtain ⟨_ | v, o, queued⟩ := l
  · cases h
  · have hv : ¬ v < asyncMinVersion := UInt8.not_lt.mpr (of_decide_eq_true h)
    have hv' : ¬ v < 4 := hv
    simp only [delivery, send, if_neg hv, if_neg hv']
    cases o <;> simp

theorem delivery_of_not_asyncCapable (h : asyncCapable l = false) : l.delivery = .skipped := by
  obtain ⟨_ | v, o, queued⟩ := l
  · rfl
  · have hv : v < 4 := UInt8.not_le.mp (of_decide_eq_false h)
    exact if_pos hv

end ControllerLink

namespace Expectation

/-- `n` more expirations that have come to the same result. -/
def Counters.expire (c : Counters) (n : Nat) : NotificationResult → Counters
  | .sent => { c with expirations := c.expirations + n, sent := c.sent + n }
  | .skipped => { c with expirations := c.expirations + n, skipped := c.skipped + n }
  | .failed => { c with expirations := c.expirations + n, failed := c.failed + n }

theorem Counters.expire_zero (c : Counters) (r : NotificationResult) : c.expire 0 r = c := by
  cases r <;> rfl

theorem Counters.expire_expire (c : Counters) (n n' : Nat) (r : NotificationResult) :
    (c.expire n r).expire n' r = c.expire (n + n') r := by
  cases r <;> simp only [expire, Nat.add_assoc]

namespace Entry

variable {κ : Type} {r : NotificationResult}

/-- `n` more notifications if these were sent. -/
def told (e : Entry κ) (r : NotificationResult) (n : Nat) : Entry κ :=
  if r = .sent then { e with txPackets := e.txPackets + n } else e

theorem told_zero (e : Entry κ) (r : NotificationResult) : e.told r 0 = e := by
  unfold told
  split <;> rfl

theorem told_of_not_sent (h : r ≠ .sent) (e : Entry κ) (n : Nat) : e.told r n = e :=
  if_neg h

theorem told_told (e : Entry κ) (r : NotificationResult) (n n' : Nat) :
    (e.told r n).told r n' = e.told r (n + n') := by
  unfold told
  split
  · rw [Nat.add_assoc]
  · rfl

end Entry

namespace Table

variable {κ : Type} [DecidableEq κ] {kind : Kind κ} {t : Table κ} {k : κ} {ks ks' : List κ}
  {interval now : Nat} {notice : κ → IdleNotification} {s s' s'' : Service κ ControllerLink}

/-- The tables that operations lead to, whatever the interval of each of them. -/
inductive Reachable (kind : Kind κ) : Table κ → Prop
  | empty : Reachable kind .empty
  | add {t t' : Table κ} {key value : List Field} {interval now : Nat} {traces : List Trace}
      (h : Reachable kind t) (ht : t.add kind key value interval now = .ok (t', traces)) :
      Reachable kind t'
  | delete {t t' : Table κ} {key : List Field} {traces : List Trace}
      (h : Reachable kind t) (ht : t.delete kind key = .ok (t', traces)) : Reachable kind t'
  | hit {t t' : Table κ} {k : κ} {interval now : Nat} {traces : List Trace}
      (h : Reachable kind t) (ht : t.hit? kind k interval now = some (t', traces)) :
      Reachable kind t'
  | tick {t : Table κ} {χ : Type} [ControllerChannel χ] {channel : χ} {interval now : Nat}
      {r : Ticked κ χ} (h : Reachable kind t)
      (ht : t.tick kind interval now channel = .ok r) : Reachable kind r.table

theorem Reachable.sound (h : Reachable kind t) : t.roster.Sound := by
  induction h with
  | empty => exact Roster.sound_empty
  | add _ ht ih => exact Change.sound ih (add_takes ih ht)
  | delete _ ht ih => exact Change.sound ih (delete_takes ih ht : Change.Takes 0 0 _ _ _)
  | hit _ ht ih => exact Change.sound ih (hit?_takes ih ht)
  | @tick t χ _ channel interval now r _ ht ih =>
    obtain ⟨r', hr, htakes, -⟩ := tick_ok ih kind interval now channel
    cases ht.symm.trans hr
    exact Change.sound ih htakes

/-- From `s` to `s'` the keys `ks` were served one after another. -/
structure Delivers (notice : κ → IdleNotification) (ks : List κ)
    (s s' : Service κ ControllerLink) : Prop where
  channel : s'.channel = s.channel.told (ks.map notice)
  counters : s'.counters = s.counters.expire ks.length s.channel.delivery
  entries : ∀ k, s'.entries.find? k =
    (s.entries.find? k).map fun e => e.told s.channel.delivery (ks.count k)

theorem Delivers.refl (notice : κ → IdleNotification) (s : Service κ ControllerLink) :
    Delivers notice [] s s where
  channel := s.channel.told_nil.symm
  counters := (s.counters.expire_zero _).symm
  entries k := by simp only [List.count_nil, Entry.told_zero, Option.map_id']

theorem Delivers.append (h : Delivers notice ks s s') (h' : Delivers notice ks' s' s'') :
    Delivers notice (ks ++ ks') s s'' where
  channel := by rw [h'.channel, h.channel, ControllerLink.told_told, List.map_append]
  counters := by
    rw [h'.counters, h.counters, h.channel, ControllerLink.delivery_told, Counters.expire_expire,
      List.length_append]
  entries k := by
    rw [h'.entries, h.entries, h.channel, ControllerLink.delivery_told, Option.map_map]
    simp only [Function.comp_def, Entry.told_told, List.count_append]

/-- An expiration that is not told counts, and that is all. -/
theorem delivers_of_not_sent (hd : s.channel.delivery ≠ .sent) (hl : s'.channel = s.channel)
    (hc : s'.counters = s.counters.expire 1 s.channel.delivery) (he : s'.entries = s.entries) :
    Delivers notice [k] s s' where
  channel := hl.trans (ControllerLink.told_of_not_sent hd _).symm
  counters := hc
  entries k := by simp only [he, Entry.told_of_not_sent hd, Option.map_id']

/-- One expiration has one of three ends, and the state of the link says which. -/
theorem notify_delivers (h : notify kind (asyncCapable s.channel) k s = .ok s') :
    Delivers kind.notification [k] s s' := by
  unfold notify at h
  split at h
  · cases h
  · rename_i e he
    cases hc : asyncCapable s.channel with
    | false =>
      have hd := ControllerLink.delivery_of_not_asyncCapable hc
      rw [hc] at h
      cases h
      exact delivers_of_not_sent (by simp [hd]) rfl (by rw [hd]; rfl) rfl
    | true =>
      rw [hc] at h
      rcases ControllerLink.send_cases_of_asyncCapable hc (.idleNotification (kind.notification k))
        with ⟨hd, hsend⟩ | ⟨hd, hsend⟩
      · simp only [ControllerChannel.send, hsend] at h
        cases h
        refine ⟨?_, by rw [hd]; rfl, fun k' => ?_⟩
        · exact (ControllerLink.told_of_sent hd [kind.notification k]).symm
        · rw [Rows.find?_insert, hd]
          by_cases hk : k' = k
          · rw [if_pos hk, hk, he, List.count_singleton_self]
            rfl
          · have hcount : [k].count k' = 0 := List.count_eq_zero_of_not_mem (by simpa using hk)
            simp only [if_neg hk, hcount, Entry.told_zero, Option.map_id']
      · simp only [ControllerChannel.send, hsend] at h
        cases h
        exact delivers_of_not_sent (by simp [hd]) rfl (by rw [hd]; rfl) rfl

/-- The link is as capable after a notification as before it, so all of a drain goes one way. -/
theorem drain_delivers {d : Expiry.Queue.Drained κ (Service κ ControllerLink)}
    (h : t.queue.drain (notify kind (asyncCapable s.channel)) now interval s = .ok d) :
    Delivers kind.notification (t.queue.served now interval Expiry.maxServiced) s d.state := by
  refine Expiry.Queue.drain_induct (R := fun ks (s₁ s₂ : Service κ ControllerLink) =>
    asyncCapable s₁.channel = asyncCapable s.channel → Delivers kind.notification ks s₁ s₂)
    (fun s₁ _ => .refl _ s₁) ?_ h rfl
  intro k ks s₁ s₂ s₃ hk hR hc
  rw [← hc] at hk
  have hstep := notify_delivers hk
  refine hstep.append (hR ?_)
  rw [hstep.channel, ControllerLink.asyncCapable_told, hc]

/-- `r` is what a tick at `now` makes of `t` and `link`: of the keys `ks` that are due, the first
32 have been served. -/
structure Announced (notice : κ → IdleNotification) (interval now : Nat) (t : Table κ)
    (link : ControllerLink) (ks : List κ) (r : Ticked κ ControllerLink) : Prop where
  due : t.queue.ListsDue now ks
  channel : r.channel = link.told ((ks.take 32).map notice)
  counters : r.table.counters = t.counters.expire (ks.take 32).length link.delivery
  entries : ∀ k, r.table.entries.find? k = (t.entries.find? k).map fun e =>
    e.told link.delivery (if k ∈ ks.take 32 then 1 else 0)
  queue : t.queue.Rescheduled r.table.queue (ks.take 32) (now + interval)
  delay : r.delay = if 32 < ks.length then 100 else 1000

/-- Ticks of a sound table of any kind. -/
theorem tick_announces (hs : t.roster.Sound) (kind : Kind κ) (hi : 0 < interval) (now : Nat)
    (link : ControllerLink) : ∃ ks r, t.tick kind interval now link = .ok r ∧
      Announced kind.notification interval now t link ks r := by
  have hq : t.queue.WellFormed := hs.queue
  have hserved : t.queue.served now interval 32 = (t.queue.due now).take 32 :=
    Expiry.Queue.served_eq_take hq hi
  have hnodup := (hq.listsDue now).nodup.sublist (List.take_sublist 32 _)
  obtain ⟨r, hr, -⟩ := tick_ok hs kind interval now link
  refine ⟨t.queue.due now, r, hr, ?_⟩
  -- The drain behind the tick tells what becomes of the link, the counts and the queue.
  simp only [tick, bind_eq_ok_iff, pure_eq_ok_iff] at hr
  obtain ⟨d, hd, rfl⟩ := hr
  obtain ⟨-, hqueue⟩ := Expiry.Queue.drain_ok hd
  have hdelivers := drain_delivers hd
  rw [Expiry.maxServiced, hserved] at hdelivers
  refine ⟨hq.listsDue now, hdelivers.channel, hdelivers.counters, fun k => ?_, ?_, ?_⟩
  · rw [← hnodup.count]
    exact hdelivers.entries k
  · rw [← hserved, hqueue]
    exact Expiry.Queue.rescheduled_settled hq hi
  · rw [hqueue, Expiry.Queue.delay_eq (hq.settled ..), Expiry.Queue.due_settled hq hi]
    simp only [List.drop_eq_nil_iff, ← Nat.not_lt, ite_not]
    rfl

/-- A tick serves the first 32 keys that are due. Over an open link of a version with asynchronous
messages it tells the controller of each of them, in order; over no other link it does anything
but count. The keys are registered anew, and nothing else changes. -/
theorem ticks_announce_due (hi : 0 < interval) (now : Nat) (link : ControllerLink) :
    (∀ t, Reachable generalQuery t → ∃ ks r, t.tick generalQuery interval now link = .ok r ∧
      Announced (fun k => ⟨.generalQueryExpectation, k.name, k.vlan, none⟩) interval now t link
        ks r) ∧
    (∀ t, Reachable report t → ∃ ks r, t.tick report interval now link = .ok r ∧
      Announced (fun k => ⟨.reportExpectation, k.name, k.vlan, some k.group⟩) interval now t link
        ks r) ∧
    ∀ t, Reachable pim t → ∃ ks r, t.tick pim interval now link = .ok r ∧
      Announced (fun k => ⟨.pimExpectation, k.name, k.vlan, none⟩) interval now t link ks r :=
  ⟨fun _ h => tick_announces h.sound generalQuery hi now link,
    fun _ h => tick_announces h.sound report hi now link,
    fun _ h => tick_announces h.sound pim hi now link⟩

/-- A table that expects one querier, once it has been told to and has heard of it. -/
def heard : Table VlanKey :=
  let k : VlanKey := ⟨"querier", 1⟩
  ⟨Rows.empty.insert k ⟨k, 2, 1, 0⟩, (Expiry.Queue.empty.insert k 5).insert k 7, ⟨1, 0, 0, 0, 0⟩⟩

theorem reachable_heard : Reachable generalQuery heard :=
  have hadd : (empty : Table VlanKey).add generalQuery [.name "querier", .vlanVid 1] [] 5 0 =
    .ok (_, _) := rfl
  have hhit : Table.hit? generalQuery _ ⟨"querier", 1⟩ 5 2 = some (heard, _) := rfl
  .hit (.add .empty hadd) hhit

theorem ticks_announce_due_heard :
    ∃ ks r, heard.tick generalQuery 5 7 ⟨some 4, true, []⟩ = .ok r ∧
      Announced (fun k => ⟨.generalQueryExpectation, k.name, k.vlan, none⟩) 5 7 heard
        ⟨some 4, true, []⟩ ks r ∧
      r.channel.queued = [.idleNotification ⟨.generalQueryExpectation, "querier", 1, none⟩] := by
  obtain ⟨ks, r, hr, h⟩ :=
    (ticks_announce_due (Nat.succ_pos 4) 7 ⟨some 4, true, []⟩).1 heard reachable_heard
  refine ⟨ks, r, hr, h, ?_⟩
  cases hr
  rfl

end Table
end Expectation
end Snooping
