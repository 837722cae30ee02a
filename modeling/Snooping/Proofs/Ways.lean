import Snooping.Proofs.History

/-!
An agent never looks at what its ways out have taken. A map of a way out that goes along with what
is sent goes along with every event: the answers are the same, and so is all else.
-/
namespace Snooping

/-- The map goes along with transmission, and no outcome of it tells. -/
def PacketOut.Respects {ω : Type} [PacketOut ω] (g : ω → ω) : Prop :=
  ∀ o f, PacketOut.transmit (g o) f =
    (g (PacketOut.transmit o f).1, (PacketOut.transmit o f).2)

/-- The map goes along with sending, and leaves the connection as it is. -/
structure ControllerChannel.Respects {χ : Type} [ControllerChannel χ] (f : χ → χ) : Prop where
  version? : ∀ c, ControllerChannel.version? (f c) = ControllerChannel.version? c
  send : ∀ c m, ControllerChannel.send (f c) m =
    (f (ControllerChannel.send c m).1, (ControllerChannel.send c m).2)

theorem ControllerChannel.Respects.asyncCapable {χ : Type} [ControllerChannel χ] {f : χ → χ}
    (hf : ControllerChannel.Respects f) (c : χ) : asyncCapable (f c) = asyncCapable c := by
  rw [Snooping.asyncCapable, hf.version?]
  rfl

/-- A drain goes along with every map of its state that its action goes along with. -/
theorem Expiry.Queue.drain_map {κ σ ε : Type} [DecidableEq κ] {act : κ → σ → Except ε σ}
    {f : σ → σ} (h : ∀ k s, act k (f s) = (act k s).map f) (q : Expiry.Queue κ)
    (now interval : Nat) (s : σ) :
    q.drain act now interval (f s) =
      (q.drain act now interval s).map fun d => { d with state := f d.state } := by
  unfold drain
  generalize maxServiced = n
  induction n generalizing q s with
  | zero => rfl
  | succ n ih =>
    unfold serve
    cases q.popExpired? now with
    | none => rfl
    | some p =>
      obtain ⟨k, q⟩ := p
      simp only [h]
      cases act k s with
      | error e => rfl
      | ok s =>
        simp only [Except.map, ih]
        cases serve act now interval n (q.insert k (now + interval)) s <;> rfl

namespace Transmission.Table

variable {κ ω : Type} [DecidableEq κ] [PacketOut ω] {g : ω → ω} {kind : Kind κ} {t : Table κ}
  {ports : TxPorts} {key value : List Field} {interval now : Nat} {out : ω}

omit [DecidableEq κ] in
theorem send_map (hg : PacketOut.Respects g) (e : Entry κ) (c : Counters) :
    send kind ports now e c (g out) =
      { send kind ports now e c out with out := g (send kind ports now e c out).out } := by
  simp only [send]
  cases ports.find? (kind.portGroup e.key) with
  | none => rfl
  | some port =>
    simp only [hg out]
    cases h : PacketOut.transmit out ⟨port, kind.frame e.key e.origin⟩ with
    | mk o r => cases r <;> rfl

theorem add_map (hg : PacketOut.Respects g) :
    t.add kind ports key value interval now (g out) =
      (t.add kind ports key value interval now out).map fun c => { c with out := g c.out } := by
  unfold add
  cases (kind.reading (some ports)).all key with
  | error e => rfl
  | ok k =>
    cases originReading.all value with
    | error e => rfl
    | ok origin =>
      simp only [bind, Except.bind]
      cases t.entries.contains k with
      | true => rfl
      | false =>
        simp only [Bool.false_eq_true, if_false, send_map hg]
        rfl

theorem modify_map (hg : PacketOut.Respects g) :
    t.modify kind ports key value interval now (g out) =
      (t.modify kind ports key value interval now out).map fun c => { c with out := g c.out } := by
  unfold modify
  cases (kind.reading none).all key with
  | error e => rfl
  | ok k =>
    cases originReading.all value with
    | error e => rfl
    | ok origin =>
      simp only [bind, Except.bind]
      cases t.entries.find? k with
      | none => rfl
      | some e =>
        simp only [send_map hg]
        rfl

theorem resend_map (hg : PacketOut.Respects g) (k : κ) (s : Service κ ω) :
    resend kind ports now k { s with out := g s.out } =
      (resend kind ports now k s).map fun s => { s with out := g s.out } := by
  unfold resend
  cases s.entries.find? k with
  | none => rfl
  | some e =>
    simp only [send_map hg]
    rfl

theorem tick_map (hg : PacketOut.Respects g) :
    t.tick kind ports interval now (g out) =
      (t.tick kind ports interval now out).map fun r => { r with out := g r.out } := by
  have hact : ∀ k s, resend kind ports now k { s with out := g s.out } =
      (resend kind ports now k s).map fun s => { s with out := g s.out } := resend_map hg
  rw [tick, tick, t.queue.drain_map hact now interval ⟨t.entries, t.counters, out, []⟩]
  exact map_bind_map fun _ => rfl

end Transmission.Table

namespace Expectation.Table

variable {κ χ : Type} [DecidableEq κ] [ControllerChannel χ] {f : χ → χ} {kind : Kind κ}
  {t : Table κ} {interval now : Nat} {channel : χ} {capable : Bool}

theorem notify_map (hf : ControllerChannel.Respects f) (k : κ) (s : Service κ χ) :
    notify kind capable k { s with channel := f s.channel } =
      (notify kind capable k s).map fun s => { s with channel := f s.channel } := by
  unfold notify
  cases s.entries.find? k with
  | none => rfl
  | some e =>
    cases capable with
    | false => rfl
    | true =>
      simp only [hf.send]
      cases ControllerChannel.send s.channel (.idleNotification (kind.notification k)) with
      | mk c r => cases r <;> rfl

theorem tick_map (hf : ControllerChannel.Respects f) :
    t.tick kind interval now (f channel) =
      (t.tick kind interval now channel).map fun r => { r with channel := f r.channel } := by
  have hact : ∀ k s,
      notify kind (asyncCapable channel) k { s with channel := f s.channel } =
        (notify kind (asyncCapable channel) k s).map fun s => { s with channel := f s.channel } :=
    notify_map hf
  rw [tick, tick, hf.asyncCapable,
    t.queue.drain_map hact now interval ⟨t.entries, t.counters, channel, []⟩]
  exact map_bind_map fun _ => rfl

end Expectation.Table

namespace Agent

variable {χ ω : Type} {a : Agent χ ω} {f : χ → χ} {g : ω → ω} {table : TableId}
  {key value : List Field} {now : Nat}

/-- The agent with both its ways out mapped. -/
def mapWays (a : Agent χ ω) (f : χ → χ) (g : ω → ω) : Agent χ ω := (a.mapChannel f).mapOut g

/-- What is answered, by the agent with both its ways out mapped. -/
def Reply.mapWays {α : Type} (reply : Reply χ ω α) (f : χ → χ) (g : ω → ω) : Reply χ ω α :=
  { reply with agent := reply.agent.mapWays f g }

section Requests

variable [PacketOut ω]

theorem add_mapWays (f : χ → χ) (hg : PacketOut.Respects g) :
    (a.mapWays f g).add table key value now =
      (a.add table key value now).map fun r => (r.1.mapWays f g, r.2) := by
  cases table
  case generalQueryTx | reportTx =>
    simp only [add, mapWays, mapChannel, mapOut, Transmission.Table.add_map hg]
    exact map_bind_map fun _ => rfl
  all_goals exact bind_map fun _ => rfl

theorem modify_mapWays (f : χ → χ) (hg : PacketOut.Respects g) :
    (a.mapWays f g).modify table key value now =
      (a.modify table key value now).map fun r => (r.1.mapWays f g, r.2) := by
  cases table
  case generalQueryTx | reportTx =>
    simp only [modify, mapWays, mapChannel, mapOut, Transmission.Table.modify_map hg]
    exact map_bind_map fun _ => rfl
  all_goals exact bind_map fun _ => rfl

omit [PacketOut ω] in
theorem delete_mapWays (f : χ → χ) (g : ω → ω) :
    (a.mapWays f g).delete table key =
      (a.delete table key).map fun r => (r.1.mapWays f g, r.2) := by
  cases table <;> exact bind_map fun _ => rfl

theorem perform_mapWays {op : TableOp} (f : χ → χ) (hg : PacketOut.Respects g) :
    (a.mapWays f g).perform table op now =
      (a.perform table op now).map fun r => (r.1.mapWays f g, r.2) := by
  cases op with
  | add key value =>
    simp only [perform, add_mapWays f hg]
    exact map_bind_map fun _ => rfl
  | modify key value =>
    simp only [perform, modify_mapWays f hg]
    exact map_bind_map fun _ => rfl
  | delete key =>
    simp only [perform, delete_mapWays f g]
    exact map_bind_map fun _ => rfl
  | getStats key =>
    have hstats : (a.mapWays f g).stats table key now = a.stats table key now := by
      cases table <;> rfl
    simp only [perform, hstats]
    exact bind_map fun _ => rfl

theorem request_mapWays (f : χ → χ) (hg : PacketOut.Respects g) (r : TableRequest) :
    (a.mapWays f g).request r now = (a.request r now).mapWays f g := by
  simp only [request_eq, perform_mapWays f hg]
  cases a.perform r.table r.op now <;> rfl

end Requests

theorem applyInitialTimeouts_mapWays (f : χ → χ) (g : ω → ω)
    (rows : List (TimeoutName × Duration)) :
    (a.mapWays f g).applyInitialTimeouts rows =
      ((a.applyInitialTimeouts rows).1.mapWays f g, (a.applyInitialTimeouts rows).2) :=
  let sides (s : Agent χ ω × List Trace) := (s.1.mapWays f g, s.2)
  (List.foldl_hom sides fun _ _ => rfl :
    rows.foldl _ (sides (a, [])) = sides (rows.foldl _ (a, [])))

variable [ControllerChannel χ] [PacketOut ω] {e : EngineId} {ev : Event χ ω}

theorem tick_mapWays (hf : ControllerChannel.Respects f) (hg : PacketOut.Respects g) :
    (a.mapWays f g).tick e now = (a.tick e now).map (·.mapWays f g) := by
  cases e
  case generalQueryExpectation | reportExpectation | pimExpectation =>
    simp only [tick, mapWays, mapChannel, mapOut, Expectation.Table.tick_map hf]
    exact map_bind_map fun _ => rfl
  case generalQueryTx | reportTx =>
    simp only [tick, mapWays, mapChannel, mapOut, Transmission.Table.tick_map hg]
    exact map_bind_map fun _ => rfl

/-- What the event does to a way out by itself goes along with the map of that way out. -/
def Event.Respects (f : χ → χ) (g : ω → ω) : Event χ ω → Prop
  | channel h => ∀ c, h (f c) = f (h c)
  | out h => ∀ o, h (g o) = g (h o)
  | _ => True

theorem step_mapWays (hf : ControllerChannel.Respects f) (hg : PacketOut.Respects g)
    (hev : ev.Respects f g) :
    (a.mapWays f g).step now ev = (a.step now ev).map (·.mapWays f g) := by
  cases ev with
  | request r =>
    simp only [step, request_mapWays f hg]
    rfl
  | packet frame inPort => rfl
  | tick e =>
    simp only [step, tick_mapWays hf hg]
    cases a.tick e now <;> rfl
  | startup rows =>
    simp only [step, applyInitialTimeouts_mapWays]
    rfl
  | channel h =>
    simp only [step, mapWays, mapChannel, mapOut, hev a.channel]
    rfl
  | out h =>
    simp only [step, mapWays, mapChannel, mapOut, hev a.out]
    rfl

end Agent
end Snooping
