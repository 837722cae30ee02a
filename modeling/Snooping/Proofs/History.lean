import Snooping.Proofs.Engines

/-!
Histories of an agent: events at arbitrary times, one after another. What one event does to each
engine is told by its `change`.
-/
namespace Snooping

def TableResponse.isOk : TableResponse → Bool
  | ok => true
  | _ => false

theorem TableResponse.isOk_iff {r : TableResponse} : r.isOk = true ↔ r = .ok := by
  cases r <;> simp [isOk]

namespace Agent

variable {χ ω : Type}

/-- What can happen to an agent. Both ways out may also change by themselves in any manner. -/
inductive Event (χ ω : Type)
  | request (r : TableRequest)
  | packet (frame : Bytes) (inPort : UInt32)
  | tick (e : EngineId)
  | startup (rows : List (TimeoutName × Duration))
  | channel (f : χ → χ)
  | out (f : ω → ω)

inductive Answer
  | response (r : TableResponse)
  | outcome (o : Outcome)
  | delay (ms : Nat)
  | done

/-- Events with their times, in the order in which they are taken. -/
abbrev History (χ ω : Type) := List (Nat × Event χ ω)

variable [ControllerChannel χ] [PacketOut ω]

def step (a : Agent χ ω) (now : Nat) : Event χ ω → Except Fault (Reply χ ω Answer)
  | .request r =>
    let reply := a.request r now
    .ok ⟨reply.agent, .response reply.answer, reply.traces⟩
  | .packet frame inPort =>
    let reply := a.classify frame inPort now
    .ok ⟨reply.agent, .outcome reply.answer, reply.traces⟩
  | .tick e =>
    match a.tick e now with
    | .error f => .error f
    | .ok reply => .ok ⟨reply.agent, .delay reply.answer, reply.traces⟩
  | .startup rows =>
    let (a, traces) := a.applyInitialTimeouts rows
    .ok ⟨a, .done, traces⟩
  | .channel f => .ok ⟨a.mapChannel f, .done, []⟩
  | .out f => .ok ⟨a.mapOut f, .done, []⟩

def run (a : Agent χ ω) : History χ ω → Except Fault (Agent χ ω)
  | [] => .ok a
  | (now, ev) :: rest =>
    match a.step now ev with
    | .error f => .error f
    | .ok reply => run reply.agent rest

def Reachable (a : Agent χ ω) : Prop :=
  ∃ maxPorts channel out history, (new maxPorts channel out).run history = .ok a

/-- `P` holds of every event of a history, at the agent that meets it. -/
def Throughout (P : Agent χ ω → Nat → Event χ ω → Prop) (a : Agent χ ω) : History χ ω → Prop
  | [] => True
  | (now, ev) :: rest =>
    P a now ev ∧ ∀ reply, a.step now ev = .ok reply → Throughout P reply.agent rest

/-- What a request does to the roster of `e`: one that is accepted for its table touches one key. -/
def requestChange (a : Agent χ ω) (now : Nat) (r : TableRequest) (e : EngineId) : Change e.Key :=
  if r.table = e.table ∧ (a.request r now).answer.isOk then
    match r.op with
    | .add key _ => (e.key? key).elim .none .renew
    | .modify key _ => if e.isTransmission then (e.key? key).elim .none .renew else .none
    | .delete key => (e.key? key).elim .none .cancel
    | .getStats _ => .none
  else .none

/-- The key of `e` that a frame hits. -/
def hitKey? (a : Agent χ ω) (now : Nat) (frame : Bytes) (inPort : UInt32) :
    (e : EngineId) → Option e.Key
  | .generalQueryExpectation =>
    if (a.classify frame inPort now).answer = .generalQueryHit then
      Classifier.vlanKey? a.rxPorts inPort frame
    else none
  | .reportExpectation =>
    if (a.classify frame inPort now).answer = .reportHit then
      Classifier.groupKey? a.rxPorts inPort frame
    else none
  | .pimExpectation =>
    if (a.classify frame inPort now).answer = .pimHelloHit then
      Classifier.vlanKey? a.rxPorts inPort frame
    else none
  | .generalQueryTx | .reportTx => none

/-- What an event at `now` does to the roster of `e`. -/
def change (a : Agent χ ω) (now : Nat) : Event χ ω → (e : EngineId) → Change e.Key
  | .request r, e => a.requestChange now r e
  | .packet frame inPort, e => (a.hitKey? now frame inPort e).elim .none .renew
  | .tick e', e => if e' = e then .serve else .none
  | .startup _, _ | .channel _, _ | .out _, _ => .none

/-- The event gives `k` of engine `e` a new deadline. -/
def Schedules (a : Agent χ ω) (now : Nat) (ev : Event χ ω) (e : EngineId) (k : e.Key) : Prop :=
  (a.change now ev e).Schedules now (a.interval e) (a.roster e) k

variable {a b c : Agent χ ω} {now : Nat} {ev : Event χ ω} {xs ys : History χ ω}
  {reply : Reply χ ω Answer}

theorem run_cons (h : a.step now ev = .ok reply) :
    a.run ((now, ev) :: xs) = reply.agent.run xs := by
  rw [run, h]

theorem run_cons_ok (h : a.run ((now, ev) :: xs) = .ok b) :
    ∃ reply, a.step now ev = .ok reply ∧ reply.agent.run xs = .ok b := by
  rw [run] at h
  split at h
  · cases h
  · rename_i reply hs
    exact ⟨reply, hs, h⟩

theorem throughout_cons {P : Agent χ ω → Nat → Event χ ω → Prop} (h : a.step now ev = .ok reply) :
    a.Throughout P ((now, ev) :: xs) ↔ P a now ev ∧ reply.agent.Throughout P xs := by
  simp [Throughout, h]

theorem run_append (h : a.run xs = .ok b) : a.run (xs ++ ys) = b.run ys := by
  induction xs generalizing a with
  | nil => cases h; rfl
  | cons x xs ih =>
    obtain ⟨now, ev⟩ := x
    obtain ⟨reply, hs, hr⟩ := run_cons_ok h
    rw [List.cons_append, run_cons hs]
    exact ih hr

/-- Some event of the history is a `P`, and none after it is a `Q`. -/
def Since (P Q : Agent χ ω → Nat → Event χ ω → Prop) (a : Agent χ ω) (xs : History χ ω) : Prop :=
  ∃ pre u ev post b reply, xs = pre ++ (u, ev) :: post ∧ a.run pre = .ok b ∧ P b u ev ∧
    b.step u ev = .ok reply ∧ reply.agent.Throughout (fun c u ev => ¬ Q c u ev) post

theorem not_since_nil {P Q : Agent χ ω → Nat → Event χ ω → Prop} : ¬ a.Since P Q [] := by
  rintro ⟨pre, u, ev, post, _, _, h, _⟩
  cases pre <;> cases h

theorem since_cons {P Q : Agent χ ω → Nat → Event χ ω → Prop} (h : a.step now ev = .ok reply) :
    a.Since P Q ((now, ev) :: xs) ↔ reply.agent.Since P Q xs ∨
      P a now ev ∧ reply.agent.Throughout (fun c u ev => ¬ Q c u ev) xs := by
  constructor
  · rintro ⟨pre, u, ev', post, b, reply', hx, hb, hp, hs, ht⟩
    cases pre with
    | nil =>
      cases hx
      cases hb
      rw [h] at hs
      cases hs
      exact .inr ⟨hp, ht⟩
    | cons x pre =>
      cases hx
      exact .inl ⟨pre, u, ev', post, b, reply', rfl, (run_cons h).symm.trans hb, hp, hs, ht⟩
  · rintro (⟨pre, u, ev', post, b, reply', rfl, hb, hp, hs, ht⟩ | ⟨hp, ht⟩)
    · exact ⟨(now, ev) :: pre, u, ev', post, b, reply', rfl, (run_cons h).trans hb, hp, hs, ht⟩
    · exact ⟨[], now, ev, xs, a, reply, rfl, rfl, hp, h, ht⟩

theorem reachable_new (maxPorts : UInt32) (channel : χ) (out : ω) :
    (new maxPorts channel out).Reachable :=
  ⟨maxPorts, channel, out, [], rfl⟩

theorem reachable_run (ha : a.Reachable) (h : a.run xs = .ok b) : b.Reachable := by
  obtain ⟨maxPorts, channel, out, history, hr⟩ := ha
  exact ⟨maxPorts, channel, out, history ++ xs, (run_append hr).trans h⟩

end Agent
end Snooping
