import Snooping.Agent.Basic
import Snooping.Proofs.Classification
import Snooping.Proofs.Transmission

/-! The five engines of an agent under one roof: their keys, their timeouts and their rosters. -/
namespace Snooping

namespace EngineId

def Key : EngineId → Type
  | generalQueryExpectation | pimExpectation | generalQueryTx => VlanKey
  | reportExpectation | reportTx => GroupKey

instance : (e : EngineId) → DecidableEq e.Key
  | generalQueryExpectation | pimExpectation | generalQueryTx =>
    inferInstanceAs (DecidableEq VlanKey)
  | reportExpectation | reportTx => inferInstanceAs (DecidableEq GroupKey)

/-- The interval that governs an engine. Two of them share one. -/
def timeout : EngineId → TimeoutName
  | generalQueryExpectation | pimExpectation => .query
  | reportExpectation => .report
  | generalQueryTx => .queryTx
  | reportTx => .reportTx

/-- Whether the engine sends frames; the others wait for them. -/
def isTransmission : EngineId → Bool
  | generalQueryTx | reportTx => true
  | _ => false

/-- The key that the key fields of a request spell. -/
def key? (fields : List Field) : (e : EngineId) → Option e.Key
  | generalQueryExpectation => (Expectation.generalQuery.reading.all fields).toOption
  | reportExpectation => (Expectation.report.reading.all fields).toOption
  | pimExpectation => (Expectation.pim.reading.all fields).toOption
  | generalQueryTx => ((Transmission.generalQuery.reading none).all fields).toOption
  | reportTx => ((Transmission.report.reading none).all fields).toOption

end EngineId

namespace Agent

variable {χ ω : Type}

def roster (a : Agent χ ω) : (e : EngineId) → Roster e.Key
  | .generalQueryExpectation => a.generalQuery.roster
  | .reportExpectation => a.report.roster
  | .pimExpectation => a.pim.roster
  | .generalQueryTx => a.generalQueryTx.roster
  | .reportTx => a.reportTx.roster

def queue (a : Agent χ ω) (e : EngineId) : Expiry.Queue e.Key := (a.roster e).queue

/-- The interval in force for an engine. -/
def interval (a : Agent χ ω) (e : EngineId) : Nat := a.timeouts.get e.timeout

/-- The keys that a tick of `e` at `now` serves, in order. -/
def served (a : Agent χ ω) (e : EngineId) (now : Nat) : List e.Key :=
  (a.roster e).served now (a.interval e)

def Sound (a : Agent χ ω) : Prop := ∀ e, (a.roster e).Sound

namespace Sound

variable {a : Agent χ ω} (hs : a.Sound)
include hs

theorem generalQuery : a.generalQuery.roster.Sound := hs .generalQueryExpectation

theorem report : a.report.roster.Sound := hs .reportExpectation

theorem pim : a.pim.roster.Sound := hs .pimExpectation

theorem generalQueryTx : a.generalQueryTx.roster.Sound := hs .generalQueryTx

theorem reportTx : a.reportTx.roster.Sound := hs .reportTx

end Sound

theorem sound_new (maxPorts : UInt32) (channel : χ) (out : ω) :
    (new maxPorts channel out).Sound := by
  intro e
  cases e <;> exact Roster.sound_empty

section WaysOut

theorem foldl_sent {κ : Type} (f : ω → κ → ω) (ks : List κ) (c : χ) (o : ω) :
    ks.foldl (fun ways k => (ways.1, f ways.2 k)) (c, o) = (c, ks.foldl f o) := by
  induction ks generalizing o with
  | nil => rfl
  | cons k ks ih => exact ih (f o k)

/-- A tick of a transmission table, told by both ways out. The channel is left alone. -/
theorem resend_tick {κ : Type} [DecidableEq κ] [PacketOut ω] {t : Transmission.Table κ}
    (a : Agent χ ω) (h : t.roster.Sound) (kind : Transmission.Kind κ) (interval now : Nat) :
    ∃ r, t.tick kind a.txPorts interval now a.out = .ok r ∧
      Change.serve.Takes now interval t.roster r.table.roster ∧
      (a.channel, r.out) = (t.roster.served now interval).foldl
        (fun ways k => (ways.1, t.emit kind a.txPorts ways.2 k)) (a.channel, a.out) := by
  obtain ⟨r, hr, ht, ho, _⟩ := Transmission.Table.tick_ok h kind a.txPorts interval now a.out
  refine ⟨r, hr, ht, ?_⟩
  rw [foldl_sent, ho]

variable [ControllerChannel χ]

/-- The channel once `k` has been announced on it, to a controller that takes messages. -/
def announced {κ : Type} (a : Agent χ ω) (kind : Expectation.Kind κ) (c : χ) (k : κ) : χ :=
  if asyncCapable a.channel then Expectation.Table.announce kind c k else c

theorem foldl_announced {κ : Type} (a : Agent χ ω) (kind : Expectation.Kind κ) (ks : List κ)
    (c : χ) (o : ω) :
    ks.foldl (fun ways k => (a.announced kind ways.1 k, ways.2)) (c, o) =
      (if asyncCapable a.channel then ks.foldl (Expectation.Table.announce kind) c else c, o) := by
  induction ks generalizing c with
  | nil => simp
  | cons k ks ih =>
    rw [List.foldl_cons, ih, announced]
    split <;> rfl

theorem announce_tick {κ : Type} [DecidableEq κ] {t : Expectation.Table κ} (a : Agent χ ω)
    (h : t.roster.Sound) (kind : Expectation.Kind κ) (interval now : Nat) :
    ∃ r, t.tick kind interval now a.channel = .ok r ∧
      Change.serve.Takes now interval t.roster r.table.roster ∧
      (r.channel, a.out) = (t.roster.served now interval).foldl
        (fun ways k => (a.announced kind ways.1 k, ways.2)) (a.channel, a.out) := by
  obtain ⟨r, hr, ht, hc, _⟩ := Expectation.Table.tick_ok h kind interval now a.channel
  refine ⟨r, hr, ht, ?_⟩
  rw [foldl_announced, hc]

variable [PacketOut ω]

/-- Both ways out once the service of `k` has had its turn. -/
def emit (a : Agent χ ω) (e : EngineId) (ways : χ × ω) (k : e.Key) : χ × ω :=
  match e with
  | .generalQueryExpectation => (a.announced Expectation.generalQuery ways.1 k, ways.2)
  | .reportExpectation => (a.announced Expectation.report ways.1 k, ways.2)
  | .pimExpectation => (a.announced Expectation.pim ways.1 k, ways.2)
  | .generalQueryTx => (ways.1, a.generalQueryTx.emit Transmission.generalQuery a.txPorts ways.2 k)
  | .reportTx => (ways.1, a.reportTx.emit Transmission.report a.txPorts ways.2 k)

end WaysOut
end Agent
end Snooping
