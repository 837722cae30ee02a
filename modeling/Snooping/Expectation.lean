import Snooping.Channel
import Snooping.Expiry.Drain
import Snooping.Fault
import Snooping.Key
import Snooping.Timeout

/-!
Expectations: traffic that has to be seen once per timeout. Every timeout without it is reported
to the controller.
-/
namespace Snooping.Expectation

/-- What tells one expectation table from another. -/
structure Kind (κ : Type) where
  table : TableId
  timeout : TimeoutName
  statsIncludeTx : Bool
  reading : Reading κ
  text : κ → String
  notification : κ → IdleNotification

/-- Liveness of the querier. -/
def generalQuery : Kind VlanKey where
  table := .generalQueryExpectation
  timeout := .query
  statsIncludeTx := true
  reading := VlanKey.reading
  text := VlanKey.text
  notification k := ⟨.generalQueryExpectation, k.name, k.vlan, none⟩

/-- Membership of a host in a group. -/
def report : Kind GroupKey where
  table := .reportExpectation
  timeout := .report
  statsIncludeTx := false
  reading := GroupKey.reading
  text := GroupKey.text
  notification k := ⟨.reportExpectation, k.name, k.vlan, some k.group⟩

/-- Liveness of a neighbor router. It shares the timeout of general queries. -/
def pim : Kind VlanKey where
  table := .pimExpectation
  timeout := .query
  statsIncludeTx := true
  reading := VlanKey.reading
  text := VlanKey.text
  notification k := ⟨.pimExpectation, k.name, k.vlan, none⟩

/-- `lastHit` is the time of creation until a packet matches. -/
structure Entry (κ : Type) where
  key : κ
  lastHit : Nat
  rxPackets : Nat
  txPackets : Nat
deriving DecidableEq

structure Counters where
  hits : Nat
  expirations : Nat
  sent : Nat
  skipped : Nat
  failed : Nat
deriving DecidableEq

/-- Entries and their deadlines are kept apart. -/
structure Table (κ : Type) where
  entries : Rows κ (Entry κ)
  queue : Expiry.Queue κ
  counters : Counters

namespace Table

variable {κ : Type} [DecidableEq κ] (kind : Kind κ)

def empty : Table κ := ⟨.empty, .empty, ⟨0, 0, 0, 0, 0⟩⟩

def trace (message : String) (k : κ) : Trace :=
  .note .expectation .info message [("table", kind.table.name), ("key", kind.text k)]

def addInPlace (key value : List Field) (interval now : Nat) : InPlace (Table κ) Unit := do
  let k ← .check (kind.reading.all key)
  .check (expectEmpty value)
  if (← .look).entries.contains k then .refuse .alreadyExists
  .write fun t => { t with queue := t.queue.insert k (now + interval) }
  .note (trace kind "expectation added" k)
  .write fun t => { t with entries := t.entries.insert k ⟨k, now, 0, 0⟩ }

/-- There is nothing to modify, but the key has to exist. -/
def modifyInPlace (key value : List Field) : InPlace (Table κ) Unit := do
  let k ← .check (kind.reading.all key)
  .check (expectEmpty value)
  if !(← .look).entries.contains k then .refuse .notFound

/-- The deadline goes before the entry does. -/
def deleteInPlace (key : List Field) : InPlace (Table κ) Unit := do
  let k ← .check (kind.reading.all key)
  if !(← .look).entries.contains k then .refuse .notFound
  .write fun t => { t with queue := t.queue.remove k }
  .write fun t => { t with entries := t.entries.erase k }
  .note (trace kind "expectation deleted" k)

/-- Idle time does not run backwards. -/
def stats (t : Table κ) (key : List Field) (now : Nat) : Except TableError (List Field) := do
  let k ← kind.reading.all key
  match t.entries.find? k with
  | none => throw .notFound
  | some e =>
    return [.idleTime (UInt64.ofNat (now - e.lastHit)), .rxPackets (UInt64.ofNat e.rxPackets)] ++
      if kind.statsIncludeTx then [.txPackets (UInt64.ofNat e.txPackets)] else []

/-- A packet that matches `k` restarts its timeout. No answer if there is no such entry. -/
def hit? (t : Table κ) (k : κ) (interval now : Nat) : Option (Table κ × List Trace) :=
  match t.entries.find? k with
  | none => none
  | some e =>
    some (
      { entries := t.entries.insert k { e with lastHit := now, rxPackets := e.rxPackets + 1 }
        queue := t.queue.insert k (now + interval)
        counters := { t.counters with hits := t.counters.hits + 1 } },
      [.count (.hits kind.table)])

/-- What the service of due keys works on, next to the queue. -/
structure Service (κ χ : Type) where
  entries : Rows κ (Entry κ)
  counters : Counters
  channel : χ
  traces : List Trace

variable {χ : Type} [ControllerChannel χ]

/-- Tells the controller that `k` is idle, if it can be told. -/
def notify (capable : Bool) (k : κ) (s : Service κ χ) : Except Fault (Service κ χ) :=
  match s.entries.find? k with
  | none => .error ⟨kind.table, kind.text k⟩
  | some e =>
    let expirations := s.counters.expirations + 1
    let fields := [("table", kind.table.name), ("key", kind.text k)]
    if !capable then
      .ok { s with
        counters := { s.counters with expirations, skipped := s.counters.skipped + 1 }
        traces := s.traces ++ [.count (.notifications kind.table .skipped)] }
    else
      match ControllerChannel.send s.channel (.idleNotification (kind.notification k)) with
      | (channel, .ok ()) =>
        .ok { s with
          entries := s.entries.insert k { e with txPackets := e.txPackets + 1 }
          counters := { s.counters with expirations, sent := s.counters.sent + 1 }
          channel
          traces := s.traces ++
            [.count (.notifications kind.table .sent),
              .note .expectation .debug "idle notification sent" fields] }
      | (channel, .error error) =>
        .ok { s with
          counters := { s.counters with expirations, failed := s.counters.failed + 1 }
          channel
          traces := s.traces ++
            [.count (.notifications kind.table .failed),
              .note .expectation .warning "idle notification failed"
                (fields ++ [("error", error.message)])] }

/-- What a tick leaves behind, with the delay to the next one. -/
structure Ticked (κ χ : Type) where
  table : Table κ
  channel : χ
  traces : List Trace
  delay : Nat

def servicedTrace (n : Nat) : List Trace :=
  if n = 0 then []
  else
    [.note .expectation .debug
      (kind.table.name ++ ": " ++ n.repr ++ " expired entries serviced") []]

/-- The connection is looked at once per tick. -/
def tick (t : Table κ) (interval now : Nat) (channel : χ) : Except Fault (Ticked κ χ) := do
  let capable := asyncCapable channel
  let d ← t.queue.drain (notify kind capable) now interval ⟨t.entries, t.counters, channel, []⟩
  return ⟨⟨d.state.entries, d.queue, d.state.counters⟩, d.state.channel,
    d.state.traces ++ servicedTrace kind d.processed, d.queue.delay now⟩

end Table
end Snooping.Expectation
