import Snooping.Channel
import Snooping.Expiry.Drain
import Snooping.Fault
import Snooping.Key
import Snooping.Net.Igmp
import Snooping.PortGroup
import Snooping.Timeout

/-!
Transmissions: frames sent at once when their entry is added or modified, and then once per
interval. The port is looked up by group name each time.
-/
namespace Snooping.Transmission

/-- What tells one transmission table from another. `reading` resolves the port group in the rows
it is given, and only reads its name if it is given none. -/
structure Kind (κ : Type) where
  table : TableId
  interval : TimeoutName
  reading : Option TxPorts → Reading κ
  text : κ → String
  portGroup : κ → String
  frame : κ → Igmp.Origin → Bytes

def portGroupReading (ports : Option TxPorts) : Reading String := do
  let key ← .field (.reference TableId.txPortGroup.name)
  .lift (TxPorts.resolve ports key)

/-- General queries to all hosts. -/
def generalQuery : Kind VlanKey where
  table := .generalQueryTx
  interval := .queryTx
  reading ports := do
    let name ← portGroupReading ports
    let vlan ← .field .vlanVid
    return .of name vlan
  text := VlanKey.text
  portGroup := VlanKey.name
  frame _ origin := Igmp.generalQueryFrame origin

/-- Reports of one group. -/
def report : Kind GroupKey where
  table := .reportTx
  interval := .reportTx
  reading ports := do
    let name ← portGroupReading ports
    let vlan ← .field .vlanVid
    let group ← .field .group
    return .of name vlan group
  text := GroupKey.text
  portGroup := GroupKey.name
  frame k origin := Igmp.reportFrame origin k.group

def originReading : Reading Igmp.Origin := do
  let vlan ← .field .vlanVid
  let src ← .field .source
  let srcMac ← .field .ethSrc
  return ⟨srcMac, vlan, src⟩

/-- `lastHit` is the time of creation until a frame is sent. -/
structure Entry (κ : Type) where
  key : κ
  origin : Igmp.Origin
  lastHit : Nat
  txPackets : Nat
deriving DecidableEq

structure Counters where
  sent : Nat
  unresolved : Nat
  failed : Nat
deriving DecidableEq

/-- Entries and their deadlines are kept apart. -/
structure Table (κ : Type) where
  entries : Rows κ (Entry κ)
  queue : Expiry.Queue κ
  counters : Counters

namespace Table

variable {κ : Type} [DecidableEq κ] (kind : Kind κ)

def empty : Table κ := ⟨.empty, .empty, ⟨0, 0, 0⟩⟩

def trace (message : String) (k : κ) : Trace :=
  .note .transmission .info message [("table", kind.table.name), ("key", kind.text k)]

/-- What one send yields. -/
structure Sent (κ ω : Type) where
  entry : Entry κ
  counters : Counters
  out : ω
  traces : List Trace

variable {ω : Type} [PacketOut ω]

/-- Sends the entry's frame on the port its group has now. Failures are counted only. -/
def send (ports : TxPorts) (now : Nat) (e : Entry κ) (c : Counters) (out : ω) : Sent κ ω :=
  let group := kind.portGroup e.key
  let table := ("table", kind.table.name)
  match ports.find? group with
  | none =>
    ⟨e, { c with unresolved := c.unresolved + 1 }, out,
      [.count (.transmissions kind.table .unresolved),
        .note .transmission .warning "port group not configured" [table, ("name", group)]]⟩
  | some port =>
    match PacketOut.transmit out ⟨port, kind.frame e.key e.origin⟩ with
    | (out, .ok ()) =>
      ⟨{ e with lastHit := now, txPackets := e.txPackets + 1 }, { c with sent := c.sent + 1 }, out,
        [.count (.transmissions kind.table .sent),
          .note .transmission .debug "frame sent"
            [table, ("key", kind.text e.key), ("port", port.toNat.repr)]]⟩
    | (out, .error error) =>
      ⟨e, { c with failed := c.failed + 1 }, out,
        [.count (.transmissions kind.table .failed),
          .note .transmission .warning "transmit failed"
            [table, ("name", group), ("error", error.message)]]⟩

/-- A table beside the packet-out path that it sends on. -/
structure Linked (κ ω : Type) where
  table : Table κ
  out : ω

/-- Counts and sends in place; the entry, as it is afterwards, is still to be stored. -/
def sendInPlace (ports : TxPorts) (now : Nat) (e : Entry κ) : InPlace (Linked κ ω) (Entry κ) :=
  fun l =>
    let s := send kind ports now e l.table.counters l.out
    ⟨.ok s.entry, ⟨{ l.table with counters := s.counters }, s.out⟩, s.traces⟩

def store (k : κ) (e : Entry κ) : InPlace (Linked κ ω) Unit :=
  .write fun l => { l with table.entries := l.table.entries.insert k e }

def writeQueue (f : Expiry.Queue κ → Expiry.Queue κ) : InPlace (Linked κ ω) Unit :=
  .write fun l => { l with table.queue := f l.table.queue }

def addInPlace (ports : TxPorts) (key value : List Field) (interval now : Nat) :
    InPlace (Linked κ ω) Unit := do
  let k ← .check ((kind.reading (some ports)).all key)
  let origin ← .check (originReading.all value)
  if (← .look).table.entries.contains k then .refuse .alreadyExists
  let e ← sendInPlace kind ports now ⟨k, origin, now, 0⟩
  writeQueue (·.insert k (now + interval))
  .note (trace kind "transmission added" k)
  store k e

/-- The new addressing is used at once, and the interval starts again. -/
def modifyInPlace (ports : TxPorts) (key value : List Field) (interval now : Nat) :
    InPlace (Linked κ ω) Unit := do
  let k ← .check ((kind.reading none).all key)
  let origin ← .check (originReading.all value)
  match (← .look).table.entries.find? k with
  | none => .refuse .notFound
  | some e =>
    store k { e with origin }
    writeQueue (·.remove k)
    let e ← sendInPlace kind ports now { e with origin }
    store k e
    writeQueue (·.insert k (now + interval))
    .note (trace kind "transmission modified" k)

def deleteInPlace (key : List Field) : InPlace (Linked κ ω) Unit := do
  let k ← .check ((kind.reading none).all key)
  if !(← .look).table.entries.contains k then .refuse .notFound
  writeQueue (·.remove k)
  .write fun l => { l with table.entries := l.table.entries.erase k }
  .note (trace kind "transmission deleted" k)

/-- Idle time does not run backwards. -/
def stats (t : Table κ) (key : List Field) (now : Nat) : Except TableError (List Field) := do
  let k ← (kind.reading none).all key
  match t.entries.find? k with
  | none => throw .notFound
  | some e =>
    return [.idleTime (UInt64.ofNat (now - e.lastHit)), .txPackets (UInt64.ofNat e.txPackets)]

/-- What the service of due keys works on, next to the queue. -/
structure Service (κ ω : Type) where
  entries : Rows κ (Entry κ)
  counters : Counters
  out : ω
  traces : List Trace

def resend (ports : TxPorts) (now : Nat) (k : κ) (s : Service κ ω) :
    Except Fault (Service κ ω) :=
  match s.entries.find? k with
  | none => .error ⟨kind.table, kind.text k⟩
  | some e =>
    let r := send kind ports now e s.counters s.out
    .ok ⟨s.entries.insert k r.entry, r.counters, r.out, s.traces ++ r.traces⟩

/-- What a tick leaves behind, with the delay to the next one. -/
structure Ticked (κ ω : Type) where
  table : Table κ
  out : ω
  traces : List Trace
  delay : Nat

def servicedTrace (n : Nat) : List Trace :=
  if n = 0 then []
  else [.note .transmission .debug (kind.table.name ++ ": " ++ n.repr ++ " periodic sends") []]

def tick (t : Table κ) (ports : TxPorts) (interval now : Nat) (out : ω) :
    Except Fault (Ticked κ ω) := do
  let d ← t.queue.drain (resend kind ports now) now interval ⟨t.entries, t.counters, out, []⟩
  return ⟨⟨d.state.entries, d.queue, d.state.counters⟩, d.state.out,
    d.state.traces ++ servicedTrace kind d.processed, d.queue.delay now⟩

end Table
end Snooping.Transmission
