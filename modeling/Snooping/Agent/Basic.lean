import Snooping.Classifier
import Snooping.Transmission

/-! The agent: every table, the two ways out, and one operation per kind of event. -/
namespace Snooping

/-- The tables that a timer drives. -/
inductive EngineId
  | generalQueryExpectation
  | reportExpectation
  | pimExpectation
  | generalQueryTx
  | reportTx
deriving DecidableEq

namespace EngineId

def all : List EngineId :=
  [generalQueryExpectation, reportExpectation, pimExpectation, generalQueryTx, reportTx]

def table : EngineId → TableId
  | generalQueryExpectation => .generalQueryExpectation
  | reportExpectation => .reportExpectation
  | pimExpectation => .pimExpectation
  | generalQueryTx => .generalQueryTx
  | reportTx => .reportTx

def ofName? (s : String) : Option EngineId := all.find? (·.table.name = s)

end EngineId

structure Agent (χ ω : Type) where
  maxPorts : UInt32
  timeouts : TimeoutTable
  rxPorts : RxPorts
  txPorts : TxPorts
  generalQuery : Expectation.Table VlanKey
  report : Expectation.Table GroupKey
  pim : Expectation.Table VlanKey
  generalQueryTx : Transmission.Table VlanKey
  reportTx : Transmission.Table GroupKey
  classified : Classifier.Counters
  channel : χ
  out : ω

namespace Agent

variable {χ ω : Type}

/-- The agent after an event, with the answer to it. -/
structure Reply (χ ω α : Type) where
  agent : Agent χ ω
  answer : α
  traces : List Trace

def new (maxPorts : UInt32) (channel : χ) (out : ω) : Agent χ ω :=
  ⟨maxPorts, .empty, .empty, .empty, .empty, .empty, .empty, .empty, .empty, .empty, channel, out⟩

def createdTrace (a : Agent χ ω) : Trace :=
  .note .agent .info "agent created" [("max_ports", a.maxPorts.toNat.repr)]

def applyInitialTimeout (a : Agent χ ω) (n : TimeoutName) (d : Duration) :
    Agent χ ω × List Trace :=
  let done := TimeoutTable.applyInitial n d a.timeouts
  ({ a with timeouts := done.state }, done.traces)

def applyInitialTimeouts (a : Agent χ ω) (rows : List (TimeoutName × Duration)) :
    Agent χ ω × List Trace :=
  rows.foldl (fun (a, traces) (n, d) =>
    let (a, more) := a.applyInitialTimeout n d
    (a, traces ++ more)) (a, [])

section Parts
open InPlace (Part)

def timeoutsPart : Part (Agent χ ω) TimeoutTable :=
  ⟨(·.timeouts), fun a timeouts => { a with timeouts }, fun _ => rfl⟩

def rxPortsPart : Part (Agent χ ω) RxPorts :=
  ⟨(·.rxPorts), fun a rxPorts => { a with rxPorts }, fun _ => rfl⟩

def txPortsPart : Part (Agent χ ω) TxPorts :=
  ⟨(·.txPorts), fun a txPorts => { a with txPorts }, fun _ => rfl⟩

def generalQueryPart : Part (Agent χ ω) (Expectation.Table VlanKey) :=
  ⟨(·.generalQuery), fun a generalQuery => { a with generalQuery }, fun _ => rfl⟩

def reportPart : Part (Agent χ ω) (Expectation.Table GroupKey) :=
  ⟨(·.report), fun a report => { a with report }, fun _ => rfl⟩

def pimPart : Part (Agent χ ω) (Expectation.Table VlanKey) :=
  ⟨(·.pim), fun a pim => { a with pim }, fun _ => rfl⟩

def generalQueryTxPart : Part (Agent χ ω) (Transmission.Table.Linked VlanKey ω) where
  get a := ⟨a.generalQueryTx, a.out⟩
  put a l := { a with generalQueryTx := l.table, out := l.out }
  put_get _ := rfl

def reportTxPart : Part (Agent χ ω) (Transmission.Table.Linked GroupKey ω) where
  get a := ⟨a.reportTx, a.out⟩
  put a l := { a with reportTx := l.table, out := l.out }
  put_get _ := rfl

end Parts

section Requests
variable [PacketOut ω]

def addInPlace (table : TableId) (key value : List Field) (now : Nat) :
    InPlace (Agent χ ω) Unit := do
  let a ← .look
  match table with
  | .timeout => .within timeoutsPart (TimeoutTable.addInPlace key value)
  | .rxPortGroup => .within rxPortsPart (RxPorts.addInPlace a.maxPorts key value)
  | .txPortGroup => .within txPortsPart (TxPorts.addInPlace a.maxPorts key value)
  | .generalQueryExpectation =>
    .within generalQueryPart (Expectation.Table.addInPlace Expectation.generalQuery key value
      (a.timeouts.get .query) now)
  | .reportExpectation =>
    .within reportPart (Expectation.Table.addInPlace Expectation.report key value
      (a.timeouts.get .report) now)
  | .pimExpectation =>
    .within pimPart (Expectation.Table.addInPlace Expectation.pim key value
      (a.timeouts.get .query) now)
  | .generalQueryTx =>
    .within generalQueryTxPart (Transmission.Table.addInPlace Transmission.generalQuery a.txPorts
      key value (a.timeouts.get .queryTx) now)
  | .reportTx =>
    .within reportTxPart (Transmission.Table.addInPlace Transmission.report a.txPorts
      key value (a.timeouts.get .reportTx) now)

def modifyInPlace (table : TableId) (key value : List Field) (now : Nat) :
    InPlace (Agent χ ω) Unit := do
  let a ← .look
  match table with
  | .timeout => .within timeoutsPart (TimeoutTable.modifyInPlace key value)
  | .rxPortGroup => .within rxPortsPart (RxPorts.modifyInPlace a.maxPorts key value)
  | .txPortGroup => .within txPortsPart (TxPorts.modifyInPlace a.maxPorts key value)
  | .generalQueryExpectation =>
    .within generalQueryPart (Expectation.Table.modifyInPlace Expectation.generalQuery key value)
  | .reportExpectation =>
    .within reportPart (Expectation.Table.modifyInPlace Expectation.report key value)
  | .pimExpectation =>
    .within pimPart (Expectation.Table.modifyInPlace Expectation.pim key value)
  | .generalQueryTx =>
    .within generalQueryTxPart (Transmission.Table.modifyInPlace Transmission.generalQuery
      a.txPorts key value (a.timeouts.get .queryTx) now)
  | .reportTx =>
    .within reportTxPart (Transmission.Table.modifyInPlace Transmission.report
      a.txPorts key value (a.timeouts.get .reportTx) now)

def deleteInPlace (table : TableId) (key : List Field) : InPlace (Agent χ ω) Unit := do
  let a ← .look
  match table with
  | .timeout => .within timeoutsPart (TimeoutTable.deleteInPlace key)
  | .rxPortGroup => .within rxPortsPart (RxPorts.deleteInPlace a.maxPorts key)
  | .txPortGroup => .within txPortsPart (TxPorts.deleteInPlace key)
  | .generalQueryExpectation =>
    .within generalQueryPart (Expectation.Table.deleteInPlace Expectation.generalQuery key)
  | .reportExpectation =>
    .within reportPart (Expectation.Table.deleteInPlace Expectation.report key)
  | .pimExpectation => .within pimPart (Expectation.Table.deleteInPlace Expectation.pim key)
  | .generalQueryTx =>
    .within generalQueryTxPart (Transmission.Table.deleteInPlace Transmission.generalQuery key)
  | .reportTx => .within reportTxPart (Transmission.Table.deleteInPlace Transmission.report key)

def stats (a : Agent χ ω) (table : TableId) (key : List Field) (now : Nat) :
    Except TableError (List Field) :=
  match table with
  | .generalQueryExpectation => a.generalQuery.stats Expectation.generalQuery key now
  | .reportExpectation => a.report.stats Expectation.report key now
  | .pimExpectation => a.pim.stats Expectation.pim key now
  | .generalQueryTx => a.generalQueryTx.stats Transmission.generalQuery key now
  | .reportTx => a.reportTx.stats Transmission.report key now
  | .timeout | .rxPortGroup | .txPortGroup => .error (.statsNotSupported table)

/-- One operation on a table, before it is counted and worded. -/
def dispatch (table : TableId) (op : TableOp) (now : Nat) : InPlace (Agent χ ω) TableResponse := do
  match op with
  | .add key value =>
    addInPlace table key value now
    return .ok
  | .modify key value =>
    modifyInPlace table key value now
    return .ok
  | .delete key =>
    deleteInPlace table key
    return .ok
  | .getStats key => return .stats (← .check ((← .look).stats table key now))

/-- A request is counted, and noted if it is refused. -/
def request (a : Agent χ ω) (r : TableRequest) (now : Nat) : Reply χ ω TableResponse :=
  match dispatch r.table r.op now a with
  | ⟨.ok response, a, traces⟩ =>
    ⟨a, response, traces ++ [.count (.requests r.table r.op.kind none)]⟩
  | ⟨.error e, a, traces⟩ =>
    ⟨a, .ofError e, traces ++
      [.count (.requests r.table r.op.kind (some e.code)),
        .note .agent .notice "table request rejected"
          [("table", r.table.name), ("op", r.op.kind.name), ("error", e.message)]]⟩

end Requests

/-- Classifies one frame and counts its outcome. -/
def classify (a : Agent χ ω) (frame : Bytes) (inPort : UInt32) (now : Nat) :
    Reply χ ω Outcome :=
  let c := Classifier.classify ⟨a.rxPorts, a.timeouts, inPort, now⟩ frame
    ⟨a.generalQuery, a.report, a.pim⟩
  ⟨{ a with
      generalQuery := c.targets.generalQuery
      report := c.targets.report
      pim := c.targets.pim
      classified := a.classified.record c.outcome },
    c.outcome,
    c.traces ++
      [.count (.packets c.outcome),
        .note .classifier .debug "packet classified"
          [("port", inPort.toNat.repr), ("outcome", c.outcome.name)]]⟩

/-- Runs one engine's timer; the answer is the delay to its next tick. -/
def tick [ControllerChannel χ] [PacketOut ω] (a : Agent χ ω) (e : EngineId) (now : Nat) :
    Except Fault (Reply χ ω Nat) :=
  match e with
  | .generalQueryExpectation => do
    let t ← a.generalQuery.tick Expectation.generalQuery (a.timeouts.get .query) now a.channel
    return ⟨{ a with generalQuery := t.table, channel := t.channel }, t.delay, t.traces⟩
  | .reportExpectation => do
    let t ← a.report.tick Expectation.report (a.timeouts.get .report) now a.channel
    return ⟨{ a with report := t.table, channel := t.channel }, t.delay, t.traces⟩
  | .pimExpectation => do
    let t ← a.pim.tick Expectation.pim (a.timeouts.get .query) now a.channel
    return ⟨{ a with pim := t.table, channel := t.channel }, t.delay, t.traces⟩
  | .generalQueryTx => do
    let t ← a.generalQueryTx.tick Transmission.generalQuery a.txPorts (a.timeouts.get .queryTx)
      now a.out
    return ⟨{ a with generalQueryTx := t.table, out := t.out }, t.delay, t.traces⟩
  | .reportTx => do
    let t ← a.reportTx.tick Transmission.report a.txPorts (a.timeouts.get .reportTx) now a.out
    return ⟨{ a with reportTx := t.table, out := t.out }, t.delay, t.traces⟩

def mapChannel (a : Agent χ ω) (f : χ → χ) : Agent χ ω := { a with channel := f a.channel }

def mapOut (a : Agent χ ω) (f : ω → ω) : Agent χ ω := { a with out := f a.out }

/-- One line with the sizes of all tables. -/
def summaryTrace (a : Agent χ ω) : Trace :=
  .note .agent .info
    ("tables: rx_port_group=" ++ a.rxPorts.size.repr ++
      " tx_port_group=" ++ a.txPorts.size.repr ++
      " gq_exp=" ++ a.generalQuery.entries.size.repr ++
      " report_exp=" ++ a.report.entries.size.repr ++
      " pim_exp=" ++ a.pim.entries.size.repr ++
      " gq_tx=" ++ a.generalQueryTx.entries.size.repr ++
      " report_tx=" ++ a.reportTx.entries.size.repr) []

end Agent
end Snooping
