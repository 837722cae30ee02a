import Snooping.Expectation
import Snooping.Net.Igmp
import Snooping.Net.Pim
import Snooping.PortGroup

/-!
Classification of snooped frames. A frame that is accounted for here is dropped; any other, a
malformed one included, is passed on.
-/
namespace Snooping.Classifier

/-- How many frames had each outcome. -/
abbrev Counters := Rows Outcome Nat

namespace Counters

def get (c : Counters) (o : Outcome) : Nat := (c.find? o).getD 0

def record (c : Counters) (o : Outcome) : Counters := c.insert o (c.get o + 1)

def total (c : Counters) : Nat := Outcome.all.foldl (fun n o => n + c.get o) 0

end Counters

/-- What a frame can touch: the three expectation tables. -/
structure Targets where
  generalQuery : Expectation.Table VlanKey
  report : Expectation.Table GroupKey
  pim : Expectation.Table VlanKey

/-- What every lookup needs besides the frame. -/
structure Arrival where
  ports : RxPorts
  timeouts : TimeoutTable
  inPort : UInt32
  now : Nat

/-- The outcome of a frame with all that it changed. -/
structure Classified where
  outcome : Outcome
  targets : Targets
  traces : List Trace

/-- An outcome that changes nothing. -/
def plain (t : Targets) (o : Outcome) : Classified := ⟨o, t, []⟩

def onGeneralQuery (a : Arrival) (vid : UInt16) (t : Targets) : Classified :=
  match a.ports.find? a.inPort with
  | none => plain t .generalQueryMiss
  | some name =>
    match t.generalQuery.hit? Expectation.generalQuery (.of name vid) (a.timeouts.get .query)
        a.now with
    | none => plain t .generalQueryMiss
    | some (table, traces) => ⟨.generalQueryHit, { t with generalQuery := table }, traces⟩

def onReport (a : Arrival) (vid : UInt16) (group : Ipv4) (t : Targets) : Classified :=
  match a.ports.find? a.inPort with
  | none => plain t .reportMiss
  | some name =>
    match t.report.hit? Expectation.report (.of name vid group) (a.timeouts.get .report)
        a.now with
    | none => plain t .reportMiss
    | some (table, traces) => ⟨.reportHit, { t with report := table }, traces⟩

def onPimHello (a : Arrival) (vid : UInt16) (t : Targets) : Classified :=
  match a.ports.find? a.inPort with
  | none => plain t .pimHelloMiss
  | some name =>
    match t.pim.hit? Expectation.pim (.of name vid) (a.timeouts.get .query) a.now with
    | none => plain t .pimHelloMiss
    | some (table, traces) => ⟨.pimHelloHit, { t with pim := table }, traces⟩

def onIgmp (a : Arrival) (vid : UInt16) (payload : Bytes) (t : Targets) : Classified :=
  match Igmp.Header.parse? payload with
  | none => plain t .igmpBadLength
  | some h =>
    if !Checksum.isValid payload then plain t .igmpBadChecksum
    else if h.isGeneralQuery then onGeneralQuery a vid t
    else if h.isReport then onReport a vid h.group t
    else if h.isGroupQuery then plain t .groupSpecificQuery
    else if h.type = Igmp.leaveType then plain t .leave
    else plain t .igmpOther

def onPim (a : Arrival) (vid : UInt16) (dst : Ipv4) (payload : Bytes) (t : Targets) : Classified :=
  if payload.length < Pim.headerLength || !Checksum.isValid payload then plain t .pimBad
  else
    match Pim.Header.parse? payload with
    | none => plain t .pimBad
    | some h =>
      if dst ≠ Pim.allRouters then plain t .pimBad
      else if !h.isHello then plain t .pimOther
      else onPimHello a vid t

def classify (a : Arrival) (data : Bytes) (t : Targets) : Classified :=
  match Frame.parse data with
  | .error (.missingVlanTag _) => plain t .noVlan
  | .error (.wrongEtherType _) => plain t .notIpv4
  | .error _ => plain t .malformed
  | .ok f =>
    if f.ipv4.protocol = igmpProtocol then onIgmp a f.vlan.vid (f.payload data) t
    else if f.ipv4.protocol = pimProtocol then
      onPim a f.vlan.vid f.ipv4.dst (f.payload data) t
    else plain t .otherProtocol

end Snooping.Classifier
