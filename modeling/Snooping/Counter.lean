import Snooping.Outcome
import Snooping.Rows
import Snooping.Table.Request

/-! Counters published for monitoring. -/
namespace Snooping

inductive NotificationResult
  | sent
  | skipped
  | failed
deriving DecidableEq

inductive TransmissionResult
  | sent
  | unresolved
  | failed
deriving DecidableEq

/-- One counter, its labels included. A request without an error code succeeded. -/
inductive Counter
  | packets (outcome : Outcome)
  | hits (table : TableId)
  | notifications (table : TableId) (result : NotificationResult)
  | transmissions (table : TableId) (result : TransmissionResult)
  | requests (table : TableId) (op : TableOp.Kind) (result : Option ErrorCode)
deriving DecidableEq

def NotificationResult.name : NotificationResult → String
  | sent => "sent"
  | skipped => "skipped"
  | failed => "failed"

def TransmissionResult.name : TransmissionResult → String
  | sent => "sent"
  | unresolved => "unresolved"
  | failed => "failed"

namespace Counter

/-- The published families with their descriptions. -/
def families : List (String × String) :=
  [("mcsnoop_classifier_packets_total", "Packet-ins by classifier outcome"),
    ("mcsnoop_expectation_matches_total", "Packets that refreshed an expectation"),
    ("mcsnoop_idle_notifications_total", "Idle notifications by result"),
    ("mcsnoop_transmissions_total", "Originated IGMP frames by result"),
    ("mcsnoop_table_requests_total", "Controller table requests by result")]

def family : Counter → String
  | packets _ => "mcsnoop_classifier_packets_total"
  | hits _ => "mcsnoop_expectation_matches_total"
  | notifications _ _ => "mcsnoop_idle_notifications_total"
  | transmissions _ _ => "mcsnoop_transmissions_total"
  | requests _ _ _ => "mcsnoop_table_requests_total"

/-- Labels in alphabetical order. -/
def labels : Counter → List (String × String)
  | packets o => [("outcome", o.name)]
  | hits t => [("table", t.name)]
  | notifications t r => [("result", r.name), ("table", t.name)]
  | transmissions t r => [("result", r.name), ("table", t.name)]
  | requests t op r =>
    [("op", op.name), ("result", (r.map (·.name)).getD "ok"), ("table", t.name)]

def text (c : Counter) : String :=
  c.family ++ "\x7b" ++ ",".intercalate (c.labels.map fun (k, v) => k ++ "=" ++ v) ++ "\x7d"

end Counter

/-- Counts of all counters ever raised. -/
abbrev Tally := Rows Counter Nat

def Tally.raise (t : Tally) (c : Counter) : Tally := t.insert c ((t.find? c).getD 0 + 1)

end Snooping
