import Snooping.Counter
import Snooping.Log.Registry

/-! What an operation leaves for operators: log records and raised counters. -/
namespace Snooping

inductive Trace
  | log (r : Log.Record)
  | count (c : Counter)
deriving DecidableEq

namespace Trace

/-- A record whose tag is the logger's own facility. -/
def note (f : Log.Facility) (severity : Log.Severity) (message : String)
    (fields : List (String × String)) : Trace :=
  .log ⟨f, severity, f, message, fields⟩

end Trace

/-- Where traces end up. -/
structure Monitor where
  logs : Log.Registry
  tally : Tally

namespace Monitor

def initial : Monitor := ⟨.initial, .empty⟩

def take (m : Monitor) : Trace → Monitor
  | .log r => { m with logs := m.logs.log r }
  | .count c => { m with tally := m.tally.raise c }

def takeAll (m : Monitor) (traces : List Trace) : Monitor := traces.foldl take m

end Monitor
end Snooping
