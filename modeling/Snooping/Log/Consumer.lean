import Snooping.Log.Line
import Snooping.Log.Registry

/-! The consumer takes entries out of the buffers and hands them to a sink. -/
namespace Snooping.Log

/-- What a sink is told to do. -/
inductive SinkCall (α : Type)
  | write (e : α)
  | flush
deriving DecidableEq

/-- One pass over what is buffered. A sink that got nothing is not flushed. -/
def sinkCalls {α : Type} (entries : List α) : List (SinkCall α) :=
  entries.map .write ++ if entries.isEmpty then [] else [.flush]

/-- One pass over all buffers, with the number of entries written. -/
def Registry.consume (r : Registry) : List (SinkCall Entry) × Nat × Registry :=
  let entries := r.entries.map (·.2)
  (sinkCalls entries, entries.length, r.drained)

/-- What a sink of format `f` has written after all calls. -/
def Format.output (f : Format) (calls : List (SinkCall Stamped)) : String :=
  String.join (calls.map fun
    | .write s => f.line s
    | .flush => "")

/-- The levels of the logger that writes straight to standard error at startup. -/
def startupLevels : Levels := .initial

end Snooping.Log
