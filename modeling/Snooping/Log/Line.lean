import Snooping.Json.Writer
import Snooping.Log.Entry
import Snooping.Log.Timestamp

/-! Log lines, plain or in JSON. -/
namespace Snooping.Log

/-- When an entry was made, in nanoseconds since the epoch, and its number in the process. -/
structure Stamp where
  time : UInt64
  sequence : UInt64
deriving DecidableEq

/-- An entry on its way to a sink. -/
structure Stamped where
  stamp : Stamp
  entry : Entry
deriving DecidableEq

/-- Sets a field in a list ordered by name. -/
def putField (k v : String) : List (String × String) → List (String × String)
  | [] => [(k, v)]
  | (k', v') :: rest =>
    if k = k' then (k, v) :: rest
    else if k < k' then (k, v) :: (k', v') :: rest
    else (k', v') :: putField k v rest

/-- Fields ordered by name, the last one of each name. -/
def sortedFields (fields : List (String × String)) : List (String × String) :=
  fields.foldl (fun sorted (k, v) => putField k v sorted) []

/-- Severity and facility in brackets, the message, and the fields. -/
def Entry.plain (e : Entry) : String :=
  " ".intercalate
    (["[" ++ e.severity.label ++ "]", "[" ++ e.facility.name ++ "]", e.message] ++
      e.fields.map fun (k, v) => k ++ "=" ++ v)

namespace Stamped

/-- Members in alphabetical order. -/
def toJson (s : Stamped) : Json :=
  .obj [("facility", .str s.entry.facility.name),
    ("fields", .obj ((sortedFields s.entry.fields).map fun (k, v) => (k, .str v))),
    ("level", .str s.entry.severity.label), ("message", .str s.entry.message),
    ("seq", .nat s.stamp.sequence.toNat),
    ("timestamp", .str (Timestamp.text s.stamp.time.toNat))]

/-- The form used before there is a consumer: no fields and no number. -/
def startupJson (s : Stamped) : Json :=
  .obj [("facility", .str s.entry.facility.name), ("level", .str s.entry.severity.label),
    ("message", .str s.entry.message), ("timestamp", .str (Timestamp.text s.stamp.time.toNat))]

end Stamped

/-- How lines are written, and where they go. -/
inductive Format
  | plain
  | plainStderr
  | json
deriving DecidableEq

namespace Format

def all : List Format := [plain, plainStderr, json]

def name : Format → String
  | plain => "plain"
  | plainStderr => "plain_stderr"
  | json => "json"

def ofName? (s : String) : Option Format := all.find? (·.name = s)

theorem ofName?_name (f : Format) : ofName? f.name = some f := by
  cases f <;> decide

/-- Whether lines go to standard error. -/
def isStderr : Format → Bool
  | plainStderr => true
  | plain | json => false

def line (f : Format) (s : Stamped) : String :=
  match f with
  | plain | plainStderr => s.entry.plain ++ "\n"
  | json => s.toJson.text ++ "\n"

end Format
end Snooping.Log
