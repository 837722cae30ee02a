import Snooping.Log.Facility
import Snooping.Log.Severity
import Snooping.Text.Truncate

/-! Log entries with their limits on text and fields. -/
namespace Snooping.Log

def maxMessageBytes : Nat := 256
def maxFields : Nat := 4

structure Entry where
  severity : Severity
  facility : Facility
  message : String
  fields : List (String × String)
deriving DecidableEq

namespace Entry

/-- Long messages are cut between characters. -/
def new (severity : Severity) (facility : Facility) (message : String) : Entry :=
  ⟨severity, facility, Text.truncate maxMessageBytes message, []⟩

/-- Fields after the fourth are dropped. -/
def add (e : Entry) (field : String × String) : Entry :=
  if e.fields.length < maxFields then { e with fields := e.fields ++ [field] } else e

def of (severity : Severity) (facility : Facility) (message : String)
    (fields : List (String × String)) : Entry :=
  (fields.take maxFields).foldl add (new severity facility message)

/-- Adding fields puts the first ones that there is room for behind those that are there. -/
theorem foldl_add (e : Entry) (fields : List (String × String)) :
    fields.foldl add e =
      { e with fields := e.fields ++ fields.take (maxFields - e.fields.length) } := by
  induction fields generalizing e with
  | nil => simp
  | cons field fields ih =>
    rw [List.foldl_cons, ih, add]
    split
    · rename_i h
      obtain ⟨n, hn⟩ : ∃ n, maxFields - e.fields.length = n + 1 :=
        ⟨maxFields - e.fields.length - 1, by omega⟩
      have hrest : maxFields - (e.fields.length + 1) = n := by omega
      simp [hn, hrest]
    · rename_i h
      have hfull : maxFields - e.fields.length = 0 := by omega
      simp [hfull]

theorem of_eq (severity : Severity) (facility : Facility) (message : String)
    (fields : List (String × String)) :
    of severity facility message fields =
      ⟨severity, facility, Text.truncate maxMessageBytes message, fields.take maxFields⟩ := by
  rw [of, foldl_add]
  simp [new, List.take_take]

end Entry
end Snooping.Log
