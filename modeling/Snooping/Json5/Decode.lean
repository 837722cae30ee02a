import Snooping.Json.Decode
import Snooping.Json5.Reader
import Snooping.Rows

/-! Typed values in JSON5. Values that nothing asks for are still taken in, but those behind the
last field of an array are not looked at. -/
namespace Snooping.Json5

def string? : Json5 → Option String
  | .string s => s
  | _ => none

def uint32? : Json5 → Option UInt32
  | .number n => n.uint32?
  | _ => none

def members? (members : List (Name × Json5)) : Option (List (String × Json5)) :=
  members.mapM fun (k, j) => k.text.map fun k => (k, j)

/-- The values of the named fields: by name from an object, by position from an array. -/
def fields? (names : List String) : Json5 → Option (List (Option Json5))
  | .array items =>
    some ((items.map some ++ List.replicate names.length none).take names.length)
  | .object members => do
    let members ← members? members
    if members.all fun (k, j) => k ∈ names || j.isHoldable then
      names.mapM (Json.single? members)
    else failure
  | _ => none

/-- One of a set of names: a string, or the first name of an object. -/
def nameOf? (ofName? : String → Option α) : Json5 → Option α
  | .string s => do ofName? (← s)
  | .object ((k, _) :: _) => do ofName? (← k.text)
  | _ => none

/-- An object whose names are quoted keys; the last value of a key stays. -/
def rowsOf? [DecidableEq κ] (key? : String → Option κ) (d : Json5 → Option α) :
    Json5 → Option (Rows κ α)
  | .object members =>
    members.foldlM (fun rows (k, j) => do
      if !k.quoted then failure
      return rows.insert (← key? (← k.text)) (← d j)) .empty
  | _ => none

/-- A value that may be missing. -/
def withDefault (a : α) (d : Json5 → Option α) : Option Json5 → Option α
  | none => some a
  | some j => d j

/-- A value that may be missing or null. -/
def optional (d : Json5 → Option α) : Option Json5 → Option (Option α)
  | none => some none
  | some .null => some none
  | some j => (d j).map some

end Snooping.Json5
