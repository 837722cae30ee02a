import Snooping.Json.Reader

/-!
Typed values in JSON. A value is read straight from its text, where only what is used has to be
holdable, or it is held in memory first. `room` is how many containers may still be entered.
-/
namespace Snooping.Json

abbrev Decoder (α : Type) := (held : Bool) → (room : Nat) → Json → Option α

/-- More containers inside one another are refused. -/
def maxDepth : Nat := 127

def decode (d : Decoder α) (s : String) : Option α := do d false maxDepth (← ofText? s)

def string? : Json → Option String
  | .string s => s
  | _ => none

/-- An integer literal below `bound`; minus zero is none. -/
def natBelow? (bound : Nat) : Json → Option Nat
  | .number (.integer false n) => if n < bound then some n else none
  | _ => none

def uint8? (j : Json) : Option UInt8 := (j.natBelow? UInt8.size).map UInt8.ofNat
def uint16? (j : Json) : Option UInt16 := (j.natBelow? UInt16.size).map UInt16.ofNat
def uint32? (j : Json) : Option UInt32 := (j.natBelow? UInt32.size).map UInt32.ofNat
def uint64? (j : Json) : Option UInt64 := (j.natBelow? UInt64.size).map UInt64.ofNat

def items? (room : Nat) : Json → Option (List Json)
  | .array items => if 0 < room then some items else none
  | _ => none

def listOf (d : Decoder α) : Decoder (List α) := fun held room j => do
  (← j.items? room).mapM (d held (room - 1))

def bytes? (room : Nat) (j : Json) : Option (List UInt8) := do (← j.items? room).mapM uint8?

/-- The members of an object whose names are all whole. -/
def members? (room : Nat) : Json → Option (List (String × Json))
  | .object members =>
    if 0 < room then members.mapM fun (k, j) => k.map fun k => (k, j) else none
  | _ => none

/-- The value of a name that occurs at most once. -/
def single? (members : List (String × α)) (name : String) : Option (Option α) :=
  match members.filter (·.1 = name) with
  | [] => some none
  | [(_, j)] => some (some j)
  | _ => none

/-- The values of the named fields: by name from an object, by position from an array. Unknown
names are passed over, and missing ones are left to the caller. -/
def fields? (names : List String) (room : Nat) (j : Json) : Option (List (Option Json)) :=
  match j with
  | .array items =>
    if 0 < room ∧ items.length ≤ names.length then
      some (items.map some ++ List.replicate (names.length - items.length) none)
    else none
  | j => do names.mapM (single? (← j.members? room))

/-- A variant with its content: a name alone, or the one member of an object. -/
def variant? (room : Nat) : Json → Option (String × Option Json)
  | .string (some name) => some (name, none)
  | .object [(some name, j)] => if 0 < room then some (name, some j) else none
  | _ => none

/-- The content of a variant that has none: nothing, null, or a held empty object. -/
def isUnit (held : Bool) : Option Json → Bool
  | none => true
  | some .null => true
  | some (.object []) => held
  | some _ => false

/-- One of a set of names. -/
def nameOf (ofName? : String → Option α) : Decoder α := fun held room j => do
  let (name, content) ← j.variant? room
  if isUnit held content then ofName? name else failure

/-- A value that may be missing. -/
def withDefault (a : α) (d : Json → Option α) : Option Json → Option α
  | none => some a
  | some j => d j

/-- A value that may be missing or null. -/
def optional (d : Json → Option α) : Option Json → Option (Option α)
  | none => some none
  | some .null => some none
  | some j => (d j).map some

/-- An object taken in whole, the value of `tag` split off. -/
def tagged? (tag : String) (members : List (String × Json)) :
    Option (Json × List (String × Json)) := do
  let t ← (← single? members tag)
  return (t, members.filter (·.1 ≠ tag))

end Snooping.Json
