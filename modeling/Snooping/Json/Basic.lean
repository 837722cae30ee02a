import Snooping.Text.Rounding

/-! JSON values. Integers of 64 bits are exact. -/
namespace Snooping

/-- The content of a string; `none` if an escape spells half of a surrogate pair. -/
abbrev Json.Text := Option String

/-- A number literal. A decimal stands for `mantissa * 10 ^ exponent`. -/
inductive Json.Number
  | integer (negative : Bool) (magnitude : Nat)
  | decimal (negative : Bool) (mantissa : Nat) (exponent : Int)
deriving DecidableEq

/-- Members keep their order, and a name may occur twice. -/
inductive Json
  | null
  | bool (b : Bool)
  | number (n : Json.Number)
  | string (s : Json.Text)
  | array (items : List Json)
  | object (members : List (Json.Text × Json))

namespace Json

instance : Inhabited Json := ⟨null⟩

def str (s : String) : Json := .string (some s)

def nat (n : Nat) : Json := .number (.integer false n)

def obj (members : List (String × Json)) : Json := .object (members.map fun (k, v) => (some k, v))

def Number.isFinite : Number → Bool
  | integer _ n => Text.isFiniteProduct n 0
  | decimal _ m e => Text.isFiniteProduct m e

mutual

/-- Whether the value can be held in memory: texts are whole, numbers finite, and no more than
`room` containers lie inside one another. -/
def isHoldable (room : Nat) : Json → Bool
  | .null | .bool _ => true
  | .number n => n.isFinite
  | .string s => s.isSome
  | .array items => 0 < room && allHoldable (room - 1) items
  | .object members => 0 < room && membersHoldable (room - 1) members

def allHoldable (room : Nat) : List Json → Bool
  | [] => true
  | j :: rest => isHoldable room j && allHoldable room rest

def membersHoldable (room : Nat) : List (Text × Json) → Bool
  | [] => true
  | (k, j) :: rest => k.isSome && isHoldable room j && membersHoldable room rest

end

mutual

/-- How many containers lie inside one another. -/
def depth : Json → Nat
  | .array items => itemsDepth items + 1
  | .object members => membersDepth members + 1
  | _ => 0

def itemsDepth : List Json → Nat
  | [] => 0
  | j :: rest => max (depth j) (itemsDepth rest)

def membersDepth : List (Text × Json) → Nat
  | [] => 0
  | (_, j) :: rest => max (depth j) (membersDepth rest)

end

end Json
end Snooping
