import Snooping.Json.Basic
import Snooping.Text.Rounding

/-! JSON5 values, as exact as their text. -/
namespace Snooping

inductive Json5.Sign
  | none
  | plus
  | minus
deriving DecidableEq

/-- A number literal. A whole decimal has neither point nor exponent. -/
inductive Json5.Number
  | hex (sign : Json5.Sign) (n : Nat)
  | decimal (sign : Json5.Sign) (mantissa : Nat) (exponent : Int) (whole : Bool)
  | infinity (sign : Json5.Sign)
  | nan (sign : Json5.Sign)
deriving DecidableEq

/-- A member's name, which may stand without quotes. -/
structure Json5.Name where
  text : Json.Text
  quoted : Bool
deriving DecidableEq

inductive Json5
  | null
  | bool (b : Bool)
  | number (n : Json5.Number)
  | string (s : Json.Text)
  | array (items : List Json5)
  | object (members : List (Json5.Name × Json5))

namespace Json5

instance : Inhabited Json5 := ⟨null⟩

/-- The number as 32 bits: cut to its whole part and kept within bounds. A hexadecimal number has
no sign and fits, infinity and NaN have no plus, and the rest is finite. -/
def Number.uint32? : Number → Option UInt32
  | hex .none n => if n < UInt32.size then some (UInt32.ofNat n) else Option.none
  | hex _ _ => Option.none
  | decimal sign m e _ =>
    if !Text.isFiniteDecimal m e then Option.none
    else if sign = .minus then some 0
    else some (UInt32.ofNat (Text.decimalWholePart (UInt32.size - 1) m e))
  | infinity .none => some (UInt32.ofNat (UInt32.size - 1))
  | infinity .minus | nan .none | nan .minus => some 0
  | infinity .plus | nan .plus => Option.none

/-- Whether the number can be taken in when nothing asks for it. Whole decimals have 64 bits. -/
def Number.isHoldable : Number → Bool
  | hex sign n => sign == .none && n < UInt32.size
  | decimal .minus m _ true => m ≤ Nat.pow 2 63
  | decimal _ m _ true => m < Nat.pow 2 63
  | decimal _ m e false => Text.isFiniteDecimal m e
  | infinity sign | nan sign => sign != .plus

mutual

/-- Whether the value can be taken in when nothing asks for it. -/
def isHoldable : Json5 → Bool
  | .null | .bool _ => true
  | .number n => n.isHoldable
  | .string s => s.isSome
  | .array items => allHoldable items
  | .object members => membersHoldable members

def allHoldable : List Json5 → Bool
  | [] => true
  | j :: rest => isHoldable j && allHoldable rest

def membersHoldable : List (Name × Json5) → Bool
  | [] => true
  | (k, j) :: rest => k.text.isSome && isHoldable j && membersHoldable rest

end

end Json5
end Snooping
