import Snooping.Text.Decimal

/-! IPv4 addresses and their dotted text. -/
namespace Snooping

structure Ipv4 where
  a : UInt8
  b : UInt8
  c : UInt8
  d : UInt8
deriving DecidableEq

namespace Ipv4

def unspecified : Ipv4 := ⟨0, 0, 0, 0⟩

def octets (ip : Ipv4) : List UInt8 := [ip.a, ip.b, ip.c, ip.d]

/-- 224.0.0.0/4. -/
def isMulticast (ip : Ipv4) : Bool := ip.a &&& 0xf0 == 0xe0

def chars (ip : Ipv4) : List Char :=
  Nat.toDigits 10 ip.a.toNat ++ '.' :: Nat.toDigits 10 ip.b.toNat ++ '.' ::
    Nat.toDigits 10 ip.c.toNat ++ '.' :: Nat.toDigits 10 ip.d.toNat

def text (ip : Ipv4) : String := String.ofList ip.chars

/-- One to three digits, no leading zero, at most 255. -/
def octet? (cs : List Char) : Option UInt8 :=
  if cs.length ≤ 3 ∧ (cs.head? = some '0' → cs.length = 1) then
    match Text.Decimal.nat? cs with
    | some n => if n < 256 then some (UInt8.ofNat n) else none
    | none => none
  else none

/-- Reads all digits that follow as one octet, and answers what is behind them. -/
def readOctet (cs : List Char) : Option (UInt8 × List Char) := do
  return (← octet? (cs.takeWhile Char.isDigit), cs.dropWhile Char.isDigit)

def readDot : List Char → Option (List Char)
  | '.' :: rest => some rest
  | _ => none

def read? (cs : List Char) : Option (Ipv4 × List Char) := do
  let (a, cs) ← readOctet cs
  let (b, cs) ← readOctet (← readDot cs)
  let (c, cs) ← readOctet (← readDot cs)
  let (d, cs) ← readOctet (← readDot cs)
  return (⟨a, b, c, d⟩, cs)

def ofChars? (cs : List Char) : Option Ipv4 :=
  match read? cs with
  | some (ip, []) => some ip
  | _ => none

def ofText? (s : String) : Option Ipv4 := ofChars? s.toList

theorem octet?_toDigits (o : UInt8) : octet? (Nat.toDigits 10 o.toNat) = some o := by
  have ho : o.toNat < 256 := UInt8.toNat_lt o
  have hl : (Nat.toDigits 10 o.toNat).length ≤ 3 :=
    (Nat.length_toDigits_le_iff (by decide) (by decide)).mpr (by omega)
  have hz : (Nat.toDigits 10 o.toNat).head? = some '0' → (Nat.toDigits 10 o.toNat).length = 1 := by
    intro h
    rw [Text.Decimal.eq_zero_of_head?_toDigits h]
    decide
  rw [octet?, if_pos ⟨hl, hz⟩, Text.Decimal.nat?_toDigits]
  simp [ho]

theorem readOctet_toDigits_append (o : UInt8) {rest : List Char}
    (h : rest.takeWhile Char.isDigit = []) :
    readOctet (Nat.toDigits 10 o.toNat ++ rest) = some (o, rest) := by
  simp [readOctet, Text.Decimal.takeWhile_toDigits_append _ h,
    Text.Decimal.dropWhile_toDigits_append _ h, octet?_toDigits]

theorem read?_chars_append (ip : Ipv4) {rest : List Char}
    (h : rest.takeWhile Char.isDigit = []) : read? (ip.chars ++ rest) = some (ip, rest) := by
  have hd (cs : List Char) : ('.' :: cs).takeWhile Char.isDigit = [] := rfl
  simp only [read?, chars, List.append_assoc, List.cons_append, readDot, Option.bind_eq_bind,
    Option.bind_some, readOctet_toDigits_append _ (hd _), readOctet_toDigits_append _ h,
    Option.pure_def]

theorem ofText?_text (ip : Ipv4) : ofText? ip.text = some ip := by
  have h : read? (ip.chars ++ []) = some (ip, []) := read?_chars_append ip rfl
  rw [List.append_nil] at h
  rw [ofText?, text, String.toList_ofList, ofChars?, h]

end Ipv4
end Snooping
