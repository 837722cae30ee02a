import Snooping.Net.Ipv6

/-! Addresses with a port. -/
namespace Snooping

/-- An IPv6 address may name the scope it is valid in. -/
inductive SocketAddress
  | v4 (ip : Ipv4) (port : UInt16)
  | v6 (ip : Ipv6) (scope : UInt32) (port : UInt16)
deriving DecidableEq

namespace SocketAddress

/-- Scope zero is not written. -/
def chars : SocketAddress → List Char
  | v4 ip port => ip.chars ++ ':' :: Nat.toDigits 10 port.toNat
  | v6 ip scope port =>
    '[' :: ip.chars ++ (if scope = 0 then [] else '%' :: Nat.toDigits 10 scope.toNat) ++
      ']' :: ':' :: Nat.toDigits 10 port.toNat

def text (a : SocketAddress) : String := String.ofList a.chars

def readPort : List Char → Option UInt16
  | ':' :: ds => do
    let n ← Text.Decimal.nat? ds
    if n < UInt16.size then return UInt16.ofNat n else failure
  | _ => none

/-- The scope, zero if none is named. -/
def readScope : List Char → Option (UInt32 × List Char)
  | '%' :: cs => do
    let n ← Text.Decimal.nat? (cs.takeWhile Char.isDigit)
    if n < UInt32.size then return (UInt32.ofNat n, cs.dropWhile Char.isDigit) else failure
  | cs => some (0, cs)

def ofChars? (cs : List Char) : Option SocketAddress :=
  match cs with
  | '[' :: cs => do
    let (ip, cs) ← Ipv6.read? cs
    let (scope, cs) ← readScope cs
    match cs with
    | ']' :: cs => return v6 ip scope (← readPort cs)
    | _ => none
  | cs => do
    let (ip, cs) ← Ipv4.read? cs
    return v4 ip (← readPort cs)

def ofText? (s : String) : Option SocketAddress := ofChars? s.toList

end SocketAddress
end Snooping
