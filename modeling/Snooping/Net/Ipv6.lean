import Snooping.Net.Checksum
import Snooping.Net.Ipv4
import Snooping.Text.Hex

/-! IPv6 addresses and their shortest text. -/
namespace Snooping

structure Ipv6 where
  segments : List UInt16
  length_eq : segments.length = 8

namespace Ipv6

instance : DecidableEq Ipv6 := fun a b =>
  decidable_of_iff (a.segments = b.segments) (by cases a; cases b; simp)

def ofSegments? (segments : List UInt16) : Option Ipv6 :=
  if h : segments.length = 8 then some ⟨segments, h⟩ else none

def groups (segments : List UInt16) : List Char :=
  [':'].intercalate (segments.map fun s => Nat.toDigits 16 s.toNat)

/-- Length of the run of zeros at the front. -/
def zeros (segments : List UInt16) : Nat := (segments.takeWhile (· = 0)).length

/-- Start and length of the first of the longest runs of zeros. -/
def longestZeros (segments : List UInt16) : Nat × Nat :=
  (List.range segments.length).foldl (fun best i =>
    let n := zeros (segments.drop i)
    if best.2 < n then (i, n) else best) (0, 0)

/-- The longest run of two or more zeros is left out, and a mapped IPv4 address stays dotted. -/
def chars (ip : Ipv6) : List Char :=
  match ip.segments with
  | [0, 0, 0, 0, 0, 0xffff, hi, lo] =>
    "::ffff:".toList ++
      Ipv4.chars ⟨(hi >>> 8).toUInt8, hi.toUInt8, (lo >>> 8).toUInt8, lo.toUInt8⟩
  | segments =>
    let (start, n) := longestZeros segments
    if 1 < n then
      groups (segments.take start) ++ [':', ':'] ++ groups (segments.drop (start + n))
    else groups segments

def isHexDigit (c : Char) : Bool := (Text.Hex.digit? c).isSome

/-- One to four digits, all that follow. -/
def readGroup (cs : List Char) : Option (UInt16 × List Char) :=
  let ds := cs.takeWhile isHexDigit
  if ds.isEmpty || 4 < ds.length then none
  else (Text.Hex.number? ds).map fun n => (UInt16.ofNat n, cs.dropWhile isHexDigit)

/-- What stands behind the colon that every group but the first needs. -/
def behindColon (first : Bool) (cs : List Char) : Option (List Char) :=
  if first then some cs
  else
    match cs with
    | ':' :: rest => some rest
    | _ => none

/-- Reads up to `n` groups. An IPv4 address may stand for the last two; the flag tells. -/
def readGroups : Nat → Bool → List Char → List UInt16 × Bool × List Char
  | 0, _, cs => ([], false, cs)
  | n + 1, first, cs =>
    match behindColon first cs with
    | none => ([], false, cs)
    | some body =>
      match if 0 < n then Ipv4.read? body else none with
      | some (ip, rest) => ([be16 ip.a ip.b, be16 ip.c ip.d], true, rest)
      | none =>
        match readGroup body with
        | none => ([], false, cs)
        | some (g, rest) =>
          let (gs, dotted, rest) := readGroups n false rest
          (g :: gs, dotted, rest)

/-- A double colon stands for one group of zeros at least. -/
def read? (cs : List Char) : Option (Ipv6 × List Char) :=
  match readGroups 8 true cs with
  | (head, dotted, rest) =>
    if head.length = 8 then (ofSegments? head).map (·, rest)
    else if dotted then none
    else
      match rest with
      | ':' :: ':' :: rest =>
        let (tail, _, rest) := readGroups (7 - head.length) true rest
        (ofSegments? (head ++ List.replicate (8 - head.length - tail.length) 0 ++ tail)).map
          (·, rest)
      | _ => none

end Ipv6
end Snooping
