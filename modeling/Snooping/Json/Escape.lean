import Snooping.Json.Basic
import Snooping.Text.Hex

/-! The inside of a JSON string: escapes on the way out, and code units on the way in. -/
namespace Snooping.Json

/-- Quotes, backslashes and controls are escaped; everything else stands for itself. -/
def escapeChar (c : Char) : List Char :=
  match c with
  | '"' => ['\\', '"']
  | '\\' => ['\\', '\\']
  | '\x08' => ['\\', 'b']
  | '\x0c' => ['\\', 'f']
  | '\n' => ['\\', 'n']
  | '\r' => ['\\', 'r']
  | '\t' => ['\\', 't']
  | c => if c.toNat < 0x20 then ['\\', 'u'] ++ Text.Hex.padded 4 c.toNat else [c]

def escape (s : List Char) : List Char := s.flatMap escapeChar

/-- One written item of a string: a character, or a 16-bit unit of an escape. -/
inductive Piece
  | char (c : Char)
  | unit (u : Nat)
deriving DecidableEq

def isHighSurrogate (u : Nat) : Bool := 0xd800 ≤ u && u < 0xdc00

def isLowSurrogate (u : Nat) : Bool := 0xdc00 ≤ u && u < 0xe000

/-- The twenty bits that a pair of surrogates spells. -/
def pairBits (high low : Nat) : Nat := (high - 0xd800) * 0x400 + (low - 0xdc00)

/-- Joins pairs of surrogate units, whose bits `code` turns into a code point. A unit without its
other half leaves no text. -/
def joinUnits (code : Nat → Nat) : List Piece → Option (List Char)
  | [] => some []
  | .char c :: rest => (joinUnits code rest).map (c :: ·)
  | .unit u :: .unit v :: rest =>
    if isHighSurrogate u then
      if isLowSurrogate v then
        (joinUnits code rest).map (Char.ofNat (code (pairBits u v)) :: ·)
      else none
    else if isLowSurrogate u then none
    else (joinUnits code (.unit v :: rest)).map (Char.ofNat u :: ·)
  | .unit u :: rest =>
    if isHighSurrogate u || isLowSurrogate u then none
    else (joinUnits code rest).map (Char.ofNat u :: ·)

def textOfPieces (ps : List Piece) : Json.Text := (joinUnits (0x10000 + ·) ps).map String.ofList

end Snooping.Json
