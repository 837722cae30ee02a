import Snooping.Json.Escape
import Snooping.Text.Decimal

/-! Strict JSON text: no comments, no trailing commas, no leading zeros, nothing left over. -/
namespace Snooping.Json

def isBlank (c : Char) : Bool := c = ' ' || c = '\t' || c = '\n' || c = '\r'

def skipBlank (cs : List Char) : List Char := cs.dropWhile isBlank

/-- What stands after a backslash, other than a code unit. -/
def simpleEscape? : Char → Option Char
  | '"' => some '"'
  | '\\' => some '\\'
  | '/' => some '/'
  | 'b' => some '\x08'
  | 'f' => some '\x0c'
  | 'n' => some '\n'
  | 'r' => some '\r'
  | 't' => some '\t'
  | _ => none

/-- Reads up to the closing quote and answers what follows it. -/
def readPieces : List Char → Option (List Piece × List Char)
  | [] => none
  | '"' :: rest => some ([], rest)
  | '\\' :: 'u' :: a :: b :: c :: d :: rest => do
    let u ← Text.Hex.number? [a, b, c, d]
    let (ps, rest) ← readPieces rest
    return (.unit u :: ps, rest)
  | '\\' :: e :: rest => do
    let c ← simpleEscape? e
    let (ps, rest) ← readPieces rest
    return (.char c :: ps, rest)
  | c :: rest =>
    if c.toNat < 0x20 || c = '\\' then none
    else do
      let (ps, rest) ← readPieces rest
      return (.char c :: ps, rest)

def readText (cs : List Char) : Option (Text × List Char) := do
  let (ps, rest) ← readPieces cs
  return (textOfPieces ps, rest)

/-- A run of digits with what follows it; refused if empty. -/
def readDigits (cs : List Char) : Option (List Char × List Char) :=
  let ds := cs.takeWhile Char.isDigit
  if ds.isEmpty then none else some (ds, cs.dropWhile Char.isDigit)

def readFraction : List Char → Option (List Char × List Char)
  | '.' :: rest => readDigits rest
  | cs => some ([], cs)

/-- The exponent if one is written. -/
def readExponent : List Char → Option (Option Int × List Char)
  | e :: rest =>
    if e = 'e' || e = 'E' then
      match rest with
      | '-' :: rest => do
        let (ds, rest) ← readDigits rest
        return (some (-Int.ofNat (Nat.ofDigitChars 10 ds 0)), rest)
      | '+' :: rest => do
        let (ds, rest) ← readDigits rest
        return (some (Nat.ofDigitChars 10 ds 0), rest)
      | rest => do
        let (ds, rest) ← readDigits rest
        return (some (Nat.ofDigitChars 10 ds 0), rest)
    else some (none, e :: rest)
  | [] => some (none, [])

/-- Appends digits to `n` for as long as it has 64 bits, and counts the digits left over. -/
def appendDigits (n : Nat) : List Char → Nat × Nat
  | [] => (n, 0)
  | d :: ds =>
    let m := Nat.ofDigitChars 10 [d] n
    if m < UInt64.size then appendDigits m ds else (n, ds.length + 1)

/-- A number without its sign. A zero ends the digits that it starts. Digits before the point that
are left over raise the exponent, and an integer that has any becomes a decimal. -/
def readMagnitude (negative : Bool) (cs : List Char) : Option (Number × List Char) := do
  let (ds, rest) ← readDigits cs
  if ds.head? = some '0' && ds.length ≠ 1 then failure
  let (fs, rest) ← readFraction rest
  let (e, rest) ← readExponent rest
  let (n, above) := appendDigits 0 ds
  if above = 0 && fs.isEmpty && e.isNone then
    return (.integer negative n, rest)
  else
    let (m, below) := appendDigits n fs
    return (.decimal negative m (e.getD 0 + above - (fs.length - below : Nat)), rest)

def readNumber : List Char → Option (Number × List Char)
  | '-' :: rest => readMagnitude true rest
  | cs => readMagnitude false cs

mutual

/-- Reads one value and answers what follows it. The fuel bounds the nesting. -/
def readValue : Nat → List Char → Option (Json × List Char)
  | 0, _ => none
  | fuel + 1, cs =>
    match skipBlank cs with
    | 'n' :: 'u' :: 'l' :: 'l' :: rest => some (.null, rest)
    | 't' :: 'r' :: 'u' :: 'e' :: rest => some (.bool true, rest)
    | 'f' :: 'a' :: 'l' :: 's' :: 'e' :: rest => some (.bool false, rest)
    | '"' :: rest => do
      let (s, rest) ← readText rest
      return (.string s, rest)
    | '[' :: rest =>
      match skipBlank rest with
      | ']' :: rest => some (.array [], rest)
      | rest => do
        let (items, rest) ← readItems fuel rest
        return (.array items, rest)
    | '\x7b' :: rest =>
      match skipBlank rest with
      | '\x7d' :: rest => some (.object [], rest)
      | rest => do
        let (members, rest) ← readMembers fuel rest
        return (.object members, rest)
    | cs => do
      let (n, rest) ← readNumber cs
      return (.number n, rest)

/-- Reads the items up to the bracket that closes them. -/
def readItems : Nat → List Char → Option (List Json × List Char)
  | 0, _ => none
  | fuel + 1, cs => do
    let (j, rest) ← readValue fuel cs
    match skipBlank rest with
    | ',' :: rest =>
      let (items, rest) ← readItems fuel rest
      return (j :: items, rest)
    | ']' :: rest => return ([j], rest)
    | _ => none

def readMembers : Nat → List Char → Option (List (Text × Json) × List Char)
  | 0, _ => none
  | fuel + 1, cs =>
    match skipBlank cs with
    | '"' :: rest => do
      let (k, rest) ← readText rest
      match skipBlank rest with
      | ':' :: rest =>
        let (j, rest) ← readValue fuel rest
        match skipBlank rest with
        | ',' :: rest =>
          let (members, rest) ← readMembers fuel rest
          return ((k, j) :: members, rest)
        | '\x7d' :: rest => return ([(k, j)], rest)
        | _ => none
      | _ => none
    | _ => none

end

/-- Reads a whole text. Each level of nesting takes a character, so the fuel is enough. -/
def ofChars? (cs : List Char) : Option Json := do
  let (j, rest) ← readValue (2 * cs.length + 2) cs
  if (skipBlank rest).isEmpty then return j else failure

def ofText? (s : String) : Option Json := ofChars? s.toList

end Snooping.Json
