import Snooping.Json.Reader
import Snooping.Json5.Basic
import Snooping.Text.Letter
import Snooping.Text.Mark

/-! JSON5 text: comments, trailing commas, bare names, single quotes and more numbers. -/
namespace Snooping.Json5

open Json (Piece readDigits)

def isLineTerminator (c : Char) : Bool :=
  c = '\n' || c = '\r' || c = '\u2028' || c = '\u2029'

/-- Spaces of Unicode category Zs. -/
def isSpaceSeparator (c : Char) : Bool :=
  let n := c.toNat
  n = 0x20 || n = 0xa0 || n = 0x1680 || (0x2000 ≤ n && n ≤ 0x200a) || n = 0x202f || n = 0x205f ||
    n = 0x3000

def isBlank (c : Char) : Bool :=
  c = '\t' || c = '\x0b' || c = '\x0c' || c = '\ufeff' || isSpaceSeparator c || isLineTerminator c

/-- Where skipping stands: between tokens, or in a comment of either kind. -/
inductive Skipping
  | between
  | line
  | block

/-- Leaves out blanks and comments. A block comment has to end. -/
def skipFrom : Skipping → List Char → Option (List Char)
  | .between, '/' :: '/' :: rest => skipFrom .line rest
  | .between, '/' :: '*' :: rest => skipFrom .block rest
  | .between, c :: rest => if isBlank c then skipFrom .between rest else some (c :: rest)
  | .between, [] => some []
  | .line, c :: rest => skipFrom (if isLineTerminator c then .between else .line) rest
  | .line, [] => some []
  | .block, '*' :: '/' :: rest => skipFrom .between rest
  | .block, _ :: rest => skipFrom .block rest
  | .block, [] => none

def skip (cs : List Char) : Option (List Char) := skipFrom .between cs

/-- Pairs of surrogates set bit 16 and do not add to it, so that an even plane is read as the odd
one below it. -/
def textOfPieces (ps : List Piece) : Json.Text :=
  (Json.joinUnits (0x10000 ||| ·) ps).map String.ofList

/-- What a character after a backslash stands for. Digits but zero, `x` and `u` stand for nothing
by themselves. -/
def simpleEscape? (c : Char) : Option Char :=
  match c with
  | 'b' => some '\x08'
  | 'f' => some '\x0c'
  | 'n' => some '\n'
  | 'r' => some '\r'
  | 't' => some '\t'
  | 'v' => some '\x0b'
  | '0' => some '\x00'
  | 'x' | 'u' => none
  | c => if c.isDigit || isLineTerminator c then none else some c

/-- Reads up to the closing quote and answers what follows it. -/
def readPieces (quote : Char) : List Char → Option (List Piece × List Char)
  | [] => none
  | '\\' :: 'u' :: a :: b :: c :: d :: rest => do
    let u ← Text.Hex.number? [a, b, c, d]
    let (ps, rest) ← readPieces quote rest
    return (.unit u :: ps, rest)
  | '\\' :: 'x' :: a :: b :: rest => do
    let n ← Text.Hex.number? [a, b]
    let (ps, rest) ← readPieces quote rest
    return (.char (Char.ofNat n) :: ps, rest)
  | '\\' :: '\r' :: '\n' :: rest => readPieces quote rest
  | '\\' :: e :: rest =>
    if isLineTerminator e then readPieces quote rest
    else do
      let c ← simpleEscape? e
      let (ps, rest) ← readPieces quote rest
      return (.char c :: ps, rest)
  | c :: rest =>
    if c = quote then some ([], rest)
    else if c = '\\' || isLineTerminator c then none
    else do
      let (ps, rest) ← readPieces quote rest
      return (.char c :: ps, rest)

def isNameStart (c : Char) : Bool := c = '$' || c = '_' || Text.isLetter c

def isNamePart (c : Char) : Bool :=
  isNameStart c || Text.isMark c || c = '\u200c' || c = '\u200d'

/-- The rest of a bare name, as far as it goes. -/
def readNameParts : List Char → List Piece × List Char
  | '\\' :: 'u' :: a :: b :: c :: d :: rest =>
    match Text.Hex.number? [a, b, c, d] with
    | some u =>
      let (ps, rest) := readNameParts rest
      (.unit u :: ps, rest)
    | none => ([], '\\' :: 'u' :: a :: b :: c :: d :: rest)
  | c :: rest =>
    if isNamePart c then
      let (ps, rest) := readNameParts rest
      (.char c :: ps, rest)
    else ([], c :: rest)
  | [] => ([], [])

def readName (cs : List Char) : Option (Name × List Char) :=
  match cs with
  | '"' :: rest => do
    let (ps, rest) ← readPieces '"' rest
    return (⟨textOfPieces ps, true⟩, rest)
  | '\'' :: rest => do
    let (ps, rest) ← readPieces '\'' rest
    return (⟨textOfPieces ps, true⟩, rest)
  | c :: _ =>
    if isNameStart c || c = '\\' then
      match readNameParts cs with
      | ([], _) => none
      | (ps, rest) => some (⟨textOfPieces ps, false⟩, rest)
    else none
  | [] => none

/-- A decimal number: digits on at least one side of the point, and no zero before other digits. -/
def readDecimal (sign : Sign) (cs : List Char) : Option (Number × List Char) := do
  let ds := cs.takeWhile Char.isDigit
  let rest := cs.dropWhile Char.isDigit
  if ds.head? = some '0' && ds.length ≠ 1 then failure
  let (fs, point, rest) :=
    match rest with
    | '.' :: rest => (rest.takeWhile Char.isDigit, true, rest.dropWhile Char.isDigit)
    | rest => ([], false, rest)
  if ds.isEmpty && fs.isEmpty then failure
  let (e, rest) ← Json.readExponent rest
  return (.decimal sign (Nat.ofDigitChars 10 (ds ++ fs) 0) (e.getD 0 - fs.length)
    (!point && e.isNone), rest)

def readMagnitude (sign : Sign) : List Char → Option (Number × List Char)
  | 'I' :: 'n' :: 'f' :: 'i' :: 'n' :: 'i' :: 't' :: 'y' :: rest => some (.infinity sign, rest)
  | 'N' :: 'a' :: 'N' :: rest => some (.nan sign, rest)
  | '0' :: x :: rest =>
    if x = 'x' || x = 'X' then
      let ds := rest.takeWhile fun c => (Text.Hex.digit? c).isSome
      if ds.isEmpty then none
      else
        (Text.Hex.number? ds).map fun n =>
          (.hex sign n, rest.dropWhile fun c => (Text.Hex.digit? c).isSome)
    else readDecimal sign ('0' :: x :: rest)
  | cs => readDecimal sign cs

def readNumber : List Char → Option (Number × List Char)
  | '+' :: rest => readMagnitude .plus rest
  | '-' :: rest => readMagnitude .minus rest
  | cs => readMagnitude .none cs

mutual

/-- Reads one value and answers what follows it. The fuel bounds the nesting. -/
def readValue : Nat → List Char → Option (Json5 × List Char)
  | 0, _ => none
  | fuel + 1, cs => do
    match ← skip cs with
    | 'n' :: 'u' :: 'l' :: 'l' :: rest => return (.null, rest)
    | 't' :: 'r' :: 'u' :: 'e' :: rest => return (.bool true, rest)
    | 'f' :: 'a' :: 'l' :: 's' :: 'e' :: rest => return (.bool false, rest)
    | '"' :: rest =>
      let (ps, rest) ← readPieces '"' rest
      return (.string (textOfPieces ps), rest)
    | '\'' :: rest =>
      let (ps, rest) ← readPieces '\'' rest
      return (.string (textOfPieces ps), rest)
    | '[' :: rest =>
      match ← skip rest with
      | ']' :: rest => return (.array [], rest)
      | rest =>
        let (items, rest) ← readItems fuel rest
        return (.array items, rest)
    | '\x7b' :: rest =>
      match ← skip rest with
      | '\x7d' :: rest => return (.object [], rest)
      | rest =>
        let (members, rest) ← readMembers fuel rest
        return (.object members, rest)
    | cs =>
      let (n, rest) ← readNumber cs
      return (.number n, rest)

/-- Reads the items up to the bracket that closes them; a comma may stand before it. -/
def readItems : Nat → List Char → Option (List Json5 × List Char)
  | 0, _ => none
  | fuel + 1, cs => do
    let (j, rest) ← readValue fuel cs
    match ← skip rest with
    | ']' :: rest => return ([j], rest)
    | ',' :: rest =>
      match ← skip rest with
      | ']' :: rest => return ([j], rest)
      | rest =>
        let (items, rest) ← readItems fuel rest
        return (j :: items, rest)
    | _ => none

def readMembers : Nat → List Char → Option (List (Name × Json5) × List Char)
  | 0, _ => none
  | fuel + 1, cs => do
    let (k, rest) ← readName (← skip cs)
    match ← skip rest with
    | ':' :: rest =>
      let (j, rest) ← readValue fuel rest
      match ← skip rest with
      | '\x7d' :: rest => return ([(k, j)], rest)
      | ',' :: rest =>
        match ← skip rest with
        | '\x7d' :: rest => return ([(k, j)], rest)
        | rest =>
          let (members, rest) ← readMembers fuel rest
          return ((k, j) :: members, rest)
      | _ => none
    | _ => none

end

/-- Reads a whole text. Each level of nesting takes a character, so the fuel is enough. -/
def ofChars? (cs : List Char) : Option Json5 := do
  let (j, rest) ← readValue (2 * cs.length + 2) cs
  if (← skip rest).isEmpty then return j else failure

def ofText? (s : String) : Option Json5 := ofChars? s.toList

end Snooping.Json5
