import Snooping.Json.Escape

/-! JSON text: compact on one line, or indented by two spaces. -/
namespace Snooping.Json

/-- A text that is not whole is written as the escape that makes it so. -/
def writeText : Text → List Char
  | some s => '"' :: escape s.toList ++ ['"']
  | none => ['"', '\\', 'u', 'd', '8', '0', '0', '"']

def writeSign (negative : Bool) : List Char := if negative then ['-'] else []

def writeNumber : Number → List Char
  | .integer negative n => writeSign negative ++ Nat.toDigits 10 n
  | .decimal negative m (.ofNat e) =>
    writeSign negative ++ Nat.toDigits 10 m ++ 'e' :: Nat.toDigits 10 e
  | .decimal negative m (.negSucc e) =>
    writeSign negative ++ Nat.toDigits 10 m ++ 'e' :: '-' :: Nat.toDigits 10 (e + 1)

def writeBool (b : Bool) : List Char :=
  if b then ['t', 'r', 'u', 'e'] else ['f', 'a', 'l', 's', 'e']

mutual

def write : Json → List Char
  | .null => ['n', 'u', 'l', 'l']
  | .bool b => writeBool b
  | .number n => writeNumber n
  | .string s => writeText s
  | .array [] => ['[', ']']
  | .array (j :: rest) => '[' :: write j ++ writeItems rest
  | .object [] => ['\x7b', '\x7d']
  | .object ((k, j) :: rest) => '\x7b' :: writeText k ++ ':' :: write j ++ writeMembers rest

/-- The items after the first, with the bracket that closes them. -/
def writeItems : List Json → List Char
  | [] => [']']
  | j :: rest => ',' :: write j ++ writeItems rest

def writeMembers : List (Text × Json) → List Char
  | [] => ['\x7d']
  | (k, j) :: rest => ',' :: writeText k ++ ':' :: write j ++ writeMembers rest

end

def text (j : Json) : String := String.ofList j.write

def newline (level : Nat) : List Char := '\n' :: List.replicate (2 * level) ' '

mutual

/-- Every item and member has a line of its own. -/
def writePretty (level : Nat) : Json → List Char
  | .null => ['n', 'u', 'l', 'l']
  | .bool b => writeBool b
  | .number n => writeNumber n
  | .string s => writeText s
  | .array [] => ['[', ']']
  | .array (j :: rest) =>
    '[' :: newline (level + 1) ++ writePretty (level + 1) j ++ prettyItems level rest
  | .object [] => ['\x7b', '\x7d']
  | .object ((k, j) :: rest) =>
    '\x7b' :: newline (level + 1) ++ writeText k ++ ':' :: ' ' :: writePretty (level + 1) j ++
      prettyMembers level rest

def prettyItems (level : Nat) : List Json → List Char
  | [] => newline level ++ [']']
  | j :: rest => ',' :: newline (level + 1) ++ writePretty (level + 1) j ++ prettyItems level rest

def prettyMembers (level : Nat) : List (Text × Json) → List Char
  | [] => newline level ++ ['\x7d']
  | (k, j) :: rest =>
    ',' :: newline (level + 1) ++ writeText k ++ ':' :: ' ' :: writePretty (level + 1) j ++
      prettyMembers level rest

end

def pretty (j : Json) : String := String.ofList (j.writePretty 0)

end Snooping.Json
