import Snooping.Table.Field
import Snooping.Table.Id

/-! Why a table request is refused, and the class of each cause. -/
namespace Snooping

/-- A field of the right kind with a value out of bounds. -/
inductive Invalid
  | nameTooLong (name : String)
  | nameHasNul
  | portOutOfRange (port maxPorts : UInt32)
  | zeroInterval (context : String)
deriving DecidableEq

def maxNameBytes : Nat := 63

namespace Invalid

def message : Invalid → String
  | nameTooLong s =>
    "name '" ++ s ++ "' is " ++ s.utf8ByteSize.repr ++ " bytes, maximum is " ++ maxNameBytes.repr
  | nameHasNul => "name contains a NUL byte"
  | portOutOfRange p m =>
    "port " ++ p.toNat.repr ++ " out of range; valid ports are 0-" ++ (m.toNat - 1).repr
  | zeroInterval context => context ++ " must be greater than 0 ms"

end Invalid

/-- A port-group name has at most 63 UTF-8 bytes and no NUL. -/
def checkName (s : String) : Except Invalid Unit :=
  if maxNameBytes < s.utf8ByteSize then .error (.nameTooLong s)
  else if '\x00' ∈ s.toList then .error .nameHasNul
  else .ok ()

def checkPort (port maxPorts : UInt32) : Except Invalid Unit :=
  if maxPorts ≤ port then .error (.portOutOfRange port maxPorts) else .ok ()

def checkInterval (ms : UInt32) (context : String) : Except Invalid Unit :=
  if ms = 0 then .error (.zeroInterval context) else .ok ()

/-- The class of a refusal, as the controller sees it. -/
inductive ErrorCode
  | param
  | alreadyExists
  | notFound
  | notSupported
deriving DecidableEq

namespace ErrorCode

def all : List ErrorCode := [param, alreadyExists, notFound, notSupported]

def name : ErrorCode → String
  | param => "param"
  | alreadyExists => "exists"
  | notFound => "not_found"
  | notSupported => "not_supported"

def ofName? (s : String) : Option ErrorCode := all.find? (·.name = s)

theorem ofName?_name (c : ErrorCode) : ofName? c.name = some c := by
  cases c <;> decide

end ErrorCode

inductive TableError
  | missingField (kind : FieldKind)
  | wrongField (expected found : FieldKind)
  | trailingField (kind : FieldKind)
  | invalidField (kind : FieldKind) (cause : Invalid)
  | notMulticast (ip : Ipv4)
  | multicastSource (ip : Ipv4)
  | unknownTimeout (name : String)
  | badReferenceTable (table : String)
  | unresolvedReference (name : String)
  | unexpectedValue
  | alreadyExists
  | notFound
  | statsNotSupported (table : TableId)
deriving DecidableEq

namespace TableError

def message : TableError → String
  | missingField k => "missing " ++ k.text ++ " TLV"
  | wrongField e f => "expected " ++ e.text ++ " TLV, found " ++ f.text
  | trailingField k => "unexpected " ++ k.text ++ " TLV after the last expected field"
  | invalidField k cause => "invalid " ++ k.text ++ ": " ++ cause.message
  | notMulticast ip => ip.text ++ " is not a multicast group address"
  | multicastSource ip => "source address " ++ ip.text ++ " must not be multicast"
  | unknownTimeout s => "unknown timeout name '" ++ s ++ "'"
  | badReferenceTable t => "references into table '" ++ t ++ "' are not supported"
  | unresolvedReference s => "tx port group '" ++ s ++ "' does not exist"
  | unexpectedValue => "this table has no value fields"
  | alreadyExists => "entry already exists"
  | notFound => "entry not found"
  | statsNotSupported t => "get_stats is not supported on table '" ++ t.name ++ "'"

def code : TableError → ErrorCode
  | alreadyExists => .alreadyExists
  | notFound => .notFound
  | statsNotSupported _ => .notSupported
  | _ => .param

end TableError
end Snooping
