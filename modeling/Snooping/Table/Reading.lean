import Snooping.Net.Frame
import Snooping.Table.Error

/-! Reading keys and values field by field, each field once and in order. -/
namespace Snooping

/-- What one field has to be, and what it then means. -/
structure Expected (α : Type) where
  kind : FieldKind
  accept : Field → Except TableError α

/-- Takes fields from the front; the fields that are left come with the answer, also a refusal. -/
def Reading (α : Type) : Type := List Field → Except TableError α × List Field

namespace Reading

protected def pure (a : α) : Reading α := fun fields => (.ok a, fields)

protected def bind (r : Reading α) (f : α → Reading β) : Reading β := fun fields =>
  match r fields with
  | (.ok a, rest) => f a rest
  | (.error e, rest) => (.error e, rest)

instance : Monad Reading where
  pure := Reading.pure
  bind := Reading.bind

/-- Settles a value without taking a field. -/
def lift (x : Except TableError α) : Reading α := fun fields => (x, fields)

/-- A field of the wrong shape is used up; a missing one is not. -/
def field (e : Expected α) : Reading α
  | [] => (.error (.missingField e.kind), [])
  | f :: rest => (e.accept f, rest)

def finish : List Field → Except TableError Unit
  | [] => .ok ()
  | f :: _ => .error (.trailingField f.kind)

/-- Reads the whole list. -/
def all (r : Reading α) (fields : List Field) : Except TableError α :=
  match r fields with
  | (.ok a, rest) => (finish rest).map fun _ => a
  | (.error e, _) => .error e

end Reading

/-- Tables without value fields take only the empty list. -/
def expectEmpty : List Field → Except TableError Unit
  | [] => .ok ()
  | _ :: _ => .error .unexpectedValue

namespace Expected

def name : Expected String where
  kind := .name
  accept
    | .name s => match checkName s with
      | .ok () => .ok s
      | .error cause => .error (.invalidField .name cause)
    | f => .error (.wrongField .name f.kind)

/-- Only the low 12 bits are kept. -/
def vlanVid : Expected UInt16 where
  kind := .vlanVid
  accept
    | .vlanVid v => .ok (v &&& vidMask)
    | f => .error (.wrongField .vlanVid f.kind)

def group : Expected Ipv4 where
  kind := .ipv4
  accept
    | .ipv4 ip => if ip.isMulticast then .ok ip else .error (.notMulticast ip)
    | f => .error (.wrongField .ipv4 f.kind)

def source : Expected Ipv4 where
  kind := .ipv4Src
  accept
    | .ipv4Src ip => if ip.isMulticast then .error (.multicastSource ip) else .ok ip
    | f => .error (.wrongField .ipv4Src f.kind)

def ethSrc : Expected Mac where
  kind := .ethSrc
  accept
    | .ethSrc m => .ok m
    | f => .error (.wrongField .ethSrc f.kind)

def portNo (maxPorts : UInt32) : Expected UInt32 where
  kind := .portNo
  accept
    | .portNo p => match checkPort p maxPorts with
      | .ok () => .ok p
      | .error cause => .error (.invalidField .portNo cause)
    | f => .error (.wrongField .portNo f.kind)

def intervalMs : Expected UInt32 where
  kind := .intervalMs
  accept
    | .intervalMs ms => .ok ms
    | f => .error (.wrongField .intervalMs f.kind)

/-- Answers the key of the row that is referred to. -/
def reference (table : String) : Expected (List Field) where
  kind := .reference
  accept
    | .reference t key => if t = table then .ok key else .error (.badReferenceTable t)
    | f => .error (.wrongField .reference f.kind)

end Expected
end Snooping
