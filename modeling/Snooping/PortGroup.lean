import Snooping.Table.InPlace
import Snooping.Table.Reading

/-! Port groups: the group that a port receives for, and the port that a group sends on. -/
namespace Snooping

abbrev RxPorts := Rows UInt32 String
abbrev TxPorts := Rows String UInt32

namespace RxPorts

def keyReading (maxPorts : UInt32) : Reading UInt32 := .field (.portNo maxPorts)

def valueReading : Reading String := .field .name

def trace (message : String) (port : UInt32) (name : String) : Trace :=
  .note .portGroup .info message [("port", port.toNat.repr), ("name", name)]

def addInPlace (maxPorts : UInt32) (key value : List Field) : InPlace RxPorts Unit := do
  let port ← .check ((keyReading maxPorts).all key)
  let name ← .check (valueReading.all value)
  if (← .look).contains port then .refuse .alreadyExists
  .note (trace "rx port group added" port name)
  .write (·.insert port name)

def modifyInPlace (maxPorts : UInt32) (key value : List Field) : InPlace RxPorts Unit := do
  let port ← .check ((keyReading maxPorts).all key)
  let name ← .check (valueReading.all value)
  if !(← .look).contains port then .refuse .notFound
  .note (trace "rx port group modified" port name)
  .write (·.insert port name)

/-- The row is taken out before it is known to be there. -/
def deleteInPlace (maxPorts : UInt32) (key : List Field) : InPlace RxPorts Unit := do
  let port ← .check ((keyReading maxPorts).all key)
  let old := (← .look).find? port
  .write (·.erase port)
  match old with
  | none => .refuse .notFound
  | some name => .note (trace "rx port group deleted" port name)

end RxPorts

namespace TxPorts

def keyReading : Reading String := .field .name

def valueReading (maxPorts : UInt32) : Reading UInt32 := .field (.portNo maxPorts)

def trace (message : String) (name : String) (port : UInt32) : Trace :=
  .note .portGroup .info message [("name", name), ("port", port.toNat.repr)]

def addInPlace (maxPorts : UInt32) (key value : List Field) : InPlace TxPorts Unit := do
  let name ← .check (keyReading.all key)
  let port ← .check ((valueReading maxPorts).all value)
  if (← .look).contains name then .refuse .alreadyExists
  .note (trace "tx port group added" name port)
  .write (·.insert name port)

def modifyInPlace (maxPorts : UInt32) (key value : List Field) : InPlace TxPorts Unit := do
  let name ← .check (keyReading.all key)
  let port ← .check ((valueReading maxPorts).all value)
  if !(← .look).contains name then .refuse .notFound
  .write (·.insert name port)
  .note (trace "tx port group modified" name port)

/-- The row is taken out before it is known to be there. -/
def deleteInPlace (key : List Field) : InPlace TxPorts Unit := do
  let name ← .check (keyReading.all key)
  let old := (← .look).find? name
  .write (·.erase name)
  match old with
  | none => .refuse .notFound
  | some port => .note (trace "tx port group deleted" name port)

/-- The name that a reference to a row of this table spells. With `rows` the row has to exist. -/
def resolve (rows : Option TxPorts) (key : List Field) : Except TableError String := do
  let name ← keyReading.all key
  match rows with
  | none => return name
  | some t => if t.contains name then return name else throw (.unresolvedReference name)

end TxPorts
end Snooping
