import Snooping.Text.Ascii

/-! The components that log, and the room each has for entries. -/
namespace Snooping.Log

inductive Facility
  | agent
  | timeout
  | portGroup
  | expectation
  | transmission
  | classifier
  | controlChannel
  | runtime
  | test
  | unknown
deriving DecidableEq

namespace Facility

/-- The facilities with a buffer of their own: all but the fallback. -/
def registered : List Facility :=
  [agent, timeout, portGroup, expectation, transmission, classifier, controlChannel, runtime, test]

def all : List Facility := registered ++ [unknown]

def name : Facility → String
  | agent => "Agent"
  | timeout => "Timeout"
  | portGroup => "PortGroup"
  | expectation => "Expectation"
  | transmission => "Transmission"
  | classifier => "Classifier"
  | controlChannel => "ControlChannel"
  | runtime => "Runtime"
  | test => "Test"
  | unknown => "Unknown"

def code : Facility → Nat
  | agent => 0
  | timeout => 1
  | portGroup => 2
  | expectation => 3
  | transmission => 4
  | classifier => 5
  | controlChannel => 6
  | runtime => 7
  | test => 12
  | unknown => 255

/-- Codes without a facility fall back to `unknown`. -/
def ofCode (n : Nat) : Facility := (all.find? (·.code = n)).getD unknown

def ofName? (s : String) : Option Facility := all.find? (·.name = s)

theorem ofCode_code (f : Facility) : ofCode f.code = f := by
  cases f <;> rfl

theorem ofName?_name (f : Facility) : ofName? f.name = some f := by
  cases f <;> decide

/-- Reads a registered facility's name in any ASCII case. -/
def ofText? (s : String) : Option Facility :=
  registered.find? fun f => Text.asciiLower f.name = Text.asciiLower s

def unknownMessage (s : String) : String := "unknown log facility '" ++ s ++ "'"

/-- Facilities that log per packet. -/
def isHighFrequency : Facility → Bool
  | classifier | transmission => true
  | _ => false

/-- Entries that the facility's buffer holds. -/
def bufferSize : Facility → Nat
  | classifier => 4096
  | expectation | transmission => 2048
  | agent | runtime => 1024
  | _ => 512

end Facility
end Snooping.Log
