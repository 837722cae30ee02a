import Snooping.Log.Line
import Snooping.Log.Registry
import Snooping.Net.SocketAddress
import Snooping.Timeout

/-! The startup configuration, its defaults, and what it has to satisfy. -/
namespace Snooping

structure Config.Logging where
  level : Log.Severity
  format : Log.Format
  facilities : Rows Log.Facility Log.Severity
deriving DecidableEq

structure Config where
  controlSocket : String
  maxPorts : UInt32
  logging : Config.Logging
  prometheusAddress : Option SocketAddress
  timeouts : Rows TimeoutName UInt32
deriving DecidableEq

namespace Config

def defaultControlSocket : String := "/tmp/mcsnoop_control.sock"

def defaultMaxPorts : UInt32 := 256

def Logging.default : Logging := ⟨.info, .plain, .empty⟩

def default : Config := ⟨defaultControlSocket, defaultMaxPorts, .default, none, .empty⟩

inductive Error
  | emptySocketPath
  | invalidMaxPorts (n : UInt32)
  | invalidTimeout (name : TimeoutName) (cause : Invalid)
deriving DecidableEq

def Error.message : Error → String
  | emptySocketPath => "control_socket cannot be empty"
  | invalidMaxPorts n => "max_ports must be at least 1, got " ++ n.toNat.repr
  | invalidTimeout n cause => "invalid timeout '" ++ n.name ++ "': " ++ cause.message

def checkTimeouts : List (TimeoutName × UInt32) → Except Error Unit
  | [] => .ok ()
  | (n, ms) :: rest =>
    match checkInterval ms n.name with
    | .ok () => checkTimeouts rest
    | .error cause => .error (.invalidTimeout n cause)

/-- The first fault wins. -/
def validate (c : Config) : Except Error Unit :=
  if c.controlSocket = "" then .error .emptySocketPath
  else if c.maxPorts = 0 then .error (.invalidMaxPorts c.maxPorts)
  else checkTimeouts c.timeouts.toList

/-- Timeout rows to start with, always in the same order. -/
def initialTimeouts (c : Config) : List (TimeoutName × Nat) :=
  TimeoutName.all.filterMap fun n => (c.timeouts.find? n).map fun ms => (n, ms.toNat)

/-- The levels that the logging section asks for. -/
def Logging.levels (l : Logging) : Log.Levels := ⟨l.level, l.facilities⟩

/-- Empty buffers under those levels. -/
def Logging.registry (l : Logging) : Log.Registry :=
  { Log.Registry.initial with levels := l.levels }

end Config
end Snooping
