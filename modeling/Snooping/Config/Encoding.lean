import Snooping.Config.Basic
import Snooping.Json.Decode
import Snooping.Json.Writer

/-! The configuration in JSON. -/
namespace Snooping

namespace Json

/-- An object whose names are keys; the last value of a key stays. -/
def rowsOf [DecidableEq κ] (key? : String → Option κ) (d : Decoder α) : Decoder (Rows κ α) :=
  fun held room j => do
    (← j.members? room).foldlM (fun rows (k, j) => do
      return rows.insert (← key? k) (← d held (room - 1) j)) .empty

end Json

def Rows.toJson (keyName : κ → String) (valueToJson : α → Json) (r : Rows κ α) : Json :=
  .obj (r.toList.map fun (k, a) => (keyName k, valueToJson a))

def Log.Severity.toJson (s : Log.Severity) : Json := .str s.name

def Log.Severity.decoder : Json.Decoder Log.Severity := Json.nameOf Log.Severity.ofName?

def Log.Facility.toJson (f : Log.Facility) : Json := .str f.name

def Log.Facility.decoder : Json.Decoder Log.Facility := Json.nameOf Log.Facility.ofName?

def Log.Format.toJson (f : Log.Format) : Json := .str f.name

def Log.Format.decoder : Json.Decoder Log.Format := Json.nameOf Log.Format.ofName?

def TimeoutName.toJson (n : TimeoutName) : Json := .str n.name

def TimeoutName.decoder : Json.Decoder TimeoutName := Json.nameOf TimeoutName.ofName?

def SocketAddress.ofJson? (j : Json) : Option SocketAddress := do ofText? (← j.string?)

namespace Config

def Logging.toJson (l : Logging) : Json :=
  .obj [("level", l.level.toJson), ("format", l.format.toJson),
    ("facilities", l.facilities.toJson Log.Facility.name Log.Severity.toJson)]

/-- An address that is not there is not written. -/
def toJson (c : Config) : Json :=
  .obj ([("control_socket", .str c.controlSocket), ("max_ports", .nat c.maxPorts.toNat),
      ("logging", c.logging.toJson)] ++
    (c.prometheusAddress.map fun a => ("prometheus_addr", .str a.text)).toList ++
    [("timeouts", c.timeouts.toJson TimeoutName.name fun ms => .nat ms.toNat)])

def text (c : Config) : String := c.toJson.pretty

def Logging.decoder : Json.Decoder Logging := fun held room j => do
  match ← j.fields? ["level", "format", "facilities"] room with
  | [level, format, facilities] =>
    return {
      level := ← Json.withDefault .info (Log.Severity.decoder held (room - 1)) level
      format := ← Json.withDefault .plain (Log.Format.decoder held (room - 1)) format
      facilities := ← Json.withDefault .empty
        (Json.rowsOf Log.Facility.ofName? Log.Severity.decoder held (room - 1)) facilities }
  | _ => none

def decoder : Json.Decoder Config := fun held room j => do
  match ← j.fields? ["control_socket", "max_ports", "logging", "prometheus_addr", "timeouts"]
      room with
  | [controlSocket, maxPorts, logging, prometheusAddress, timeouts] =>
    return {
      controlSocket := ← Json.withDefault defaultControlSocket Json.string? controlSocket
      maxPorts := ← Json.withDefault defaultMaxPorts Json.uint32? maxPorts
      logging := ← Json.withDefault .default (Logging.decoder held (room - 1)) logging
      prometheusAddress := ← Json.optional SocketAddress.ofJson? prometheusAddress
      timeouts := ← Json.withDefault .empty
        (Json.rowsOf TimeoutName.ofName? (fun _ _ => Json.uint32?) held (room - 1)) timeouts }
  | _ => none

end Config
end Snooping
