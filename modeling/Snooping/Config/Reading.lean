import Snooping.Config.Encoding
import Snooping.Json5.Decode

/-!
Reading the configuration from JSON5 text. The indented JSON of `Config.text` is such text too, but
for two line separators that JSON does not escape.
-/
namespace Snooping.Config

def Logging.ofJson5? (j : Json5) : Option Logging := do
  match ← j.fields? ["level", "format", "facilities"] with
  | [level, format, facilities] =>
    let severity := Json5.nameOf? Log.Severity.ofName?
    return {
      level := ← Json5.withDefault .info severity level
      format := ← Json5.withDefault .plain (Json5.nameOf? Log.Format.ofName?) format
      facilities := ← Json5.withDefault .empty
        (Json5.rowsOf? Log.Facility.ofName? severity) facilities }
  | _ => none

def ofJson5? (j : Json5) : Option Config := do
  match ← j.fields? ["control_socket", "max_ports", "logging", "prometheus_addr", "timeouts"] with
  | [controlSocket, maxPorts, logging, prometheusAddress, timeouts] =>
    return {
      controlSocket := ← Json5.withDefault defaultControlSocket Json5.string? controlSocket
      maxPorts := ← Json5.withDefault defaultMaxPorts Json5.uint32? maxPorts
      logging := ← Json5.withDefault .default Logging.ofJson5? logging
      prometheusAddress := ←
        Json5.optional (fun j => do SocketAddress.ofText? (← j.string?)) prometheusAddress
      timeouts := ← Json5.withDefault .empty
        (Json5.rowsOf? TimeoutName.ofName? Json5.uint32?) timeouts }
  | _ => none

def ofText? (s : String) : Option Config := do ofJson5? (← Json5.ofText? s)

end Snooping.Config
