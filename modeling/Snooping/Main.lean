import Snooping.Config.Reading
import Snooping.Text.Utf8

/-! The command line: checks a configuration file and prints it in full. -/
namespace Snooping.CommandLine

def usage : String := "usage: snooping check-config FILE"

/-- The text of a configuration that passes its checks. -/
def checked (bytes : List UInt8) : Except String String :=
  match Text.Utf8.decode bytes with
  | .error f => .error f.message
  | .ok cs =>
    match Config.ofText? (String.ofList cs) with
    | none => .error "failed to parse config"
    | some c =>
      match c.validate with
      | .error e => .error e.message
      | .ok () => .ok c.text

def checkConfig (path : String) : IO UInt32 := do
  let bytes ← IO.FS.readBinFile path
  match checked bytes.toList with
  | .ok text =>
    IO.println text
    return 0
  | .error message =>
    IO.eprintln ("Error: " ++ message)
    return 1

end Snooping.CommandLine

def main (args : List String) : IO UInt32 :=
  match args with
  | ["check-config", path] => Snooping.CommandLine.checkConfig path
  | _ => do
    IO.eprintln Snooping.CommandLine.usage
    return 2
