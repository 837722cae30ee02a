import Snooping.Text.Ascii

/-! Severities of log entries, the most severe first. -/
namespace Snooping.Log

inductive Severity
  | emergency
  | alert
  | critical
  | error
  | warning
  | notice
  | info
  | debug
deriving DecidableEq

namespace Severity

def all : List Severity := [emergency, alert, critical, error, warning, notice, info, debug]

def name : Severity → String
  | emergency => "emergency"
  | alert => "alert"
  | critical => "critical"
  | error => "error"
  | warning => "warning"
  | notice => "notice"
  | info => "info"
  | debug => "debug"

/-- The name as log lines show it. -/
def label : Severity → String
  | emergency => "EMERGENCY"
  | alert => "ALERT"
  | critical => "CRITICAL"
  | error => "ERROR"
  | warning => "WARNING"
  | notice => "NOTICE"
  | info => "INFO"
  | debug => "DEBUG"

/-- Lower is more severe. -/
def rank : Severity → Nat
  | emergency => 0
  | alert => 1
  | critical => 2
  | error => 3
  | warning => 4
  | notice => 5
  | info => 6
  | debug => 7

instance : LE Severity := ⟨fun a b => a.rank ≤ b.rank⟩

instance (a b : Severity) : Decidable (a ≤ b) := Nat.decLe a.rank b.rank

def ofRank? (n : Nat) : Option Severity := all.find? (·.rank = n)

def ofName? (s : String) : Option Severity := all.find? (·.name = s)

theorem ofRank?_rank (s : Severity) : ofRank? s.rank = some s := by
  cases s <;> rfl

theorem ofName?_name (s : Severity) : ofName? s.name = some s := by
  cases s <;> decide

/-- Short spellings that a level may be given by. -/
def aliases : List (String × Severity) :=
  [("emerg", emergency), ("crit", critical), ("err", error), ("warn", warning)]

/-- Reads a name or an alias in any ASCII case. -/
def ofText? (s : String) : Option Severity :=
  let t := Text.asciiLower s
  match ofName? t with
  | some v => some v
  | none => aliases.lookup t

def unknownMessage (s : String) : String := "unknown log level '" ++ Text.asciiLower s ++ "'"

end Severity
end Snooping.Log
