import Snooping.Table.InPlace
import Snooping.Table.Reading

/-! The four named intervals. A row of the timeout table overrides the default of its name. -/
namespace Snooping

/-- A span of time to the nanosecond, its seconds in 64 bits. -/
structure Duration where
  nanos : Nat
  fits : nanos < UInt64.size * 1000000000
deriving DecidableEq

namespace Duration

def ofMillis (ms : UInt64) : Duration where
  nanos := ms.toNat * 1000000
  fits := by
    have := ms.toNat_lt_size
    omega

/-- Whole milliseconds; a rest is left out. -/
def millis (d : Duration) : Nat := d.nanos / 1000000

/-- The milliseconds as they are kept, in 64 bits. -/
def kept (d : Duration) : UInt64 := .ofNat d.millis

@[simp] theorem millis_ofMillis (ms : UInt64) : (ofMillis ms).millis = ms.toNat :=
  Nat.mul_div_cancel ms.toNat (by decide)

@[simp] theorem kept_ofMillis (ms : UInt64) : (ofMillis ms).kept = ms := by
  rw [kept, millis_ofMillis, UInt64.ofNat_toNat]

end Duration

inductive TimeoutName
  | query
  | report
  | queryTx
  | reportTx
deriving DecidableEq

namespace TimeoutName

def all : List TimeoutName := [query, report, queryTx, reportTx]

def name : TimeoutName → String
  | query => "query_timeout"
  | report => "report_timeout"
  | queryTx => "query_tx_interval"
  | reportTx => "report_tx_interval"

/-- Milliseconds without a row. -/
def default : TimeoutName → Nat
  | query | report => 255000
  | queryTx | reportTx => 125000

def ofName? (s : String) : Option TimeoutName := all.find? (·.name = s)

theorem ofName?_name (n : TimeoutName) : ofName? n.name = some n := by
  cases n <;> decide

def ofText (s : String) : Except TableError TimeoutName :=
  match ofName? s with
  | some n => .ok n
  | none => .error (.unknownTimeout s)

end TimeoutName

structure TimeoutTable where
  query : Option Nat
  report : Option Nat
  queryTx : Option Nat
  reportTx : Option Nat
deriving DecidableEq

namespace TimeoutTable

def empty : TimeoutTable := ⟨none, none, none, none⟩

def configured? (t : TimeoutTable) : TimeoutName → Option Nat
  | .query => t.query
  | .report => t.report
  | .queryTx => t.queryTx
  | .reportTx => t.reportTx

def put (t : TimeoutTable) (n : TimeoutName) (v : Option Nat) : TimeoutTable :=
  match n with
  | .query => { t with query := v }
  | .report => { t with report := v }
  | .queryTx => { t with queryTx := v }
  | .reportTx => { t with reportTx := v }

theorem configured?_put (t : TimeoutTable) (n m : TimeoutName) (v : Option Nat) :
    (t.put n v).configured? m = if m = n then v else t.configured? m := by
  cases n <;> cases m <;> rfl

/-- The interval in force. -/
def get (t : TimeoutTable) (n : TimeoutName) : Nat := (t.configured? n).getD n.default

def keyReading : Reading TimeoutName := do
  let s ← .field .name
  .lift (TimeoutName.ofText s)

/-- The value is checked once the whole list has been read. -/
def parseValue (value : List Field) : Except TableError Duration := do
  let ms ← Reading.all (.field .intervalMs) value
  match checkInterval ms FieldKind.intervalMs.text with
  | .ok () => .ok (.ofMillis ms.toUInt64)
  | .error cause => .error (.invalidField .intervalMs cause)

def trace (message : String) (n : TimeoutName) (ms : Nat) : Trace :=
  .note .timeout .info message [("name", n.name), ("interval_ms", ms.repr)]

/-- Sets a row and says so. -/
def set (n : TimeoutName) (d : Duration) : InPlace TimeoutTable Unit := do
  .write (·.put n (some d.kept.toNat))
  .note (trace "timeout set" n d.millis)

/-- A startup row takes effect whether or not there is one already. -/
def applyInitial (n : TimeoutName) (d : Duration) : InPlace TimeoutTable Unit := set n d

def addInPlace (key value : List Field) : InPlace TimeoutTable Unit := do
  let n ← .check (keyReading.all key)
  let d ← .check (parseValue value)
  if ((← .look).configured? n).isSome then .refuse .alreadyExists
  set n d

def modifyInPlace (key value : List Field) : InPlace TimeoutTable Unit := do
  let n ← .check (keyReading.all key)
  let d ← .check (parseValue value)
  if ((← .look).configured? n).isNone then .refuse .notFound
  set n d

/-- Deleting a row restores the default. The row is taken out before it is known to be there. -/
def deleteInPlace (key : List Field) : InPlace TimeoutTable Unit := do
  let n ← .check (keyReading.all key)
  let old := (← .look).configured? n
  .write (·.put n none)
  if old.isNone then .refuse .notFound
  .note (trace "timeout restored to default" n n.default)

end TimeoutTable

/-- Rows in whole milliseconds, as a configuration has them. -/
instance : Coe (List (TimeoutName × Nat)) (List (TimeoutName × Duration)) :=
  ⟨List.map fun (n, ms) => (n, .ofMillis (.ofNat ms))⟩

end Snooping
