import Snooping.Log.Buffer
import Snooping.Log.Entry
import Snooping.Rows

/-! Levels and buffers of all facilities. -/
namespace Snooping.Log

/-- What may be logged: a facility's own level if it has one, else the global level. -/
structure Levels where
  global : Severity
  overrides : Rows Facility Severity

namespace Levels

def initial : Levels := ⟨.info, .empty⟩

/-- The levels of a logger that has no buffer. -/
def disabled : Levels := ⟨.emergency, .empty⟩

def level (l : Levels) (f : Facility) : Severity := (l.overrides.find? f).getD l.global

/-- A facility's own level, when it has one, is asked in place of the global one. -/
def allows (l : Levels) (severity : Severity) (f : Facility) : Bool :=
  match l.overrides.find? f with
  | some own => severity ≤ own
  | none => severity ≤ l.global

theorem allows_iff {l : Levels} {severity : Severity} {f : Facility} :
    l.allows severity f = true ↔ severity ≤ l.level f := by
  unfold allows level
  cases l.overrides.find? f <;> simp

end Levels

/-- An entry on offer: `logger` owns the buffer and `facility` is the tag that levels go by. -/
structure Record where
  logger : Facility
  severity : Severity
  facility : Facility
  message : String
  fields : List (String × String)
deriving DecidableEq

structure Registry where
  levels : Levels
  buffers : Rows Facility (Buffer Entry)

namespace Registry

def initial : Registry :=
  ⟨.initial, Facility.registered.foldl (fun r f => r.insert f (.ofFacility f)) .empty⟩

def isRegistered (r : Registry) (f : Facility) : Bool := r.buffers.contains f

/-- The levels that a logger goes by. -/
def levelsOf (r : Registry) (logger : Facility) : Levels :=
  if r.isRegistered logger then r.levels else .disabled

def shouldLog (r : Registry) (logger : Facility) (severity : Severity) (f : Facility) : Bool :=
  (r.levelsOf logger).allows severity f

def log (r : Registry) (x : Record) : Registry :=
  match r.buffers.find? x.logger with
  | none => r
  | some b =>
    if r.levels.allows x.severity x.facility then
      { r with
        buffers := r.buffers.insert x.logger
          (b.write (.of x.severity x.facility x.message x.fields)) }
    else r

def setGlobal (r : Registry) (s : Severity) : Registry :=
  { r with levels := { r.levels with global := s } }

def setFacility (r : Registry) (f : Facility) (s : Severity) : Registry :=
  { r with levels := { r.levels with overrides := r.levels.overrides.insert f s } }

def clearFacility (r : Registry) (f : Facility) : Registry :=
  { r with levels := { r.levels with overrides := r.levels.overrides.erase f } }

theorem level_setFacility (r : Registry) (f g : Facility) (s : Severity) :
    (r.setFacility f s).levels.level g = if g = f then s else r.levels.level g := by
  simp only [setFacility, Levels.level, Rows.find?_insert]
  split <;> rfl

theorem level_clearFacility (r : Registry) (f g : Facility) :
    (r.clearFacility f).levels.level g = if g = f then r.levels.global else r.levels.level g := by
  simp only [clearFacility, Levels.level, Rows.find?_erase]
  split <;> rfl

/-- Takes the oldest entry of one buffer. -/
def read? (r : Registry) (f : Facility) : Option (Entry × Registry) := do
  let b ← r.buffers.find? f
  let (e, b) ← b.read?
  return (e, { r with buffers := r.buffers.insert f b })

/-- All buffered entries, buffer by buffer. -/
def entries (r : Registry) : List (Facility × Entry) :=
  r.buffers.toList.flatMap fun (f, b) => b.entries.map fun e => (f, e)

/-- Empties every buffer; overruns stay counted. -/
def drained (r : Registry) : Registry :=
  { r with
    buffers := r.buffers.toList.foldl (fun rows (f, b) => rows.insert f b.drained) r.buffers }

def overruns (r : Registry) : Nat := r.buffers.toList.foldl (fun n (_, b) => n + b.overruns) 0

end Registry
end Snooping.Log
