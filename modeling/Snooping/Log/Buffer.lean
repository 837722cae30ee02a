import Snooping.Log.Facility

/-! A bounded buffer that drops the newest entries once it is full. -/
namespace Snooping.Log

structure Buffer (α : Type) where
  capacity : Nat
  entries : List α
  overruns : Nat
deriving DecidableEq

namespace Buffer

variable {α : Type}

/-- A buffer has room for at least one entry. -/
def new? (capacity : Nat) : Option (Buffer α) :=
  if capacity = 0 then none else some ⟨capacity, [], 0⟩

def zeroCapacityMessage : String := "log buffer capacity must be non-zero"

def ofFacility (f : Facility) : Buffer α := ⟨f.bufferSize, [], 0⟩

def write (b : Buffer α) (e : α) : Buffer α :=
  if b.capacity ≤ b.entries.length then { b with overruns := b.overruns + 1 }
  else { b with entries := b.entries ++ [e] }

theorem length_write_le (b : Buffer α) (e : α) (h : b.entries.length ≤ b.capacity) :
    (b.write e).entries.length ≤ (b.write e).capacity := by
  unfold write
  split
  · exact h
  · simp only [List.length_append, List.length_singleton]
    omega

def writeAll (b : Buffer α) (es : List α) : Buffer α := es.foldl write b

/-- Takes the oldest entry. -/
def read? (b : Buffer α) : Option (α × Buffer α) :=
  match b.entries with
  | [] => none
  | e :: rest => some (e, { b with entries := rest })

def drained (b : Buffer α) : Buffer α := { b with entries := [] }

end Buffer
end Snooping.Log
