import Snooping.Table.Error
import Snooping.Trace

/-!
Operations that write a state in place, one write after the other. What an operation has written
stays written when it is refused afterwards.
-/
namespace Snooping

/-- What an operation leaves behind, refused or not. -/
structure Done (σ α : Type) where
  answer : Except TableError α
  state : σ
  traces : List Trace

def InPlace (σ α : Type) : Type := σ → Done σ α

namespace InPlace

variable {σ τ α β : Type}

protected def pure (a : α) : InPlace σ α := fun s => ⟨.ok a, s, []⟩

protected def bind (m : InPlace σ α) (f : α → InPlace σ β) : InPlace σ β := fun s =>
  match m s with
  | ⟨.error e, s, traces⟩ => ⟨.error e, s, traces⟩
  | ⟨.ok a, s, traces⟩ =>
    let d := f a s
    { d with traces := traces ++ d.traces }

instance : Monad (InPlace σ) where
  pure := InPlace.pure
  bind := InPlace.bind

/-- Goes on with the value, if there is one. -/
def check (x : Except TableError α) : InPlace σ α := fun s => ⟨x, s, []⟩

def refuse (e : TableError) : InPlace σ α := check (.error e)

/-- The state as it has been written so far. -/
def look : InPlace σ σ := fun s => ⟨.ok s, s, []⟩

def write (f : σ → σ) : InPlace σ Unit := fun s => ⟨.ok (), f s, []⟩

def note (t : Trace) : InPlace σ Unit := fun s => ⟨.ok (), s, [t]⟩

/-- A part of a state that can be exchanged. -/
structure Part (σ τ : Type) where
  get : σ → τ
  put : σ → τ → σ
  put_get : ∀ s, put s (get s) = s

/-- An operation on a part of the state, which is put back also when that is refused. -/
def within (p : Part σ τ) (m : InPlace τ α) : InPlace σ α := fun s =>
  let d := m (p.get s)
  { d with state := p.put s d.state }

end InPlace
end Snooping
