import Snooping.Expiry.Queue

/-! The bounded service of due keys. -/
namespace Snooping.Expiry

/-- At most this many keys are serviced at a time. -/
def maxServiced : Nat := 32

/-- Milliseconds to the next tick while due keys are waiting. -/
def busyDelay : Nat := 100

/-- Milliseconds to the next tick when none is. -/
def idleDelay : Nat := 1000

namespace Queue

variable {κ σ ε : Type} [DecidableEq κ]

/-- What a drain leaves behind. -/
structure Drained (κ σ : Type) where
  queue : Queue κ
  state : σ
  processed : Nat

/-- Serves up to `n` due keys in order and registers each again one interval after `now`. -/
def serve (act : κ → σ → Except ε σ) (now interval : Nat) :
    Nat → Queue κ → σ → Except ε (Drained κ σ)
  | 0, q, s => .ok ⟨q, s, 0⟩
  | n + 1, q, s =>
    match q.popExpired? now with
    | none => .ok ⟨q, s, 0⟩
    | some (k, q) =>
      match act k s with
      | .error e => .error e
      | .ok s =>
        match serve act now interval n (q.insert k (now + interval)) s with
        | .error e => .error e
        | .ok d => .ok { d with processed := d.processed + 1 }

def drain (act : κ → σ → Except ε σ) (now interval : Nat) (q : Queue κ) (s : σ) :
    Except ε (Drained κ σ) :=
  serve act now interval maxServiced q s

/-- Waiting due keys shorten the delay to the next tick. -/
def delay (q : Queue κ) (now : Nat) : Nat := if q.hasExpired now then busyDelay else idleDelay

end Queue
end Snooping.Expiry
