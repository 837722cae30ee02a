import Snooping.EventLoop

/-! The event loop on a clock, from its start to its shutdown. -/
namespace Snooping

structure Run where
  loop : EventLoop
  now : Nat
  isRunning : Bool

namespace Run

inductive Input
  | event (e : EventLoop.Event)
  | sleep (ms : Nat)
  | shutdown

/-- What the sender of an input hears. -/
inductive Answer
  | event (a : EventLoop.Answer)
  | done
  | stopped

/-- The run after an input, with everything that came out of it. -/
structure Step where
  run : Run
  answer : Answer
  outbound : List Outbound
  traces : List Trace

def start (loop : EventLoop) : Run := ⟨loop, 0, true⟩

/-- Events after the shutdown have no effect; only the clock goes on. -/
def step (r : Run) : Input → Except Fault Step
  | .event e =>
    if r.isRunning then
      let t := r.loop.handle e r.now
      .ok ⟨{ r with loop := t.loop }, .event t.answer, t.outbound, t.traces⟩
    else .ok ⟨r, .stopped, [], []⟩
  | .sleep ms =>
    if r.isRunning then
      match r.loop.sleep r.now ms with
      | .error f => .error f
      | .ok t => .ok ⟨{ r with loop := t.loop, now := r.now + ms }, .done, t.outbound, t.traces⟩
    else .ok ⟨{ r with now := r.now + ms }, .done, [], []⟩
  | .shutdown =>
    if r.isRunning then .ok ⟨{ r with isRunning := false }, .done, [], r.loop.stoppedTraces⟩
    else .ok ⟨r, .stopped, [], []⟩

end Run
end Snooping
