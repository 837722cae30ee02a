import Snooping.Agent.Basic

/-!
The event loop: one agent, its engines' timers, and the stream of everything it sends out. Events
and ticks are taken one at a time, and what each one queued is forwarded before the next.
-/
namespace Snooping

inductive Outbound
  | controller (m : ControllerMessage)
  | packetIn (inPort : UInt32) (frame : Bytes)
  | packetOut (f : OutboundFrame)
deriving DecidableEq

/-- Events the stream keeps for a subscriber that falls behind. -/
def outboundBuffer : Nat := 1024

/-- How many of the oldest events a subscriber loses, and the ones that it gets. -/
def delivered (events : List Outbound) : Nat × List Outbound :=
  let lost := events.length - outboundBuffer
  (lost, events.drop lost)

/-- When each engine ticks next. -/
structure Schedule where
  generalQueryExpectation : Nat
  reportExpectation : Nat
  pimExpectation : Nat
  generalQueryTx : Nat
  reportTx : Nat
deriving DecidableEq

namespace Schedule

def all (t : Nat) : Schedule := ⟨t, t, t, t, t⟩

def get (s : Schedule) : EngineId → Nat
  | .generalQueryExpectation => s.generalQueryExpectation
  | .reportExpectation => s.reportExpectation
  | .pimExpectation => s.pimExpectation
  | .generalQueryTx => s.generalQueryTx
  | .reportTx => s.reportTx

def put (s : Schedule) (e : EngineId) (t : Nat) : Schedule :=
  match e with
  | .generalQueryExpectation => { s with generalQueryExpectation := t }
  | .reportExpectation => { s with reportExpectation := t }
  | .pimExpectation => { s with pimExpectation := t }
  | .generalQueryTx => { s with generalQueryTx := t }
  | .reportTx => { s with reportTx := t }

theorem get_put (s : Schedule) (e e' : EngineId) (t : Nat) :
    (s.put e t).get e' = if e' = e then t else s.get e' := by
  cases e <;> cases e' <;> rfl

/-- The first engine of those that tick soonest. -/
def earliest (s : Schedule) : EngineId :=
  EngineId.all.foldl (fun best e => if s.get e < s.get best then e else best)
    .generalQueryExpectation

end Schedule

structure EventLoop where
  agent : Agent ControllerLink FrameSender
  schedule : Schedule

namespace EventLoop

inductive Event
  | request (r : TableRequest)
  | packetIn (inPort : UInt32) (frame : Bytes)
  | connected (version : UInt8)
  | disconnected

/-- What the sender of an event hears. -/
inductive Answer
  | response (r : TableResponse)
  | disposition (d : Disposition)
  | accepted

/-- The loop after an event or a tick, with everything that came out of it. -/
structure Turn (α : Type) where
  loop : EventLoop
  answer : α
  outbound : List Outbound
  traces : List Trace

def stoppedMessage : String := "agent runtime has stopped"

/-- The first ticks are one idle delay away. -/
def start (maxPorts : UInt32) (now : Nat) : EventLoop :=
  ⟨.new maxPorts .initial .initial, .all (now + Expiry.idleDelay)⟩

def startedTrace : Trace := .note .runtime .info "event loop started" []

def stoppedTraces (l : EventLoop) : List Trace :=
  [l.agent.summaryTrace, .note .runtime .info "event loop stopped" []]

/-- The loop's own records on the control channel. -/
def channelNote (severity : Log.Severity) (message : String) (fields : List (String × String)) :
    Trace :=
  .log ⟨.runtime, severity, .controlChannel, message, fields⟩

/-- Empties both queues of the agent, messages before frames. -/
def forward (a : Agent ControllerLink FrameSender) :
    Agent ControllerLink FrameSender × List Outbound :=
  ((a.mapChannel ControllerLink.emptied).mapOut FrameSender.emptied,
    a.channel.queued.map .controller ++ a.out.queued.map .packetOut)

/-- What one event does to the agent. A passed packet goes out first of all. -/
def onEvent (a : Agent ControllerLink FrameSender) (now : Nat) :
    Event → Agent.Reply ControllerLink FrameSender (Answer × List Outbound)
  | .request r =>
    let reply := a.request r now
    ⟨reply.agent, (.response reply.answer, []), reply.traces⟩
  | .packetIn inPort frame =>
    let reply := a.classify frame inPort now
    let passed :=
      match reply.answer.disposition with
      | .pass => [.packetIn inPort frame]
      | .drop => []
    ⟨reply.agent, (.disposition reply.answer.disposition, passed), reply.traces⟩
  | .connected version =>
    let a := a.mapChannel (·.connect version)
    let note := channelNote .notice "controller connected" [("version", version.toNat.repr)]
    let warning :=
      if asyncCapable a.channel then []
      else
        [channelNote .warning
          "controller version carries no asynchronous messages; idle notifications suppressed" []]
    ⟨a, (.accepted, []), note :: warning⟩
  | .disconnected =>
    ⟨a.mapChannel ControllerLink.disconnect, (.accepted, []),
      [channelNote .info "controller disconnected" []]⟩

def handle (l : EventLoop) (event : Event) (now : Nat) : Turn Answer :=
  let reply := onEvent l.agent now event
  let (agent, outbound) := forward reply.agent
  ⟨{ l with agent }, reply.answer.1, reply.answer.2 ++ outbound, reply.traces⟩

/-- Ticks one engine and puts its next tick off by the delay it asks for. -/
def tick (l : EventLoop) (e : EngineId) (now : Nat) : Except Fault (Turn Unit) := do
  let reply ← l.agent.tick e now
  let (agent, outbound) := forward reply.agent
  return ⟨⟨agent, l.schedule.put e (now + reply.answer)⟩, (), outbound, reply.traces⟩

/-- Runs the ticks that are due up to `horizon`, each at its own time. What came out before is
kept newest first. -/
def ticksUntil (horizon : Nat) :
    Nat → EventLoop → List Outbound → List Trace → Except Fault (Turn Unit)
  | 0, l, outbound, traces => .ok ⟨l, (), outbound.reverse, traces.reverse⟩
  | fuel + 1, l, outbound, traces =>
    let e := l.schedule.earliest
    let due := l.schedule.get e
    if horizon < due then .ok ⟨l, (), outbound.reverse, traces.reverse⟩
    else
      match l.tick e due with
      | .error f => .error f
      | .ok t =>
        ticksUntil horizon fuel t.loop (t.outbound.reverse ++ outbound) (t.traces.reverse ++ traces)

/-- Lets the clock run. Every tick moves its engine on by the busy delay at least, which bounds
the number of ticks. -/
def sleep (l : EventLoop) (now ms : Nat) : Except Fault (Turn Unit) :=
  let horizon := now + ms
  ticksUntil horizon (EngineId.all.length * (horizon / Expiry.busyDelay + 1)) l [] []

end EventLoop
end Snooping
