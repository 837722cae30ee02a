import Snooping.Control.Command
import Snooping.Text.Blank
import Snooping.Text.Utf8

/-!
The control socket: clients send one command a line and hear one reply to each. What is for the
agent goes through a queue to the event loop, and a client that waits for its answer is read no
further until then. A client that subscribes is heard no more and gets every event from then on.
-/
namespace Snooping.Control

/-- What the handler of a client is at. A subscriber has events still to come, and may have lost
some in front of them since it was last told so. -/
inductive Phase
  | commanding
  | waiting
  | subscribed (lost : Nat) (pending : List Outbound)

/-- A client, with the lines that it has sent and that are not read yet. -/
structure Session where
  inbox : List Bytes
  phase : Phase

/-- What the loop has still to take. -/
inductive Item
  | event (client : Nat) (e : EventLoop.Event)
  | shutdown

/-- The queue has its oldest item first. -/
structure Server where
  loop : EventLoop
  isRunning : Bool
  queue : List Item
  clients : Rows Nat Session

/-- The server after a step, with the lines that were written, each to its client, and the events
that went out to all subscribers. -/
structure Step where
  server : Server
  written : List (Nat × Reply)
  outbound : List Outbound
  traces : List Trace

/-- What a line brings its sender. -/
inductive Heard
  | nothing
  | reply (r : Reply)
  | hungUp

/-- The server after a line has had its effect. -/
structure Exchange where
  server : Server
  heard : Heard
  outbound : List Outbound
  traces : List Trace

/-- What the bytes of a line say. -/
inductive Utterance
  | garbled (f : Text.Utf8.Fault)
  | blank
  | malformed (text : String)
  | command (c : Command)

/-- What the decoder says of a text that it takes for no command, as far as that is known. -/
class Diagnosis where
  words? : String → Option String

def note (severity : Log.Severity) (message : String) : Trace :=
  .note .controlChannel severity message []

def invalidMessage [Diagnosis] (text : String) : String :=
  match Diagnosis.words? text with
  | some words => "invalid command: " ++ words
  | none => "invalid command"

/-- Items the queue has room for. -/
def queueDepth : Nat := 1024

/-- The text of a line; a carriage return at its end is left out first. -/
def lineText (line : Bytes) : Except Text.Utf8.Fault (List Char) :=
  Text.Utf8.decode (if line.getLast? = some 0x0d then line.dropLast else line)

def Utterance.of (line : Bytes) : Utterance :=
  match lineText line with
  | .error f => .garbled f
  | .ok cs =>
    if cs.all Text.isBlank then .blank
    else
      let text := String.ofList cs
      match Json.decode Command.decoder text with
      | none => .malformed text
      | some c => .command c

/-- The event that a command raises in the loop, if it is for the loop. -/
def Command.event? : Command → Option EventLoop.Event
  | table r => some (.request r)
  | packetIn inPort frame => some (.packetIn inPort frame)
  | controllerConnected version => some (.connected version)
  | controllerDisconnected => some .disconnected
  | subscribe | ping => none

/-- What the client of a dropped event is told. Nobody waits for the others. -/
def dropped? : EventLoop.Event → Option String
  | .request _ => some "agent dropped the request"
  | .packetIn .. => some "agent dropped the packet-in"
  | .connected _ | .disconnected => none

def isAwaited (e : EventLoop.Event) : Bool := (dropped? e).isSome

/-- The reply that an answer of the loop makes. -/
def reply? : EventLoop.Answer → Option Reply
  | .response r => some (.table r)
  | .disposition d => some (.disposition d)
  | .accepted => none

namespace Session

def new : Session := ⟨[], .commanding⟩

/-- One more event for a subscriber. It loses the oldest of more than the stream keeps. -/
def push (x : Session) (e : Outbound) : Session :=
  match x.phase with
  | .subscribed lost pending =>
    let (n, kept) := delivered (pending ++ [e])
    { x with phase := .subscribed (lost + n) kept }
  | _ => x

/-- A client that waits need not do so any longer. -/
def released (x : Session) : Session :=
  match x.phase with
  | .waiting => { x with phase := .commanding }
  | _ => x

end Session

namespace Server

def start (loop : EventLoop) : Server := ⟨loop, true, [], .empty⟩

def idle (s : Server) : Step := ⟨s, [], [], []⟩

def session (s : Server) (client : Nat) : Session := (s.clients.find? client).getD .new

def put (s : Server) (client : Nat) (x : Session) : Server :=
  { s with clients := s.clients.insert client x }

/-- Writes a reply to a client, which may command again. -/
def reply (s : Server) (client : Nat) (inbox : List Bytes) (r : Reply) : Step :=
  ⟨s.put client ⟨inbox, .commanding⟩, [(client, r)], [], []⟩

/-- Gives each event to every subscriber. -/
def broadcast (s : Server) (events : List Outbound) : Server :=
  { s with clients := s.clients.mapValues fun x => events.foldl Session.push x }

/-- Lets a client in that is not there yet. -/
def connect (s : Server) (client : Nat) : Server × List Trace :=
  match s.clients.find? client with
  | some _ => (s, [])
  | none => (s.put client .new, [note .debug "control client connected"])

/-- Puts a line behind those that a client has sent. The first one connects it. -/
def send (s : Server) (client : Nat) (line : Bytes) : Step :=
  let (s, traces) := s.connect client
  let x := s.session client
  ⟨s.put client { x with inbox := x.inbox ++ [line] }, [], [], traces⟩

/-- Queues an event for the loop. While there is no room, its line stays. -/
def raise (s : Server) (client : Nat) (inbox : List Bytes) (e : EventLoop.Event) : Step :=
  if !s.isRunning then s.reply client inbox (.error EventLoop.stoppedMessage)
  else if s.queue.length < queueDepth then
    let s := { s with queue := s.queue ++ [Item.event client e] }
    if isAwaited e then (s.put client ⟨inbox, .waiting⟩).idle else s.reply client inbox .ok
  else s.idle

def execute (s : Server) (client : Nat) (inbox : List Bytes) (c : Command) : Step :=
  match c.event? with
  | some e => s.raise client inbox e
  | none =>
    match c with
    | .subscribe =>
      ⟨s.put client ⟨inbox, .subscribed 0 []⟩, [(client, .subscribed)], [],
        [note .info "subscriber attached"]⟩
    | _ => s.reply client inbox .pong

/-- The handler of a client reads its next line, if it may command. -/
def read [Diagnosis] (s : Server) (client : Nat) : Step :=
  match s.clients.find? client with
  | some ⟨line :: inbox, .commanding⟩ =>
    match Utterance.of line with
    | .garbled f =>
      ⟨{ s with clients := s.clients.erase client }, [], [],
        [note .warning ("control client error: " ++ f.message)]⟩
    | .blank => (s.put client ⟨inbox, .commanding⟩).idle
    | .malformed text => s.reply client inbox (.error (invalidMessage text))
    | .command c => s.execute client inbox c
  | _ => s.idle

/-- Gives an answer of the loop to the client that waits for it. -/
def answer (s : Server) (client : Nat) (a : EventLoop.Answer) : Step :=
  match reply? a, s.clients.find? client with
  | some r, some ⟨inbox, .waiting⟩ => s.reply client inbox r
  | _, _ => s.idle

/-- Ends the loop. What it has not taken is dropped. -/
def stop (s : Server) : Step :=
  let written := s.queue.filterMap fun
    | .event client e => (dropped? e).map fun message => (client, .error message)
    | .shutdown => none
  ⟨{ s with isRunning := false, queue := [], clients := s.clients.mapValues Session.released },
    written, [], s.loop.stoppedTraces⟩

/-- The loop takes what has waited longest. -/
def serve (s : Server) (now : Nat) : Step :=
  match s.queue with
  | [] => s.idle
  | .shutdown :: queue => stop { s with queue }
  | .event client e :: queue =>
    let t := s.loop.handle e now
    let step := (broadcast { s with loop := t.loop, queue } t.outbound).answer client t.answer
    { step with outbound := t.outbound, traces := t.traces }

/-- The loop ticks one engine. -/
def tick (s : Server) (e : EngineId) (now : Nat) : Except Fault Step :=
  if s.isRunning then do
    let t ← s.loop.tick e now
    return ⟨broadcast { s with loop := t.loop } t.outbound, [], t.outbound, t.traces⟩
  else .ok s.idle

/-- The handler of a subscriber takes what is next for it. -/
def write (s : Server) (client : Nat) : Step :=
  match s.clients.find? client with
  | some ⟨inbox, .subscribed (n + 1) pending⟩ =>
    ⟨s.put client ⟨inbox, .subscribed 0 pending⟩, [], [],
      [note .warning ("subscriber lagged by " ++ (n + 1).repr ++ " events")]⟩
  | some ⟨inbox, .subscribed 0 (e :: pending)⟩ =>
    ⟨s.put client ⟨inbox, .subscribed 0 pending⟩, [(client, .event e)], [], []⟩
  | _ => s.idle

/-- Asks the loop to end once it has taken what is before. -/
def shutdown (s : Server) : Step :=
  if s.isRunning then { s with queue := s.queue ++ [Item.shutdown] }.idle else s.idle

/-- Lets a client go, which has connected for it at the latest. -/
def disconnect (s : Server) (client : Nat) : Server × List Trace :=
  let (s, traces) := s.connect client
  ({ s with clients := s.clients.erase client }, traces)

/-- One line of any client, with all that comes of it at once. -/
def receive [Diagnosis] (s : Server) (client now : Nat) (line : Bytes) : Exchange :=
  let sent := s.send client line
  let read := sent.server.read client
  let served := read.server.serve now
  let heard :=
    match served.server.clients.find? client with
    | none => .hungUp
    | some _ =>
      match (read.written ++ served.written).lookup client with
      | none => .nothing
      | some r => .reply r
  ⟨served.server, heard, read.outbound ++ served.outbound,
    sent.traces ++ read.traces ++ served.traces⟩

/-- The clients that get every event. -/
def subscribers (s : Server) : List Nat :=
  s.clients.toList.filterMap fun (client, x) =>
    match x.phase with
    | .subscribed .. => some client
    | .commanding | .waiting => none

end Server

/-- Without the decoder at hand its words are left out. -/
instance : Diagnosis := ⟨fun _ => none⟩

end Snooping.Control
