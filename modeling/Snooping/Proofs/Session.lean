import Snooping.Proofs.Clock
import Snooping.Proofs.Handlers
import Snooping.Proofs.Wire

/-!
Control sessions in the runs of a server: each is written its transcript, with what the agent
answers in the state that it has come to, and is never left without a reply for good.
-/
namespace Snooping.Control.Server

variable {s s₀ : Server} {c d now : Nat} {m : Move} {t : Step} {log : List Iteration}

/-! ### The agent -/

namespace Iteration

/-- What an iteration is to the agent, with its time. -/
def agentEvent? (i : Iteration) : Option (Nat × Agent.Event ControllerLink FrameSender) :=
  match i.move, i.before.queue with
  | .serve now, .event _ e :: _ => some (now, e.agentEvent)
  | .tick e now, _ => if i.before.isRunning then some (now, .tick e) else none
  | _, _ => none

/-- The packet that is served, if it is passed. -/
def passed (i : Iteration) (a : Agent.Answer) : List Outbound :=
  match i.move, i.before.queue with
  | .serve _, .event _ e :: _ => e.passed a
  | _, _ => []

/-- The agent makes one step, and all that goes out is the packet that it passed and what it has
queued, which is forwarded; or else the loop is as it was, and nothing goes out. -/
def Obeys (i : Iteration) : Prop :=
  match i.agentEvent? with
  | some (now, ev) => ∃ reply, i.before.loop.agent.step now ev = .ok reply ∧
      i.step.server.loop.agent = (EventLoop.forward reply.agent).1 ∧
      i.step.outbound = i.passed reply.answer ++ (EventLoop.forward reply.agent).2
  | none => i.step.server.loop = i.before.loop ∧ i.step.outbound = []

end Iteration

theorem loop_connect (s : Server) (d : Nat) : (s.connect d).1.loop = s.loop := by
  rw [connect]
  split <;> rfl

theorem loop_raise (s : Server) (d : Nat) (inbox : List Bytes) (e : EventLoop.Event) :
    (s.raise d inbox e).server.loop = s.loop ∧ (s.raise d inbox e).outbound = [] := by
  rw [raise]
  split_ifs <;> exact ⟨rfl, rfl⟩

theorem loop_execute (s : Server) (d : Nat) (inbox : List Bytes) (c : Command) :
    (s.execute d inbox c).server.loop = s.loop ∧ (s.execute d inbox c).outbound = [] := by
  cases c with
  | ping | subscribe => exact ⟨rfl, rfl⟩
  | table | packetIn | controllerConnected | controllerDisconnected => exact loop_raise ..

theorem loop_answer (s : Server) (d : Nat) (a : EventLoop.Answer) :
    (s.answer d a).server.loop = s.loop := by
  rcases s.answer_cases d a with ⟨_, hidle⟩ | ⟨_, _, _, _, hreply⟩
  · rw [hidle]
    rfl
  · rw [hreply]
    rfl

theorem obeys_serve (s : Server) (now : Nat) :
    (⟨s, .serve now, s.serve now⟩ : Iteration).Obeys := by
  rw [Iteration.Obeys, Iteration.agentEvent?]
  rcases hq : s.queue with _ | ⟨⟨d, e⟩ | _, queue⟩
  · dsimp only
    rw [serve, hq]
    exact ⟨rfl, rfl⟩
  · obtain ⟨reply, hstep, hagent, hanswer⟩ := EventLoop.onEvent_step s.loop.agent now e
    have hloop : (s.loop.handle e now).loop.agent = (EventLoop.forward reply.agent).1 := by
      rw [hagent]
      rfl
    have hout : (s.loop.handle e now).outbound =
        e.passed reply.answer ++ (EventLoop.forward reply.agent).2 := by
      rw [hagent, EventLoop.handle, hanswer]
    refine ⟨reply, hstep, ?_, ?_⟩
    · rw [serve_event hq]
      exact (congrArg EventLoop.agent (loop_answer ..)).trans hloop
    · rw [serve_event hq, Iteration.passed, hq]
      exact hout
  · dsimp only
    rw [serve, hq]
    exact ⟨rfl, rfl⟩

theorem obeys_tick {e : EngineId} (ht : s.tick e now = .ok t) :
    (⟨s, .tick e now, t⟩ : Iteration).Obeys := by
  rw [Iteration.Obeys, Iteration.agentEvent?]
  rw [tick] at ht
  by_cases hr : s.isRunning = true
  · rw [if_pos hr] at ht
    cases htick : s.loop.agent.tick e now with
    | error f =>
      rw [EventLoop.tick, htick] at ht
      cases ht
    | ok reply =>
      rw [EventLoop.tick_eq htick] at ht
      cases ht
      simp only [hr, if_true]
      exact ⟨_, by rw [Agent.step, htick], rfl, rfl⟩
  · rw [if_neg hr] at ht
    cases ht
    simp only [hr]
    exact ⟨rfl, rfl⟩

/-- What the agent has answered a client. -/
def answered (c : Nat) (log : List Iteration) : List Reply :=
  (log.flatMap (Iteration.served c)).filterMap Prod.snd

theorem answers_map (c : Nat) (log : List Iteration) :
    answers (log.map (Iteration.beat c)) = answered c log := by
  rw [answers, List.flatMap_map]
  rfl

section Obeys

variable [Diagnosis]

/-- Reading as such does not reach the agent. -/
theorem loop_read (s : Server) (d : Nat) :
    (s.read d).server.loop = s.loop ∧ (s.read d).outbound = [] := by
  rw [read]
  split
  · split
    · exact ⟨rfl, rfl⟩
    · exact ⟨rfl, rfl⟩
    · exact ⟨rfl, rfl⟩
    · exact loop_execute ..
  · exact ⟨rfl, rfl⟩

theorem obeys (ht : s.move m = .ok t) : (⟨s, m, t⟩ : Iteration).Obeys := by
  cases m with
  | send d line =>
    cases ht
    exact ⟨s.loop_connect d, rfl⟩
  | read d =>
    cases ht
    exact s.loop_read d
  | serve now =>
    cases ht
    exact s.obeys_serve now
  | tick e now => exact obeys_tick ht
  | write d =>
    cases ht
    change (s.write d).server.loop = s.loop ∧ (s.write d).outbound = []
    rw [write]
    split <;> exact ⟨rfl, rfl⟩
  | shutdown =>
    cases ht
    change s.shutdown.server.loop = s.loop ∧ s.shutdown.outbound = []
    rw [shutdown]
    split <;> exact ⟨rfl, rfl⟩
  | disconnect d =>
    cases ht
    exact ⟨s.loop_connect d, rfl⟩

theorem Path.obeys (hp : s₀.Path log s) : ∀ i ∈ log, i.Obeys := by
  induction hp with
  | start => exact fun _ h => (List.not_mem_nil h).elim
  | next _ ht ih =>
    intro i hi
    rcases List.mem_append.mp hi with hi | hi
    · exact ih i hi
    · rw [List.mem_singleton.mp hi]
      exact Server.obeys ht

end Obeys

/-! ### Coming to rest -/

/-- What the loop at some time and the handler of a client do by themselves. -/
def Move.IsOwn (c now : Nat) : Move → Prop
  | serve t => t = now
  | read d | write d => d = c
  | _ => False

theorem Move.IsOwn.spares (h : m.IsOwn c now) : m.Spares c := by
  cases m with
  | serve | read | write => trivial
  | send | tick | shutdown | disconnect => exact h.elim

theorem inbox_answer (s : Server) (c d : Nat) (a : EventLoop.Answer) :
    ((s.answer d a).server.session c).inbox = (s.session c).inbox := by
  rcases s.answer_cases d a with ⟨_, hanswer⟩ | ⟨inbox, r, hx, _, hanswer⟩
  · rw [hanswer]
    rfl
  · rw [hanswer]
    have hput := s.session_put c d ⟨inbox, .commanding⟩
    by_cases hd : c = d
    · subst hd
      rw [if_pos rfl] at hput
      exact (congrArg Session.inbox hput).trans (congrArg Session.inbox hx).symm
    · rw [if_neg hd] at hput
      exact congrArg Session.inbox hput

theorem inbox_serve_event {e : EventLoop.Event} {queue : List Item}
    (hq : s.queue = .event d e :: queue) (c now : Nat) :
    ((s.serve now).server.session c).inbox = (s.session c).inbox := by
  rw [serve_event hq]
  refine (inbox_answer _ c d _).trans ?_
  rw [taken, session_broadcast, Session.foldl_push_inbox]
  rfl

theorem queue_serve_event {e : EventLoop.Event} {queue : List Item}
    (hq : s.queue = .event d e :: queue) (now : Nat) : (s.serve now).server.queue = queue := by
  rw [serve_event hq]
  rcases answer_cases (s.taken queue (s.loop.handle e now)) d (s.loop.handle e now).answer with
    ⟨_, hanswer⟩ | ⟨_, _, _, _, hanswer⟩
  · rw [hanswer]
    rfl
  · rw [hanswer]
    rfl

/-- A session that is not as new is that of a client. -/
theorem find?_of_session {x : Session} (hx : s.session c = x) (hnew : x ≠ .new) :
    s.clients.find? c = some x := by
  rw [session] at hx
  cases hfind : s.clients.find? c with
  | none =>
    rw [hfind] at hx
    exact (hnew hx.symm).elim
  | some x' =>
    rw [hfind] at hx
    exact congrArg some hx

/-- A subscriber is told first what it has lost, and then written one event after the other. -/
theorem session_write {inbox : List Bytes} {lost : Nat} {pending : List Outbound}
    (hx : s.session c = ⟨inbox, .subscribed lost pending⟩) : (s.write c).server.session c =
      ⟨inbox, .subscribed 0 (if lost = 0 then pending.tail else pending)⟩ := by
  have hfind := find?_of_session hx (by simp [Session.new])
  have hput (x : Session) : (s.put c x).session c = x := (s.session_put c c x).trans (if_pos rfl)
  rw [write, hfind]
  cases lost with
  | succ n => exact hput _
  | zero =>
    cases pending with
    | nil => exact hx
    | cons e pending => exact hput _

section Sessions

variable [Diagnosis]

theorem Path.append {log' : List Iteration} {s' : Server} (hp : s₀.Path log s)
    (h : s.Path log' s') : s₀.Path (log ++ log') s' := by
  induction h with
  | start => rwa [List.append_nil]
  | next _ hmove ih =>
    rw [← List.append_assoc]
    exact ih.next hmove

/-- The iterations lead from one server to another by moves of its own. -/
structure Continues (c now : Nat) (s : Server) (log : List Iteration) (s' : Server) : Prop where
  path : s.Path log s'
  own : ∀ i ∈ log, i.move.IsOwn c now

namespace Continues

variable {s₁ s₂ : Server} {log₁ log₂ : List Iteration}

theorem refl (c now : Nat) (s : Server) : Continues c now s [] s :=
  ⟨.start, fun _ h => (List.not_mem_nil h).elim⟩

theorem step {t : Step} (hm : m.IsOwn c now) (ht : s.move m = .ok t) :
    Continues c now s [⟨s, m, t⟩] t.server where
  path := Path.start.next ht
  own i hi := by rwa [List.mem_singleton.mp hi]

theorem trans (h₁ : Continues c now s log₁ s₁) (h₂ : Continues c now s₁ log₂ s₂) :
    Continues c now s (log₁ ++ log₂) s₂ where
  path := h₁.path.append h₂.path
  own i hi := (List.mem_append.mp hi).elim (h₁.own i) (h₂.own i)

/-- A client that has been spared still is. -/
theorem spares (h : Continues c now s log₁ s₁) (hspares : ∀ i ∈ log, i.move.Spares c) :
    ∀ i ∈ log ++ log₁, i.move.Spares c := fun i hi =>
  (List.mem_append.mp hi).elim (hspares i) fun hi => (h.own i hi).spares

end Continues

/-- The loop can take all that it has been handed. -/
theorem drained (hr : s.Running) (c now : Nat) :
    ∃ log s', Continues c now s log s' ∧ s'.Running ∧ s'.queue = [] ∧
      (s'.session c).inbox = (s.session c).inbox := by
  generalize hq : s.queue = queue
  induction queue generalizing s with
  | nil => exact ⟨[], s, .refl c now s, hr, hq, rfl⟩
  | cons item queue ih =>
    cases item with
    | shutdown =>
      refine (hr.2 ?_).elim
      rw [hq]
      exact List.mem_cons_self
    | event d e =>
      have hserve : Continues c now s [⟨s, .serve now, s.serve now⟩] (s.serve now).server :=
        .step rfl rfl
      obtain ⟨log, s', hrest, hr', hq', hinbox⟩ :=
        ih (running_serve hr now) (queue_serve_event hq now)
      exact ⟨_, s', hserve.trans hrest, hr', hq', hinbox.trans (inbox_serve_event hq c now)⟩

/-- A subscriber can be written all that is pending. -/
theorem flushed {s : Server} {inbox : List Bytes} {lost : Nat} {pending : List Outbound}
    (hx : s.session c = ⟨inbox, .subscribed lost pending⟩) (now : Nat) :
    ∃ log s', Continues c now s log s' ∧ s'.session c = ⟨inbox, .subscribed 0 []⟩ := by
  by_cases hdone : lost + pending.length = 0
  · obtain ⟨rfl, hpending⟩ := Nat.add_eq_zero_iff.mp hdone
    rw [List.eq_nil_of_length_eq_zero hpending] at hx
    exact ⟨[], s, .refl c now s, hx⟩
  · have hless : (if lost = 0 then pending.tail else pending).length < lost + pending.length := by
      split
      · rw [List.length_tail]
        omega
      · omega
    have hwrite : Continues c now s [⟨s, .write c, s.write c⟩] (s.write c).server := .step rfl rfl
    obtain ⟨log, s', hrest, hx'⟩ := flushed (session_write hx) now
    exact ⟨_, s', hwrite.trans hrest, hx'⟩
termination_by lost + pending.length
decreasing_by
  rw [Nat.zero_add]
  exact hless

/-- By itself a session comes to rest: with all its lines read and answered, or subscribed with
nothing pending. -/
theorem settled {loop : EventLoop} {s : Server} {log : List Iteration}
    (hp : (start loop).Path log s) (hspares : ∀ i ∈ log, i.move.Spares c) (now : Nat) :
    ∃ log' s', Continues c now s log' s' ∧
      (s'.session c = ⟨[], .commanding⟩ ∨ ∃ inbox, s'.session c = ⟨inbox, .subscribed 0 []⟩) := by
  obtain ⟨log₁, s₁, h₁, hr₁, hq₁, hinbox₁⟩ := drained (hp.course hspares).1 c now
  have hp₁ := hp.append h₁.path
  have hspares₁ := h₁.spares hspares
  obtain ⟨lines, streamed, hkept⟩ := (hp₁.course hspares₁).2.kept
  have hflight : s₁.inFlight c = [] := by
    rw [inFlight, hq₁]
    rfl
  rw [hflight] at hkept
  rcases hx : s₁.session c with ⟨inbox, phase⟩
  rw [hx] at hkept hinbox₁
  have hstage : Stage _ lines streamed [] phase := hkept.stage
  cases phase with
  | waiting =>
    cases hstage with
    | waiting _ _ _ _ hnone => simp at hnone
  | subscribed lost pending =>
    obtain ⟨log₂, s₂, h₂, hx₂⟩ := flushed hx now
    exact ⟨_, s₂, h₁.trans h₂, .inr ⟨_, hx₂⟩⟩
  | commanding =>
    cases inbox with
    | nil => exact ⟨log₁, s₁, h₁, .inl hx⟩
    | cons line inbox =>
      have htext : IsText line := by
        refine isText_of_mem_sent hspares₁ ?_
        rw [hkept.sent]
        simp
      have hfind := find?_of_session hx (by simp [Session.new])
      have hroom : s₁.queue.length < queueDepth := by
        rw [hq₁]
        decide
      obtain ⟨traces, hread⟩ := read_heard hr₁.1 hfind htext fun _ => hroom
      have h₂ : Continues c now s₁ [⟨s₁, .read c, s₁.read c⟩] (s₁.read c).server := .step rfl rfl
      have hx₂ : ((s₁.read c).server.session c).inbox = inbox := by
        rw [hread]
        exact congrArg Session.inbox ((s₁.session_put c c _).trans (if_pos rfl))
      obtain ⟨log₃, s₃, h₃, hrest⟩ := settled (hp₁.append h₂.path) (h₂.spares hspares₁) now
      exact ⟨_, s₃, h₁.trans (h₂.trans h₃), hrest⟩
termination_by (s.session c).inbox.length
decreasing_by
  rw [hx₂, ← hinbox₁]
  exact Nat.lt_succ_self _

/-! ### The program -/

omit [Diagnosis] in
theorem lookup_eq_head?_forClient (c : Nat) (written : List (Nat × Reply)) :
    written.lookup c = (forClient c written).head? := by
  induction written with
  | nil => rfl
  | cons row written ih =>
    obtain ⟨d, r⟩ := row
    rw [List.lookup_cons, forClient, List.filterMap_cons]
    by_cases hd : d = c
    · simp [hd]
    · have hne : (c == d) = false := beq_eq_false_iff_ne.mpr (Ne.symm hd)
      simp only [hne, if_neg hd]
      exact ih

/-- A line of the program is sent, read and served, and its sender hears what it is written. -/
theorem Path.received (hp : s₀.Path log s) (d now : Nat) (line : Bytes) :
    ∃ log', s₀.Path (log ++ log') (s.receive d now line).server ∧
      log'.map (·.move) = [.send d line, .read d, .serve now] ∧
      (s.receive d now line).outbound = log'.flatMap (·.step.outbound) ∧
      ((s.receive d now line).heard = .hungUp ∨
        (s.receive d now line).heard =
          (log'.flatMap (Iteration.written d)).head?.elim .nothing .reply) := by
  have hsent : s.move (.send d line) = .ok (s.send d line) := rfl
  have hread : (s.send d line).server.move (.read d) = .ok ((s.send d line).server.read d) := rfl
  have hserved : ((s.send d line).server.read d).server.move (.serve now) =
      .ok (((s.send d line).server.read d).server.serve now) := rfl
  have hp' := ((hp.next hsent).next hread).next hserved
  rw [List.append_assoc, List.append_assoc] at hp'
  have hnone : (s.send d line).written = [] := rfl
  refine ⟨_, hp', rfl, by simp [receive, send], ?_⟩
  rw [receive]
  dsimp only
  split
  · exact .inl rfl
  · right
    rw [lookup_eq_head?_forClient, forClient, List.filterMap_append]
    simp only [List.singleton_append, List.flatMap_cons, List.flatMap_nil, List.append_nil,
      Iteration.written, hnone, forClient, List.filterMap_nil, List.nil_append]
    split
    · rename_i h
      rw [h]
      rfl
    · rename_i h
      rw [h]
      rfl

/-- Whatever a server takes from its clients and its engines and in whichever order, a client that
is spared and sends text is written the transcript of the lines that have been read, with what the
agent answers to requests and packets in the state that it has come to, and then the events of its
stream. What these lines raise has been served in this order or is in flight, and each that is not
blank has its reply, unless it waits for the answer. Serving an event is a step of the agent, as is
a tick, and all else leaves the loop as it is; reading as such does not reach the agent. The session
can always come to rest by what the loop and its handler do at any time; and what the program does
with a line is a part of such a run. -/
theorem sessions_transcribed {loop : EventLoop} (hp : (start loop).Path log s)
    (hspares : ∀ i ∈ log, i.move.Spares c) :
    ∃ lines streamed,
      log.flatMap (·.move.sent c) = lines ++ (s.session c).inbox ∧
      (log.flatMap (Iteration.served c)).map Prod.fst ++ s.inFlight c = lines.filterMap raised? ∧
      log.flatMap (Iteration.written c) = transcript lines (answered c log) ++
        streamed.map .event ∧
      (transcript lines (answered c log)).length + (s.inFlight c).countP isAwaited =
        lines.countP (fun l => !(Due.of l).isNothing) ∧
      Stage (log.map (Iteration.beat c)) lines streamed (s.inFlight c) (s.session c).phase ∧
      (∀ i ∈ log, i.Obeys) ∧
      (∀ d, (s.read d).server.loop = s.loop ∧ (s.read d).outbound = []) ∧
      (∀ now, ∃ log' s', Continues c now s log' s' ∧
        (s'.session c = ⟨[], .commanding⟩ ∨
          ∃ inbox, s'.session c = ⟨inbox, .subscribed 0 []⟩)) ∧
      ∀ d now line, ∃ log', (start loop).Path (log ++ log') (s.receive d now line).server ∧
        log'.map (·.move) = [.send d line, .read d, .serve now] ∧
        (s.receive d now line).outbound = log'.flatMap (·.step.outbound) ∧
        ((s.receive d now line).heard = .hungUp ∨
          (s.receive d now line).heard =
            (log'.flatMap (Iteration.written d)).head?.elim .nothing .reply) := by
  obtain ⟨lines, streamed, hkept⟩ := (hp.course hspares).2.kept
  have hlength := hkept.length
  obtain ⟨hsent, hraised, -, hwritten, hstage⟩ := hkept
  rw [answers_map] at hlength hwritten
  rw [List.flatMap_map] at hsent hraised hwritten
  exact ⟨lines, streamed, hsent, hraised, hwritten, hlength, hstage, hp.obeys, s.loop_read,
    settled hp hspares, hp.received⟩

/-- Moves one after another, as far as none fails. -/
def trail (s : Server) : List Move → List Iteration
  | [] => []
  | m :: ms =>
    match s.move m with
    | .error _ => []
    | .ok t => ⟨s, m, t⟩ :: trail t.server ms

theorem path_trail (hp : s₀.Path log s) (ms : List Move) :
    ∃ s', s₀.Path (log ++ s.trail ms) s' := by
  induction ms generalizing log s with
  | nil => exact ⟨s, by rwa [trail, List.append_nil]⟩
  | cons m ms ih =>
    rw [trail]
    cases ht : s.move m with
    | error f => exact ⟨s, by rwa [List.append_nil]⟩
    | ok t =>
      have hrest := ih (hp.next ht)
      rwa [List.append_assoc] at hrest

theorem move_mem_of_mem_trail {i : Iteration} {ms : List Move} (hi : i ∈ s.trail ms) :
    i.move ∈ ms := by
  induction ms generalizing s with
  | nil => cases hi
  | cons m ms ih =>
    rw [trail] at hi
    cases ht : s.move m with
    | error f =>
      rw [ht] at hi
      cases hi
    | ok t =>
      rw [ht] at hi
      rcases List.mem_cons.mp hi with rfl | hi
      · exact List.mem_cons_self
      · exact List.mem_cons_of_mem _ (ih hi)

end Sessions

/-- The line of a command whose characters are all ASCII. -/
def lineOf (c : Command) : Bytes := c.toJson.write.map fun ch => UInt8.ofNat ch.toNat

/-- What the decoder says of a text that begins like no value. -/
@[reducible]
def valueExpected : Diagnosis := ⟨fun _ => some "expected value at line 1 column 1"⟩

/-- A client says nothing, then what is no command, and then pings, asks the agent twice, subscribes
and pings again. Another one has a packet passed. -/
def conversation : List Move :=
  let expect := lineOf (.table ⟨.generalQueryExpectation, .add [.name "querier", .vlanVid 1] []⟩)
  let packet := lineOf (.packetIn 1 [])
  [.send 1 [0x20], .send 1 [0x78], .send 1 (lineOf .ping), .send 1 expect, .send 1 packet,
    .send 1 (lineOf .subscribe), .send 1 (lineOf .ping), .read 1, .read 1, .read 1, .read 1,
    .serve 0, .read 1, .serve 0, .read 1, .read 1, .send 2 packet, .read 2, .serve 0, .write 1]

/-- The first client is written one line for each that is not blank, up to its subscription, and
then the packet of the other one. -/
theorem sessions_transcribed_conversation :
    letI := valueExpected
    let log := (start (.start 8 0)).trail conversation
    ∃ s lines streamed, (start (.start 8 0)).Path log s ∧ (∀ i ∈ log, i.move.Spares 1) ∧
      log.flatMap (·.move.sent 1) = lines ++ (s.session 1).inbox ∧
      log.flatMap (Iteration.written 1) = transcript lines (answered 1 log) ++
        List.map .event streamed ∧
      (∀ i ∈ log, i.Obeys) ∧
      (answered 1 log).map (·.toJson.text) =
        [Reply.table .ok, .disposition .pass].map (·.toJson.text) ∧
      (log.flatMap (Iteration.written 1)).map (·.toJson.text) =
        [Reply.error "invalid command: expected value at line 1 column 1", .pong, .table .ok,
          .disposition .pass, .subscribed, .event (.packetIn 1 [])].map (·.toJson.text) := by
  let := valueExpected
  intro log
  have hmoves : ∀ m ∈ conversation, m.Spares 1 := by decide +kernel
  have hspares : ∀ i ∈ log, i.move.Spares 1 := fun i hi => hmoves _ (move_mem_of_mem_trail hi)
  have hwritten : (answered 1 log).map (·.toJson.text) =
        [Reply.table .ok, .disposition .pass].map (·.toJson.text) ∧
      (log.flatMap (Iteration.written 1)).map (·.toJson.text) =
        [Reply.error "invalid command: expected value at line 1 column 1", .pong, .table .ok,
          .disposition .pass, .subscribed, .event (.packetIn 1 [])].map (·.toJson.text) := by
    decide +kernel
  have hstart : (start (.start 8 0)).Path [] (start (.start 8 0)) := .start
  obtain ⟨s, hp⟩ := path_trail hstart conversation
  rw [List.nil_append] at hp
  obtain ⟨lines, streamed, hsent, -, htranscript, -, -, hobeys, -⟩ :=
    sessions_transcribed hp hspares
  exact ⟨s, lines, streamed, hp, hspares, hsent, htranscript, hobeys, hwritten⟩

end Snooping.Control.Server
