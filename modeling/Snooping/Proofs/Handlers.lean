import Snooping.Proofs.Transcript

/-!
The server seen from one client: whatever the server does next, to the session of a client it is one
of the things that can happen to a session.
-/
namespace Snooping.Control

namespace Server

/-- What can happen next. -/
inductive Move
  | send (client : Nat) (line : Bytes)
  | read (client : Nat)
  | serve (now : Nat)
  | tick (e : EngineId) (now : Nat)
  | write (client : Nat)
  | shutdown
  | disconnect (client : Nat)

def move [Diagnosis] (s : Server) : Move → Except Fault Step
  | .send client line => .ok (s.send client line)
  | .read client => .ok (s.read client)
  | .serve now => .ok (s.serve now)
  | .tick e now => s.tick e now
  | .write client => .ok (s.write client)
  | .shutdown => .ok s.shutdown
  | .disconnect client => .ok ⟨(s.disconnect client).1, [], [], (s.disconnect client).2⟩

/-- A move with the server that it met and what came of it. -/
structure Iteration where
  before : Server
  move : Move
  step : Step

/-- The iterations lead from `s₀` to a server. -/
inductive Path [Diagnosis] (s₀ : Server) : List Iteration → Server → Prop
  | start : Path s₀ [] s₀
  | next {log : List Iteration} {s : Server} {m : Move} {t : Step} : Path s₀ log s →
      s.move m = .ok t → Path s₀ (log ++ [⟨s, m, t⟩]) t.server

/-- The events of a client in a queue. -/
def raisedBy (c : Nat) (queue : List Item) : List EventLoop.Event :=
  queue.filterMap fun
    | .event d e => if d = c then some e else none
    | .shutdown => none

/-- The events of a client that the loop has still to take. -/
def inFlight (s : Server) (c : Nat) : List EventLoop.Event := raisedBy c s.queue

/-- The lines that are for one client. -/
def forClient (c : Nat) (written : List (Nat × Reply)) : List Reply :=
  written.filterMap fun (d, r) => if d = c then some r else none

def Move.sent (c : Nat) : Move → List Bytes
  | send d line => if d = c then [line] else []
  | _ => []

/-- What the agent has for the sender of an event: its response to a request, and what becomes of a
packet by its outcome. -/
def agentReply? (a : Agent ControllerLink FrameSender) (now : Nat) : EventLoop.Event → Option Reply
  | .request r => some (.table (a.request r now).answer)
  | .packetIn inPort frame => some (.disposition (a.classify frame inPort now).answer.disposition)
  | .connected _ | .disconnected => none

namespace Iteration

/-- The event of a client that is taken, with what the agent has for it. -/
def served (c : Nat) (i : Iteration) : List (EventLoop.Event × Option Reply) :=
  match i.move, i.before.queue with
  | .serve now, .event d e :: _ =>
    if d = c then [(e, agentReply? i.before.loop.agent now e)] else []
  | _, _ => []

/-- The lines that a client is written. -/
def written (c : Nat) (i : Iteration) : List Reply := forClient c i.step.written

/-- What an iteration is to a client. -/
def beat (c : Nat) (i : Iteration) : Beat :=
  ⟨i.move.sent c, i.served c, i.written c, i.step.outbound, i.step.server.session c⟩

end Iteration

/-- The loop is not shut down, the client is not let go, and what it sends is text. -/
def Move.Spares (c : Nat) : Move → Prop
  | shutdown => False
  | disconnect d => d ≠ c
  | send d line => d = c → IsText line
  | _ => True

instance (c : Nat) : (m : Move) → Decidable (m.Spares c)
  | .shutdown => isFalse id
  | .disconnect d => inferInstanceAs (Decidable (d ≠ c))
  | .send d line => inferInstanceAs (Decidable (d = c → IsText line))
  | .read _ | .serve _ | .tick .. | .write _ => isTrue trivial

/-- The loop runs, and nobody has asked it to end. -/
def Running (s : Server) : Prop := s.isRunning = true ∧ .shutdown ∉ s.queue

variable {s s₀ : Server} {c d : Nat} {m : Move} {t : Step} {log : List Iteration}

theorem forClient_map (c d : Nat) (replies : List Reply) :
    forClient c (replies.map (d, ·)) = if d = c then replies else [] := by
  rw [forClient, List.filterMap_map]
  by_cases hd : d = c
  · simp only [hd, Function.comp_def, if_true, List.filterMap_some]
  · simp [hd]

theorem raisedBy_cons (c d : Nat) (e : EventLoop.Event) (queue : List Item) :
    raisedBy c (.event d e :: queue) = (if d = c then [e] else []) ++ raisedBy c queue := by
  rw [raisedBy, List.filterMap_cons, raisedBy]
  split <;> simp_all

theorem raisedBy_append (c d : Nat) (queue : List Item) (events : List EventLoop.Event) :
    raisedBy c (queue ++ events.map (Item.event d)) =
      raisedBy c queue ++ if d = c then events else [] := by
  rw [raisedBy, List.filterMap_append, List.filterMap_map, raisedBy]
  by_cases hd : d = c
  · simp only [hd, Function.comp_def, if_true, List.filterMap_some]
  · simp [hd]

theorem session_put (s : Server) (c d : Nat) (x : Session) :
    (s.put d x).session c = if c = d then x else s.session c := by
  rw [session, put, Rows.find?_insert]
  split <;> rfl

theorem session_of_find? {x : Session} (h : s.clients.find? d = some x) : s.session d = x := by
  rw [session, h]
  rfl

theorem session_broadcast (s : Server) (c : Nat) (events : List Outbound) :
    (s.broadcast events).session c = events.foldl Session.push (s.session c) := by
  rw [session, broadcast, Rows.find?_mapValues, session]
  cases s.clients.find? c with
  | none => exact (Session.foldl_push_commanding [] events).symm
  | some x => rfl

theorem queue_connect (s : Server) (d : Nat) : (s.connect d).1.queue = s.queue := by
  rw [connect]
  split <;> rfl

theorem session_connect (s : Server) (c d : Nat) : (s.connect d).1.session c = s.session c := by
  rw [connect]
  split
  · rfl
  · rename_i hnone
    rw [session_put]
    split
    · rename_i h
      rw [h, session, hnone]
      rfl
    · rfl

/-- The loop hands on what the agent has for a sender. -/
theorem reply?_onEvent (a : Agent ControllerLink FrameSender) (now : Nat) (e : EventLoop.Event) :
    reply? (EventLoop.onEvent a now e).answer.1 = agentReply? a now e := by
  cases e <;> rfl

/-- The agent answers whoever waits for it. -/
theorem isSome_agentReply? (a : Agent ControllerLink FrameSender) (now : Nat)
    (e : EventLoop.Event) : (agentReply? a now e).isSome = isAwaited e := by
  cases e <;> rfl

/-- What the agent answers goes to the client only if that waits. -/
theorem answer_cases (s : Server) (d : Nat) (a : EventLoop.Answer) :
    (((s.session d).phase = .waiting → reply? a = none) ∧ s.answer d a = s.idle) ∨
    ∃ inbox r, s.session d = ⟨inbox, .waiting⟩ ∧ reply? a = some r ∧
      s.answer d a = s.reply d inbox r := by
  rw [answer, session]
  rcases reply? a with _ | r
  · exact .inl ⟨fun _ => rfl, rfl⟩
  · rcases s.clients.find? d with _ | ⟨inbox, phase⟩
    · exact .inl ⟨nofun, rfl⟩
    · cases phase with
      | commanding | subscribed => exact .inl ⟨nofun, rfl⟩
      | waiting => exact .inr ⟨inbox, r, rfl, rfl, rfl⟩

/-- The server when the loop has taken an event and before anybody is answered. -/
def taken (s : Server) (queue : List Item) (t : EventLoop.Turn EventLoop.Answer) : Server :=
  broadcast { s with loop := t.loop, queue } t.outbound

theorem serve_event {e : EventLoop.Event} {queue : List Item} (hq : s.queue = .event d e :: queue)
    (now : Nat) : s.serve now =
      { (s.taken queue (s.loop.handle e now)).answer d (s.loop.handle e now).answer with
        outbound := (s.loop.handle e now).outbound, traces := (s.loop.handle e now).traces } := by
  rw [serve, hq]
  rfl

theorem running_serve (hr : s.Running) (now : Nat) : (s.serve now).server.Running := by
  obtain ⟨hrun, hnone⟩ := hr
  rcases hq : s.queue with _ | ⟨⟨d, e⟩ | _, queue⟩
  · rw [serve, hq]
    exact ⟨hrun, hnone⟩
  · rw [hq] at hnone
    have htaken : (s.taken queue (s.loop.handle e now)).Running :=
      ⟨hrun, fun h => hnone (List.mem_cons_of_mem _ h)⟩
    rw [serve_event hq]
    rcases answer_cases (s.taken queue (s.loop.handle e now)) d (s.loop.handle e now).answer with
      ⟨_, hanswer⟩ | ⟨_, _, _, _, hanswer⟩
    · rw [hanswer]
      exact htaken
    · rw [hanswer]
      exact htaken
  · rw [hq] at hnone
    exact (hnone List.mem_cons_self).elim

theorem running_connect (hr : s.Running) (d : Nat) : (s.connect d).1.Running := by
  rw [connect]
  split <;> exact hr

/-- What a client of a spared session sends is text. -/
theorem isText_of_mem_sent {line : Bytes} (hspares : ∀ i ∈ log, i.move.Spares c)
    (h : line ∈ (log.map (Iteration.beat c)).flatMap (·.sent)) : IsText line := by
  rw [List.flatMap_map, List.mem_flatMap] at h
  obtain ⟨i, hi, hline⟩ := h
  have hi := hspares i hi
  change line ∈ i.move.sent c at hline
  cases hm : i.move with
  | send d l =>
    rw [hm] at hi hline
    rw [Move.sent] at hline
    split at hline
    · rename_i hd
      rw [List.mem_singleton.mp hline]
      exact hi hd
    · cases hline
  | _ =>
    rw [hm] at hline
    cases hline

variable [Diagnosis]

/-- The line is read, if it is text and there is room for what it raises. -/
theorem read_heard {line : Bytes} {inbox : List Bytes} (hr : s.isRunning = true)
    (hfind : s.clients.find? d = some ⟨line :: inbox, .commanding⟩) (htext : IsText line)
    (hroom : (raised? line).isSome → s.queue.length < queueDepth) :
    ∃ traces, s.read d = ⟨{ s.put d ⟨inbox, (Due.of line).phase⟩ with
      queue := s.queue ++ (raised? line).toList.map (Item.event d) },
        (Due.of line).atOnce.map (d, ·), [], traces⟩ := by
  rw [read, hfind]
  simp only [raised?, Due.of] at hroom ⊢
  cases hu : Utterance.of line with
  | garbled f => exact (htext f hu).elim
  | blank => exact ⟨[], by simp [idle, put, Due.phase, Due.atOnce]⟩
  | malformed => exact ⟨[], by simp [reply, put, Due.phase, Due.atOnce]⟩
  | command c =>
    rw [hu] at hroom
    cases c with
    | ping => exact ⟨[], by simp [execute, Command.event?, reply, put, Due.phase, Due.atOnce]⟩
    | subscribe =>
      refine ⟨[note .info "subscriber attached"], ?_⟩
      simp [execute, Command.event?, put, Due.phase, Due.atOnce]
    | table | packetIn | controllerConnected | controllerDisconnected =>
      refine ⟨[], ?_⟩
      simp [execute, Command.event?, raise, hr, hroom rfl, isAwaited, dropped?, idle, reply, put,
        Due.phase, Due.atOnce]

/-- While there is no room, the line stays where it is. -/
theorem read_full {line : Bytes} {inbox : List Bytes} (hr : s.isRunning = true)
    (hfind : s.clients.find? d = some ⟨line :: inbox, .commanding⟩)
    (hraises : (raised? line).isSome) (hfull : ¬ s.queue.length < queueDepth) :
    s.read d = s.idle := by
  rw [read, hfind]
  rw [raised?] at hraises
  cases hu : Utterance.of line with
  | garbled | blank | malformed =>
    rw [hu] at hraises
    cases hraises
  | command c =>
    rw [hu] at hraises
    obtain ⟨e, he⟩ : ∃ e, c.event? = some e := Option.isSome_iff_exists.mp hraises
    simp [hu, execute, he, raise, hr, hfull]

/-- All that can come of reading. -/
inductive Reads (s : Server) (d : Nat) : Step → Prop
  | idle : Reads s d s.idle
  | garbled {line : Bytes} {inbox : List Bytes} {traces : List Trace} :
      s.clients.find? d = some ⟨line :: inbox, .commanding⟩ → ¬ IsText line →
      Reads s d ⟨{ s with clients := s.clients.erase d }, [], [], traces⟩
  | heard {line : Bytes} {inbox : List Bytes} {traces : List Trace} :
      s.clients.find? d = some ⟨line :: inbox, .commanding⟩ →
      Reads s d ⟨{ s.put d ⟨inbox, (Due.of line).phase⟩ with
        queue := s.queue ++ (raised? line).toList.map (Item.event d) },
          (Due.of line).atOnce.map (d, ·), [], traces⟩

theorem reads (hr : s.isRunning = true) (d : Nat) : s.Reads d (s.read d) := by
  rcases hfind : s.clients.find? d with _ | ⟨_ | ⟨line, inbox⟩, phase⟩
  · rw [read, hfind]
    exact .idle
  · rw [read, hfind]
    exact .idle
  · cases phase with
    | waiting | subscribed =>
      rw [read, hfind]
      exact .idle
    | commanding =>
      by_cases htext : IsText line
      · by_cases hroom : (raised? line).isSome → s.queue.length < queueDepth
        · obtain ⟨traces, hread⟩ := read_heard hr hfind htext hroom
          rw [hread]
          exact .heard hfind
        · obtain ⟨hraises, hfull⟩ := Classical.not_imp.mp hroom
          rw [read_full hr hfind hraises hfull]
          exact .idle
      · obtain ⟨f, hf⟩ := Classical.not_forall.mp htext
        rw [read, hfind]
        simp only [Classical.not_not.mp hf]
        exact .garbled hfind htext

/-- What goes out to all is the only thing that reaches a client whom nothing else concerns. -/
theorem moves_aside (hsent : m.sent c = []) (hserved : Iteration.served c ⟨s, m, t⟩ = [])
    (hwritten : Iteration.written c ⟨s, m, t⟩ = [])
    (hsession : t.server.session c = t.outbound.foldl Session.push (s.session c))
    (hflight : t.server.inFlight c = s.inFlight c) :
    (s.session c).Moves (s.inFlight c) (Iteration.beat c ⟨s, m, t⟩) (t.server.inFlight c) := by
  rw [Iteration.beat, hsent, hserved, hwritten, hsession, hflight]
  exact .hear _ _ _

theorem moves_idle (hsent : m.sent c = []) (hserved : Iteration.served c ⟨s, m, s.idle⟩ = []) :
    (s.session c).Moves (s.inFlight c) (Iteration.beat c ⟨s, m, s.idle⟩) (s.inFlight c) :=
  moves_aside hsent hserved rfl rfl rfl

theorem moves_send (s : Server) (c d : Nat) (line : Bytes) : (s.session c).Moves (s.inFlight c)
    (Iteration.beat c ⟨s, .send d line, s.send d line⟩) ((s.send d line).server.inFlight c) := by
  have hserver : (s.send d line).server =
      (s.connect d).1.put d { s.session d with inbox := (s.session d).inbox ++ [line] } := by
    rw [← session_connect s d d]
    rfl
  have hflight : (s.send d line).server.inFlight c = s.inFlight c := by
    rw [hserver]
    exact congrArg (raisedBy c) (s.queue_connect d)
  have hsession : (s.send d line).server.session c = if c = d then
      { s.session d with inbox := (s.session d).inbox ++ [line] } else s.session c := by
    rw [hserver, session_put, session_connect]
  by_cases hd : d = c
  · subst hd
    rw [if_pos rfl] at hsession
    rw [Iteration.beat, hsession, hflight, Move.sent, if_pos rfl]
    exact .send _ _ _
  · rw [if_neg (Ne.symm hd)] at hsession
    exact moves_aside (if_neg hd) rfl rfl hsession hflight

theorem moves_read (hr : s.isRunning = true) (htext : ∀ line ∈ (s.session c).inbox, IsText line)
    (d : Nat) : (s.session c).Moves (s.inFlight c) (Iteration.beat c ⟨s, .read d, s.read d⟩)
      ((s.read d).server.inFlight c) := by
  have hreads := reads hr d
  generalize s.read d = t at hreads
  cases hreads with
  | idle => exact moves_idle rfl rfl
  | @garbled line inbox traces hfind hgarbled =>
    have hd : d ≠ c := by
      rintro rfl
      refine hgarbled (htext line ?_)
      rw [session_of_find? hfind]
      exact List.mem_cons_self
    refine moves_aside rfl rfl rfl ?_ rfl
    simp [session, Rows.find?_erase, Ne.symm hd]
  | @heard line inbox traces hfind =>
    have hsession := s.session_put c d ⟨inbox, (Due.of line).phase⟩
    have hflight := raisedBy_append c d s.queue (raised? line).toList
    have hwritten := forClient_map c d (Due.of line).atOnce
    by_cases hd : d = c
    · subst hd
      rw [if_pos rfl] at hsession hflight hwritten
      have hx := session_of_find? hfind
      have hread := Session.Moves.read line inbox (s.inFlight d)
      rw [← hwritten, ← hsession, ← hx, inFlight, ← hflight] at hread
      exact hread
    · rw [if_neg hd] at hflight hwritten
      rw [if_neg (Ne.symm hd)] at hsession
      rw [List.append_nil] at hflight
      exact moves_aside rfl rfl hwritten hsession hflight

/-- The loop takes an event of a client, and answers it if that waits. -/
theorem moves_event {e : EventLoop.Event} {queue : List Item} (hq : s.queue = .event d e :: queue)
    (c now : Nat) : (s.session c).Moves (s.inFlight c)
      (Iteration.beat c ⟨s, .serve now, s.serve now⟩) ((s.serve now).server.inFlight c) := by
  have hreply : reply? (s.loop.handle e now).answer = agentReply? s.loop.agent now e :=
    reply?_onEvent s.loop.agent now e
  have ha : (reply? (s.loop.handle e now).answer).isSome = isAwaited e := by
    rw [hreply, isSome_agentReply?]
  have hserved (t : Step) : Iteration.served c ⟨s, .serve now, t⟩ =
      if d = c then [(e, reply? (s.loop.handle e now).answer)] else [] := by
    rw [Iteration.served, hq, hreply]
  have hflight : s.inFlight c = (if d = c then [e] else []) ++ raisedBy c queue := by
    rw [inFlight, hq, raisedBy_cons]
  rw [serve_event hq]
  clear hreply
  generalize s.loop.handle e now = t at ha hserved ⊢
  have hsession (c : Nat) : (s.taken queue t).session c =
      t.outbound.foldl Session.push (s.session c) := session_broadcast ..
  rcases answer_cases (s.taken queue t) d t.answer with
    ⟨hwaits, hidle⟩ | ⟨inbox, r, hx, hr, hanswer⟩
  · rw [hidle]
    by_cases hd : d = c
    · subst hd
      have he (hw : (s.session d).phase = .waiting) : isAwaited e = false := by
        have hx : s.session d = ⟨(s.session d).inbox, .waiting⟩ := by rw [← hw]
        rw [← Session.foldl_push_eq_waiting_iff, ← hsession] at hx
        rw [← ha, hwaits (congrArg Session.phase hx)]
        rfl
      have hserve := Session.Moves.serve (raisedBy d queue) t.outbound ha he
      rw [← hsession] at hserve
      rw [Iteration.beat, hserved, hflight, if_pos rfl, if_pos rfl]
      exact hserve
    · rw [if_neg hd] at hflight
      exact moves_aside rfl ((hserved _).trans (if_neg hd)) rfl (hsession c) hflight.symm
  · rw [hanswer]
    have hput := (s.taken queue t).session_put c d ⟨inbox, .commanding⟩
    have hwritten := forClient_map c d [r]
    by_cases hd : d = c
    · subst hd
      rw [hsession, Session.foldl_push_eq_waiting_iff] at hx
      have he : isAwaited e = true := by rw [← ha, hr]; rfl
      have hmoves := Session.Moves.answer inbox (raisedBy d queue) r t.outbound he
      rw [if_pos rfl] at hput hwritten
      rw [← hput, ← hwritten] at hmoves
      rw [Iteration.beat, hserved, hflight, if_pos rfl, if_pos rfl, hr, hx]
      exact hmoves
    · rw [if_neg hd] at hflight hwritten
      rw [if_neg (Ne.symm hd), hsession] at hput
      exact moves_aside rfl ((hserved _).trans (if_neg hd)) hwritten hput hflight.symm

theorem moves_serve (hr : .shutdown ∉ s.queue) (c now : Nat) : (s.session c).Moves (s.inFlight c)
    (Iteration.beat c ⟨s, .serve now, s.serve now⟩) ((s.serve now).server.inFlight c) := by
  rcases hq : s.queue with _ | ⟨⟨d, e⟩ | _, queue⟩
  · have hidle : s.serve now = s.idle := by rw [serve, hq]
    rw [hidle]
    refine moves_idle rfl ?_
    rw [Iteration.served, hq]
  · exact moves_event hq c now
  · rw [hq] at hr
    exact (hr List.mem_cons_self).elim

theorem moves_tick {e : EngineId} {now : Nat} (ht : s.tick e now = .ok t) (c : Nat) :
    (s.session c).Moves (s.inFlight c) (Iteration.beat c ⟨s, .tick e now, t⟩)
      (t.server.inFlight c) := by
  rw [tick] at ht
  split at ht
  · cases h : s.loop.tick e now with
    | error f =>
      rw [h] at ht
      cases ht
    | ok turn =>
      rw [h] at ht
      cases ht
      exact moves_aside rfl rfl rfl (session_broadcast _ c _) rfl
  · cases ht
    exact moves_idle rfl rfl

theorem moves_write (s : Server) (c d : Nat) : (s.session c).Moves (s.inFlight c)
    (Iteration.beat c ⟨s, .write d, s.write d⟩) ((s.write d).server.inFlight c) := by
  rw [write]
  split
  · rename_i inbox n pending hfind
    have hsession := s.session_put c d ⟨inbox, .subscribed 0 pending⟩
    by_cases hd : d = c
    · subst hd
      have hx := session_of_find? hfind
      rw [if_pos rfl] at hsession
      have hlag := Session.Moves.lag inbox (s.inFlight d) n pending
      rw [← hx, ← hsession] at hlag
      exact hlag
    · rw [if_neg (Ne.symm hd)] at hsession
      exact moves_aside rfl rfl rfl hsession rfl
  · rename_i inbox e pending hfind
    have hsession := s.session_put c d ⟨inbox, .subscribed 0 pending⟩
    have hwritten := forClient_map c d [.event e]
    by_cases hd : d = c
    · subst hd
      have hx := session_of_find? hfind
      rw [if_pos rfl] at hsession hwritten
      have hwrite := Session.Moves.write inbox (s.inFlight d) e pending
      rw [← hx, ← hsession, ← hwritten] at hwrite
      exact hwrite
    · rw [if_neg (Ne.symm hd)] at hsession
      rw [if_neg hd] at hwritten
      exact moves_aside rfl rfl hwritten hsession rfl
  · exact moves_idle rfl rfl

theorem moves_disconnect (hd : d ≠ c) : (s.session c).Moves (s.inFlight c)
    (Iteration.beat c ⟨s, .disconnect d, ⟨(s.disconnect d).1, [], [], (s.disconnect d).2⟩⟩)
      ((s.disconnect d).1.inFlight c) := by
  have hserver : (s.disconnect d).1 =
      { (s.connect d).1 with clients := (s.connect d).1.clients.erase d } := rfl
  refine moves_aside rfl rfl rfl ?_ (congrArg (raisedBy c) (s.queue_connect d))
  rw [hserver, session, Rows.find?_erase, if_neg (Ne.symm hd)]
  exact s.session_connect c d

theorem moves (hr : s.Running) (hm : m.Spares c)
    (htext : ∀ line ∈ (s.session c).inbox, IsText line) (ht : s.move m = .ok t) :
    (s.session c).Moves (s.inFlight c) (Iteration.beat c ⟨s, m, t⟩) (t.server.inFlight c) := by
  cases m with
  | send d line =>
    cases ht
    exact moves_send s c d line
  | read d =>
    cases ht
    exact moves_read hr.1 htext d
  | serve now =>
    cases ht
    exact moves_serve hr.2 c now
  | tick e now => exact moves_tick ht c
  | write d =>
    cases ht
    exact moves_write s c d
  | shutdown => exact hm.elim
  | disconnect d =>
    cases ht
    exact moves_disconnect hm

theorem running_move (hr : s.Running) (hm : m.Spares c) (ht : s.move m = .ok t) :
    t.server.Running := by
  cases m with
  | send d line =>
    cases ht
    exact running_connect hr d
  | read d =>
    cases ht
    have hreads := reads hr.1 d
    generalize s.read d = t at hreads
    cases hreads with
    | idle => exact hr
    | garbled => exact hr
    | heard => exact ⟨hr.1, by simp [hr.2]⟩
  | serve now =>
    cases ht
    exact running_serve hr now
  | tick e now =>
    have ht : s.tick e now = .ok t := ht
    rw [tick, if_pos hr.1] at ht
    cases h : s.loop.tick e now with
    | error f =>
      rw [h] at ht
      cases ht
    | ok turn =>
      rw [h] at ht
      cases ht
      exact hr
  | write d =>
    cases ht
    rw [write]
    split <;> exact hr
  | shutdown => exact hm.elim
  | disconnect d =>
    cases ht
    exact running_connect hr d

/-- The iterations of a server are a course of each session that is spared. -/
theorem Path.course {loop : EventLoop} (hp : (Server.start loop).Path log s)
    (hspares : ∀ i ∈ log, i.move.Spares c) :
    s.Running ∧ Session.Course (log.map (Iteration.beat c)) (s.session c) (s.inFlight c) := by
  induction hp with
  | start => exact ⟨⟨rfl, nofun⟩, .start⟩
  | @next log s m t hp ht ih =>
    have hlog := fun i hi => hspares i (List.mem_append_left _ hi)
    have hm : m.Spares c := hspares ⟨s, m, t⟩ (by simp)
    obtain ⟨hr, hcourse⟩ := ih hlog
    obtain ⟨lines, streamed, hkept⟩ := hcourse.kept
    have htext : ∀ line ∈ (s.session c).inbox, IsText line := fun line hline =>
      isText_of_mem_sent hlog (hkept.sent ▸ List.mem_append_right _ hline)
    rw [List.map_append]
    exact ⟨running_move hr hm ht, hcourse.next (moves hr hm htext ht)⟩

end Server
end Snooping.Control
