import Mathlib.Data.List.Basic
import Snooping.Control.Server

/-!
The transcript of a control session: what is written for the lines that were sent, given what the
agent answers. Whatever happens to a session by itself, it keeps to its transcript, and writes the
events of its stream behind it.
-/
namespace Snooping.Control

/-! ### Transcripts -/

/-- What is due to the sender of a line. -/
inductive Due
  | nothing
  | now (r : Reply)
  | answer
  | subscription

namespace Due

def of [Diagnosis] (line : Bytes) : Due :=
  match Utterance.of line with
  | .garbled _ | .blank => nothing
  | .malformed text => now (.error (invalidMessage text))
  | .command .ping => now .pong
  | .command .subscribe => subscription
  | .command (.controllerConnected _) | .command .controllerDisconnected => now .ok
  | .command (.table _) | .command (.packetIn _ _) => answer

/-- The phase in which a session is once it has read a line for which this is due. -/
def phase : Due → Phase
  | nothing | now _ => .commanding
  | answer => .waiting
  | subscription => .subscribed 0 []

/-- What is written as soon as the line is read. -/
def atOnce : Due → List Reply
  | nothing | answer => []
  | now r => [r]
  | subscription => [.subscribed]

def isAnswer : Due → Bool
  | answer => true
  | _ => false

def isNothing : Due → Bool
  | nothing => true
  | _ => false

end Due

def IsText (line : Bytes) : Prop := ∀ f, Utterance.of line ≠ .garbled f

theorem isText_of_lineText {line : Bytes} {cs : List Char} (h : lineText line = .ok cs) :
    IsText line := by
  intro f hf
  rw [Utterance.of, h] at hf
  dsimp only at hf
  split at hf
  · cases hf
  · split at hf <;> cases hf

instance (line : Bytes) : Decidable (IsText line) :=
  match h : lineText line with
  | .error f => isFalse fun htext => htext f (by rw [Utterance.of, h])
  | .ok _ => isTrue (isText_of_lineText h)

/-- The event that a line raises in the loop. -/
def raised? (line : Bytes) : Option EventLoop.Event :=
  match Utterance.of line with
  | .command c => c.event?
  | _ => none

section Transcripts

variable [Diagnosis]

/-- What is written for the lines up to the first subscription, if `answers` is what the agent
answers to those that ask it. A line that has no answer yet holds up the ones behind it. -/
def transcript : List Bytes → List Reply → List Reply
  | [], _ => []
  | line :: lines, answers =>
    match Due.of line with
    | .nothing => transcript lines answers
    | .now r => r :: transcript lines answers
    | .subscription => [.subscribed]
    | .answer =>
      match answers with
      | [] => []
      | answer :: answers => answer :: transcript lines answers

variable {line : Bytes} {lines before : List Bytes}

theorem transcript_append {as bs : List Reply} (hnone : ∀ l ∈ before, Due.of l ≠ .subscription)
    (has : as.length = before.countP fun l => (Due.of l).isAnswer) :
    transcript (before ++ lines) (as ++ bs) = transcript before as ++ transcript lines bs := by
  induction before generalizing as with
  | nil =>
    cases List.eq_nil_of_length_eq_zero has
    rfl
  | cons line before ih =>
    have hbefore := fun l hl => hnone l (List.mem_cons_of_mem _ hl)
    rw [List.countP_cons] at has
    cases hdue : Due.of line with
    | nothing =>
      simp only [List.cons_append, transcript, hdue]
      exact ih hbefore (by simpa [hdue, Due.isAnswer] using has)
    | now r =>
      simp only [List.cons_append, transcript, hdue]
      rw [ih hbefore (by simpa [hdue, Due.isAnswer] using has)]
    | subscription => exact (hnone line List.mem_cons_self hdue).elim
    | answer =>
      cases as with
      | nil => simp [hdue, Due.isAnswer] at has
      | cons a as =>
        simp only [List.cons_append, transcript, hdue]
        rw [ih hbefore (by simpa [hdue, Due.isAnswer] using has)]

/-- Once every line has its answer, one line is written for each that is not blank. -/
theorem length_transcript {as : List Reply} (hnone : ∀ l ∈ lines, Due.of l ≠ .subscription)
    (has : as.length = lines.countP fun l => (Due.of l).isAnswer) :
    (transcript lines as).length = lines.countP fun l => !(Due.of l).isNothing := by
  induction lines generalizing as with
  | nil => rfl
  | cons line lines ih =>
    have hlines := fun l hl => hnone l (List.mem_cons_of_mem _ hl)
    rw [List.countP_cons] at has ⊢
    cases hdue : Due.of line with
    | nothing =>
      simp only [transcript, hdue]
      exact ih hlines (by simpa [hdue, Due.isAnswer] using has)
    | now r =>
      simp only [transcript, hdue]
      exact congrArg (· + 1) (ih hlines (by simpa [hdue, Due.isAnswer] using has))
    | subscription => exact (hnone line List.mem_cons_self hdue).elim
    | answer =>
      cases as with
      | nil => simp [hdue, Due.isAnswer] at has
      | cons a as =>
        simp only [transcript, hdue]
        exact congrArg (· + 1) (ih hlines (by simpa [hdue, Due.isAnswer] using has))

/-- A line alone brings what is due at once. -/
theorem transcript_singleton (line : Bytes) : transcript [line] [] = (Due.of line).atOnce := by
  cases hdue : Due.of line <;> simp [transcript, hdue, Due.atOnce]

theorem transcript_concat {as : List Reply} (hnone : ∀ l ∈ lines, Due.of l ≠ .subscription)
    (has : as.length = lines.countP fun l => (Due.of l).isAnswer) (line : Bytes) :
    transcript (lines ++ [line]) as = transcript lines as ++ (Due.of line).atOnce := by
  have happend : transcript (lines ++ [line]) (as ++ []) =
      transcript lines as ++ transcript [line] [] := transcript_append hnone has
  rwa [List.append_nil, transcript_singleton] at happend

theorem not_subscription_concat (hnone : ∀ l ∈ lines, Due.of l ≠ .subscription)
    (hline : Due.of line ≠ .subscription) : ∀ l ∈ lines ++ [line], Due.of l ≠ .subscription := by
  intro l hl
  rcases List.mem_append.mp hl with hl | hl
  · exact hnone l hl
  · rwa [List.mem_singleton.mp hl]

/-- The agent is asked by just the lines whose events are awaited. -/
theorem any_raised? (line : Bytes) :
    (raised? line).any isAwaited = (Due.of line).isAnswer := by
  rw [raised?, Due.of]
  cases Utterance.of line with
  | garbled | blank | malformed => rfl
  | command c => cases c <;> rfl

theorem exists_raised? (h : Due.of line = .answer) :
    ∃ e, raised? line = some e ∧ isAwaited e = true := by
  have hany := any_raised? line
  rw [h] at hany
  cases hr : raised? line with
  | none =>
    rw [hr] at hany
    cases hany
  | some e =>
    rw [hr] at hany
    exact ⟨e, rfl, hany⟩

theorem countP_raised? (h : (Due.of line).isAnswer = false) :
    (raised? line).toList.countP isAwaited = 0 := by
  rw [← any_raised?] at h
  cases hr : raised? line with
  | none => rfl
  | some e =>
    rw [hr] at h
    exact List.countP_eq_zero.mpr (by simpa using h)

theorem countP_raised (lines : List Bytes) : (lines.filterMap raised?).countP isAwaited =
    lines.countP fun l => (Due.of l).isAnswer := by
  induction lines with
  | nil => rfl
  | cons line lines ih =>
    rw [List.countP_cons, ← ih, ← any_raised?]
    cases h : raised? line with
    | none => simp [h]
    | some e => simp [h, List.countP_cons]

end Transcripts

/-! ### Sessions -/

/-- What a step of the server is to one client, with the session afterwards. -/
structure Beat where
  sent : List Bytes
  served : List (EventLoop.Event × Option Reply)
  written : List Reply
  outbound : List Outbound
  session : Session

/-- What the agent has answered so far. -/
def answers (beats : List Beat) : List Reply :=
  (beats.flatMap (·.served)).filterMap Prod.snd

namespace Session

/-- It has lost events since it was last told so. -/
def Lags (x : Session) : Prop := ∃ n pending, x.phase = .subscribed (n + 1) pending

/-- All that can happen to a session and to its events in flight. -/
inductive Moves [Diagnosis] : Session → List EventLoop.Event → Beat → List EventLoop.Event → Prop
  | send (x : Session) (flight : List EventLoop.Event) (line : Bytes) :
      Moves x flight ⟨[line], [], [], [], { x with inbox := x.inbox ++ [line] }⟩ flight
  | read (line : Bytes) (inbox : List Bytes) (flight : List EventLoop.Event) :
      Moves ⟨line :: inbox, .commanding⟩ flight
        ⟨[], [], (Due.of line).atOnce, [], ⟨inbox, (Due.of line).phase⟩⟩
        (flight ++ (raised? line).toList)
  /-- An event is served that the session does not wait for. -/
  | serve {x : Session} {e : EventLoop.Event} {r? : Option Reply}
      (flight : List EventLoop.Event) (events : List Outbound) :
      r?.isSome = isAwaited e → (x.phase = .waiting → isAwaited e = false) →
      Moves x (e :: flight) ⟨[], [(e, r?)], [], events, events.foldl push x⟩ flight
  | answer {e : EventLoop.Event} (inbox : List Bytes) (flight : List EventLoop.Event)
      (r : Reply) (events : List Outbound) : isAwaited e = true →
      Moves ⟨inbox, .waiting⟩ (e :: flight) ⟨[], [(e, some r)], [r], events, ⟨inbox, .commanding⟩⟩
        flight
  | hear (x : Session) (flight : List EventLoop.Event) (events : List Outbound) :
      Moves x flight ⟨[], [], [], events, events.foldl push x⟩ flight
  | write (inbox : List Bytes) (flight : List EventLoop.Event) (e : Outbound)
      (pending : List Outbound) :
      Moves ⟨inbox, .subscribed 0 (e :: pending)⟩ flight
        ⟨[], [], [.event e], [], ⟨inbox, .subscribed 0 pending⟩⟩ flight
  | lag (inbox : List Bytes) (flight : List EventLoop.Event) (n : Nat) (pending : List Outbound) :
      Moves ⟨inbox, .subscribed (n + 1) pending⟩ flight
        ⟨[], [], [], [], ⟨inbox, .subscribed 0 pending⟩⟩ flight

/-- The beats lead a new session to one with events in flight. -/
inductive Course [Diagnosis] : List Beat → Session → List EventLoop.Event → Prop
  | start : Course [] .new []
  | next {beats : List Beat} {x : Session} {b : Beat} {flight flight' : List EventLoop.Event} :
      Course beats x flight → Moves x flight b flight' → Course (beats ++ [b]) b.session flight'

theorem foldl_push_inbox (x : Session) (events : List Outbound) :
    (events.foldl push x).inbox = x.inbox := by
  induction events generalizing x with
  | nil => rfl
  | cons e events ih =>
    rw [List.foldl_cons, ih, push]
    split <;> rfl

theorem foldl_push_commanding (inbox : List Bytes) (events : List Outbound) :
    events.foldl push ⟨inbox, .commanding⟩ = ⟨inbox, .commanding⟩ :=
  List.foldl_fixed' (fun _ => rfl) events

theorem foldl_push_waiting (inbox : List Bytes) (events : List Outbound) :
    events.foldl push ⟨inbox, .waiting⟩ = ⟨inbox, .waiting⟩ :=
  List.foldl_fixed' (fun _ => rfl) events

/-- A subscriber keeps what comes, but for what it loses in front. -/
theorem foldl_push_subscribed (inbox : List Bytes) (lost : Nat) (pending events : List Outbound) :
    ∃ n, events.foldl push ⟨inbox, .subscribed lost pending⟩ =
      ⟨inbox, .subscribed (lost + n) ((pending ++ events).drop n)⟩ := by
  induction events generalizing lost pending with
  | nil => exact ⟨0, by rw [List.append_nil]; rfl⟩
  | cons e events ih =>
    obtain ⟨n, hn⟩ := ih (lost + ((pending ++ [e]).length - outboundBuffer))
      ((pending ++ [e]).drop ((pending ++ [e]).length - outboundBuffer))
    refine ⟨(pending ++ [e]).length - outboundBuffer + n, ?_⟩
    rw [List.foldl_cons]
    refine hn.trans ?_
    rw [Nat.add_assoc, ← List.drop_drop, List.append_cons pending e events,
      List.drop_append_of_le_length (Nat.sub_le _ _)]

theorem foldl_push_eq_waiting_iff {x : Session} {inbox : List Bytes} {events : List Outbound} :
    events.foldl push x = ⟨inbox, .waiting⟩ ↔ x = ⟨inbox, .waiting⟩ := by
  obtain ⟨inbox', phase⟩ := x
  cases phase with
  | commanding => rw [foldl_push_commanding]
  | waiting => rw [foldl_push_waiting]
  | subscribed lost pending =>
    obtain ⟨n, hn⟩ := foldl_push_subscribed inbox' lost pending events
    simp [hn]

end Session

/-! ### Keeping to the transcript -/

variable {beats : List Beat} {b : Beat} {x : Session} {flight : List EventLoop.Event}
  {e : EventLoop.Event} {streamed : List Outbound}

theorem flatMap_concat {α : Type} (f : Beat → List α) (beats : List Beat) (b : Beat) :
    (beats ++ [b]).flatMap f = beats.flatMap f ++ f b := by
  rw [List.flatMap_append, List.flatMap_singleton]

theorem answers_concat (beats : List Beat) (b : Beat) : answers (beats ++ [b]) =
    answers beats ++ b.served.filterMap Prod.snd := by
  rw [answers, flatMap_concat, List.filterMap_append, answers]

variable [Diagnosis]

/-- How far a session has come that has read `lines` and been written the events `streamed`. -/
inductive Stage (beats : List Beat) (lines : List Bytes) (streamed : List Outbound)
    (flight : List EventLoop.Event) : Phase → Prop
  | commanding : streamed = [] → (∀ l ∈ lines, Due.of l ≠ .subscription) →
      flight.countP isAwaited = 0 → Stage beats lines streamed flight .commanding
  /-- It waits for the answer to the line that it has read last. -/
  | waiting {before : List Bytes} {line : Bytes} {es : List EventLoop.Event} {e : EventLoop.Event} :
      streamed = [] → lines = before ++ [line] → Due.of line = .answer →
      (∀ l ∈ before, Due.of l ≠ .subscription) → flight = es ++ [e] → isAwaited e = true →
      es.countP isAwaited = 0 → Stage beats lines streamed flight .waiting
  /-- It reads nothing after the line that subscribed. -/
  | subscribed {before : List Bytes} {line : Bytes} {pre post : List Beat} {b : Beat} {lost : Nat}
      {pending : List Outbound} :
      lines = before ++ [line] → Due.of line = .subscription →
      (∀ l ∈ before, Due.of l ≠ .subscription) → flight.countP isAwaited = 0 →
      beats = pre ++ b :: post → b.written = [.subscribed] →
      (streamed ++ pending).Sublist (post.flatMap (·.outbound)) →
      ((∀ b ∈ post, ¬ b.session.Lags) →
        lost = 0 ∧ streamed ++ pending = post.flatMap (·.outbound)) →
      Stage beats lines streamed flight (.subscribed lost pending)

/-- Events for all change nothing but the stream of a subscriber. -/
theorem Stage.hear (h : Stage beats lines streamed flight x.phase)
    (hx : b.session.phase = (b.outbound.foldl Session.push x).phase) :
    Stage (beats ++ [b]) lines streamed flight b.session.phase := by
  obtain ⟨inbox, phase⟩ := x
  change Stage beats lines streamed flight phase at h
  cases h with
  | commanding hstreamed hnone hflight =>
    rw [hx, Session.foldl_push_commanding]
    exact .commanding hstreamed hnone hflight
  | waiting hstreamed hlines hline hnone hflight he hes =>
    rw [hx, Session.foldl_push_waiting]
    exact .waiting hstreamed hlines hline hnone hflight he hes
  | @subscribed before line pre post b₀ lost pending hlines hline hnone hflight hbeats hb₀ hsub
      hall =>
    obtain ⟨n, hn⟩ := Session.foldl_push_subscribed inbox lost pending b.outbound
    rw [hn] at hx
    have hbeats' : beats ++ [b] = pre ++ b₀ :: (post ++ [b]) := by simp [hbeats]
    rw [hx]
    refine .subscribed hlines hline hnone hflight hbeats' hb₀ ?_ fun hkeeps => ?_
    · rw [flatMap_concat]
      have hdrop := List.drop_sublist n (pending ++ b.outbound)
      refine (hdrop.append_left streamed).trans ?_
      rw [← List.append_assoc]
      exact hsub.append_right b.outbound
    · obtain ⟨hlost, heq⟩ := hall fun b' hb' => hkeeps b' (List.mem_append_left _ hb')
      have hn₀ : n = 0 := by
        rcases n with _ | n
        · rfl
        · rw [hlost, Nat.zero_add] at hx
          exact (hkeeps b (by simp) ⟨n, _, hx⟩).elim
      rw [flatMap_concat, ← heq, hlost, hn₀, List.drop_zero, List.append_assoc]
      exact ⟨rfl, rfl⟩

/-- A subscriber is written some of what is pending, or told what it has lost. -/
theorem Stage.write {lost : Nat} {pending pending' streamed' : List Outbound}
    (h : Stage beats lines streamed flight (.subscribed lost pending)) (hb : b.outbound = [])
    (hpending : streamed' ++ pending' = streamed ++ pending) :
    Stage (beats ++ [b]) lines streamed' flight (.subscribed 0 pending') := by
  cases h with
  | @subscribed before line pre post b₀ _ _ hlines hline hnone hflight hbeats hb₀ hsub hall =>
    have hbeats' : beats ++ [b] = pre ++ b₀ :: (post ++ [b]) := by simp [hbeats]
    have hpost : (post ++ [b]).flatMap (·.outbound) = post.flatMap (·.outbound) := by
      rw [flatMap_concat, hb, List.append_nil]
    rw [← hpending] at hsub hall
    refine .subscribed hlines hline hnone hflight hbeats' hb₀ (hpost ▸ hsub) fun hkeeps => ?_
    rw [hpost]
    exact ⟨rfl, (hall fun b' hb' => hkeeps b' (List.mem_append_left _ hb')).2⟩

theorem Stage.unawaited {p : Phase} (h : Stage beats lines streamed (e :: flight) p)
    (hp : p = .waiting → isAwaited e = false) : isAwaited e = false := by
  cases h with
  | commanding _ _ hflight => simpa using (List.countP_eq_zero.mp hflight) e
  | waiting => exact hp rfl
  | subscribed _ _ _ hflight => simpa using (List.countP_eq_zero.mp hflight) e

/-- An event that nobody waits for may be served at any stage. -/
theorem Stage.tail {p : Phase} (h : Stage beats lines streamed (e :: flight) p)
    (he : isAwaited e = false) : Stage beats lines streamed flight p := by
  cases h with
  | commanding hstreamed hnone hflight =>
    exact .commanding hstreamed hnone (by simpa [he] using hflight)
  | @waiting before line es e' hstreamed hlines hline hnone hflight he' hes =>
    cases es with
    | nil =>
      cases hflight
      cases he.symm.trans he'
    | cons _ es =>
      cases hflight
      exact .waiting hstreamed hlines hline hnone rfl he' (by simpa [he] using hes)
  | subscribed hlines hline hnone hflight hbeats hb hsub hall =>
    exact .subscribed hlines hline hnone (by simpa [he] using hflight) hbeats hb hsub hall

/-- What a session has sent, what was served of it and what was written to it so far. -/
structure Kept (beats : List Beat) (x : Session) (flight : List EventLoop.Event)
    (lines : List Bytes) (streamed : List Outbound) : Prop where
  sent : beats.flatMap (·.sent) = lines ++ x.inbox
  raised : (beats.flatMap (·.served)).map Prod.fst ++ flight = lines.filterMap raised?
  answered : (answers beats).length = ((beats.flatMap (·.served)).map Prod.fst).countP isAwaited
  written : beats.flatMap (·.written) = transcript lines (answers beats) ++ streamed.map .event
  stage : Stage beats lines streamed flight x.phase

namespace Kept

/-- All that was asked has been answered or is in flight. -/
theorem count (h : Kept beats x flight lines streamed) :
    (answers beats).length + flight.countP isAwaited =
      lines.countP fun l => (Due.of l).isAnswer := by
  rw [h.answered, ← List.countP_append, h.raised, countP_raised]

/-- A beat may bring more lines to read and change what is written of the stream. -/
theorem next {flight' : List EventLoop.Event} {streamed' : List Outbound}
    (h : Kept beats x flight lines streamed) (more : List Bytes)
    (hsent : x.inbox ++ b.sent = more ++ b.session.inbox)
    (hraised : b.served.map Prod.fst ++ flight' = flight ++ more.filterMap raised?)
    (hanswered : (b.served.filterMap Prod.snd).length =
      (b.served.map Prod.fst).countP isAwaited)
    (hwritten : transcript lines (answers beats) ++ streamed.map .event ++ b.written =
      transcript (lines ++ more) (answers beats ++ b.served.filterMap Prod.snd) ++
        streamed'.map .event)
    (hstage : Stage (beats ++ [b]) (lines ++ more) streamed' flight' b.session.phase) :
    Kept (beats ++ [b]) b.session flight' (lines ++ more) streamed' where
  sent := by rw [flatMap_concat, h.sent, List.append_assoc, hsent, List.append_assoc]
  raised := by
    rw [flatMap_concat, List.map_append, List.append_assoc, hraised, ← List.append_assoc, h.raised,
      List.filterMap_append]
  answered := by
    rw [answers_concat, flatMap_concat, List.length_append, hanswered, List.map_append,
      List.countP_append, h.answered]
  written := by rw [answers_concat, flatMap_concat, h.written, hwritten]
  stage := hstage

/-- Where nothing is read, no more lines count. -/
theorem stay {flight' : List EventLoop.Event} {streamed' : List Outbound}
    (h : Kept beats x flight lines streamed) (hsent : x.inbox ++ b.sent = b.session.inbox)
    (hraised : b.served.map Prod.fst ++ flight' = flight)
    (hanswered : (b.served.filterMap Prod.snd).length =
      (b.served.map Prod.fst).countP isAwaited)
    (hwritten : transcript lines (answers beats) ++ streamed.map .event ++ b.written =
      transcript lines (answers beats ++ b.served.filterMap Prod.snd) ++
        streamed'.map .event)
    (hstage : Stage (beats ++ [b]) lines streamed' flight' b.session.phase) :
    Kept (beats ++ [b]) b.session flight' lines streamed' := by
  have hnext : Kept (beats ++ [b]) b.session flight' (lines ++ []) streamed' := by
    refine h.next [] hsent ?_ hanswered ?_ ?_
    · rw [hraised, List.filterMap_nil, List.append_nil]
    · rwa [List.append_nil]
    · rwa [List.append_nil]
  rwa [List.append_nil] at hnext

/-- A session that may command reads a line. -/
theorem read {line : Bytes} {inbox : List Bytes}
    (h : Kept beats ⟨line :: inbox, .commanding⟩ flight lines streamed) :
    Kept (beats ++ [⟨[], [], (Due.of line).atOnce, [], ⟨inbox, (Due.of line).phase⟩⟩])
      ⟨inbox, (Due.of line).phase⟩ (flight ++ (raised? line).toList) (lines ++ [line])
      streamed := by
  have hcount := h.count
  have hstage := h.stage
  cases hstage with
  | commanding hstreamed hnone hflight =>
    rw [hflight] at hcount
    have hflight' (hline : (Due.of line).isAnswer = false) :
        (flight ++ (raised? line).toList).countP isAwaited = 0 := by
      rw [List.countP_append, hflight, countP_raised? hline]
    subst hstreamed
    refine h.next [line] (List.append_nil _) ?_ rfl ?_ ?_
    · cases hr : raised? line <;> simp [hr]
    · rw [List.filterMap_nil, List.append_nil, transcript_concat hnone hcount]
      simp
    · cases hdue : Due.of line with
      | nothing | now =>
        exact .commanding rfl (not_subscription_concat hnone (by simp [hdue]))
          (hflight' (by simp [hdue, Due.isAnswer]))
      | answer =>
        obtain ⟨e, hr, he⟩ := exists_raised? hdue
        rw [hr]
        exact .waiting rfl rfl hdue hnone rfl he hflight
      | subscription =>
        exact .subscribed rfl hdue hnone (hflight' (by simp [hdue, Due.isAnswer])) rfl rfl
          (List.Sublist.refl _) fun _ => ⟨rfl, rfl⟩

/-- The agent answers the line that a session has read last. -/
theorem answer {inbox : List Bytes} {events : List Outbound}
    (h : Kept beats ⟨inbox, .waiting⟩ (e :: flight) lines streamed) (he : isAwaited e = true)
    (r : Reply) : Kept (beats ++ [⟨[], [(e, some r)], [r], events, ⟨inbox, .commanding⟩⟩])
      ⟨inbox, .commanding⟩ flight lines streamed := by
  have hcount := h.count
  have hstage := h.stage
  cases hstage with
  | @waiting before line es e' hstreamed hlines hline hnone hflight he' hes =>
    cases es with
    | cons _ es =>
      cases hflight
      simp [he] at hes
    | nil =>
      cases hflight
      have has : (answers beats).length = before.countP fun l => (Due.of l).isAnswer := by
        simpa [hlines, hline, he, Due.isAnswer] using hcount
      have hbefore : transcript lines (answers beats) = transcript before (answers beats) := by
        rw [hlines, transcript_concat hnone has, hline, Due.atOnce, List.append_nil]
      have hafter : transcript lines (answers beats ++ [r]) =
          transcript before (answers beats) ++ [r] := by
        rw [hlines, transcript_append hnone has]
        simp [transcript, hline]
      have hnone' := not_subscription_concat hnone (by simp [hline] : Due.of line ≠ .subscription)
      rw [← hlines] at hnone'
      refine h.stay (List.append_nil _) rfl (by simp [he]) ?_ (.commanding hstreamed hnone' rfl)
      simp [hbefore, hafter, hstreamed]

theorem moves {flight' : List EventLoop.Event} (h : Kept beats x flight lines streamed)
    (hm : x.Moves flight b flight') :
    ∃ lines streamed, Kept (beats ++ [b]) b.session flight' lines streamed := by
  have hstage := h.stage
  cases hm with
  | send => exact ⟨_, _, h.stay rfl rfl rfl (by simp) (hstage.hear rfl)⟩
  | hear =>
    exact ⟨_, _, h.stay (by simp [Session.foldl_push_inbox]) rfl rfl (by simp) (hstage.hear rfl)⟩
  | @serve _ e r? _ _ hr hw =>
    have he := hstage.unawaited hw
    have hnone : r? = none := by simpa [he] using hr
    exact ⟨_, _, h.stay (by simp [Session.foldl_push_inbox]) rfl (by simp [hnone, he])
      (by simp [hnone]) ((hstage.tail he).hear rfl)⟩
  | read => exact ⟨_, _, h.read⟩
  | answer _ _ r _ he => exact ⟨_, _, h.answer he r⟩
  | write _ _ e =>
    exact ⟨_, _, h.stay (List.append_nil _) rfl rfl (by simp [List.map_append])
      (hstage.write rfl (List.append_assoc streamed [e] _))⟩
  | lag => exact ⟨_, _, h.stay (List.append_nil _) rfl rfl (by simp) (hstage.write rfl rfl)⟩

/-- One line is written for each that is not blank, but for the one that waits. -/
theorem length (h : Kept beats x flight lines streamed) :
    (transcript lines (answers beats)).length + flight.countP isAwaited =
      lines.countP fun l => !(Due.of l).isNothing := by
  have hcount := h.count
  obtain ⟨inbox, phase⟩ := x
  have hlast {before : List Bytes} {line : Bytes} (hlines : lines = before ++ [line])
      (hnone : ∀ l ∈ before, Due.of l ≠ .subscription)
      (has : (answers beats).length = before.countP fun l => (Due.of l).isAnswer) :
      (transcript lines (answers beats)).length =
        before.countP (fun l => !(Due.of l).isNothing) + (Due.of line).atOnce.length := by
    rw [hlines, transcript_concat hnone has, List.length_append, length_transcript hnone has]
  have hstage : Stage beats lines streamed flight phase := h.stage
  cases hstage with
  | commanding _ hnone hflight =>
    rw [hflight] at hcount ⊢
    exact length_transcript hnone hcount
  | waiting _ hlines hline hnone hflight he hes =>
    rw [hflight] at hcount ⊢
    rw [hlast hlines hnone (by simpa [hlines, hline, hes, he, Due.isAnswer] using hcount)]
    simp [hlines, hline, hes, he, Due.atOnce, Due.isNothing]
  | subscribed hlines hline hnone hflight =>
    rw [hflight] at hcount ⊢
    rw [hlast hlines hnone (by simpa [hlines, hline, Due.isAnswer] using hcount)]
    simp [hlines, hline, Due.atOnce, Due.isNothing]

end Kept

theorem Session.Course.kept (h : Course beats x flight) :
    ∃ lines streamed, Kept beats x flight lines streamed := by
  induction h with
  | start => exact ⟨[], [], rfl, rfl, rfl, rfl, .commanding rfl nofun rfl⟩
  | next _ hm ih =>
    obtain ⟨lines, streamed, hkept⟩ := ih
    exact hkept.moves hm

end Snooping.Control
