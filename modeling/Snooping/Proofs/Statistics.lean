import Snooping.Proofs.Figures
import Snooping.Proofs.Handing

/-!
Figures agree with history: what a request for them is told is what was counted since the row was
added.
-/
namespace Snooping

namespace EngineId

/-- How an engine words the figures of a row. Idle time does not run backwards. -/
def statistics (now : Nat) (f : Figures) : EngineId → List Field
  | generalQueryExpectation | pimExpectation =>
    [.idleTime (UInt64.ofNat (now - f.lastHit)), .rxPackets (UInt64.ofNat f.rx),
      .txPackets (UInt64.ofNat f.tx)]
  | reportExpectation =>
    [.idleTime (UInt64.ofNat (now - f.lastHit)), .rxPackets (UInt64.ofNat f.rx)]
  | generalQueryTx | reportTx =>
    [.idleTime (UInt64.ofNat (now - f.lastHit)), .txPackets (UInt64.ofNat f.tx)]

end EngineId

namespace Agent

variable {χ ω : Type} {a a' : Agent χ ω} {table : TableId} {key value : List Field}
  {now : Nat} {traces : List Trace} {e : EngineId} {k : e.Key}

def figures (a : Agent χ ω) : (e : EngineId) → e.Key → Option Figures
  | .generalQueryExpectation, k => a.generalQuery.figures k
  | .reportExpectation, k => a.report.figures k
  | .pimExpectation, k => a.pim.figures k
  | .generalQueryTx, k => a.generalQueryTx.figures k
  | .reportTx, k => a.reportTx.figures k

theorem figures_isSome (a : Agent χ ω) (e : EngineId) (k : e.Key) :
    (a.figures e k).isSome = ((a.roster e).stored k).isSome := by
  cases e <;> exact Option.isSome_map.trans (Roster.ofTable_isSome ..).symm

theorem delete_figures (h : a.delete table key = .ok (a', traces)) (e : EngineId) (k : e.Key) :
    a'.figures e k = if table = e.table then
        if e.key? key = some k then none else a.figures e k
      else a.figures e k := by
  cases table <;>
    simp only [delete, bind_eq_ok_iff, pure_eq_ok_iff, Prod.mk.injEq, Prod.exists] at h <;>
    obtain ⟨_, _, h, rfl, _⟩ := h
  case timeout | rxPortGroup | txPortGroup => cases e <;> exact rfl
  case generalQueryExpectation | reportExpectation | pimExpectation =>
    cases e <;> first | exact rfl | exact Expectation.Table.delete_figures h k
  case generalQueryTx | reportTx =>
    cases e <;> first | exact rfl | exact Transmission.Table.delete_figures h k

/-- The time of the event, if it hits `k` of engine `e`. -/
def hits (a : Agent χ ω) (now : Nat) (e : EngineId) (k : e.Key) : Event χ ω → List Nat
  | .packet frame inPort => if a.hitKey? now frame inPort e = some k then [now] else []
  | _ => []

/-- A frame is counted for the row that it hits. -/
theorem classify_figures (a : Agent χ ω) (frame : Bytes) (inPort : UInt32) (now : Nat)
    (e : EngineId) (k : e.Key) :
    (a.classify frame inPort now).agent.figures e k = (a.figures e k).map
      (·.after e.isTransmission (a.hits now e k (.packet frame inPort)) []) := by
  have heff := Classifier.classify_effect ⟨a.rxPorts, a.timeouts, inPort, now⟩ frame
    ⟨a.generalQuery, a.report, a.pim⟩
  cases e with
  | generalQueryExpectation => exact heff.generalQuery_met.figures k
  | reportExpectation => exact heff.report_met.figures k
  | pimExpectation => exact heff.pim_met.figures k
  | generalQueryTx | reportTx => exact (Figures.map_after_nil _ _).symm

variable [PacketOut ω] {r : TableRequest}

/-- A request for the figures of a row is told them. -/
theorem request_stats {f : Figures} (hf : a.figures e k = some f) (hk : e.key? key = some k)
    (now : Nat) :
    (a.request ⟨e.table, .getStats key⟩ now).answer = .stats (e.statistics now f) := by
  have hstats : a.stats e.table key now = .ok (e.statistics now f) := by
    cases e with
    | generalQueryExpectation | reportExpectation | pimExpectation =>
      exact Expectation.Table.stats_ok hf hk now
    | generalQueryTx | reportTx => exact Transmission.Table.stats_ok hf hk now
  simp [request_eq, perform, hstats, bind, Except.bind, pure, Except.pure]

variable [ControllerChannel χ] {xs : History χ ω} {b : Agent χ ω} {ev : Event χ ω}
  {reply : Reply χ ω Answer}

/-- Whether a way out takes what is due for `k`. -/
def takes (a : Agent χ ω) (e : EngineId) (ways : χ × ω) (k : e.Key) : Bool :=
  match e with
  | .generalQueryExpectation =>
    Expectation.Table.hears Expectation.generalQuery (asyncCapable a.channel) ways.1 k
  | .reportExpectation =>
    Expectation.Table.hears Expectation.report (asyncCapable a.channel) ways.1 k
  | .pimExpectation =>
    Expectation.Table.hears Expectation.pim (asyncCapable a.channel) ways.1 k
  | .generalQueryTx => a.generalQueryTx.takes Transmission.generalQuery a.txPorts ways.2 k
  | .reportTx => a.reportTx.takes Transmission.report a.txPorts ways.2 k

/-- The times at `now` of what the ways out take for `k`, when `a` becomes `a'` and hands out what
is due for `ks`. -/
def taken (a a' : Agent χ ω) (now : Nat) (e : EngineId) (ks : List e.Key) (k : e.Key) : List Nat :=
  let rows := a'.withWays a.channel a.out
  marks (rows.emit e) (rows.takes e) ks (a.channel, a.out) now k

theorem add_figures (h : a.add table key value now = .ok (a', traces)) (e : EngineId) (k : e.Key) :
    a'.figures e k = if table = e.table then
        if e.key? key = some k then
          some ((Figures.fresh now).after e.isTransmission []
            (a.taken a' now e (if e.isTransmission then [k] else []) k))
        else a.figures e k
      else a.figures e k := by
  cases table <;>
    simp only [add, bind_eq_ok_iff, pure_eq_ok_iff, Prod.mk.injEq, Prod.exists] at h
  case timeout | rxPortGroup | txPortGroup =>
    obtain ⟨_, _, _, rfl, _⟩ := h
    cases e <;> exact rfl
  case generalQueryExpectation | reportExpectation | pimExpectation =>
    obtain ⟨_, _, h, rfl, _⟩ := h
    cases e <;> first | exact rfl | exact Expectation.Table.add_figures h k
  case generalQueryTx =>
    obtain ⟨_, h, rfl, _⟩ := h
    cases e
    case generalQueryTx =>
      exact Transmission.Table.add_figures
        (fun k hk => (Transmission.generalQuery_reading_some hk).1) h k
    all_goals exact rfl
  case reportTx =>
    obtain ⟨_, h, rfl, _⟩ := h
    cases e
    case reportTx =>
      exact Transmission.Table.add_figures
        (fun k hk => (Transmission.report_reading_some hk).1) h k
    all_goals exact rfl

theorem modify_figures (h : a.modify table key value now = .ok (a', traces)) (e : EngineId)
    (k : e.Key) :
    a'.figures e k = if table = e.table then
        if e.key? key = some k then
          (a.figures e k).map (·.after e.isTransmission []
            (a.taken a' now e (if e.isTransmission then [k] else []) k))
        else a.figures e k
      else a.figures e k := by
  cases table <;>
    simp only [modify, bind_eq_ok_iff, pure_eq_ok_iff, Prod.mk.injEq, Prod.exists] at h
  case timeout | rxPortGroup | txPortGroup =>
    obtain ⟨_, _, _, rfl, _⟩ := h
    cases e <;> exact rfl
  case generalQueryExpectation | reportExpectation | pimExpectation =>
    obtain ⟨_, _, rfl, _⟩ := h
    have hkept := fun (e : EngineId) (k : e.Key) => Figures.map_after_nil (a.figures e k) false
    cases e <;> first | exact rfl | exact (ite_eq_right_iff.mpr fun _ => hkept _ k).symm
  case generalQueryTx | reportTx =>
    obtain ⟨_, h, rfl, _⟩ := h
    cases e <;> first | exact rfl | exact Transmission.Table.modify_figures h k

/-- What an accepted operation makes of the figures of its row, given the times of what is taken. -/
def refigure (now : Nat) (sends : Bool) (taken : List Nat) (f : Option Figures) :
    TableOp.Kind → Option Figures
  | .add => some ((Figures.fresh now).after sends [] taken)
  | .modify => f.map (·.after sends [] taken)
  | .delete => none
  | .getStats => f

theorem performs_figures {op : TableOp} (hp : a.Performs a' table now op) (e : EngineId)
    (k : e.Key) :
    a'.figures e k = if table = e.table then
        if e.key? op.key = some k then
          refigure now e.isTransmission
            (a.taken a' now e (if e.isTransmission then [k] else []) k) (a.figures e k) op.kind
        else a.figures e k
      else a.figures e k := by
  cases op with
  | add key value =>
    obtain ⟨traces, h⟩ := hp
    exact add_figures h e k
  | modify key value =>
    obtain ⟨traces, h⟩ := hp
    exact modify_figures h e k
  | delete key =>
    obtain ⟨traces, h⟩ := hp
    exact delete_figures h e k
  | getStats key => exact hp.elim

theorem figures_of_edits {op : TableOp.Kind} (h : a.Edits now op e k (.request r)) :
    (a.request r now).agent.figures e k = refigure now e.isTransmission
      (a.taken (a.request r now).agent now e (if e.isTransmission then [k] else []) k)
      (a.figures e k) op := by
  have hp := performs_of_edits h
  obtain ⟨ht, rfl, hk, _⟩ := h
  rw [performs_figures hp, if_pos ht, if_pos hk]

/-- The figures of a row stay if no request is accepted for it. -/
theorem figures_of_not_edits (h : ∀ op, ¬ a.Edits now op e k (.request r)) :
    (a.request r now).agent.figures e k = a.figures e k := by
  rcases request_cases a r now with ⟨_, ha⟩ | ⟨hok, hp⟩
  · rw [ha]
  · rw [performs_figures hp]
    by_cases ht : r.table = e.table
    · have hk : e.key? r.op.key ≠ some k := fun hk => h _ ⟨ht, rfl, hk, hok⟩
      rw [if_pos ht, if_neg hk]
    · rw [if_neg ht]

/-- A row that a request neither adds nor deletes keeps its figures, and counts what is taken. -/
theorem request_figures (hadd : ¬ a.Edits now .add e k (.request r))
    (hdelete : ¬ a.Edits now .delete e k (.request r)) :
    (a.request r now).agent.figures e k = (a.figures e k).map (·.after e.isTransmission []
      (a.taken (a.request r now).agent now e (a.handed now (.request r) e) k)) := by
  by_cases hmodify : a.Edits now .modify e k (.request r)
  · rw [figures_of_edits hmodify, handed_of_edits hmodify (.inr rfl)]
    rfl
  · rw [taken, marks_of_not_mem (not_mem_handed hadd hmodify), Figures.map_after_nil]
    by_cases hstats : a.Edits now .getStats e k (.request r)
    · exact figures_of_edits hstats
    · refine figures_of_not_edits fun op => ?_
      cases op <;> assumption

theorem tick_figures {e' : EngineId} {t : Reply χ ω Nat} (h : a.tick e' now = .ok t)
    (e : EngineId) (k : e.Key) :
    t.agent.figures e k = (a.figures e k).map (·.after e.isTransmission []
      (a.taken t.agent now e (a.handed now (.tick e') e) k)) := by
  cases e' <;> simp only [tick, bind_eq_ok_iff, pure_eq_ok_iff] at h <;> obtain ⟨t, ht, rfl⟩ := h
  -- The other engines are left alone; the one that ticks has the figures of its table.
  case generalQueryExpectation | reportExpectation | pimExpectation =>
    cases e <;> first
      | exact (Figures.map_after_nil _ _).symm
      | refine (Expectation.Table.tick_figures ht k).trans ?_
        refine congrArg (fun ds => Option.map (Figures.after · false [] ds) _) (Eq.symm ?_)
        refine marks_map Prod.fst ?_ ?_ (a.served _ now) (a.channel, a.out) now k <;>
          exact fun _ _ => rfl
  case generalQueryTx | reportTx =>
    cases e <;> first
      | exact (Figures.map_after_nil _ _).symm
      | refine (Transmission.Table.tick_figures ht k).trans ?_
        refine congrArg (fun ds => Option.map (Figures.after · true [] ds) _) (Eq.symm ?_)
        refine marks_map Prod.snd ?_ ?_ (a.served _ now) (a.channel, a.out) now k <;>
          exact fun _ _ => rfl

theorem step_figures (h : a.step now ev = .ok reply)
    (hadd : ¬ a.Edits now .add e k ev) (hdelete : ¬ a.Edits now .delete e k ev) :
    reply.agent.figures e k = (a.figures e k).map (·.after e.isTransmission (a.hits now e k ev)
      (a.taken reply.agent now e (a.handed now ev e) k)) := by
  cases ev with
  | request r =>
    cases h
    exact request_figures hadd hdelete
  | packet frame inPort =>
    cases h
    exact classify_figures a frame inPort now e k
  | tick e' =>
    rw [step] at h
    split at h
    · cases h
    · rename_i t ht
      cases h
      exact tick_figures ht e k
  | startup rows =>
    cases h
    refine Eq.trans ?_ (Figures.map_after_nil _ _).symm
    change (a.applyInitialTimeouts rows).1.figures e k = _
    rw [applyInitialTimeouts_fst]
    cases e <;> rfl
  | channel f | out f =>
    cases h
    refine Eq.trans ?_ (Figures.map_after_nil _ _).symm
    cases e <;> rfl

theorem step_figures_none (h : a.step now ev = .ok reply) (hdelete : a.Edits now .delete e k ev) :
    reply.agent.figures e k = none := by
  cases ev with
  | request r =>
    cases h
    exact figures_of_edits hdelete
  | _ => exact hdelete.elim

theorem step_figures_fresh (h : a.step now ev = .ok reply) (hadd : a.Edits now .add e k ev) :
    reply.agent.figures e k = some ((Figures.fresh now).after e.isTransmission (a.hits now e k ev)
      (a.taken reply.agent now e (a.handed now ev e) k)) := by
  cases ev with
  | request r =>
    cases h
    rw [handed_of_edits hadd (.inl rfl)]
    exact figures_of_edits hadd
  | _ => exact hadd.elim

/-- What the events of a history yield, one after another. -/
def gather (f : Agent χ ω → Nat → Event χ ω → Agent χ ω → List Nat) (a : Agent χ ω) :
    History χ ω → List Nat
  | [] => []
  | (now, ev) :: rest =>
    match a.step now ev with
    | .error _ => []
    | .ok reply => f a now ev reply.agent ++ gather f reply.agent rest

/-- The times of the hits on `k` in a history. -/
def hitTimes (a : Agent χ ω) (e : EngineId) (k : e.Key) : History χ ω → List Nat :=
  gather (fun b now ev _ => b.hits now e k ev) a

/-- The times of what the ways out take for `k` in a history. -/
def takenTimes (a : Agent χ ω) (e : EngineId) (k : e.Key) : History χ ω → List Nat :=
  gather (fun b now ev b' => b.taken b' now e (b.handed now ev e) k) a

theorem gather_cons {f : Agent χ ω → Nat → Event χ ω → Agent χ ω → List Nat}
    (h : a.step now ev = .ok reply) :
    a.gather f ((now, ev) :: xs) = f a now ev reply.agent ++ reply.agent.gather f xs := by
  rw [gather, h]

/-- The event adds or deletes row `k` of engine `e`. -/
def Restarts (a : Agent χ ω) (now : Nat) (e : EngineId) (k : e.Key) (ev : Event χ ω) : Prop :=
  a.Edits now .add e k ev ∨ a.Edits now .delete e k ev

/-- While a row is neither added nor deleted, its figures count all hits and all that is taken. -/
theorem figures_run (h : a.run xs = .ok b)
    (hk : a.Throughout (fun c now ev => ¬ c.Restarts now e k ev) xs) :
    b.figures e k = (a.figures e k).map
      (·.after e.isTransmission (a.hitTimes e k xs) (a.takenTimes e k xs)) := by
  induction xs generalizing a with
  | nil =>
    cases h
    exact (Figures.map_after_nil _ _).symm
  | cons x xs ih =>
    obtain ⟨now, ev⟩ := x
    obtain ⟨reply, hr, hx⟩ := run_cons_ok h
    rw [throughout_cons hr] at hk
    obtain ⟨hadd, hdelete⟩ := not_or.mp hk.1
    rw [ih hx hk.2, step_figures hr hadd hdelete, Option.map_map]
    simp only [Function.comp_def, Figures.after_after, hitTimes, takenTimes, gather_cons hr]

/-- A row with figures was added in the history, or was there before, and has been kept since. -/
theorem since_or_throughout (hs : a.Sound) (h : a.run xs = .ok b) (hf : (b.figures e k).isSome) :
    a.Since (fun c now ev => c.Edits now .add e k ev) (fun c now ev => c.Restarts now e k ev) xs ∨
      a.Throughout (fun c now ev => ¬ c.Restarts now e k ev) xs ∧ (a.figures e k).isSome := by
  refine since_or_throughout_of_step (F := fun c => (c.figures e k).isSome) ?_ hs h hf
  intro c now ev reply _ hr hf
  by_cases hadd : c.Edits now .add e k ev
  · exact .inl hadd
  · have hdelete : ¬ c.Edits now .delete e k ev := by
      intro hdelete
      rw [step_figures_none hr hdelete] at hf
      cases hf
    rw [step_figures hr hadd hdelete, Option.isSome_map] at hf
    exact .inr ⟨not_or.mpr ⟨hadd, hdelete⟩, hf⟩

/-- After any history, what a request for the figures of a live row is told counts from the time `u`
at which the row was last added. A row that waits counts the hits on it, and a row that sends the
frames that were taken for it; its idle time runs from the last of them, or else from `u`. Next to
the hits, notifications that were taken are counted. Nothing is handed to the ways out but what is
counted here if it is taken. -/
theorem statistics_of_history (maxPorts : UInt32) (channel : χ) (out : ω)
    (history : History χ ω) :
    ∃ a, (new maxPorts channel out).run history = .ok a ∧
      (∀ e k, ((a.roster e).stored k).isSome → ∃ pre u ev post b reply,
        history = pre ++ (u, ev) :: post ∧ (new maxPorts channel out).run pre = .ok b ∧
        b.Edits u .add e k ev ∧ b.step u ev = .ok reply ∧
        reply.agent.Throughout (fun c now ev => ¬ c.Restarts now e k ev) post ∧
        let hits := b.hitTimes e k ((u, ev) :: post)
        let taken := b.takenTimes e k ((u, ev) :: post)
        let lastHit := (if e.isTransmission then taken else hits).getLastD u
        ∀ key now, e.key? key = some k →
          (a.request ⟨e.table, .getStats key⟩ now).answer =
            .stats (e.statistics now ⟨lastHit, hits.length, taken.length⟩)) ∧
      ∀ now ev reply, a.step now ev = .ok reply →
        (∀ f, ev ≠ .channel f) → (∀ f, ev ≠ .out f) →
        (reply.agent.channel, reply.agent.out) =
          (reply.agent.withWays a.channel a.out).handOut (a.handed now ev)
            (a.channel, a.out) := by
  obtain ⟨a, ha, hs⟩ := run_ok (sound_new maxPorts channel out) history
  refine ⟨a, ha, ?_, fun now ev reply => step_ways hs⟩
  intro e k hk
  rw [← figures_isSome] at hk
  rcases since_or_throughout (sound_new maxPorts channel out) ha hk with hsince | ⟨_, hnew⟩
  · obtain ⟨pre, u, ev, post, b, reply, rfl, hb, hadd, hr, hkept⟩ := hsince
    refine ⟨pre, u, ev, post, b, reply, rfl, hb, hadd, hr, hkept, ?_⟩
    intro hits taken lastHit key now hkey
    rw [run_append hb, run_cons hr] at ha
    refine request_stats ?_ hkey now
    rw [figures_run ha hkept, step_figures_fresh hr hadd, Option.map_some, Figures.after_after]
    simp only [hits, taken, lastHit, hitTimes, takenTimes, gather_cons hr, Figures.fresh,
      Figures.after, Nat.zero_add]
  · cases e <;> cases hnew

/-- The event is a request for a table. -/
def Event.asks (table : TableId) : Event χ ω → Bool
  | request r => r.table = table
  | _ => false

omit [ControllerChannel χ] in
/-- Where one event only asks for the table of `e`, no other one adds a row to it. -/
theorem eq_of_edits (pre post : History χ ω) {pre' post' : History χ ω} {x x' : Nat × Event χ ω}
    (h : pre ++ x :: post = pre' ++ x' :: post') (hadd : a.Edits x'.1 .add e k x'.2)
    (hpre : pre.all fun y => !y.2.asks e.table) (hpost : post.all fun y => !y.2.asks e.table) :
    pre = pre' ∧ x = x' ∧ post = post' := by
  have hasks : x'.2.asks e.table = true := by
    cases hev : x'.2 with
    | request r =>
      rw [hev] at hadd
      exact decide_eq_true hadd.1
    | _ =>
      rw [hev] at hadd
      exact hadd.elim
  have hnot : ∀ l : History χ ω, (l.all fun y => !y.2.asks e.table) → x' ∉ l := by
    intro l hl hm
    simpa [hasks] using List.all_eq_true.mp hl x' hm
  exact (List.append_cons_inj_of_notMem (hnot pre hpre) (hnot post hpost)).mp h

/-- A querier is waited for and heard of once, and a query is sent. -/
def heard : History ControllerLink FrameSender :=
  let origin : Igmp.Origin := ⟨⟨2, 0, 0, 0, 0, 1⟩, 1, ⟨192, 0, 2, 1⟩⟩
  [(0, .channel (·.connect 4)),
    (0, .request ⟨.rxPortGroup, .add [.portNo 1] [.name "lan"]⟩),
    (0, .request ⟨.txPortGroup, .add [.name "lan"] [.portNo 3]⟩),
    (0, .request ⟨.generalQueryExpectation, .add [.name "lan", .vlanVid 1] []⟩),
    (5, .request ⟨.generalQueryTx, .add [.reference "tx_port_group" [.name "lan"], .vlanVid 1]
      [.vlanVid 1, .ipv4Src origin.src, .ethSrc origin.srcMac]⟩),
    (20, .packet (Igmp.generalQueryFrame origin) 1),
    (255020, .tick .generalQueryExpectation)]

/-- The querier has one hit, and one notification of it was taken since. One frame was taken for the
query. -/
theorem statistics_of_history_heard :
    ∃ a b c, (new 8 .initial .initial).run heard = .ok a ∧
      (new 8 .initial .initial).run (heard.take 3) = .ok b ∧
      b.hitTimes .generalQueryExpectation (⟨"lan", 1⟩ : VlanKey) (heard.drop 3) = [20] ∧
      b.takenTimes .generalQueryExpectation (⟨"lan", 1⟩ : VlanKey) (heard.drop 3) = [255020] ∧
      (a.request ⟨.generalQueryExpectation, .getStats [.name "lan", .vlanVid 1]⟩ 300000).answer =
        .stats [.idleTime 299980, .rxPackets 1, .txPackets 1] ∧
      (new 8 .initial .initial).run (heard.take 4) = .ok c ∧
      c.takenTimes .generalQueryTx (⟨"lan", 1⟩ : VlanKey) (heard.drop 4) = [5] ∧
      (a.request ⟨.generalQueryTx, .getStats
          [.reference "tx_port_group" [.name "lan"], .vlanVid 1]⟩ 300000).answer =
        .stats [.idleTime 299995, .txPackets 1] := by
  obtain ⟨a, ha, hstats, -⟩ := statistics_of_history 8 .initial .initial heard
  obtain ⟨pre, u, ev, post, b, _, hx, hb, hadd, _, _, hwaits⟩ :=
    hstats .generalQueryExpectation (⟨"lan", 1⟩ : VlanKey) (by cases ha; rfl)
  obtain ⟨rfl, hev, rfl⟩ := eq_of_edits (heard.take 3) (heard.drop 4) hx hadd rfl rfl
  rw [show (u, ev) :: heard.drop 4 = heard.drop 3 by rw [← hev]; rfl] at hwaits
  cases hev
  obtain ⟨pre, u, ev, post, c, _, hx, hc, hadd, _, _, hsends⟩ :=
    hstats .generalQueryTx (⟨"lan", 1⟩ : VlanKey) (by cases ha; rfl)
  obtain ⟨rfl, hev, rfl⟩ := eq_of_edits (heard.take 4) (heard.drop 5) hx hadd rfl rfl
  rw [show (u, ev) :: heard.drop 5 = heard.drop 4 by rw [← hev]; rfl] at hsends
  cases hev
  have hhits : b.hitTimes .generalQueryExpectation (⟨"lan", 1⟩ : VlanKey) (heard.drop 3) =
      [20] := by
    cases hb
    rfl
  have hnotices : b.takenTimes .generalQueryExpectation (⟨"lan", 1⟩ : VlanKey) (heard.drop 3) =
      [255020] := by
    cases hb
    rfl
  have hframes : c.takenTimes .generalQueryTx (⟨"lan", 1⟩ : VlanKey) (heard.drop 4) = [5] := by
    cases hc
    rfl
  refine ⟨a, b, c, ha, hb, hhits, hnotices, ?_, hc, hframes, ?_⟩
  · have h := hwaits [.name "lan", .vlanVid 1] 300000 rfl
    rw [hhits, hnotices] at h
    exact h
  · have h := hsends [.reference "tx_port_group" [.name "lan"], .vlanVid 1] 300000 rfl
    rw [hframes] at h
    exact h

end Agent
end Snooping
