import Snooping.Proofs.Steps

/-!
Agents that agree but for what was delivered. Each operation takes agreeing agents to agreeing ones
and answers both alike, whatever their ways out.
-/
namespace Snooping

/-- Two computations are refused alike, or give related results. -/
inductive Alike {ε α β : Type} (R : α → β → Prop) : Except ε α → Except ε β → Prop
  | ok {a : α} {b : β} (h : R a b) : Alike R (.ok a) (.ok b)
  | error (e : ε) : Alike R (.error e) (.error e)

section Alike

variable {ε α α' β β' : Type} {R : α → β → Prop} {S : α' → β' → Prop} {x : Except ε α}
  {y : Except ε β}

theorem Alike.refl (x : Except ε α) : Alike Eq x x := by
  cases x with
  | ok a => exact .ok rfl
  | error e => exact .error e

theorem Alike.bind {f : α → Except ε α'} {g : β → Except ε β'} (h : Alike R x y)
    (hf : ∀ a b, R a b → Alike S (f a) (g b)) : Alike S (x >>= f) (y >>= g) := by
  cases h with
  | ok h => exact hf _ _ h
  | error e => exact .error e

/-- The same reading first, and then related computations. -/
theorem Alike.read {f : α → Except ε α'} {g : α → Except ε β'} (x : Except ε α)
    (hf : ∀ a, Alike S (f a) (g a)) : Alike S (x >>= f) (x >>= g) :=
  (Alike.refl x).bind fun a _ h => h ▸ hf a

theorem Alike.guard {p q : Prop} [Decidable p] [Decidable q] (hpq : p ↔ q) {e : ε}
    {f : PUnit → Except ε α} {g : PUnit → Except ε β} (hf : Alike R (f ⟨⟩) (g ⟨⟩)) :
    Alike R (if p then throw e >>= f else f ⟨⟩) (if q then throw e >>= g else g ⟨⟩) := by
  by_cases hp : p
  · rw [if_pos hp, if_pos (hpq.mp hp)]
    exact .error e
  · rw [if_neg hp, if_neg fun hq => hp (hpq.mpr hq)]
    exact hf

end Alike

namespace Rows

variable {κ α β : Type} [DecidableEq κ] {part : α → β} {r r' : Rows κ α} {k : κ} {a a' : α}

/-- The same rows, up to a part of each. -/
def Agree (part : α → β) (r r' : Rows κ α) : Prop :=
  ∀ k, (r.find? k).map part = (r'.find? k).map part

theorem Agree.symm (h : r.Agree part r') : r'.Agree part r := fun k => (h k).symm

theorem Agree.contains (h : r.Agree part r') (k : κ) : r.contains k = r'.contains k := by
  rw [Rows.contains, ← Option.isSome_map, h, Option.isSome_map, Rows.contains]

theorem Agree.insert (h : r.Agree part r') (ha : part a = part a') (k : κ) :
    (r.insert k a).Agree part (r'.insert k a') := by
  intro k'
  rw [find?_insert, find?_insert]
  split
  · exact congrArg some ha
  · exact h k'

theorem Agree.erase (h : r.Agree part r') (k : κ) : (r.erase k).Agree part (r'.erase k) := by
  intro k'
  rw [find?_erase, find?_erase]
  split
  · rfl
  · exact h k'

/-- A row is missing on both sides, or both have it with the same part. -/
theorem Agree.cases (h : r.Agree part r') (k : κ) :
    r.find? k = none ∧ r'.find? k = none ∨
      ∃ a a', r.find? k = some a ∧ r'.find? k = some a' ∧ part a = part a' := by
  have hk := h k
  cases hr : r.find? k with
  | none =>
    rw [hr] at hk
    exact .inl ⟨rfl, Option.map_eq_none_iff.mp hk.symm⟩
  | some a =>
    rw [hr] at hk
    obtain ⟨a', ha', he⟩ := Option.map_eq_some_iff.mp hk.symm
    exact .inr ⟨a, a', rfl, ha', he.symm⟩

end Rows

namespace Expectation

namespace Table

variable {κ : Type} [DecidableEq κ] {kind : Kind κ} {t t' : Table κ} {key value : List Field}
  {k : κ} {interval now : Nat}

/-- The same rows but for notifications, and the same registrations. -/
structure Agree (t t' : Table κ) : Prop where
  entries : t.entries.Agree Entry.unsent t'.entries
  queue : t.queue = t'.queue
  hits : t.counters.hits = t'.counters.hits
  expirations : t.counters.expirations = t'.counters.expirations

theorem Agree.symm (h : t.Agree t') : t'.Agree t :=
  ⟨h.entries.symm, h.queue.symm, h.hits.symm, h.expirations.symm⟩

theorem Agree.add (h : t.Agree t') :
    Alike (fun p p' => p.1.Agree p'.1) (t.add kind key value interval now)
      (t'.add kind key value interval now) := by
  refine .read _ fun k => .read _ fun _ => .guard (by rw [h.entries.contains]) (.ok ?_)
  exact ⟨h.entries.insert rfl k, by rw [h.queue], h.hits, h.expirations⟩

theorem Agree.modify (h : t.Agree t') :
    Alike Eq (t.modify kind key value) (t'.modify kind key value) := by
  refine .read _ fun k => .read _ fun _ => ?_
  rw [h.entries.contains]
  exact .refl _

theorem Agree.delete (h : t.Agree t') :
    Alike (fun p p' => p.1.Agree p'.1) (t.delete kind key) (t'.delete kind key) := by
  refine .read _ fun k => .guard (by rw [h.entries.contains]) (.ok ?_)
  exact ⟨h.entries.erase k, by rw [h.queue], h.hits, h.expirations⟩

/-- Statistics differ in nothing but the number of notifications. -/
theorem Agree.stats (h : t.Agree t') {p : Field → Bool} (hp : ∀ n, p (.txPackets n) = false) :
    Alike (fun fs fs' => fs.filter p = fs'.filter p) (t.stats kind key now)
      (t'.stats kind key now) := by
  refine .read _ fun k => ?_
  rcases h.entries.cases k with ⟨hn, hn'⟩ | ⟨e, e', he, he', hu⟩
  · rw [hn, hn']
    exact .error _
  · rw [he, he']
    simp only [Entry.unsent, Entry.mk.injEq] at hu
    refine .ok ?_
    cases kind.statsIncludeTx <;> simp [hu, hp, List.filter_cons]

/-- A packet meets an expectation on both sides or on neither. -/
theorem Agree.hit? (h : t.Agree t') (kind : Kind κ) (k : κ) (interval now : Nat) :
    t.hit? kind k interval now = none ∧ t'.hit? kind k interval now = none ∨
      ∃ u u' traces, t.hit? kind k interval now = some (u, traces) ∧
        t'.hit? kind k interval now = some (u', traces) ∧ u.Agree u' := by
  unfold Table.hit?
  rcases h.entries.cases k with ⟨hn, hn'⟩ | ⟨e, e', he, he', hu⟩
  · rw [hn, hn']
    exact .inl ⟨rfl, rfl⟩
  · rw [he, he']
    refine .inr ⟨_, _, _, rfl, rfl, h.entries.insert ?_ k, by rw [h.queue],
      congrArg (· + 1) h.hits, h.expirations⟩
    simp only [Entry.unsent, Entry.mk.injEq] at hu ⊢
    simp [hu]

section Ticks

variable {χ χ' : Type} [ControllerChannel χ] [ControllerChannel χ'] {capable : Bool}
  {s s' : Service κ χ} {channel : χ} {r : Ticked κ χ}

theorem notify_counts (h : notify kind capable k s = .ok s') :
    s'.counters.hits = s.counters.hits ∧
      s'.counters.expirations = s.counters.expirations + 1 := by
  unfold notify at h
  split at h
  · cases h
  · split at h
    · cases h
      exact ⟨rfl, rfl⟩
    · split at h <;> cases h <;> exact ⟨rfl, rfl⟩

/-- What a tick counts does not depend on what becomes of the messages. -/
theorem tick_counts (h : t.tick kind interval now channel = .ok r) :
    r.table.counters.hits = t.counters.hits ∧
      r.table.counters.expirations =
        t.counters.expirations + (t.roster.served now interval).length ∧
      r.delay = r.table.queue.delay now := by
  simp only [tick, bind_eq_ok_iff, pure_eq_ok_iff] at h
  obtain ⟨d, hd, rfl⟩ := h
  have hdrain : d.state.counters.hits = t.counters.hits ∧
      d.state.counters.expirations =
        t.counters.expirations + (t.roster.served now interval).length := by
    refine Expiry.Queue.drain_induct (R := fun ks (s s' : Service κ χ) =>
      s'.counters.hits = s.counters.hits ∧
        s'.counters.expirations = s.counters.expirations + ks.length)
      (fun s => ⟨rfl, rfl⟩) ?_ hd
    rintro k ks s s₁ s' hk ⟨hh, hx⟩
    obtain ⟨hh₁, hx₁⟩ := notify_counts hk
    refine ⟨hh.trans hh₁, ?_⟩
    rw [hx, hx₁, List.length_cons]
    omega
  exact ⟨hdrain.1, hdrain.2, rfl⟩

/-- Ticks of agreeing tables agree, and ask for the same delay. -/
theorem Agree.tick (h : t.Agree t') (hs : t.roster.Sound) (hs' : t'.roster.Sound) (kind : Kind κ)
    (interval now : Nat) (channel : χ) (channel' : χ') :
    ∃ r r', t.tick kind interval now channel = .ok r ∧
      t'.tick kind interval now channel' = .ok r' ∧
      r.table.Agree r'.table ∧ r.delay = r'.delay := by
  obtain ⟨r, hr, ht, _, hu⟩ := tick_ok hs kind interval now channel
  obtain ⟨r', hr', ht', _, hu'⟩ := tick_ok hs' kind interval now channel'
  obtain ⟨hh, hx, hd⟩ := tick_counts hr
  obtain ⟨hh', hx', hd'⟩ := tick_counts hr'
  have hrow : t.roster.queue = t'.roster.queue := h.queue
  have hqueue : r.table.queue = r'.table.queue := by
    rw [show r.table.queue = _ from ht.1, show r'.table.queue = _ from ht'.1, hrow]
  refine ⟨r, r', hr, hr', ⟨fun k => ?_, hqueue, ?_, ?_⟩, ?_⟩
  · rw [hu, hu', h.entries k]
  · rw [hh, hh', h.hits]
  · rw [hx, hx', h.expirations, Roster.served, Roster.served, hrow]
  · rw [hd, hd', hqueue]

end Ticks

end Table
end Expectation

namespace Transmission.Table

variable {κ ω ω' : Type} [DecidableEq κ] [PacketOut ω] [PacketOut ω'] {kind : Kind κ}
  {t t' : Table κ} {ports : TxPorts} {key value : List Field} {interval now : Nat}

/-- The same rows but for the marks of sending, and the same registrations. -/
structure Agree (t t' : Table κ) : Prop where
  entries : t.entries.Agree Entry.unsent t'.entries
  queue : t.queue = t'.queue

omit [PacketOut ω] [PacketOut ω'] in
theorem Agree.symm (h : t.Agree t') : t'.Agree t := ⟨h.entries.symm, h.queue.symm⟩

theorem Agree.add (h : t.Agree t') (out : ω) (out' : ω') :
    Alike (fun c c' => c.table.Agree c'.table) (t.add kind ports key value interval now out)
      (t'.add kind ports key value interval now out') := by
  refine .read _ fun k => .read _ fun origin => .guard (by rw [h.entries.contains]) (.ok ?_)
  refine ⟨h.entries.insert ?_ k, by rw [h.queue]⟩
  rw [send_unsent, send_unsent]

theorem Agree.modify (h : t.Agree t') (out : ω) (out' : ω') :
    Alike (fun c c' => c.table.Agree c'.table) (t.modify kind ports key value interval now out)
      (t'.modify kind ports key value interval now out') := by
  refine .read _ fun k => .read _ fun origin => ?_
  rcases h.entries.cases k with ⟨hn, hn'⟩ | ⟨e, e', he, he', hu⟩
  · rw [hn, hn']
    exact .error _
  · rw [he, he']
    refine .ok ⟨h.entries.insert ?_ k, by rw [h.queue]⟩
    simp only [send_unsent]
    simp only [Entry.unsent, Entry.mk.injEq] at hu ⊢
    simp [hu]

theorem Agree.delete (h : t.Agree t') :
    Alike (fun p p' => p.1.Agree p'.1) (t.delete kind key) (t'.delete kind key) := by
  refine .read _ fun k => .guard (by rw [h.entries.contains]) (.ok ?_)
  exact ⟨h.entries.erase k, by rw [h.queue]⟩

/-- All figures on a transmission tell of deliveries. -/
theorem Agree.stats (h : t.Agree t') {p : Field → Bool} (hi : ∀ n, p (.idleTime n) = false)
    (hp : ∀ n, p (.txPackets n) = false) :
    Alike (fun fs fs' => fs.filter p = fs'.filter p) (t.stats kind key now)
      (t'.stats kind key now) := by
  refine .read _ fun k => ?_
  rcases h.entries.cases k with ⟨hn, hn'⟩ | ⟨e, e', he, he', _⟩
  · rw [hn, hn']
    exact .error _
  · rw [he, he']
    exact .ok (by simp [hi, hp])

omit [PacketOut ω'] in
theorem tick_delay {out : ω} {r : Ticked κ ω}
    (h : t.tick kind ports interval now out = .ok r) : r.delay = r.table.queue.delay now := by
  simp only [tick, bind_eq_ok_iff, pure_eq_ok_iff] at h
  obtain ⟨d, _, rfl⟩ := h
  rfl

theorem Agree.tick (h : t.Agree t') (hs : t.roster.Sound) (hs' : t'.roster.Sound) (kind : Kind κ)
    (ports : TxPorts) (interval now : Nat) (out : ω) (out' : ω') :
    ∃ r r', t.tick kind ports interval now out = .ok r ∧
      t'.tick kind ports interval now out' = .ok r' ∧ r.table.Agree r'.table ∧
      r.delay = r'.delay := by
  obtain ⟨r, hr, ht, _, hu⟩ := tick_ok hs kind ports interval now out
  obtain ⟨r', hr', ht', _, hu'⟩ := tick_ok hs' kind ports interval now out'
  have hqueue : r.table.queue = r'.table.queue := by
    rw [show r.table.queue = _ from ht.1, show r'.table.queue = _ from ht'.1,
      show t.roster.queue = t'.roster.queue from h.queue]
  refine ⟨r, r', hr, hr', ⟨fun k => ?_, hqueue⟩, ?_⟩
  · rw [hu, hu', h.entries k]
  · rw [tick_delay hr, tick_delay hr', hqueue]

end Transmission.Table

namespace Classifier

structure Targets.Agree (t t' : Targets) : Prop where
  generalQuery : t.generalQuery.Agree t'.generalQuery
  report : t.report.Agree t'.report
  pim : t.pim.Agree t'.pim

/-- The same outcome, and agreeing tables after it. -/
def Classified.Agree (c c' : Classified) : Prop :=
  c.outcome = c'.outcome ∧ c.targets.Agree c'.targets

namespace Targets.Agree

variable {t t' : Targets} (h : t.Agree t') (a : Arrival) (vid : UInt16)
include h

theorem onGeneralQuery : (onGeneralQuery a vid t).Agree (onGeneralQuery a vid t') := by
  unfold Classifier.onGeneralQuery
  cases a.ports.find? a.inPort with
  | none => exact ⟨rfl, h⟩
  | some n =>
    simp only
    rcases h.generalQuery.hit? Expectation.generalQuery (.of n vid) (a.timeouts.get .query) a.now
      with ⟨hn, hn'⟩ | ⟨u, u', traces, hu, hu', hg⟩
    · rw [hn, hn']
      exact ⟨rfl, h⟩
    · rw [hu, hu']
      exact ⟨rfl, { h with generalQuery := hg }⟩

theorem onReport (group : Ipv4) :
    (onReport a vid group t).Agree (onReport a vid group t') := by
  unfold Classifier.onReport
  cases a.ports.find? a.inPort with
  | none => exact ⟨rfl, h⟩
  | some n =>
    simp only
    rcases h.report.hit? Expectation.report (.of n vid group) (a.timeouts.get .report) a.now
      with ⟨hn, hn'⟩ | ⟨u, u', traces, hu, hu', hr⟩
    · rw [hn, hn']
      exact ⟨rfl, h⟩
    · rw [hu, hu']
      exact ⟨rfl, { h with report := hr }⟩

theorem onPimHello : (onPimHello a vid t).Agree (onPimHello a vid t') := by
  unfold Classifier.onPimHello
  cases a.ports.find? a.inPort with
  | none => exact ⟨rfl, h⟩
  | some n =>
    simp only
    rcases h.pim.hit? Expectation.pim (.of n vid) (a.timeouts.get .query) a.now
      with ⟨hn, hn'⟩ | ⟨u, u', traces, hu, hu', hp⟩
    · rw [hn, hn']
      exact ⟨rfl, h⟩
    · rw [hu, hu']
      exact ⟨rfl, { h with pim := hp }⟩

omit h in
theorem plain (h : t.Agree t') (o : Outcome) : (plain t o).Agree (Classifier.plain t' o) := ⟨rfl, h⟩

theorem onIgmp (payload : Bytes) : (onIgmp a vid payload t).Agree (onIgmp a vid payload t') := by
  unfold Classifier.onIgmp
  cases Igmp.Header.parse? payload with
  | none => exact h.plain _
  | some header =>
    simp only
    split_ifs
    · exact h.plain _
    · exact h.onGeneralQuery a vid
    · exact h.onReport a vid _
    all_goals exact h.plain _

theorem onPim (dst : Ipv4) (payload : Bytes) :
    (onPim a vid dst payload t).Agree (onPim a vid dst payload t') := by
  unfold Classifier.onPim
  cases Pim.Header.parse? payload with
  | none =>
    simp only
    split_ifs <;> exact h.plain _
  | some header =>
    simp only
    split_ifs
    · exact h.plain _
    · exact h.plain _
    · exact h.plain _
    · exact h.onPimHello a vid

omit vid in
theorem classify (frame : Bytes) : (classify a frame t).Agree (classify a frame t') := by
  unfold Classifier.classify
  cases Frame.parse frame with
  | error e => cases e <;> exact h.plain _
  | ok f =>
    simp only
    split_ifs
    · exact h.onIgmp a _ _
    · exact h.onPim a _ _ _
    · exact h.plain _

end Targets.Agree
end Classifier

/-- A figure on a row of the table that no delivery changes. -/
def TableId.steady (t : TableId) : Field → Bool
  | .txPackets _ => false
  | .idleTime _ => t ≠ .generalQueryTx ∧ t ≠ .reportTx
  | _ => true

/-- An answer but for the figures that deliveries change. -/
def TableResponse.steady (t : TableId) : TableResponse → TableResponse
  | stats fields => .stats (fields.filter t.steady)
  | r => r

namespace Agent

variable {χ ω χ' ω' : Type}

/-- The same configuration, rows, registrations and counts, but for what was delivered. -/
structure Agree (a : Agent χ ω) (b : Agent χ' ω') : Prop where
  maxPorts : a.maxPorts = b.maxPorts
  timeouts : a.timeouts = b.timeouts
  rxPorts : a.rxPorts = b.rxPorts
  txPorts : a.txPorts = b.txPorts
  generalQuery : a.generalQuery.Agree b.generalQuery
  report : a.report.Agree b.report
  pim : a.pim.Agree b.pim
  generalQueryTx : a.generalQueryTx.Agree b.generalQueryTx
  reportTx : a.reportTx.Agree b.reportTx
  classified : a.classified = b.classified

namespace Agree

variable {a : Agent χ ω} {b : Agent χ' ω'} (h : a.Agree b)
include h

theorem symm : b.Agree a :=
  ⟨h.maxPorts.symm, h.timeouts.symm, h.rxPorts.symm, h.txPorts.symm, h.generalQuery.symm,
    h.report.symm, h.pim.symm, h.generalQueryTx.symm, h.reportTx.symm, h.classified.symm⟩

section Requests
variable [PacketOut ω] [PacketOut ω'] (t : TableId) (key value : List Field) (now : Nat)

theorem add :
    Alike (fun p p' => p.1.Agree p'.1) (a.add t key value now) (b.add t key value now) := by
  cases t with
  | timeout =>
    unfold Agent.add
    rw [h.timeouts]
    exact .read _ fun p => .ok { h with timeouts := rfl }
  | rxPortGroup =>
    unfold Agent.add
    rw [h.rxPorts, h.maxPorts]
    exact .read _ fun p => .ok { h with maxPorts := rfl, rxPorts := rfl }
  | txPortGroup =>
    unfold Agent.add
    rw [h.txPorts, h.maxPorts]
    exact .read _ fun p => .ok { h with maxPorts := rfl, txPorts := rfl }
  | generalQueryExpectation =>
    unfold Agent.add
    rw [h.timeouts]
    exact h.generalQuery.add.bind fun p p' hp => .ok { h with timeouts := rfl, generalQuery := hp }
  | reportExpectation =>
    unfold Agent.add
    rw [h.timeouts]
    exact h.report.add.bind fun p p' hp => .ok { h with timeouts := rfl, report := hp }
  | pimExpectation =>
    unfold Agent.add
    rw [h.timeouts]
    exact h.pim.add.bind fun p p' hp => .ok { h with timeouts := rfl, pim := hp }
  | generalQueryTx =>
    unfold Agent.add
    rw [h.timeouts, h.txPorts]
    exact (h.generalQueryTx.add a.out b.out).bind fun c c' hc =>
      .ok { h with timeouts := rfl, txPorts := rfl, generalQueryTx := hc }
  | reportTx =>
    unfold Agent.add
    rw [h.timeouts, h.txPorts]
    exact (h.reportTx.add a.out b.out).bind fun c c' hc =>
      .ok { h with timeouts := rfl, txPorts := rfl, reportTx := hc }

theorem modify :
    Alike (fun p p' => p.1.Agree p'.1) (a.modify t key value now) (b.modify t key value now) := by
  cases t with
  | timeout =>
    unfold Agent.modify
    rw [h.timeouts]
    exact .read _ fun p => .ok { h with timeouts := rfl }
  | rxPortGroup =>
    unfold Agent.modify
    rw [h.rxPorts, h.maxPorts]
    exact .read _ fun p => .ok { h with maxPorts := rfl, rxPorts := rfl }
  | txPortGroup =>
    unfold Agent.modify
    rw [h.txPorts, h.maxPorts]
    exact .read _ fun p => .ok { h with maxPorts := rfl, txPorts := rfl }
  | generalQueryExpectation => exact h.generalQuery.modify.bind fun _ _ _ => .ok h
  | reportExpectation => exact h.report.modify.bind fun _ _ _ => .ok h
  | pimExpectation => exact h.pim.modify.bind fun _ _ _ => .ok h
  | generalQueryTx =>
    unfold Agent.modify
    rw [h.timeouts, h.txPorts]
    exact (h.generalQueryTx.modify a.out b.out).bind fun c c' hc =>
      .ok { h with timeouts := rfl, txPorts := rfl, generalQueryTx := hc }
  | reportTx =>
    unfold Agent.modify
    rw [h.timeouts, h.txPorts]
    exact (h.reportTx.modify a.out b.out).bind fun c c' hc =>
      .ok { h with timeouts := rfl, txPorts := rfl, reportTx := hc }

omit [PacketOut ω] [PacketOut ω'] in
theorem delete : Alike (fun p p' => p.1.Agree p'.1) (a.delete t key) (b.delete t key) := by
  cases t with
  | timeout =>
    unfold Agent.delete
    rw [h.timeouts]
    exact .read _ fun p => .ok { h with timeouts := rfl }
  | rxPortGroup =>
    unfold Agent.delete
    rw [h.rxPorts, h.maxPorts]
    exact .read _ fun p => .ok { h with maxPorts := rfl, rxPorts := rfl }
  | txPortGroup =>
    unfold Agent.delete
    rw [h.txPorts]
    exact .read _ fun p => .ok { h with txPorts := rfl }
  | generalQueryExpectation =>
    exact h.generalQuery.delete.bind fun p p' hp => .ok { h with generalQuery := hp }
  | reportExpectation => exact h.report.delete.bind fun p p' hp => .ok { h with report := hp }
  | pimExpectation => exact h.pim.delete.bind fun p p' hp => .ok { h with pim := hp }
  | generalQueryTx =>
    exact h.generalQueryTx.delete.bind fun p p' hp => .ok { h with generalQueryTx := hp }
  | reportTx => exact h.reportTx.delete.bind fun p p' hp => .ok { h with reportTx := hp }

omit [PacketOut ω] [PacketOut ω'] in
theorem stats :
    Alike (fun fs fs' => fs.filter t.steady = fs'.filter t.steady) (a.stats t key now)
      (b.stats t key now) := by
  cases t with
  | timeout | rxPortGroup | txPortGroup => exact .error _
  | generalQueryExpectation => exact h.generalQuery.stats fun _ => rfl
  | reportExpectation => exact h.report.stats fun _ => rfl
  | pimExpectation => exact h.pim.stats fun _ => rfl
  | generalQueryTx => exact h.generalQueryTx.stats (fun _ => rfl) fun _ => rfl
  | reportTx => exact h.reportTx.stats (fun _ => rfl) fun _ => rfl

theorem perform (op : TableOp) :
    Alike (fun p p' => p.1.Agree p'.1 ∧ p.2.1.steady t = p'.2.1.steady t) (a.perform t op now)
      (b.perform t op now) := by
  cases op with
  | add key value => exact (h.add t key value now).bind fun p p' hp => .ok ⟨hp, rfl⟩
  | modify key value => exact (h.modify t key value now).bind fun p p' hp => .ok ⟨hp, rfl⟩
  | delete key => exact (h.delete t key).bind fun p p' hp => .ok ⟨hp, rfl⟩
  | getStats key =>
    exact (h.stats t key now).bind fun fs fs' hf => .ok ⟨h, congrArg TableResponse.stats hf⟩

omit t in
theorem request (r : TableRequest) :
    (a.request r now).agent.Agree (b.request r now).agent ∧
      (a.request r now).answer.steady r.table = (b.request r now).answer.steady r.table := by
  have hp := h.perform r.table now r.op
  rw [request_eq, request_eq]
  generalize a.perform r.table r.op now = x at hp ⊢
  generalize b.perform r.table r.op now = y at hp ⊢
  cases hp with
  | ok hp => exact hp
  | error e => exact ⟨h, rfl⟩

end Requests

theorem classify (frame : Bytes) (inPort : UInt32) (now : Nat) :
    (a.classify frame inPort now).agent.Agree (b.classify frame inPort now).agent ∧
      (a.classify frame inPort now).answer = (b.classify frame inPort now).answer := by
  have ht : Classifier.Targets.Agree ⟨a.generalQuery, a.report, a.pim⟩
    ⟨b.generalQuery, b.report, b.pim⟩ := ⟨h.generalQuery, h.report, h.pim⟩
  obtain ⟨ho, hc⟩ := ht.classify ⟨a.rxPorts, a.timeouts, inPort, now⟩ frame
  unfold Agent.classify
  rw [← h.rxPorts, ← h.timeouts]
  refine ⟨{ h with
    timeouts := rfl
    rxPorts := rfl
    generalQuery := hc.generalQuery
    report := hc.report
    pim := hc.pim
    classified := ?_ }, ho⟩
  simp only [h.classified, ho]

theorem applyInitialTimeouts (rows : List (TimeoutName × Duration)) :
    (a.applyInitialTimeouts rows).1.Agree (b.applyInitialTimeouts rows).1 := by
  unfold Agent.applyInitialTimeouts
  generalize ([] : List Trace) = traces
  induction rows generalizing a b traces with
  | nil => exact h
  | cons row rows ih =>
    have hrow : (a.applyInitialTimeout row.1 row.2).1.Agree
        (b.applyInitialTimeout row.1 row.2).1 :=
      { h with timeouts := congrArg (·.put row.1 (some row.2.kept.toNat)) h.timeouts }
    rw [List.foldl_cons, List.foldl_cons]
    exact ih hrow _

variable [ControllerChannel χ] [PacketOut ω] [ControllerChannel χ'] [PacketOut ω']

/-- Whatever the ways out do, a tick leaves the same behind and asks for the same delay. -/
theorem tick (hs : a.Sound) (hs' : b.Sound) (e : EngineId) (now : Nat) :
    ∃ r r', a.tick e now = .ok r ∧ b.tick e now = .ok r' ∧ r.agent.Agree r'.agent ∧
      r.answer = r'.answer := by
  unfold Agent.tick
  rw [← h.timeouts, ← h.txPorts]
  cases e with
  | generalQueryExpectation =>
    obtain ⟨r, r', hr, hr', hg, hd⟩ := h.generalQuery.tick hs.generalQuery hs'.generalQuery
      Expectation.generalQuery (a.timeouts.get .query) now a.channel b.channel
    simp only [hr, hr']
    exact ⟨_, _, rfl, rfl, { h with generalQuery := hg, timeouts := rfl, txPorts := rfl }, hd⟩
  | reportExpectation =>
    obtain ⟨r, r', hr, hr', hg, hd⟩ := h.report.tick hs.report hs'.report
      Expectation.report (a.timeouts.get .report) now a.channel b.channel
    simp only [hr, hr']
    exact ⟨_, _, rfl, rfl, { h with report := hg, timeouts := rfl, txPorts := rfl }, hd⟩
  | pimExpectation =>
    obtain ⟨r, r', hr, hr', hg, hd⟩ := h.pim.tick hs.pim hs'.pim
      Expectation.pim (a.timeouts.get .query) now a.channel b.channel
    simp only [hr, hr']
    exact ⟨_, _, rfl, rfl, { h with pim := hg, timeouts := rfl, txPorts := rfl }, hd⟩
  | generalQueryTx =>
    obtain ⟨r, r', hr, hr', hg, hd⟩ := h.generalQueryTx.tick hs.generalQueryTx hs'.generalQueryTx
      Transmission.generalQuery a.txPorts (a.timeouts.get .queryTx) now a.out b.out
    simp only [hr, hr']
    exact ⟨_, _, rfl, rfl, { h with generalQueryTx := hg, timeouts := rfl, txPorts := rfl }, hd⟩
  | reportTx =>
    obtain ⟨r, r', hr, hr', hg, hd⟩ := h.reportTx.tick hs.reportTx hs'.reportTx
      Transmission.report a.txPorts (a.timeouts.get .reportTx) now a.out b.out
    simp only [hr, hr']
    exact ⟨_, _, rfl, rfl, { h with reportTx := hg, timeouts := rfl, txPorts := rfl }, hd⟩

end Agree
end Agent
end Snooping
