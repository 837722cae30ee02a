import Mathlib.Logic.Function.Basic
import Snooping.Config.Basic
import Snooping.Proofs.Presence

/-!
The timeout table under any sequence of operations. What a name has is told by the last operation
that was accepted for it, and the cells behind the table, which others read by handle, show the
same.
-/
namespace Snooping

/-- Whole milliseconds within 64 bits are kept as they are, and nothing else is. -/
theorem Duration.ofMillis_kept_iff {d : Duration} :
    ofMillis d.kept = d ↔ ∃ ms, d = ofMillis ms := by
  constructor
  · exact fun h => ⟨d.kept, h.symm⟩
  · rintro ⟨ms, rfl⟩
    rw [kept_ofMillis]

/-- Only the whole milliseconds of a span matter. -/
theorem Duration.kept_congr {d d' : Duration} (h : d.millis = d'.millis) : d.kept = d'.kept :=
  congrArg UInt64.ofNat h

/-- The default as a span of time. -/
def TimeoutName.initial (n : TimeoutName) : Duration := .ofMillis (.ofNat n.default)

theorem TimeoutName.kept_initial (n : TimeoutName) : n.initial.kept.toNat = n.default := by
  cases n <;> decide

namespace TimeoutTable

/-- A request, or a row of the startup configuration. -/
inductive Operation
  | request (op : TableOp)
  | startup (n : TimeoutName) (d : Duration)

def operate : Operation → InPlace TimeoutTable Unit
  | .request (.add key value) => addInPlace key value
  | .request (.modify key value) => modifyInPlace key value
  | .request (.delete key) => deleteInPlace key
  | .request (.getStats _) => .refuse (.statsNotSupported .timeout)
  | .startup n d => applyInitial n d

/-- The table as an operation leaves it, refused or not. -/
def after (t : TimeoutTable) (op : Operation) : TimeoutTable := (operate op t).state

def run (t : TimeoutTable) (ops : List Operation) : TimeoutTable := ops.foldl after t

/-- `op` is accepted by `t` for row `n`, and gives it interval `v`, or removes it. -/
inductive Sets (t : TimeoutTable) (n : TimeoutName) : Operation → Option Duration → Prop
  | add {ms : UInt32} (hms : 1 ≤ ms) (h : t.configured? n = none) :
      Sets t n (.request (.add [.name n.name] [.intervalMs ms])) (some (.ofMillis ms.toUInt64))
  | modify {ms : UInt32} (hms : 1 ≤ ms) (h : t.configured? n ≠ none) :
      Sets t n (.request (.modify [.name n.name] [.intervalMs ms])) (some (.ofMillis ms.toUInt64))
  | delete (h : t.configured? n ≠ none) : Sets t n (.request (.delete [.name n.name])) none
  | startup (d : Duration) : Sets t n (.startup n d) (some d)

/-- No operation in turn is accepted for row `n`. -/
def Spares (n : TimeoutName) (t : TimeoutTable) : List Operation → Prop
  | [] => True
  | op :: ops => (∀ v, ¬ t.Sets n op v) ∧ Spares n (t.after op) ops

/-- The last operation that was accepted for row `n` gave it `v`. -/
def LastSet (t : TimeoutTable) (ops : List Operation) (n : TimeoutName) (v : Option Duration) :
    Prop :=
  ∃ pre op post, ops = pre ++ op :: post ∧ (t.run pre).Sets n op v ∧
    Spares n (t.run (pre ++ [op])) post

/-- A row with the interval that it was given. -/
def kept (v : Option Duration) : Option Nat := v.map fun d => d.kept.toNat

variable {t t' : TimeoutTable} {n m : TimeoutName} {v : Option Duration} {op : Operation}
  {ops : List Operation}

theorem get_put (t : TimeoutTable) (n m : TimeoutName) (v : Option Nat) :
    (t.put n v).get m = if m = n then v.getD m.default else t.get m := by
  rw [get, configured?_put]
  split <;> rfl

/-- The outcome of an operation outright. -/
def perform (t : TimeoutTable) : Operation → Except TableError (TimeoutTable × List Trace)
  | .request (.add key value) => t.add key value
  | .request (.modify key value) => t.modify key value
  | .request (.delete key) => t.delete key
  | .request (.getStats _) => .error (.statsNotSupported .timeout)
  | .startup n d => .ok (t.put n (some d.kept.toNat), [trace "timeout set" n d.millis])

theorem operate_of (t : TimeoutTable) (op : Operation) : operate op t = .of t (t.perform op) := by
  rcases op with (⟨key, value⟩ | ⟨key, value⟩ | ⟨key⟩ | ⟨key⟩) | ⟨n, d⟩
  · exact addInPlace_of t key value
  · exact modifyInPlace_of t key value
  · exact deleteInPlace_of t key
  · rfl
  · rfl

/-- What is accepted sets one row. -/
theorem perform_ok_iff : (∃ traces, t.perform op = .ok (t', traces)) ↔
    ∃ n v, t.Sets n op v ∧ t' = t.put n (kept v) := by
  have hkey := fun key n => (timeoutName_takes.all key).ok_iff n
  have hvalue := fun value d => (interval_decides value).ok_iff d
  constructor
  · rintro ⟨traces, h⟩
    rcases op with (⟨key, value⟩ | ⟨key, value⟩ | ⟨key⟩ | ⟨key⟩) | ⟨n, d⟩
    · simp only [perform, add, bind_eq_ok_iff, guard_eq_ok_iff, pure_eq_ok_iff, Prod.mk.injEq,
        hkey, hvalue] at h
      obtain ⟨n, rfl, _, ⟨ms, hms, rfl, rfl⟩, hc, rfl, _⟩ := h
      exact ⟨n, _, .add hms (by simpa using hc), rfl⟩
    · simp only [perform, modify, bind_eq_ok_iff, guard_eq_ok_iff, pure_eq_ok_iff, Prod.mk.injEq,
        hkey, hvalue] at h
      obtain ⟨n, rfl, _, ⟨ms, hms, rfl, rfl⟩, hc, rfl, _⟩ := h
      exact ⟨n, _, .modify hms (by simpa using hc), rfl⟩
    · simp only [perform, delete, bind_eq_ok_iff, guard_eq_ok_iff, pure_eq_ok_iff, Prod.mk.injEq,
        hkey] at h
      obtain ⟨n, rfl, hc, rfl, _⟩ := h
      exact ⟨n, _, .delete (by simpa using hc), rfl⟩
    · cases h
    · cases h
      exact ⟨n, _, .startup d, rfl⟩
  · rintro ⟨n, v, h, rfl⟩
    cases h with
    | @add ms hms h =>
      refine ⟨[trace "timeout set" n (Duration.ofMillis ms.toUInt64).millis], ?_⟩
      simp only [perform, add, bind_eq_ok_iff, guard_eq_ok_iff, pure_eq_ok_iff, hkey, hvalue]
      exact ⟨n, rfl, _, ⟨ms, hms, rfl, rfl⟩, by simp [h], rfl⟩
    | @modify ms hms h =>
      refine ⟨[trace "timeout set" n (Duration.ofMillis ms.toUInt64).millis], ?_⟩
      simp only [perform, modify, bind_eq_ok_iff, guard_eq_ok_iff, pure_eq_ok_iff, hkey, hvalue]
      exact ⟨n, rfl, _, ⟨ms, hms, rfl, rfl⟩, by simp [h], rfl⟩
    | delete h =>
      refine ⟨[trace "timeout restored to default" n n.default], ?_⟩
      simp only [perform, delete, bind_eq_ok_iff, guard_eq_ok_iff, pure_eq_ok_iff, hkey]
      exact ⟨n, rfl, by simp [h], rfl⟩
    | startup d => exact ⟨_, rfl⟩

/-- An operation is refused and leaves the table, or it sets one row. -/
theorem after_cases (t : TimeoutTable) (op : Operation) :
    (∃ e, operate op t = ⟨.error e, t, []⟩) ∧ t.after op = t ∨
      ∃ n v, t.Sets n op v ∧ (operate op t).answer = .ok () ∧ t.after op = t.put n (kept v) := by
  rw [after, operate_of]
  cases h : t.perform op with
  | error e => exact .inl ⟨⟨e, rfl⟩, rfl⟩
  | ok r =>
    obtain ⟨n, v, hset, ht⟩ := perform_ok_iff.mp ⟨r.2, h⟩
    exact .inr ⟨n, v, hset, rfl, ht⟩

theorem Sets.after_eq (h : t.Sets n op v) : t.after op = t.put n (kept v) := by
  obtain ⟨traces, hok⟩ := perform_ok_iff.mpr ⟨n, v, h, rfl⟩
  rw [after, operate_of, hok]
  rfl

theorem configured?_after_of_not_sets (h : ∀ v, ¬ t.Sets n op v) :
    (t.after op).configured? n = t.configured? n := by
  rcases t.after_cases op with ⟨_, ha⟩ | ⟨m, w, hset, _, ha⟩
  · rw [ha]
  · have hne : n ≠ m := fun he => h w (he ▸ hset)
    rw [ha, configured?_put, if_neg hne]

theorem run_append (t : TimeoutTable) (xs ys : List Operation) :
    t.run (xs ++ ys) = (t.run xs).run ys :=
  List.foldl_append

theorem LastSet.cons (h : (t.after op).LastSet ops n v) : t.LastSet (op :: ops) n v := by
  obtain ⟨pre, op', post, rfl, hset, hspares⟩ := h
  exact ⟨op :: pre, op', post, rfl, hset, hspares⟩

theorem configured?_run_of_spares (h : Spares n t ops) :
    (t.run ops).configured? n = t.configured? n := by
  induction ops generalizing t with
  | nil => rfl
  | cons op ops ih => exact (ih h.2).trans (configured?_after_of_not_sets h.1)

theorem LastSet.configured?_eq (h : t.LastSet ops n v) :
    (t.run ops).configured? n = kept v := by
  obtain ⟨pre, op, post, rfl, hset, hspares⟩ := h
  have hop : (t.run (pre ++ [op])).configured? n = kept v := by
    rw [run_append, run, List.foldl_cons, List.foldl_nil, hset.after_eq, configured?_put,
      if_pos rfl]
  rw [← hop, ← configured?_run_of_spares hspares, ← run_append, List.append_assoc,
    List.singleton_append]

/-- Some operation was the last to be accepted for a row, or the row is as it was. -/
theorem lastSet_or_spares (t : TimeoutTable) (ops : List Operation) (n : TimeoutName) :
    (∃ v, t.LastSet ops n v) ∨ Spares n t ops := by
  induction ops generalizing t with
  | nil => exact .inr trivial
  | cons op ops ih =>
    rcases ih (t.after op) with ⟨v, hlast⟩ | hspares
    · exact .inl ⟨v, hlast.cons⟩
    · by_cases hop : ∃ v, t.Sets n op v
      · obtain ⟨v, hset⟩ := hop
        exact .inl ⟨v, [], op, ops, rfl, hset, hspares⟩
      · exact .inr ⟨not_exists.mp hop, hspares⟩

theorem keyReading_all_name (n : TimeoutName) : keyReading.all [.name n.name] = .ok n :=
  ((timeoutName_takes.all _).ok_iff n).mpr rfl

theorem parseValue_intervalMs {ms : UInt32} (hms : 1 ≤ ms) :
    parseValue [.intervalMs ms] = .ok (.ofMillis ms.toUInt64) :=
  ((interval_decides _).ok_iff _).mpr ⟨ms, hms, rfl, rfl⟩

/-- A startup row is set as its whole milliseconds would be added. -/
theorem operate_startup {d : Duration} {ms : UInt32} (hms : 1 ≤ ms)
    (hd : d.millis = (Duration.ofMillis ms.toUInt64).millis) (h : t.configured? n = none) :
    operate (.startup n d) t = operate (.request (.add [.name n.name] [.intervalMs ms])) t := by
  rw [operate, operate, addInPlace, keyReading_all_name, InPlace.check_ok,
    parseValue_intervalMs hms, InPlace.check_ok, InPlace.look_bind, h, applyInitial, set, hd,
    Duration.kept_congr hd]
  rfl

/-- Startup rows out of a map, in whatever order its names are listed. -/
theorem configured?_run_startup (f : TimeoutName → Option UInt32) (names : List TimeoutName)
    (t : TimeoutTable) (n : TimeoutName) :
    (t.run ((names.filterMap fun m => (f m).map fun ms => (m, ms.toNat)).map
        fun row => .startup row.1 (.ofMillis (.ofNat row.2)))).configured? n =
      if n ∈ names ∧ (f n).isSome then (f n).map UInt32.toNat else t.configured? n := by
  induction names generalizing t with
  | nil => simp [run]
  | cons m names ih =>
    cases hm : f m with
    | none =>
      rw [List.filterMap_cons_none (by simp [hm]), ih]
      by_cases hn : n = m
      · simp [hn, hm]
      · simp [hn]
    | some ms =>
      have hms : (Duration.ofMillis (.ofNat ms.toNat)).kept.toNat = ms.toNat := by simp
      rw [List.filterMap_cons_some (b := (m, ms.toNat)) (by simp [hm]), List.map_cons]
      change ((t.put m (some _)).run _).configured? n = _
      rw [ih, configured?_put, hms]
      by_cases hn : n = m
      · simp [hn, hm]
      · simp [hn]

theorem configured?_empty (n : TimeoutName) : empty.configured? n = none := by
  cases n <;> rfl

/-- The startup rows of a configuration, as operations. -/
def ofConfig (config : Config) : List Operation :=
  (config.initialTimeouts : List (TimeoutName × Duration)).map fun row => .startup row.1 row.2

theorem configured?_ofConfig (config : Config) (n : TimeoutName) :
    (empty.run (ofConfig config)).configured? n = (config.timeouts.find? n).map UInt32.toNat := by
  have hn : n ∈ TimeoutName.all := by cases n <;> decide
  rw [ofConfig, List.map_map]
  refine (configured?_run_startup config.timeouts.find? TimeoutName.all empty n).trans ?_
  rw [configured?_empty]
  cases config.timeouts.find? n with
  | none => simp
  | some ms => simp [hn]

/-- From nothing, a row is there if the last operation that was accepted for it gave it an
interval. -/
theorem isSome_configured?_empty (ops : List Operation) (n : TimeoutName) :
    ((empty.run ops).configured? n).isSome ↔ ∃ d, empty.LastSet ops n (some d) := by
  constructor
  · intro h
    rcases empty.lastSet_or_spares ops n with ⟨v, hlast⟩ | hspares
    · rw [hlast.configured?_eq, kept, Option.isSome_map, Option.isSome_iff_exists] at h
      obtain ⟨d, rfl⟩ := h
      exact ⟨d, hlast⟩
    · rw [configured?_run_of_spares hspares, configured?_empty] at h
      cases h
  · rintro ⟨d, hlast⟩
    rw [hlast.configured?_eq]
    rfl

end TimeoutTable

/-- Where the interval of each name is kept. No two names share a cell. -/
structure Layout where
  cell : TimeoutName → Nat
  injective : Function.Injective cell

/-- The timeout table in memory: cells that are written in place, beside the names that have rows.
A handle is the address of a cell. -/
structure Cells where
  layout : Layout
  memory : Nat → UInt64
  configured : TimeoutName → Bool

namespace Cells

open TimeoutTable (Operation keyReading parseValue trace)

def handle (c : Cells) (n : TimeoutName) : Nat := c.layout.cell n

def load (c : Cells) (handle : Nat) : Duration := .ofMillis (c.memory handle)

def get (c : Cells) (n : TimeoutName) : Duration := c.load (c.handle n)

/-- What the cell of a name holds. -/
def word (c : Cells) (n : TimeoutName) : UInt64 := c.memory (c.handle n)

def store (c : Cells) (n : TimeoutName) (d : Duration) : Cells :=
  { c with memory := Function.update c.memory (c.handle n) d.kept }

def mark (c : Cells) (n : TimeoutName) (b : Bool) : Cells :=
  { c with configured := Function.update c.configured n b }

/-- Every cell starts with the default of its name. -/
def fresh (layout : Layout) (memory : Nat → UInt64) : Cells :=
  TimeoutName.all.foldl (fun c n => c.store n n.initial) ⟨layout, memory, fun _ => false⟩

def set (n : TimeoutName) (d : Duration) : InPlace Cells Unit := do
  .write (·.store n d)
  .note (trace "timeout set" n d.millis)

def operate : Operation → InPlace Cells Unit
  | .request (.add key value) => do
    let n ← .check (keyReading.all key)
    let d ← .check (parseValue value)
    if (← .look).configured n then .refuse .alreadyExists
    .write (·.mark n true)
    set n d
  | .request (.modify key value) => do
    let n ← .check (keyReading.all key)
    let d ← .check (parseValue value)
    if !(← .look).configured n then .refuse .notFound
    set n d
  | .request (.delete key) => do
    let n ← .check (keyReading.all key)
    let there := (← .look).configured n
    .write (·.mark n false)
    if !there then .refuse .notFound
    .write (·.store n n.initial)
    .note (trace "timeout restored to default" n ((← .look).get n).millis)
  | .request (.getStats _) => .refuse (.statsNotSupported .timeout)
  | .startup n d => do
    .write (·.mark n true)
    set n d

/-- Memory as an operation leaves it, refused or not. -/
def after (c : Cells) (op : Operation) : Cells := (operate op c).state

def run (c : Cells) (ops : List Operation) : Cells := ops.foldl after c

/-- Memory shows the table: who has a row, and every interval in force. -/
structure Shows (c : Cells) (t : TimeoutTable) : Prop where
  configured : ∀ n, c.configured n = (t.configured? n).isSome
  word : ∀ n, (c.word n).toNat = t.get n

/-- A refusal has left memory as it was, and an accepted operation has written one cell. -/
inductive Writes (c : Cells) : Done Cells Unit → Prop
  | refused (e : TableError) : c.Writes ⟨.error e, c, []⟩
  | stored (n : TimeoutName) (b : Bool) (d : Duration) (traces : List Trace) :
      c.Writes ⟨.ok (), (c.mark n b).store n d, traces⟩

/-- Memory and the table have been through the same. -/
structure Alike (x : Done Cells Unit) (y : Done TimeoutTable Unit) : Prop where
  shows : x.state.Shows y.state
  answer : x.answer = y.answer
  traces : x.traces = y.traces

variable {c : Cells} {t : TimeoutTable} {n m : TimeoutName} {op : Operation} {b : Bool}

/-- A store through one cell is read through no other. -/
theorem word_store (c : Cells) (n m : TimeoutName) (d : Duration) :
    (c.store n d).word m = if m = n then d.kept else c.word m := by
  change Function.update c.memory (c.handle n) d.kept (c.handle m) = _
  rw [Function.update_apply]
  exact if_congr c.layout.injective.eq_iff rfl rfl

theorem millis_get_store (c : Cells) (n : TimeoutName) :
    ((c.store n n.initial).get n).millis = n.default := by
  change (Duration.ofMillis ((c.store n n.initial).word n)).millis = n.default
  rw [word_store, if_pos rfl, Duration.millis_ofMillis, n.kept_initial]

theorem shows_fresh (layout : Layout) (memory : Nat → UInt64) :
    (fresh layout memory).Shows .empty where
  configured n := by cases n <;> rfl
  word n := by
    have hword : (fresh layout memory).word n = n.initial.kept := by
      simp only [fresh, TimeoutName.all, List.foldl_cons, List.foldl_nil, word_store]
      cases n <;> rfl
    rw [hword, n.kept_initial]
    cases n <;> rfl

theorem Shows.put (h : c.Shows t) (n : TimeoutName) (v : Option Duration) :
    ((c.mark n v.isSome).store n (v.getD n.initial)).Shows (t.put n (TimeoutTable.kept v)) where
  configured m := by
    change Function.update c.configured n v.isSome m = _
    rw [Function.update_apply, TimeoutTable.configured?_put, apply_ite Option.isSome, h.configured,
      TimeoutTable.kept, Option.isSome_map]
  word m := by
    rw [word_store, TimeoutTable.get_put, apply_ite UInt64.toNat]
    refine ite_congr rfl (fun he => ?_) fun _ => h.word m
    rw [he]
    cases v with
    | none => exact n.kept_initial
    | some d => exact (Option.getD_some ..).symm

theorem mark_self (h : c.configured n = b) : c.mark n b = c := by
  rw [mark, ← h, Function.update_eq_self]

/-- Both go on with the value, or are refused alike. -/
theorem Alike.check {α : Type} {x : Except TableError α} {f : α → InPlace Cells Unit}
    {g : α → InPlace TimeoutTable Unit} (h : c.Shows t) (hfg : ∀ a, Alike (f a c) (g a t)) :
    Alike ((.check x >>= f) c) ((.check x >>= g) t) := by
  cases x with
  | error e => exact ⟨h, rfl, rfl⟩
  | ok a => exact ⟨(hfg a).shows, (hfg a).answer, (hfg a).traces⟩

/-- Memory is written in step with the table, and answers alike. -/
theorem Shows.operate (h : c.Shows t) (op : Operation) :
    Alike (operate op c) (TimeoutTable.operate op t) := by
  rcases op with (⟨key, value⟩ | ⟨key, value⟩ | ⟨key⟩ | ⟨key⟩) | ⟨n, d⟩
  · refine .check h fun n => .check h fun d => ?_
    rw [InPlace.look_bind, InPlace.look_bind, h.configured]
    split
    · exact ⟨h, rfl, rfl⟩
    · exact ⟨h.put n (some d), rfl, rfl⟩
  · refine .check h fun n => .check h fun d => ?_
    rw [InPlace.look_bind, InPlace.look_bind, h.configured]
    cases hc : t.configured? n with
    | none => exact ⟨h, rfl, rfl⟩
    | some ms =>
      have hput := h.put n (some d)
      -- the name is marked already, so the store alone is the whole of `put`
      rw [Option.isSome_some, mark_self (by rw [h.configured, hc]; rfl)] at hput
      exact ⟨hput, rfl, rfl⟩
  · refine .check h fun n => ?_
    rw [InPlace.look_bind, InPlace.look_bind, h.configured]
    cases hc : t.configured? n with
    | none =>
      have hkept : (c.mark n false).Shows (t.put n none) := by
        rw [mark_self (by rw [h.configured, hc]; rfl), TimeoutTable.put_none hc]
        exact h
      exact ⟨hkept, rfl, rfl⟩
    | some ms =>
      have hput := h.put n none
      exact ⟨hput, rfl, congrArg (fun ms => [trace "timeout restored to default" n ms])
        (millis_get_store (c.mark n false) n)⟩
  · exact ⟨h, rfl, rfl⟩
  · exact ⟨h.put n (some d), rfl, rfl⟩

theorem Writes.check {α : Type} {x : Except TableError α} {f : α → InPlace Cells Unit}
    (h : ∀ a, c.Writes (f a c)) : c.Writes ((.check x >>= f) c) := by
  cases x with
  | error e => exact .refused e
  | ok a => exact h a

theorem operate_writes (c : Cells) (op : Operation) : c.Writes (operate op c) := by
  rcases op with (⟨key, value⟩ | ⟨key, value⟩ | ⟨key⟩ | ⟨key⟩) | ⟨n, d⟩
  · refine .check fun n => .check fun d => ?_
    rw [InPlace.look_bind]
    split
    · exact .refused _
    · exact .stored n true d _
  · refine .check fun n => .check fun d => ?_
    rw [InPlace.look_bind]
    cases hc : c.configured n with
    | false => exact .refused _
    | true =>
      have hstored := Writes.stored (c := c) n true d [trace "timeout set" n d.millis]
      rwa [mark_self hc] at hstored
  · refine .check fun n => ?_
    rw [InPlace.look_bind]
    cases hc : c.configured n with
    | false =>
      -- the name is taken out before it is found missing
      have hrefused : c.Writes ⟨.error .notFound, c.mark n false, []⟩ := by
        rw [mark_self hc]
        exact .refused _
      exact hrefused
    | true => exact .stored n false n.initial _
  · exact .refused _
  · exact .stored n true d _

theorem operate_refused {e : TableError} (h : (operate op c).answer = .error e) :
    (operate op c).state = c := by
  have hwrites := c.operate_writes op
  generalize operate op c = done at h hwrites
  cases hwrites with
  | refused e => rfl
  | stored n b d traces => cases h

/-- Cells stay where they are. -/
theorem layout_after (c : Cells) (op : Operation) : (c.after op).layout = c.layout := by
  have hwrites := c.operate_writes op
  unfold after
  generalize operate op c = done at hwrites
  cases hwrites <;> rfl

theorem run_append (c : Cells) (xs ys : List Operation) :
    c.run (xs ++ ys) = (c.run xs).run ys :=
  List.foldl_append

theorem layout_run (c : Cells) (ops : List Operation) : (c.run ops).layout = c.layout := by
  induction ops generalizing c with
  | nil => rfl
  | cons op ops ih => exact (ih (c.after op)).trans (layout_after c op)

theorem Shows.run (h : c.Shows t) (ops : List Operation) : (c.run ops).Shows (t.run ops) := by
  induction ops generalizing c t with
  | nil => exact h
  | cons op ops ih => exact ih (h.operate op).shows

/-- The interval that is read is the one in force. -/
theorem Shows.get_eq (h : c.Shows t) {d : Duration} (hd : t.get n = d.kept.toNat) :
    c.get n = .ofMillis d.kept :=
  congrArg Duration.ofMillis (UInt64.toNat_inj.mp ((h.word n).trans hd))

theorem operate_startup {d : Duration} {ms : UInt32} (hms : 1 ≤ ms)
    (hd : d.millis = (Duration.ofMillis ms.toUInt64).millis) (h : c.configured n = false) :
    operate (.startup n d) c = operate (.request (.add [.name n.name] [.intervalMs ms])) c := by
  rw [operate, operate, TimeoutTable.keyReading_all_name, InPlace.check_ok,
    TimeoutTable.parseValue_intervalMs hms, InPlace.check_ok, InPlace.look_bind, h]
  simp only [set, store, hd, Duration.kept_congr hd]
  rfl

end Cells

namespace Agent

variable {χ ω : Type}

/-- What an event does to the timeout table. -/
def Event.operations : Event χ ω → List TimeoutTable.Operation
  | .request r => if r.table = .timeout then [.request r.op] else []
  | .startup rows => rows.map fun row => .startup row.1 row.2
  | .packet .. | .tick _ | .channel _ | .out _ => []

def History.operations (history : History χ ω) : List TimeoutTable.Operation :=
  history.flatMap fun x => x.2.operations

theorem applyInitialTimeouts_timeouts (a : Agent χ ω) (rows : List (TimeoutName × Duration)) :
    (a.applyInitialTimeouts rows).1.timeouts =
      a.timeouts.run (rows.map fun row => .startup row.1 row.2) := by
  unfold applyInitialTimeouts
  generalize ([] : List Trace) = traces
  induction rows generalizing a traces with
  | nil => rfl
  | cons row rows ih =>
    rw [List.foldl_cons, ih]
    rfl

section
variable [PacketOut ω] {a a' : Agent χ ω} {r : TableRequest}

theorem request_timeouts (a : Agent χ ω) (op : TableOp) (now : Nat) :
    (a.request ⟨.timeout, op⟩ now).agent.timeouts = a.timeouts.after (.request op) := by
  cases op with
  | add key value =>
    simp only [request_eq, perform, add, TimeoutTable.after, TimeoutTable.operate_of,
      TimeoutTable.perform]
    cases a.timeouts.add key value <;> rfl
  | modify key value =>
    simp only [request_eq, perform, modify, TimeoutTable.after, TimeoutTable.operate_of,
      TimeoutTable.perform]
    cases a.timeouts.modify key value <;> rfl
  | delete key =>
    simp only [request_eq, perform, delete, TimeoutTable.after, TimeoutTable.operate_of,
      TimeoutTable.perform]
    cases a.timeouts.delete key <;> rfl
  | getStats key => rfl

end

variable [ControllerChannel χ] [PacketOut ω] {a b : Agent χ ω} {now : Nat} {ev : Event χ ω}
  {xs : History χ ω} {reply : Reply χ ω Answer}

theorem timeouts_step (hs : a.Sound) (h : a.step now ev = .ok reply) :
    reply.agent.timeouts = a.timeouts.run ev.operations := by
  cases ev with
  | request r =>
    cases h
    obtain ⟨table, op⟩ := r
    by_cases ht : table = .timeout
    · subst ht
      exact request_timeouts a op now
    · rw [Event.operations, if_neg ht]
      rcases request_cases a ⟨table, op⟩ now with ⟨_, hr⟩ | ⟨_, hp⟩
      · exact congrArg Agent.timeouts hr
      · exact (performs_editedBy hs hp).beside.timeouts ht
  | startup rows =>
    cases h
    exact applyInitialTimeouts_timeouts a rows
  | packet | tick | channel | out => exact (config_step h (by simp) (by simp)).1

/-- The timeout table is the one that the operations of a history make. -/
theorem timeouts_run (hs : a.Sound) (h : a.run xs = .ok b) :
    b.timeouts = a.timeouts.run xs.operations := by
  induction xs generalizing a with
  | nil =>
    cases h
    rfl
  | cons x xs ih =>
    obtain ⟨now, ev⟩ := x
    obtain ⟨reply, hr, hx⟩ := run_cons_ok h
    rw [ih (sound_step hs hr) hx, timeouts_step hs hr, ← TimeoutTable.run_append]
    rfl

end Agent
end Snooping
