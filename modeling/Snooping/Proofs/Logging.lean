import Mathlib.Data.List.Induction
import Snooping.Log.Registry

/-!
The way of log entries from the loggers through bounded buffers to whoever reads them. Levels are
told by the calls so far, and of what is offered to a buffer nothing is lost but what found it full.
-/
namespace Snooping.Log.Registry

/-- What can be done to a registry. A record comes through the logger that it names. -/
inductive Call
  | setGlobal (s : Severity)
  | setFacility (g : Facility) (s : Severity)
  | clearFacility (g : Facility)
  | log (x : Record)
  | read (f : Facility)

namespace Call

/-- The buffer that a call is about. -/
def buffer? : Call → Option Facility
  | log x => some x.logger
  | read f => some f
  | setGlobal _ | setFacility _ _ | clearFacility _ => none

def global? : Call → Option Severity
  | setGlobal s => some s
  | _ => none

/-- What a call makes of the own level of `g`, if it is about that. -/
def own? (g : Facility) : Call → Option (Option Severity)
  | setFacility g' s => if g' = g then some (some s) else none
  | clearFacility g' => if g' = g then some none else none
  | _ => none

end Call

/-- The level that was last set for `g` and not cleared since, or else the last global level. -/
def governing (calls : List Call) (g : Facility) : Severity :=
  match calls.reverse.findSome? (·.own? g) with
  | some (some s) => s
  | _ => (calls.reverse.findSome? (·.global?)).getD .info

def after (r : Registry) : Call → Registry
  | .setGlobal s => r.setGlobal s
  | .setFacility g s => r.setFacility g s
  | .clearFacility g => r.clearFacility g
  | .log x => r.log x
  | .read f => ((r.read? f).map (·.2)).getD r

def run (r : Registry) (calls : List Call) : Registry := calls.foldl after r

/-- What a call offers to the buffer of `f`: an entry that its logger lets pass. -/
def offered (f : Facility) (r : Registry) : Call → List Entry
  | .log x =>
    if x.logger = f ∧ r.shouldLog f x.severity x.facility then
      [.of x.severity x.facility x.message x.fields]
    else []
  | _ => []

/-- What is offered while the buffer of `f` holds less than it may. -/
def kept (f : Facility) (r : Registry) (c : Call) : List Entry :=
  if ∃ b ∈ r.buffers.find? f, b.entries.length < f.bufferSize then r.offered f c else []

/-- What a call reads from the buffer of `f`. -/
def taken (f : Facility) (r : Registry) : Call → List Entry
  | .read g => if g = f then ((r.read? f).map (·.1)).toList else []
  | _ => []

/-- What `g` makes of each call in turn. -/
def gather (g : Registry → Call → List Entry) (r : Registry) : List Call → List Entry
  | [] => []
  | c :: calls => g r c ++ gather g (r.after c) calls

variable {r : Registry} {f g : Facility} {b : Buffer Entry} {c : Call}

theorem run_concat (r : Registry) (calls : List Call) (c : Call) :
    r.run (calls ++ [c]) = (r.run calls).after c := by
  rw [run, List.foldl_append, List.foldl_cons, List.foldl_nil, run]

theorem read?_none (hb : r.buffers.find? f = none) : r.read? f = none := by
  simp [read?, hb]

theorem read?_some (hb : r.buffers.find? f = some b) : r.read? f = b.entries.head?.map
    (·, { r with buffers := r.buffers.insert f { b with entries := b.entries.tail } }) := by
  cases he : b.entries <;> simp [read?, hb, Buffer.read?, he]

/-! ### Levels -/

/-- Levels change by settings only. -/
theorem levels_log (r : Registry) (x : Record) : (r.log x).levels = r.levels := by
  unfold log
  split
  · rfl
  · split <;> rfl

theorem levels_read (r : Registry) (f : Facility) : (r.after (.read f)).levels = r.levels := by
  rw [after]
  cases hb : r.buffers.find? f with
  | none => rw [read?_none hb]; rfl
  | some b =>
    rw [read?_some hb]
    cases b.entries <;> rfl

theorem global_after (r : Registry) (c : Call) :
    (r.after c).levels.global = c.global?.getD r.levels.global := by
  cases c with
  | setGlobal | setFacility | clearFacility => rfl
  | log x => exact congrArg Levels.global (r.levels_log x)
  | read f => exact congrArg Levels.global (r.levels_read f)

theorem own_after (r : Registry) (c : Call) (g : Facility) :
    (r.after c).levels.overrides.find? g = (c.own? g).getD (r.levels.overrides.find? g) := by
  cases c with
  | setGlobal => rfl
  | setFacility g' s =>
    rw [after, setFacility, Rows.find?_insert, Call.own?]
    by_cases h : g = g'
    · simp [h]
    · simp [h, Ne.symm h]
  | clearFacility g' =>
    rw [after, clearFacility, Rows.find?_erase, Call.own?]
    by_cases h : g = g'
    · simp [h]
    · simp [h, Ne.symm h]
  | log x => exact congrArg (fun l : Levels => l.overrides.find? g) (r.levels_log x)
  | read f => exact congrArg (fun l : Levels => l.overrides.find? g) (r.levels_read f)

theorem global_run (calls : List Call) : (initial.run calls).levels.global =
    (calls.reverse.findSome? (·.global?)).getD .info := by
  induction calls using List.reverseRecOn with
  | nil => rfl
  | append_singleton calls c ih =>
    rw [run_concat, global_after, ih, List.reverse_append, List.reverse_singleton,
      List.singleton_append, List.findSome?_cons]
    cases c.global? <;> rfl

theorem own_run (calls : List Call) (g : Facility) :
    (initial.run calls).levels.overrides.find? g =
      (calls.reverse.findSome? (·.own? g)).getD none := by
  induction calls using List.reverseRecOn with
  | nil => rfl
  | append_singleton calls c ih =>
    rw [run_concat, own_after, ih, List.reverse_append, List.reverse_singleton,
      List.singleton_append, List.findSome?_cons]
    cases c.own? g <;> rfl

/-- The level that is in force is told by the calls. -/
theorem level_run (calls : List Call) (g : Facility) :
    (initial.run calls).levels.level g = governing calls g := by
  rw [Levels.level, own_run, global_run, governing]
  split
  · rename_i h
    rw [h]
    rfl
  · rename_i h
    cases hown : calls.reverse.findSome? (·.own? g) with
    | none => rfl
    | some own =>
      cases own with
      | none => rfl
      | some s => exact (h s hown).elim

/-! ### Buffers -/

theorem find?_log (r : Registry) (x : Record) (f : Facility) : (r.log x).buffers.find? f =
    (r.buffers.find? f).map (·.writeAll (r.offered f (.log x))) := by
  unfold log offered
  by_cases hx : x.logger = f
  · subst hx
    cases hb : r.buffers.find? x.logger with
    | none => simp [hb]
    | some b =>
      have hshould : r.shouldLog x.logger x.severity x.facility =
          r.levels.allows x.severity x.facility := by
        simp [shouldLog, levelsOf, isRegistered, Rows.contains, hb]
      simp only [hshould, true_and]
      split
      · simp [Rows.find?_insert, Buffer.writeAll]
      · simp [hb, Buffer.writeAll]
  · have hkept : (r.buffers.find? f).map (·.writeAll []) = r.buffers.find? f := by
      simp [Buffer.writeAll]
    simp only [hx, false_and, if_false, hkept]
    split
    · rfl
    · split
      · rw [Rows.find?_insert, if_neg (Ne.symm hx)]
      · rfl

theorem find?_read (r : Registry) (f g : Facility) : (r.after (.read g)).buffers.find? f =
    if g = f then (r.buffers.find? f).map fun b => { b with entries := b.entries.tail }
    else r.buffers.find? f := by
  rw [after]
  cases hb : r.buffers.find? g with
  | none =>
    rw [read?_none hb]
    split
    · rename_i hg
      rw [← hg, hb]
      exact hb
    · rfl
  | some b =>
    rw [read?_some hb]
    cases he : b.entries with
    | nil =>
      split
      · rename_i hg
        have hsame : { b with entries := [] } = b := by rw [← he]
        rw [← hg, hb, Option.map_some, he, List.tail_nil, hsame]
        exact hb
      · rfl
    | cons e rest =>
      simp only [List.head?_cons, Option.map_some, Option.getD_some, Rows.find?_insert,
        eq_comm (a := f)]
      split
      · rename_i hg
        rw [← hg, hb, Option.map_some, he]
      · rfl

/-- A call about another buffer leaves this one alone. -/
theorem find?_after (hc : c.buffer? ≠ some f) :
    (r.after c).buffers.find? f = r.buffers.find? f := by
  cases c with
  | setGlobal | setFacility | clearFacility => rfl
  | log x =>
    have hx : x.logger ≠ f := fun h => hc (congrArg some h)
    rw [after, find?_log]
    simp [offered, hx, Buffer.writeAll]
  | read g =>
    have hg : g ≠ f := fun h => hc (congrArg some h)
    rw [find?_read, if_neg hg]

/-- What one call does to the buffer of `f`. -/
structure Conserves (f : Facility) (r : Registry) (c : Call) (b b' : Buffer Entry) : Prop where
  found : (r.after c).buffers.find? f = some b'
  capacity : b'.capacity = b.capacity
  length_le : b.entries.length ≤ b.capacity → b'.entries.length ≤ b.capacity
  order : b.entries ++ r.kept f c = r.taken f c ++ b'.entries
  count : b.overruns + (r.offered f c).length = b'.overruns + (r.kept f c).length

theorem kept_eq (hb : r.buffers.find? f = some b) (c : Call) :
    r.kept f c = if b.entries.length < f.bufferSize then r.offered f c else [] := by
  simp [kept, hb]

theorem conserves_log (hb : r.buffers.find? f = some b) (hcap : b.capacity = f.bufferSize)
    (x : Record) : r.Conserves f (.log x) b (b.writeAll (r.offered f (.log x))) := by
  have hfound : (r.after (.log x)).buffers.find? f = _ := r.find?_log x f
  rw [hb, Option.map_some] at hfound
  have hoffered : r.offered f (.log x) = [] ∨ ∃ e, r.offered f (.log x) = [e] := by
    by_cases h : x.logger = f ∧ r.shouldLog f x.severity x.facility
    · exact .inr ⟨_, if_pos h⟩
    · exact .inl (if_neg h)
  have hkept := r.kept_eq hb (.log x)
  rw [← hcap] at hkept
  rcases hoffered with ho | ⟨e, ho⟩ <;> rw [ho] at hfound hkept ⊢
  · have hnone : r.kept f (.log x) = [] := by rw [hkept, ite_self]
    exact ⟨hfound, rfl, id, by rw [hnone]; exact List.append_nil _, by rw [ho, hnone]; rfl⟩
  · have hwrite : b.writeAll [e] = b.write e := rfl
    rw [hwrite] at hfound ⊢
    by_cases hfull : b.capacity ≤ b.entries.length
    · have hdrop : b.write e = { b with overruns := b.overruns + 1 } := if_pos hfull
      rw [if_neg (Nat.not_lt.mpr hfull)] at hkept
      rw [hdrop] at hfound ⊢
      exact ⟨hfound, rfl, id, by rw [hkept]; exact List.append_nil _, by simp [ho, hkept]⟩
    · have hput : b.write e = { b with entries := b.entries ++ [e] } := if_neg hfull
      rw [if_pos (Nat.lt_of_not_le hfull)] at hkept
      rw [hput] at hfound ⊢
      refine ⟨hfound, rfl, fun _ => ?_, by rw [hkept]; rfl, by simp [ho, hkept]⟩
      simp only [List.length_append, List.length_singleton]
      omega

theorem conserves_read (hb : r.buffers.find? f = some b) :
    r.Conserves f (.read f) b { b with entries := b.entries.tail } := by
  have hfound := r.find?_read f f
  rw [if_pos rfl, hb, Option.map_some] at hfound
  have hkept : r.kept f (.read f) = [] := by
    rw [kept_eq hb]
    exact ite_self _
  refine ⟨hfound, rfl, fun hle => ?_, ?_, by rw [hkept]; rfl⟩
  · rw [List.length_tail]
    omega
  · rw [hkept, taken, if_pos rfl, read?_some hb]
    cases b.entries <;> simp

theorem conserves_other (hb : r.buffers.find? f = some b) (hc : c.buffer? ≠ some f) :
    r.Conserves f c b b := by
  have hoffered : r.offered f c = [] := by
    cases c with
    | setGlobal | setFacility | clearFacility | read => rfl
    | log x => exact if_neg fun h => hc (congrArg some h.1)
  have htaken : r.taken f c = [] := by
    cases c with
    | setGlobal | setFacility | clearFacility | log => rfl
    | read g => exact if_neg fun h => hc (congrArg some h)
  have hkept : r.kept f c = [] := by rw [kept_eq hb, hoffered, ite_self]
  exact ⟨(find?_after hc).trans hb, rfl, id, by rw [hkept, htaken, List.append_nil]; rfl,
    by rw [hoffered, hkept]⟩

theorem exists_conserves (hb : r.buffers.find? f = some b) (hcap : b.capacity = f.bufferSize)
    (c : Call) : ∃ b', r.Conserves f c b b' := by
  by_cases hc : c.buffer? = some f
  · cases c with
    | setGlobal | setFacility | clearFacility => cases hc
    | log x => exact ⟨_, conserves_log hb hcap x⟩
    | read g =>
      cases hc
      exact ⟨_, conserves_read hb⟩
  · exact ⟨b, conserves_other hb hc⟩

/-- Along a run, what the buffer held and what it kept is what was read and what it holds. -/
theorem run_conserves (hb : r.buffers.find? f = some b) (hcap : b.capacity = f.bufferSize)
    (hle : b.entries.length ≤ b.capacity) (calls : List Call) :
    ∃ b', (r.run calls).buffers.find? f = some b' ∧ b'.capacity = f.bufferSize ∧
      b'.entries.length ≤ f.bufferSize ∧
      b.entries ++ gather (kept f) r calls = gather (taken f) r calls ++ b'.entries ∧
      b.overruns + (gather (offered f) r calls).length =
        b'.overruns + (gather (kept f) r calls).length := by
  induction calls generalizing r b with
  | nil => exact ⟨b, hb, hcap, hcap ▸ hle, List.append_nil _, rfl⟩
  | cons c calls ih =>
    obtain ⟨mid, hmid⟩ := exists_conserves hb hcap c
    obtain ⟨b', hfound, hcap', hle', horder, hcount⟩ := ih hmid.found (hmid.capacity.trans hcap)
      (hmid.capacity ▸ hmid.length_le hle)
    refine ⟨b', hfound, hcap', hle', ?_, ?_⟩
    · rw [gather, gather, ← List.append_assoc, hmid.order, List.append_assoc, horder,
        List.append_assoc]
    · have := hmid.count
      simp only [gather, List.length_append]
      omega

/-- A logger with a buffer of its own offers it what the levels let pass, with four fields at
most. -/
theorem offered_log {x : Record} (hb : r.buffers.find? f = some b) (hx : x.logger = f) :
    r.offered f (.log x) = if x.severity ≤ r.levels.level x.facility then
      [⟨x.severity, x.facility, Text.truncate 256 x.message, x.fields.take 4⟩] else [] := by
  have hshould : r.shouldLog f x.severity x.facility = true ↔
      x.severity ≤ r.levels.level x.facility := by
    rw [← Levels.allows_iff]
    simp [shouldLog, levelsOf, isRegistered, Rows.contains, hb]
  simp only [offered, hx, true_and, hshould, Entry.of_eq]
  rfl

theorem find?_initial (hf : f ∈ Facility.registered) :
    initial.buffers.find? f = some (.ofFacility f) := by
  cases f with
  | unknown => exact absurd hf (by decide)
  | _ => rfl

/-- After any calls, the buffer of a registered facility is within its size, and what was read from
it with what it still holds is what was offered to it while there was room, in that order; all else
that was offered is counted as overrun. What its logger offers next is decided by the level that the
calls so far have left to the tag of the record, and the fields of an entry are the first four at
most. A call about another buffer leaves this one alone. -/
theorem entries_conserved (hf : f ∈ Facility.registered) (calls : List Call) :
    ∃ b, (initial.run calls).buffers.find? f = some b ∧ b.capacity = f.bufferSize ∧
      b.entries.length ≤ f.bufferSize ∧
      gather (taken f) initial calls ++ b.entries = gather (kept f) initial calls ∧
      (gather (offered f) initial calls).length =
        (gather (taken f) initial calls).length + b.entries.length + b.overruns ∧
      (initial.run calls).taken f (.read f) = b.entries.head?.toList ∧
      (∀ x, x.logger = f →
        (initial.run calls).offered f (.log x) =
          (if x.severity ≤ (initial.run calls).levels.level x.facility then
            [⟨x.severity, x.facility, Text.truncate 256 x.message, x.fields.take 4⟩] else []) ∧
        ((initial.run calls).log x).buffers.find? f =
          some (b.writeAll ((initial.run calls).offered f (.log x)))) ∧
      (∀ g, (initial.run calls).levels.level g = governing calls g) ∧
      ∀ c, c.buffer? ≠ some f → ((initial.run calls).after c).buffers.find? f = some b := by
  obtain ⟨b, hb, hcap, hle, horder, hcount⟩ :=
    run_conserves (find?_initial hf) rfl (Nat.zero_le _) calls
  have hkept : gather (kept f) initial calls = gather (taken f) initial calls ++ b.entries := horder
  refine ⟨b, hb, hcap, hle, hkept.symm, ?_, ?_, fun x hx => ⟨offered_log hb hx, ?_⟩,
    level_run calls, fun c hc => (find?_after hc).trans hb⟩
  · have hlen := congrArg List.length hkept
    rw [List.length_append] at hlen
    change 0 + _ = _ at hcount
    omega
  · rw [taken, if_pos rfl, read?_some hb]
    cases b.entries <;> rfl
  · rw [find?_log, hb, Option.map_some]

/-- An own level lets an entry pass that the global one stops under another tag. Once it is read,
nothing is left. -/
theorem entries_conserved_own_level : ∃ b calls, .agent ∈ Facility.registered ∧
    (initial.run calls).buffers.find? .agent = some b ∧
    gather (taken .agent) initial calls ++ b.entries = gather (kept .agent) initial calls ∧
    (gather (offered .agent) initial calls).length = 1 ∧ b.overruns = 0 ∧ b.entries = [] := by
  have hf : .agent ∈ Facility.registered := by decide
  obtain ⟨b, hb, -, -, horder, hcount, -⟩ := entries_conserved hf
    [.setFacility .timeout .debug, .log ⟨.agent, .debug, .timeout, "set", [("query", "500")]⟩,
      .log ⟨.agent, .debug, .agent, "quiet", []⟩, .read .agent]
  refine ⟨b, _, hf, hb, horder, rfl, ?_, ?_⟩
  · cases hb
    rfl
  · cases hb
    rfl

end Snooping.Log.Registry
