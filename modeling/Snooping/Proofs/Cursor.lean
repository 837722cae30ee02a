import Mathlib.Data.List.Forall2
import Snooping.Proofs.Grammar

/-!
Reads of all kinds over one list of fields. Whatever came of the reads before, each read meets the
field at its own place, so a list passes exactly if every field is what the read at its place takes
and none is missing or left over.
-/
namespace Snooping

/-- What a read asks for. -/
inductive Read
  | name
  | vlanVid
  | group
  | source
  | ethSrc
  | portNo (maxPorts : UInt32)
  | intervalMs
  | reference (table : String)

namespace Read

def Value : Read → Type
  | name => String
  | vlanVid => UInt16
  | group | source => Ipv4
  | ethSrc => Mac
  | portNo _ | intervalMs => UInt32
  | reference _ => List Field

def expected : (r : Read) → Expected r.Value
  | name => .name
  | vlanVid => .vlanVid
  | group => .group
  | source => .source
  | ethSrc => .ethSrc
  | portNo maxPorts => .portNo maxPorts
  | intervalMs => .intervalMs
  | reference table => .reference table

/-- The field is of the kind asked for and within its bounds, and means `v`. -/
def Accepts (f : Field) : (r : Read) → r.Value → Prop
  | name, (s : String) => IsGroupName s ∧ f = .name s
  | vlanVid, (v : UInt16) => ∃ w, v = w &&& vidMask ∧ f = .vlanVid w
  | group, (ip : Ipv4) => ip.IsGroup ∧ f = .ipv4 ip
  | source, (ip : Ipv4) => ¬ ip.IsGroup ∧ f = .ipv4Src ip
  | ethSrc, (m : Mac) => f = .ethSrc m
  | portNo maxPorts, (p : UInt32) => p < maxPorts ∧ f = .portNo p
  | intervalMs, (ms : UInt32) => f = .intervalMs ms
  | reference table, (key : List Field) => f = .reference table key

/-- What comes of a read that meets `f`, or the end of the list. -/
def outcome (r : Read) : Option Field → Except TableError r.Value
  | some f => r.expected.accept f
  | none => .error (.missingField r.expected.kind)

/-- A read with what came of it. -/
abbrev Answer := (r : Read) × Except TableError r.Value

/-- A read with the value that it gave. -/
abbrev Valued := (r : Read) × r.Value

/-- Reads one after another, none of which stops the others, and the fields that are left. -/
def each : List Read → List Field → List Answer × List Field
  | [], fields => ([], fields)
  | r :: reads, fields =>
    let (x, rest) := Reading.field r.expected fields
    let (answers, left) := each reads rest
    (⟨r, x⟩ :: answers, left)

/-- Reads one after another, up to the first that is refused. -/
def inTurn : List Read → Reading (List Valued)
  | [] => pure []
  | r :: reads => do
    let v ← Reading.field r.expected
    let values ← inTurn reads
    return ⟨r, v⟩ :: values

variable {r : Read} {reads : List Read} {f : Field} {fields : List Field} {j : Nat}

theorem accept_decides (r : Read) (f : Field) :
    Decides (r.expected.accept f) fun v => r.Accepts f v := by
  cases r with
  | name => exact Expected.name_decides f
  | vlanVid => exact Expected.vlanVid_decides f
  | group => exact Expected.group_decides f
  | source => exact Expected.source_decides f
  | ethSrc => exact Expected.ethSrc_decides f
  | portNo maxPorts => exact Expected.portNo_decides maxPorts f
  | intervalMs => exact Expected.intervalMs_decides f
  | reference table => exact Expected.reference_decides table f

/-- A field of another kind is refused as such, and one of the right kind for what it holds. -/
theorem accept_error {e : TableError} (h : r.expected.accept f = .error e) :
    f.kind ≠ r.expected.kind ∧ e = .wrongField r.expected.kind f.kind ∨
      f.kind = r.expected.kind ∧
        ((∃ cause, e = .invalidField r.expected.kind cause) ∨ (∃ ip, e = .notMulticast ip) ∨
          (∃ ip, e = .multicastSource ip) ∨ ∃ table, e = .badReferenceTable table) := by
  cases r <;> cases f
  case name.name s =>
    simp only [expected, Expected.name] at h
    split at h
    · cases h
    · cases h
      exact .inr ⟨rfl, .inl ⟨_, rfl⟩⟩
  case portNo.portNo maxPorts p =>
    simp only [expected, Expected.portNo] at h
    split at h
    · cases h
    · cases h
      exact .inr ⟨rfl, .inl ⟨_, rfl⟩⟩
  case group.ipv4 ip =>
    simp only [expected, Expected.group] at h
    split at h
    · cases h
    · cases h
      exact .inr ⟨rfl, .inr (.inl ⟨_, rfl⟩)⟩
  case source.ipv4Src ip =>
    simp only [expected, Expected.source] at h
    split at h
    · cases h
      exact .inr ⟨rfl, .inr (.inr (.inl ⟨_, rfl⟩))⟩
    · cases h
  case reference.reference t key =>
    simp only [expected, Expected.reference] at h
    split at h
    · cases h
    · cases h
      exact .inr ⟨rfl, .inr (.inr (.inr ⟨_, rfl⟩))⟩
  case vlanVid.vlanVid | ethSrc.ethSrc | intervalMs.intervalMs => cases h
  all_goals
    cases h
    refine .inl ⟨?_, rfl⟩
    intro hkind
    cases hkind

/-- A field that is there is never reported missing. -/
theorem outcome_missing_iff (field : Option Field) :
    r.outcome field = .error (.missingField r.expected.kind) ↔ field = none := by
  cases field with
  | none => exact ⟨fun _ => rfl, fun _ => rfl⟩
  | some f =>
    constructor
    · intro h
      rcases accept_error h with ⟨_, he⟩ | ⟨_, ⟨_, he⟩ | ⟨_, he⟩ | ⟨_, he⟩ | ⟨_, he⟩⟩ <;> cases he
    · intro h
      cases h

/-- A read takes the first field, whether or not it accepts that. -/
theorem field_eq (r : Read) (fields : List Field) :
    Reading.field r.expected fields = (r.outcome fields.head?, fields.tail) := by
  cases fields <;> rfl

theorem each_cons (r : Read) (reads : List Read) (fields : List Field) :
    each (r :: reads) fields =
      (⟨r, r.outcome fields.head?⟩ :: (each reads fields.tail).1, (each reads fields.tail).2) := by
  rw [each, field_eq]

/-- As many fields are used up as there were reads. -/
theorem each_left (reads : List Read) (fields : List Field) :
    (each reads fields).2 = fields.drop reads.length := by
  induction reads generalizing fields with
  | nil => rfl
  | cons r reads ih => rw [each_cons, ih, List.length_cons, List.drop_tail]

/-- Each read meets the field at its own place. -/
theorem getElem?_each (reads : List Read) (fields : List Field) (j : Nat) :
    (each reads fields).1[j]? = reads[j]?.map fun r => ⟨r, r.outcome fields[j]?⟩ := by
  induction reads generalizing fields j with
  | nil => rfl
  | cons r reads ih =>
    rw [each_cons]
    cases j with
    | zero => simp [List.head?_eq_getElem?]
    | succ j => simpa using ih fields.tail j

theorem length_each (reads : List Read) (fields : List Field) :
    (each reads fields).1.length = reads.length := by
  induction reads generalizing fields with
  | nil => rfl
  | cons r reads ih => simp [each_cons, ih]

theorem finish_eq_ok_iff : Reading.finish fields = .ok () ↔ fields = [] := by
  cases fields <;> simp [Reading.finish]

/-- Reads in turn succeed on the fields that they accept one by one. -/
theorem inTurn_eq_ok_iff {values : List Valued} {rest : List Field} :
    inTurn reads fields = (.ok values, rest) ↔
      ∃ taken, fields = taken ++ rest ∧ values.map (·.1) = reads ∧
        List.Forall₂ (fun value f => value.1.Accepts f value.2) values taken := by
  induction reads generalizing fields values rest with
  | nil =>
    rw [inTurn, Reading.pure_eq_ok_iff, List.map_eq_nil_iff]
    constructor
    · rintro ⟨rfl, rfl⟩
      exact ⟨[], rfl, rfl, .nil⟩
    · rintro ⟨taken, rfl, rfl, h⟩
      cases h
      exact ⟨rfl, rfl⟩
  | cons r reads ih =>
    simp only [inTurn, Reading.bind_eq_ok_iff, Reading.pure_eq_ok_iff, ih]
    constructor
    · rintro ⟨v, mid, hv, values', _, ⟨taken, rfl, hreads, hall⟩, rfl, rfl⟩
      cases fields with
      | nil => cases hv
      | cons f fields =>
        obtain ⟨hok, rfl⟩ := Prod.mk.inj hv
        refine ⟨f :: taken, rfl, ?_, .cons ((accept_decides r f).ok_iff v |>.mp hok) hall⟩
        rw [List.map_cons, hreads]
    · rintro ⟨taken, rfl, hmap, h⟩
      cases h with
      | nil => cases hmap
      | @cons value f values taken hf hall =>
        obtain ⟨r', v⟩ := value
        obtain ⟨rfl, hreads⟩ := List.cons.inj hmap
        have hok := ((accept_decides r' f).ok_iff v).mpr hf
        refine ⟨v, taken ++ rest, ?_, values, rest, ⟨taken, rfl, hreads, hall⟩, rfl, rfl⟩
        rw [List.cons_append, field_eq]
        exact Prod.ext hok rfl

/-- Every read of a list succeeds, and none of its fields is left over, just if each field is what
the read at its place takes. -/
theorem each_ok_iff :
    (∀ answer ∈ (each reads fields).1, ∃ v, answer.2 = .ok v) ∧
        Reading.finish (each reads fields).2 = .ok () ↔
      List.Forall₂ (fun r f => ∃ v, r.Accepts f v) reads fields := by
  rw [each_left, finish_eq_ok_iff]
  induction reads generalizing fields with
  | nil => simp [each]
  | cons r reads ih =>
    rw [each_cons, List.forall_mem_cons]
    cases fields with
    | nil =>
      constructor
      · rintro ⟨⟨⟨_, hv⟩, _⟩, _⟩
        cases hv
      · intro h
        cases h
    | cons f fields =>
      rw [List.forall₂_cons, ← ih, and_assoc]
      simp only [List.head?_cons, outcome, (accept_decides r f).ok_iff, List.tail_cons,
        List.length_cons, List.drop_succ_cons]

/-- Each read fails for want of a field exactly if its place is behind the end of the list, and else
comes out as the field at its place decides; a refused field is used up, and a missing one leaves
the cursor at the end. The end is reached if there were as many reads as fields, or else the first
field that was not read is reported. So a list passes, whether or not the reads stop at the first
refusal, exactly if it has a field for each read that this accepts, and no more. -/
theorem reads_positional (reads : List Read) (fields : List Field) :
    (each reads fields).1.length = reads.length ∧
    (∀ j r, reads[j]? = some r →
      (each reads fields).1[j]? = some ⟨r, r.outcome fields[j]?⟩ ∧
      (r.outcome fields[j]? = .error (.missingField r.expected.kind) ↔ fields.length ≤ j) ∧
      ∀ f v, fields[j]? = some f → (r.outcome fields[j]? = .ok v ↔ r.Accepts f v)) ∧
    (∀ j ≤ reads.length, (each (reads.take j) fields).2 = fields.drop j) ∧
    (Reading.finish (each reads fields).2 = .ok () ↔ fields.length ≤ reads.length) ∧
    (∀ f, fields[reads.length]? = some f →
      Reading.finish (each reads fields).2 = .error (.trailingField f.kind)) ∧
    ((∀ answer ∈ (each reads fields).1, ∃ v, answer.2 = .ok v) ∧
        Reading.finish (each reads fields).2 = .ok () ↔
      List.Forall₂ (fun r f => ∃ v, r.Accepts f v) reads fields) ∧
    ∀ values, (inTurn reads).all fields = .ok values ↔
      values.map (·.1) = reads ∧
        List.Forall₂ (fun value f => value.1.Accepts f value.2) values fields := by
  refine ⟨length_each reads fields, fun j r hr => ⟨?_, ?_, fun f v hf => ?_⟩, fun j hj => ?_, ?_,
    fun f hf => ?_, each_ok_iff, fun values => ?_⟩
  · rw [getElem?_each, hr, Option.map_some]
  · rw [outcome_missing_iff, List.getElem?_eq_none_iff]
  · rw [hf]
    exact (accept_decides r f).ok_iff v
  · rw [each_left, List.length_take, Nat.min_eq_left hj]
  · rw [each_left, finish_eq_ok_iff, List.drop_eq_nil_iff]
  · obtain ⟨hlt, rfl⟩ := List.getElem?_eq_some_iff.mp hf
    rw [each_left, List.drop_eq_getElem_cons hlt, Reading.finish]
  · rw [Reading.all_eq_ok_iff, inTurn_eq_ok_iff]
    simp only [List.append_nil, exists_eq_left']

end Read
end Snooping
