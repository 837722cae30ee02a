import Mathlib.Tactic.SplitIfs
import Snooping.Expectation
import Snooping.Proofs.Reading
import Snooping.Transmission

/-!
The fields of table requests: which lists name a row of a table and which fill one. The readers
accept exactly those, and refuse all else as a parameter error.
-/
namespace Snooping

/-- At most 63 bytes, none of them NUL. -/
def IsGroupName (s : String) : Prop := s.utf8ByteSize ≤ 63 ∧ '\x00' ∉ s.toList

instance : DecidablePred IsGroupName := fun _ => inferInstanceAs (Decidable (_ ∧ _))

/-- 224.0.0.0 to 239.255.255.255. -/
def Ipv4.IsGroup (ip : Ipv4) : Prop := 224 ≤ ip.a.toNat ∧ ip.a.toNat ≤ 239

namespace TableId

/-- What tells the rows of a table apart. -/
def Key : TableId → Type
  | timeout => TimeoutName
  | rxPortGroup => UInt32
  | txPortGroup => String
  | generalQueryExpectation | pimExpectation | generalQueryTx => VlanKey
  | reportExpectation | reportTx => GroupKey

end TableId

/-- The fields name a group and a VLAN, of which 12 bits count. -/
def VlanKey.SpelledBy (k : VlanKey) (first : Field) (fields : List Field) : Prop :=
  IsGroupName k.name ∧ ∃ v, k.vlan = v &&& vidMask ∧ fields = [first, .vlanVid v]

def GroupKey.SpelledBy (k : GroupKey) (first : Field) (fields : List Field) : Prop :=
  IsGroupName k.name ∧ k.group.IsGroup ∧
    ∃ v, k.vlan = v &&& vidMask ∧ fields = [first, .vlanVid v, .ipv4 k.group]

/-- The fields address a frame, from a source that is no group. -/
def Igmp.Origin.SpelledBy (o : Igmp.Origin) (fields : List Field) : Prop :=
  ¬ o.src.IsGroup ∧
    ∃ v, o.vlan = v &&& vidMask ∧ fields = [.vlanVid v, .ipv4Src o.src, .ethSrc o.srcMac]

/-- A reference to the row of a transmit group. -/
def txGroup (name : String) : Field := .reference "tx_port_group" [.name name]

/-- The fields are the key of row `k`, on a switch with `maxPorts` ports. -/
def Spells (maxPorts : UInt32) (fields : List Field) : (t : TableId) → t.Key → Prop
  | .timeout, (n : TimeoutName) => fields = [.name n.name]
  | .rxPortGroup, (p : UInt32) => p < maxPorts ∧ fields = [.portNo p]
  | .txPortGroup, (s : String) => IsGroupName s ∧ fields = [.name s]
  | .generalQueryExpectation, (k : VlanKey) => k.SpelledBy (.name k.name) fields
  | .reportExpectation, (k : GroupKey) => k.SpelledBy (.name k.name) fields
  | .pimExpectation, (k : VlanKey) => k.SpelledBy (.name k.name) fields
  | .generalQueryTx, (k : VlanKey) => k.SpelledBy (txGroup k.name) fields
  | .reportTx, (k : GroupKey) => k.SpelledBy (txGroup k.name) fields

/-- The fields are a value for the rows of a table. -/
def Fills (maxPorts : UInt32) (fields : List Field) : TableId → Prop
  | .timeout => ∃ ms, 1 ≤ ms ∧ fields = [.intervalMs ms]
  | .rxPortGroup => ∃ s, IsGroupName s ∧ fields = [.name s]
  | .txPortGroup => ∃ p, p < maxPorts ∧ fields = [.portNo p]
  | .generalQueryExpectation | .reportExpectation | .pimExpectation => fields = []
  | .generalQueryTx | .reportTx => ∃ o : Igmp.Origin, o.SpelledBy fields

theorem checkName_cases (s : String) :
    IsGroupName s ∧ checkName s = .ok () ∨ ¬ IsGroupName s ∧ ∃ c, checkName s = .error c := by
  unfold checkName IsGroupName maxNameBytes
  split_ifs with hl hz
  · exact .inr ⟨fun h => by omega, _, rfl⟩
  · exact .inr ⟨fun h => h.2 hz, _, rfl⟩
  · exact .inl ⟨⟨by omega, hz⟩, rfl⟩

theorem checkPort_cases (p maxPorts : UInt32) :
    p < maxPorts ∧ checkPort p maxPorts = .ok () ∨
      ¬ p < maxPorts ∧ ∃ c, checkPort p maxPorts = .error c := by
  unfold checkPort
  split_ifs with h
  · exact .inr ⟨UInt32.not_lt.mpr h, _, rfl⟩
  · exact .inl ⟨UInt32.not_le.mp h, rfl⟩

theorem Ipv4.isMulticast_iff {ip : Ipv4} : ip.isMulticast = true ↔ ip.IsGroup := by
  have h : ∀ n < 256, ((UInt8.ofNat n &&& 0xf0 == 0xe0) = true ↔ 224 ≤ n ∧ n ≤ 239) := by
    decide +kernel
  have ha := h ip.a.toNat (UInt8.toNat_lt ip.a)
  rwa [UInt8.ofNat_toNat] at ha

/-- The answers are those that `P` describes; all else is refused as a parameter error. -/
structure Decides {α : Type} (x : Except TableError α) (P : α → Prop) : Prop where
  ok_iff : ∀ a, x = .ok a ↔ P a
  code : ∀ e, x = .error e → e.code = .param

section Decides

variable {α : Type} {P : α → Prop} {a : α} {e : TableError}

theorem decides_ok (h : ∀ b, P b ↔ b = a) : Decides (.ok a) P where
  ok_iff b := by simp [h, eq_comm]
  code e he := by cases he

theorem decides_error (h : ∀ b, ¬ P b) (he : e.code = .param) : Decides (.error e) P where
  ok_iff b := by simp [h]
  code e' he' := by cases he'; exact he

theorem Decides.bind {β : Type} {x : Except TableError α} {f : α → Except TableError β}
    {Q : α → β → Prop} (hx : Decides x P) (hf : ∀ a, Decides (f a) (Q a)) :
    Decides (x >>= f) fun b => ∃ a, P a ∧ Q a b where
  ok_iff b := by
    rw [bind_eq_ok_iff]
    simp only [hx.ok_iff, (hf _).ok_iff]
  code err he := by
    cases x with
    | error e => cases he; exact hx.code _ rfl
    | ok a => exact (hf a).code err he

theorem Decides.congr {x : Except TableError α} {P' : α → Prop} (h : Decides x P)
    (hp : ∀ a, P a ↔ P' a) : Decides x P' := by
  rwa [show P' = P from funext fun _ => propext (hp _).symm]

end Decides

namespace Expected

theorem name_decides (f : Field) :
    Decides (name.accept f) fun s => IsGroupName s ∧ f = .name s := by
  cases f with
  | name s =>
    simp only [name]
    rcases checkName_cases s with ⟨hs, h⟩ | ⟨hs, c, h⟩ <;> rw [h]
    · exact decides_ok fun s' => by grind
    · exact decides_error (fun s' => by grind) rfl
  | _ => exact decides_error (by simp) rfl

theorem vlanVid_decides (f : Field) :
    Decides (vlanVid.accept f) fun v => ∃ w, v = w &&& vidMask ∧ f = .vlanVid w := by
  cases f with
  | vlanVid w => exact decides_ok fun v => by simp
  | _ => exact decides_error (by simp) rfl

theorem group_decides (f : Field) :
    Decides (group.accept f) fun ip => ip.IsGroup ∧ f = .ipv4 ip := by
  cases f with
  | ipv4 ip =>
    simp only [group]
    split_ifs with h <;> rw [Ipv4.isMulticast_iff] at h
    · exact decides_ok fun ip' => by grind
    · exact decides_error (fun ip' => by grind) rfl
  | _ => exact decides_error (by simp) rfl

theorem source_decides (f : Field) :
    Decides (source.accept f) fun ip => ¬ ip.IsGroup ∧ f = .ipv4Src ip := by
  cases f with
  | ipv4Src ip =>
    simp only [source]
    split_ifs with h <;> rw [Ipv4.isMulticast_iff] at h
    · exact decides_error (fun ip' => by grind) rfl
    · exact decides_ok fun ip' => by grind
  | _ => exact decides_error (by simp) rfl

theorem ethSrc_decides (f : Field) : Decides (ethSrc.accept f) fun m => f = .ethSrc m := by
  cases f with
  | ethSrc m => exact decides_ok fun m' => by simp [eq_comm]
  | _ => exact decides_error (by simp) rfl

theorem portNo_decides (maxPorts : UInt32) (f : Field) :
    Decides ((portNo maxPorts).accept f) fun p => p < maxPorts ∧ f = .portNo p := by
  cases f with
  | portNo p =>
    simp only [portNo]
    rcases checkPort_cases p maxPorts with ⟨hp, h⟩ | ⟨hp, c, h⟩ <;> rw [h]
    · exact decides_ok fun p' => by grind
    · exact decides_error (fun p' => by grind) rfl
  | _ => exact decides_error (by simp) rfl

theorem intervalMs_decides (f : Field) :
    Decides (intervalMs.accept f) fun ms => f = .intervalMs ms := by
  cases f with
  | intervalMs ms => exact decides_ok fun ms' => by simp [eq_comm]
  | _ => exact decides_error (by simp) rfl

theorem reference_decides (table : String) (f : Field) :
    Decides ((reference table).accept f) fun key => f = .reference table key := by
  cases f with
  | reference t key =>
    simp only [reference]
    split_ifs with h
    · exact decides_ok fun key' => by grind
    · exact decides_error (by grind) rfl
  | _ => exact decides_error (by simp) rfl

end Expected

namespace Reading

variable {α β : Type} {r : Reading α} {f : α → Reading β} {e : Expected α}
  {P : List Field → α → Prop} {Q : α → List Field → β → Prop}

/-- `r` takes a beginning that `P` describes off the front; all else it refuses as a parameter
error. -/
structure Takes (r : Reading α) (P : List Field → α → Prop) : Prop where
  ok_iff : ∀ fields a rest,
    r fields = (.ok a, rest) ↔ ∃ taken, P taken a ∧ fields = taken ++ rest
  code : ∀ fields err rest, r fields = (.error err, rest) → err.code = .param

theorem takes_pure (b : α) : (pure b : Reading α).Takes fun taken a => a = b ∧ taken = [] where
  ok_iff fields a rest := by
    rw [pure_eq_ok_iff]
    constructor
    · rintro ⟨rfl, rfl⟩
      exact ⟨[], ⟨rfl, rfl⟩, rfl⟩
    · rintro ⟨_, ⟨rfl, rfl⟩, rfl⟩
      exact ⟨rfl, rfl⟩
  code fields err rest h := by cases h

theorem takes_field {P : α → Field → Prop} (h : ∀ f, Decides (e.accept f) fun a => P a f) :
    (field e).Takes fun taken a => ∃ f, P a f ∧ taken = [f] where
  ok_iff fields a rest := by
    cases fields with
    | nil =>
      constructor
      · intro he
        cases he
      · rintro ⟨_, ⟨_, _, rfl⟩, he⟩
        cases he
    | cons f fields =>
      rw [field, Prod.mk.injEq, (h f).ok_iff]
      grind
  code fields err rest he := by
    cases fields with
    | nil => cases he; rfl
    | cons f fields =>
      rw [field, Prod.mk.injEq] at he
      exact (h f).code err he.1

theorem takes_bind (hr : r.Takes P) (hf : ∀ a, (f a).Takes (Q a)) :
    (r >>= f).Takes fun taken b =>
      ∃ a first rest, P first a ∧ Q a rest b ∧ taken = first ++ rest where
  ok_iff fields b rest := by
    rw [bind_eq_ok_iff]
    simp only [hr.ok_iff, (hf _).ok_iff]
    grind
  code fields err rest he := by
    change Reading.bind r f fields = _ at he
    unfold Reading.bind at he
    split at he
    · exact (hf _).code _ err rest he
    · rename_i hr'
      cases he
      exact hr.code _ _ _ hr'

theorem Takes.congr {P' : List Field → α → Prop} (h : r.Takes P)
    (hp : ∀ taken a, P taken a ↔ P' taken a) : r.Takes P' := by
  rwa [show P' = P from funext fun _ => funext fun _ => propext (hp ..).symm]

/-- A reader that starts with one field. -/
theorem takes_field_bind {P : α → Field → Prop}
    (h : ∀ f, Decides (e.accept f) fun a => P a f) (hf : ∀ a, (f a).Takes (Q a)) :
    (field e >>= f).Takes fun taken b =>
      ∃ a x rest, P a x ∧ Q a rest b ∧ taken = x :: rest := by
  refine (takes_bind (takes_field h) hf).congr fun taken b => ?_
  constructor
  · rintro ⟨a, _, rest, ⟨x, hx, rfl⟩, hq, rfl⟩
    exact ⟨a, x, rest, hx, hq, rfl⟩
  · rintro ⟨a, x, rest, hx, hq, rfl⟩
    exact ⟨a, [x], rest, ⟨x, hx, rfl⟩, hq, rfl⟩

theorem takes_lift {R : α → Prop} {x : Except TableError α} (h : Decides x R) :
    (lift x).Takes fun taken a => R a ∧ taken = [] where
  ok_iff fields a rest := by
    rw [lift_eq_ok_iff, h.ok_iff]
    constructor
    · rintro ⟨ha, rfl⟩
      exact ⟨[], ⟨ha, rfl⟩, rfl⟩
    · rintro ⟨_, ⟨ha, rfl⟩, rfl⟩
      exact ⟨ha, rfl⟩
  code fields err rest he := by cases he; exact h.code err rfl

/-- A key or value is read as a whole. -/
theorem Takes.all (h : r.Takes P) (fields : List Field) : Decides (r.all fields) (P fields) where
  ok_iff a := by rw [all_eq_ok_iff, h.ok_iff]; simp
  code err he := by
    unfold Reading.all at he
    split at he
    · rename_i rest _
      cases rest <;> cases he
      rfl
    · rename_i hr
      cases he
      exact h.code _ _ _ hr

end Reading

section Keys

open Reading

variable {value : List Field} {ports : Option TxPorts}

theorem vlanKey_takes : VlanKey.reading.Takes fun taken k => k.SpelledBy (.name k.name) taken := by
  refine (takes_field_bind Expected.name_decides fun name =>
    takes_field_bind Expected.vlanVid_decides fun vlan => takes_pure _).congr ?_
  rintro taken ⟨name, vlan⟩
  grind [VlanKey.SpelledBy]

theorem groupKey_takes :
    GroupKey.reading.Takes fun taken k => k.SpelledBy (.name k.name) taken := by
  refine (takes_field_bind Expected.name_decides fun name =>
    takes_field_bind Expected.vlanVid_decides fun vlan =>
    takes_field_bind Expected.group_decides fun group => takes_pure _).congr ?_
  rintro taken ⟨name, vlan, group⟩
  grind [GroupKey.SpelledBy]

theorem ofText_decides (s : String) : Decides (TimeoutName.ofText s) fun n => s = n.name := by
  unfold TimeoutName.ofText
  cases h : TimeoutName.ofName? s with
  | none =>
    refine decides_error (fun n hn => ?_) rfl
    rw [hn, TimeoutName.ofName?_name] at h
    cases h
  | some n =>
    refine decides_ok fun n' => ⟨fun hn => ?_, fun hn => ?_⟩
    · rw [hn, TimeoutName.ofName?_name] at h
      exact Option.some.inj h
    · have := List.find?_some h
      simpa [hn, eq_comm] using this

theorem timeoutName_takes :
    TimeoutTable.keyReading.Takes fun taken n => taken = [.name n.name] := by
  refine (takes_field_bind Expected.name_decides fun s =>
    takes_lift (ofText_decides s)).congr ?_
  intro taken n
  have hn : IsGroupName n.name := by cases n <;> decide
  grind

theorem resolve_decides (rows : Option TxPorts) (key : List Field) :
    Decides (TxPorts.resolve rows key) fun s =>
      (IsGroupName s ∧ key = [.name s]) ∧ ∀ t ∈ rows, t.contains s = true := by
  have hk : Decides (TxPorts.keyReading.all key) fun s => IsGroupName s ∧ key = [.name s] :=
    ((takes_field Expected.name_decides).all key).congr fun s => by grind
  unfold TxPorts.resolve
  cases rows with
  | none =>
    refine (hk.bind fun s => decides_ok (P := (· = s)) fun s' => Iff.rfl).congr fun s => ?_
    simp
  | some t =>
    refine (hk.bind (Q := fun s s' => s' = s ∧ t.contains s = true) fun s => ?_).congr fun s => ?_
    · by_cases h : t.contains s = true
      · simp only [h, if_true]
        exact decides_ok fun s' => by simp
      · simp only [h]
        exact decides_error (fun s' => by simp) rfl
    · grind

theorem portGroup_takes (ports : Option TxPorts) :
    (Transmission.portGroupReading ports).Takes fun taken s =>
      (IsGroupName s ∧ taken = [txGroup s]) ∧ ∀ t ∈ ports, t.contains s = true := by
  refine (takes_field_bind (Expected.reference_decides _) fun key =>
    takes_lift (resolve_decides ports key)).congr fun taken s => ?_
  grind [txGroup, TableId.name]

theorem masked (v : UInt16) : v &&& vidMask &&& vidMask = v &&& vidMask := by
  rw [UInt16.and_assoc, UInt16.and_self]

theorem generalQueryTx_takes (ports : Option TxPorts) :
    (Transmission.generalQuery.reading ports).Takes fun taken k =>
      k.SpelledBy (txGroup k.name) taken ∧ ∀ t ∈ ports, t.contains k.name = true := by
  refine (takes_bind (portGroup_takes ports) fun name =>
    takes_field_bind Expected.vlanVid_decides fun vlan => takes_pure _).congr ?_
  rintro taken ⟨name, vlan⟩
  grind [VlanKey.SpelledBy, VlanKey.of]

theorem reportTx_takes (ports : Option TxPorts) :
    (Transmission.report.reading ports).Takes fun taken k =>
      k.SpelledBy (txGroup k.name) taken ∧ ∀ t ∈ ports, t.contains k.name = true := by
  refine (takes_bind (portGroup_takes ports) fun name =>
    takes_field_bind Expected.vlanVid_decides fun vlan =>
    takes_field_bind Expected.group_decides fun group => takes_pure _).congr ?_
  rintro taken ⟨name, vlan, group⟩
  grind [GroupKey.SpelledBy, GroupKey.of]

theorem interval_decides (value : List Field) : Decides (TimeoutTable.parseValue value) fun d =>
    ∃ w : UInt32, 1 ≤ w ∧ d = .ofMillis w.toUInt64 ∧ value = [.intervalMs w] := by
  have hv : Decides ((field Expected.intervalMs).all value) fun w => value = [.intervalMs w] :=
    ((takes_field Expected.intervalMs_decides).all value).congr fun w => by simp
  refine (hv.bind (Q := fun w d => 1 ≤ w ∧ d = Duration.ofMillis w.toUInt64) fun w => ?_).congr
    fun d => by grind
  unfold checkInterval
  split_ifs with h
  · exact decides_error (fun d => by simp [h]) rfl
  · have hw : 1 ≤ w :=
      UInt32.le_iff_toNat_le.mpr (Nat.pos_of_ne_zero fun h0 => h (UInt32.toNat_inj.mp h0))
    exact decides_ok fun d => by simp [hw]

theorem origin_takes : Transmission.originReading.Takes fun taken o => o.SpelledBy taken := by
  refine (takes_field_bind Expected.vlanVid_decides fun vlan =>
    takes_field_bind Expected.source_decides fun src =>
    takes_field_bind Expected.ethSrc_decides fun mac => takes_pure _).congr ?_
  rintro taken ⟨mac, vlan, src⟩
  grind [Igmp.Origin.SpelledBy]

end Keys
end Snooping
