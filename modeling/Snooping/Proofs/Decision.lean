import Snooping.Proofs.Grammar
import Snooping.Proofs.Outright

/-!
How table requests are decided: a request that is not well formed is a parameter error, and one
that is succeeds or fails by whether its row is there.
-/
namespace Snooping

def refusal {α : Type} : Except TableError α → Option ErrorCode
  | .ok _ => none
  | .error e => some e.code

/-- How an operation on a row is refused, given whether the row is there. -/
def TableOp.Kind.refusal : TableOp.Kind → Bool → Option ErrorCode
  | add, present => if present then some .alreadyExists else none
  | _, present => if present then none else some .notFound

/-- The operation is refused by the presence of the row that `P` finds, and as a parameter error
where `P` finds none. -/
structure Ruled {κ α : Type} (m : Except TableError α) (P : κ → Prop) (op : TableOp.Kind)
    (present : κ → Bool) : Prop where
  ruled : ∀ k, P k → refusal m = op.refusal (present k)
  otherwise : (∀ k, ¬ P k) → refusal m = some .param

section Ruled

variable {κ α β : Type} {x : Except TableError κ} {y : Except TableError β} {P P' : κ → Prop}
  {Q : β → Prop} {op : TableOp.Kind} {present : κ → Bool} {m : Except TableError α}

/-- A guard that refuses under `p`, with what comes after it. -/
theorem refusal_guard {p : Prop} [Decidable p] {e : TableError}
    {f : PUnit → Except TableError α} (hf : refusal (f ⟨⟩) = none) :
    refusal (if p then throw e >>= f else f ⟨⟩) = if p then some e.code else none := by
  by_cases hp : p
  · rw [if_pos hp, if_pos hp]
    rfl
  · rw [if_neg hp, if_neg hp, hf]

theorem Decides.rules {f : κ → Except TableError α} (hx : Decides x P)
    (hf : ∀ k, refusal (f k) = op.refusal (present k)) : Ruled (x >>= f) P op present where
  ruled k hk := by
    rw [(hx.ok_iff k).mpr hk]
    exact hf k
  otherwise hn := by
    cases hxe : x with
    | error e => exact congrArg some (hx.code e hxe)
    | ok k => exact (hn k ((hx.ok_iff k).mp hxe)).elim

/-- The key is read first, and then the value. -/
theorem Decides.rules_value {f : κ → β → Except TableError α} (hx : Decides x P)
    (hy : Decides y Q) (hf : ∀ k v, refusal (f k v) = op.refusal (present k)) :
    Ruled (x >>= fun k => y >>= f k) (fun k => P k ∧ ∃ v, Q v) op present where
  ruled k := by
    rintro ⟨hk, v, hv⟩
    rw [(hx.ok_iff k).mpr hk, (hy.ok_iff v).mpr hv]
    exact hf k v
  otherwise hn := by
    cases hxe : x with
    | error e => exact congrArg some (hx.code e hxe)
    | ok k =>
      cases hye : y with
      | error e => exact congrArg some (hy.code e hye)
      | ok v => exact (hn k ⟨(hx.ok_iff k).mp hxe, v, (hy.ok_iff v).mp hye⟩).elim

theorem Ruled.congr (h : Ruled m P op present) (hp : ∀ k, P k ↔ P' k) : Ruled m P' op present := by
  rwa [show P' = P from funext fun k => propext (hp k).symm]

/-- What follows an accepted operation does not refuse. -/
theorem Ruled.andThen {f : α → Except TableError β} (h : Ruled m P op present)
    (hf : ∀ a, refusal (f a) = none) : Ruled (m >>= f) P op present := by
  have hm : refusal (m >>= f) = refusal m := by
    cases m with
    | error e => rfl
    | ok a => exact hf a
  exact ⟨fun k hk => hm.trans (h.ruled k hk), fun hn => hm.trans (h.otherwise hn)⟩

end Ruled

theorem expectEmpty_decides (value : List Field) :
    Decides (expectEmpty value) fun _ => value = [] := by
  cases value with
  | nil => exact decides_ok fun _ => by simp
  | cons f rest => exact decides_error (by simp) rfl

namespace TimeoutTable

variable (t : TimeoutTable) (key value : List Field)

theorem add_ruled : Ruled (t.add key value)
    (fun n => key = [.name n.name] ∧ ∃ ms, 1 ≤ ms ∧ value = [.intervalMs ms]) .add
    fun n => (t.configured? n).isSome := by
  refine ((timeoutName_takes.all key).rules_value (interval_decides value) fun n ms => ?_).congr
    fun n => by grind
  exact refusal_guard rfl

theorem modify_ruled : Ruled (t.modify key value)
    (fun n => key = [.name n.name] ∧ ∃ ms, 1 ≤ ms ∧ value = [.intervalMs ms]) .modify
    fun n => (t.configured? n).isSome := by
  refine ((timeoutName_takes.all key).rules_value (interval_decides value) fun n ms => ?_).congr
    fun n => by grind
  rw [refusal_guard rfl]
  cases t.configured? n <;> rfl

theorem delete_ruled : Ruled (t.delete key) (fun n => key = [.name n.name]) .delete
    fun n => (t.configured? n).isSome := by
  refine (timeoutName_takes.all key).rules fun n => ?_
  rw [refusal_guard rfl]
  cases t.configured? n <;> rfl

end TimeoutTable

namespace RxPorts

variable (t : RxPorts) (maxPorts : UInt32) (key value : List Field)

theorem key_decides : Decides ((keyReading maxPorts).all key) fun p =>
    p < maxPorts ∧ key = [.portNo p] :=
  ((Reading.takes_field (Expected.portNo_decides maxPorts)).all key).congr fun p => by grind

theorem value_decides : Decides (valueReading.all value) fun s =>
    IsGroupName s ∧ value = [.name s] :=
  ((Reading.takes_field Expected.name_decides).all value).congr fun s => by grind

theorem add_ruled : Ruled (add t maxPorts key value)
    (fun p => (p < maxPorts ∧ key = [.portNo p]) ∧ ∃ s, IsGroupName s ∧ value = [.name s]) .add
    t.contains :=
  (key_decides maxPorts key).rules_value (value_decides value) fun _ _ => refusal_guard rfl

theorem modify_ruled : Ruled (modify t maxPorts key value)
    (fun p => (p < maxPorts ∧ key = [.portNo p]) ∧ ∃ s, IsGroupName s ∧ value = [.name s]) .modify
    t.contains := by
  refine (key_decides maxPorts key).rules_value (value_decides value) fun p s => ?_
  rw [refusal_guard rfl]
  cases t.contains p <;> rfl

theorem delete_ruled : Ruled (delete t maxPorts key)
    (fun p => p < maxPorts ∧ key = [.portNo p]) .delete t.contains :=
  (key_decides maxPorts key).rules fun p => by
    unfold Rows.contains
    cases t.find? p <;> rfl

end RxPorts

namespace TxPorts

variable (t : TxPorts) (maxPorts : UInt32) (key value : List Field)

theorem key_decides : Decides (keyReading.all key) fun s => IsGroupName s ∧ key = [.name s] :=
  ((Reading.takes_field Expected.name_decides).all key).congr fun s => by grind

theorem value_decides : Decides ((valueReading maxPorts).all value) fun p =>
    p < maxPorts ∧ value = [.portNo p] :=
  ((Reading.takes_field (Expected.portNo_decides maxPorts)).all value).congr fun p => by grind

theorem add_ruled : Ruled (add t maxPorts key value)
    (fun s => (IsGroupName s ∧ key = [.name s]) ∧ ∃ p, p < maxPorts ∧ value = [.portNo p]) .add
    t.contains :=
  (key_decides key).rules_value (value_decides maxPorts value) fun _ _ => refusal_guard rfl

theorem modify_ruled : Ruled (modify t maxPorts key value)
    (fun s => (IsGroupName s ∧ key = [.name s]) ∧ ∃ p, p < maxPorts ∧ value = [.portNo p]) .modify
    t.contains := by
  refine (key_decides key).rules_value (value_decides maxPorts value) fun s p => ?_
  rw [refusal_guard rfl]
  cases t.contains s <;> rfl

theorem delete_ruled : Ruled (delete t key) (fun s => IsGroupName s ∧ key = [.name s]) .delete
    t.contains :=
  (key_decides key).rules fun s => by
    unfold Rows.contains
    cases t.find? s <;> rfl

end TxPorts

namespace Expectation.Table

variable {κ : Type} [DecidableEq κ] {kind : Kind κ} {P : κ → Prop} {key : List Field}
  (hr : Decides (kind.reading.all key) P) (t : Table κ) (value : List Field) (interval now : Nat)
include hr

theorem add_ruled : Ruled (t.add kind key value interval now) (fun k => P k ∧ value = []) .add
    t.entries.contains :=
  (hr.rules_value (expectEmpty_decides value) fun _ _ => refusal_guard rfl).congr fun k => by simp

theorem modify_ruled : Ruled (t.modify kind key value) (fun k => P k ∧ value = []) .modify
    t.entries.contains := by
  refine (hr.rules_value (expectEmpty_decides value) fun k _ => ?_).congr fun k => by simp
  cases t.entries.contains k <;> rfl

theorem delete_ruled : Ruled (t.delete kind key) P .delete t.entries.contains := by
  refine hr.rules fun k => ?_
  rw [refusal_guard rfl]
  cases t.entries.contains k <;> rfl

theorem stats_ruled : Ruled (t.stats kind key now) P .getStats t.entries.contains :=
  hr.rules fun k => by
    unfold Rows.contains
    cases t.entries.find? k <;> rfl

end Expectation.Table

namespace Transmission.Table

variable {κ ω : Type} [DecidableEq κ] [PacketOut ω] {kind : Kind κ} {P : κ → Prop}
  {key : List Field} {ports : TxPorts} (t : Table κ) (value : List Field) (interval now : Nat)
  (out : ω)

theorem add_ruled (hr : Decides ((kind.reading (some ports)).all key) P) :
    Ruled (t.add kind ports key value interval now out)
      (fun k => P k ∧ ∃ o : Igmp.Origin, o.SpelledBy value) .add t.entries.contains :=
  hr.rules_value (origin_takes.all value) fun _ _ => refusal_guard rfl

variable (hr : Decides ((kind.reading none).all key) P)
include hr

theorem modify_ruled : Ruled (t.modify kind ports key value interval now out)
      (fun k => P k ∧ ∃ o : Igmp.Origin, o.SpelledBy value) .modify t.entries.contains := by
  refine hr.rules_value (origin_takes.all value) fun k _ => ?_
  unfold Rows.contains
  cases t.entries.find? k <;> rfl

theorem delete_ruled : Ruled (t.delete kind key) P .delete t.entries.contains := by
  refine hr.rules fun k => ?_
  rw [refusal_guard rfl]
  cases t.entries.contains k <;> rfl

theorem stats_ruled : Ruled (t.stats kind key now) P .getStats t.entries.contains :=
  hr.rules fun k => by
    unfold Rows.contains
    cases t.entries.find? k <;> rfl

end Transmission.Table

/-- How a table reads the key of a row. -/
def TableId.reading (maxPorts : UInt32) : (t : TableId) → Reading t.Key
  | timeout => TimeoutTable.keyReading
  | rxPortGroup => RxPorts.keyReading maxPorts
  | txPortGroup => TxPorts.keyReading
  | generalQueryExpectation => Expectation.generalQuery.reading
  | reportExpectation => Expectation.report.reading
  | pimExpectation => Expectation.pim.reading
  | generalQueryTx => Transmission.generalQuery.reading none
  | reportTx => Transmission.report.reading none

theorem TableId.reading_decides (maxPorts : UInt32) (key : List Field) (t : TableId) :
    Decides ((t.reading maxPorts).all key) (Spells maxPorts key t) := by
  cases t with
  | timeout => exact timeoutName_takes.all key
  | rxPortGroup => exact RxPorts.key_decides maxPorts key
  | txPortGroup => exact TxPorts.key_decides key
  | generalQueryExpectation | pimExpectation => exact vlanKey_takes.all key
  | reportExpectation => exact groupKey_takes.all key
  | generalQueryTx => exact ((generalQueryTx_takes none).all key).congr fun k => by simp [Spells]
  | reportTx => exact ((reportTx_takes none).all key).congr fun k => by simp [Spells]

/-- Fields name at most one row. -/
theorem Spells.unique {maxPorts : UInt32} {key : List Field} {t : TableId} {k k' : t.Key}
    (h : Spells maxPorts key t k) (h' : Spells maxPorts key t k') : k = k' := by
  have hk := ((t.reading_decides maxPorts key).ok_iff k).mpr h
  have hk' := ((t.reading_decides maxPorts key).ok_iff k').mpr h'
  exact Except.ok.inj (hk.symm.trans hk')

/-- The tables that keep figures on their rows. -/
def TableId.HasStats : TableId → Prop
  | timeout | rxPortGroup | txPortGroup => False
  | _ => True

/-- The port group that a row sends on. -/
def portGroup? : (t : TableId) → t.Key → Option String
  | .generalQueryTx, (k : VlanKey) => some k.name
  | .reportTx, (k : GroupKey) => some k.name
  | _, _ => none

namespace Agent

variable {χ ω : Type} (a : Agent χ ω) (t : TableId) (key value : List Field) (now : Nat)

/-- Whether the table has the row. -/
def present : (t : TableId) → t.Key → Bool
  | .timeout, (n : TimeoutName) => (a.timeouts.configured? n).isSome
  | .rxPortGroup, (p : UInt32) => a.rxPorts.contains p
  | .txPortGroup, (s : String) => a.txPorts.contains s
  | .generalQueryExpectation, (k : VlanKey) => a.generalQuery.entries.contains k
  | .reportExpectation, (k : GroupKey) => a.report.entries.contains k
  | .pimExpectation, (k : VlanKey) => a.pim.entries.contains k
  | .generalQueryTx, (k : VlanKey) => a.generalQueryTx.entries.contains k
  | .reportTx, (k : GroupKey) => a.reportTx.entries.contains k

/-- The operation has the form that the table asks for, on row `k`. Only an addition needs the port
group that the row sends on. -/
def WellFormed (k : t.Key) : TableOp → Prop
  | .add key value => Spells a.maxPorts key t k ∧
      (∀ name ∈ portGroup? t k, a.present .txPortGroup name = true) ∧ Fills a.maxPorts value t
  | .modify key value => Spells a.maxPorts key t k ∧ Fills a.maxPorts value t
  | .delete key | .getStats key => Spells a.maxPorts key t k

section
variable [PacketOut ω]

theorem add_ruled : Ruled (a.add t key value now) (a.WellFormed t · (.add key value)) .add
    (a.present t) := by
  cases t with
  | timeout =>
    refine ((a.timeouts.add_ruled key value).andThen fun _ => rfl).congr fun n => ?_
    simp [WellFormed, Spells, Fills, portGroup?]
  | rxPortGroup =>
    refine ((RxPorts.add_ruled a.rxPorts a.maxPorts key value).andThen fun _ => rfl).congr ?_
    intro p
    simp [WellFormed, Spells, Fills, portGroup?]
  | txPortGroup =>
    refine ((TxPorts.add_ruled a.txPorts a.maxPorts key value).andThen fun _ => rfl).congr ?_
    intro name
    simp [WellFormed, Spells, Fills, portGroup?]
  | generalQueryExpectation =>
    refine ((Expectation.Table.add_ruled (vlanKey_takes.all key) a.generalQuery value
      (a.timeouts.get .query) now).andThen fun _ => rfl).congr fun k => ?_
    simp [WellFormed, Spells, Fills, portGroup?]
  | reportExpectation =>
    refine ((Expectation.Table.add_ruled (groupKey_takes.all key) a.report value
      (a.timeouts.get .report) now).andThen fun _ => rfl).congr fun k => ?_
    simp [WellFormed, Spells, Fills, portGroup?]
  | pimExpectation =>
    refine ((Expectation.Table.add_ruled (vlanKey_takes.all key) a.pim value
      (a.timeouts.get .query) now).andThen fun _ => rfl).congr fun k => ?_
    simp [WellFormed, Spells, Fills, portGroup?]
  | generalQueryTx =>
    refine ((Transmission.Table.add_ruled a.generalQueryTx value (a.timeouts.get .queryTx) now a.out
      ((generalQueryTx_takes (some a.txPorts)).all key)).andThen fun _ => rfl).congr fun k => ?_
    simp [WellFormed, Spells, Fills, portGroup?, present, and_assoc]
  | reportTx =>
    refine ((Transmission.Table.add_ruled a.reportTx value (a.timeouts.get .reportTx) now a.out
      ((reportTx_takes (some a.txPorts)).all key)).andThen fun _ => rfl).congr fun k => ?_
    simp [WellFormed, Spells, Fills, portGroup?, present, and_assoc]

theorem modify_ruled : Ruled (a.modify t key value now) (a.WellFormed t · (.modify key value))
    .modify (a.present t) := by
  cases t with
  | timeout => exact (a.timeouts.modify_ruled key value).andThen fun _ => rfl
  | rxPortGroup =>
    exact (RxPorts.modify_ruled a.rxPorts a.maxPorts key value).andThen fun _ => rfl
  | txPortGroup =>
    exact (TxPorts.modify_ruled a.txPorts a.maxPorts key value).andThen fun _ => rfl
  | generalQueryExpectation =>
    exact (Expectation.Table.modify_ruled (vlanKey_takes.all key) a.generalQuery value).andThen
      fun _ => rfl
  | reportExpectation =>
    exact (Expectation.Table.modify_ruled (groupKey_takes.all key) a.report value).andThen
      fun _ => rfl
  | pimExpectation =>
    exact (Expectation.Table.modify_ruled (vlanKey_takes.all key) a.pim value).andThen fun _ => rfl
  | generalQueryTx =>
    exact (Transmission.Table.modify_ruled a.generalQueryTx value (a.timeouts.get .queryTx) now
      a.out (TableId.reading_decides a.maxPorts key .generalQueryTx)).andThen fun _ => rfl
  | reportTx =>
    exact (Transmission.Table.modify_ruled a.reportTx value (a.timeouts.get .reportTx) now
      a.out (TableId.reading_decides a.maxPorts key .reportTx)).andThen fun _ => rfl

end

theorem delete_ruled : Ruled (a.delete t key) (a.WellFormed t · (.delete key)) .delete
    (a.present t) := by
  cases t with
  | timeout => exact (a.timeouts.delete_ruled key).andThen fun _ => rfl
  | rxPortGroup => exact (RxPorts.delete_ruled a.rxPorts a.maxPorts key).andThen fun _ => rfl
  | txPortGroup => exact (TxPorts.delete_ruled a.txPorts key).andThen fun _ => rfl
  | generalQueryExpectation =>
    exact (Expectation.Table.delete_ruled (vlanKey_takes.all key) a.generalQuery).andThen
      fun _ => rfl
  | reportExpectation =>
    exact (Expectation.Table.delete_ruled (groupKey_takes.all key) a.report).andThen fun _ => rfl
  | pimExpectation =>
    exact (Expectation.Table.delete_ruled (vlanKey_takes.all key) a.pim).andThen fun _ => rfl
  | generalQueryTx =>
    exact (Transmission.Table.delete_ruled a.generalQueryTx
      (TableId.reading_decides a.maxPorts key .generalQueryTx)).andThen fun _ => rfl
  | reportTx =>
    exact (Transmission.Table.delete_ruled a.reportTx
      (TableId.reading_decides a.maxPorts key .reportTx)).andThen fun _ => rfl

theorem stats_ruled (ht : t.HasStats) : Ruled (a.stats t key now) (a.WellFormed t · (.getStats key))
    .getStats (a.present t) := by
  cases t with
  | timeout | rxPortGroup | txPortGroup => exact ht.elim
  | generalQueryExpectation =>
    exact Expectation.Table.stats_ruled (vlanKey_takes.all key) a.generalQuery now
  | reportExpectation =>
    exact Expectation.Table.stats_ruled (groupKey_takes.all key) a.report now
  | pimExpectation => exact Expectation.Table.stats_ruled (vlanKey_takes.all key) a.pim now
  | generalQueryTx =>
    exact Transmission.Table.stats_ruled a.generalQueryTx now
      (TableId.reading_decides a.maxPorts key .generalQueryTx)
  | reportTx =>
    exact Transmission.Table.stats_ruled a.reportTx now
      (TableId.reading_decides a.maxPorts key .reportTx)

end Agent

/-- A response without its wording and its figures. -/
inductive Verdict
  | ok
  | stats
  | refused (code : ErrorCode)
deriving DecidableEq

def TableResponse.verdict : TableResponse → Verdict
  | ok => .ok
  | stats _ => .stats
  | error code _ => .refused code

/-- The verdict on a well-formed operation, given whether the row is there. -/
def TableOp.Kind.verdict : TableOp.Kind → Bool → Verdict
  | add, false | modify, true | delete, true => .ok
  | getStats, true => .stats
  | add, true => .refused .alreadyExists
  | _, false => .refused .notFound

def Verdict.of (op : TableOp.Kind) : Option ErrorCode → Verdict
  | some code => .refused code
  | none => if op = .getStats then .stats else .ok

theorem Verdict.of_refusal (op : TableOp.Kind) (present : Bool) :
    Verdict.of op (op.refusal present) = op.verdict present := by
  cases op <;> cases present <;> rfl

namespace Agent

variable {χ ω : Type} [PacketOut ω] (a : Agent χ ω)

theorem perform_ruled (t : TableId) (op : TableOp) (now : Nat)
    (hop : op.kind = .getStats → t.HasStats) :
    Ruled (a.perform t op now) (a.WellFormed t · op) op.kind (a.present t) := by
  cases op with
  | add key value => exact (a.add_ruled t key value now).andThen fun _ => rfl
  | modify key value => exact (a.modify_ruled t key value now).andThen fun _ => rfl
  | delete key => exact (a.delete_ruled t key).andThen fun _ => rfl
  | getStats key => exact (a.stats_ruled t key now (hop rfl)).andThen fun _ => rfl

theorem perform_not_supported {t : TableId} {op : TableOp} (hop : op.kind = .getStats)
    (ht : ¬ t.HasStats) (now : Nat) :
    refusal (a.perform t op now) = some .notSupported := by
  cases op with
  | add | modify | delete => cases hop
  | getStats key =>
    cases t with
    | timeout | rxPortGroup | txPortGroup => rfl
    | _ => exact (ht trivial).elim

/-- What is not refused is answered by the kind of the operation. -/
theorem perform_verdict {t : TableId} {op : TableOp} {now : Nat} {a' : Agent χ ω}
    {response : TableResponse} {traces : List Trace}
    (h : a.perform t op now = .ok (a', response, traces)) :
    response.verdict = Verdict.of op.kind none := by
  cases op <;> simp only [perform, bind_eq_ok_iff, pure_eq_ok_iff, Prod.mk.injEq] at h <;>
    obtain ⟨_, _, _, rfl, _⟩ := h <;> rfl

/-- The verdict follows the refusal by the table. -/
theorem request_verdict (r : TableRequest) (now : Nat) :
    (a.request r now).answer.verdict =
      Verdict.of r.op.kind (refusal (a.perform r.table r.op now)) := by
  rw [request_eq]
  split
  · rename_i h
    rw [h]
    exact a.perform_verdict h
  · rename_i h
    rw [h]
    rfl

/-- A request of the form that its table asks for is decided by whether its row is there; any other
is a parameter error. -/
theorem request_decided (r : TableRequest) (now : Nat)
    (hr : r.op.kind = .getStats → r.table.HasStats) :
    (∀ k, a.WellFormed r.table k r.op →
      (a.request r now).answer.verdict = r.op.kind.verdict (a.present r.table k)) ∧
    ((∀ k, ¬ a.WellFormed r.table k r.op) →
      (a.request r now).answer.verdict = .refused .param) := by
  have hp := a.perform_ruled r.table r.op now hr
  rw [request_verdict]
  refine ⟨fun k hk => ?_, fun hn => ?_⟩
  · rw [hp.ruled k hk, Verdict.of_refusal]
  · rw [hp.otherwise hn]
    rfl

end Agent
end Snooping
