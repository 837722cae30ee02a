import Snooping.Agent.Basic
import Snooping.Proofs.Reading

/-!
Requests outright: what a table becomes if the request is accepted, and only the cause if it is
refused. In place the same is done, and a refusal leaves what was there: it comes before the first
write, or what has been written until then is what was there.
-/
namespace Snooping

/-- What an operation with this outcome leaves in place of `s`. -/
def Done.of {σ : Type} (s : σ) : Except TableError (σ × List Trace) → Done σ Unit
  | .ok (s', traces) => ⟨.ok (), s', traces⟩
  | .error e => ⟨.error e, s, []⟩

namespace InPlace

variable {σ τ α γ : Type} {s : σ}

theorem check_of {x : Except TableError α} {f : α → InPlace σ Unit}
    {g : α → Except TableError (σ × List Trace)} (h : ∀ a, f a s = .of s (g a)) :
    (check x >>= f) s = .of s (x >>= g) := by
  cases x with
  | error e => rfl
  | ok a => exact h a

theorem check_ok (a : α) (f : α → InPlace σ γ) (s : σ) : (check (.ok a) >>= f) s = f a s := rfl

theorem look_bind (f : σ → InPlace σ α) (s : σ) : (look >>= f) s = f s s := rfl

theorem refuse_of {p : Prop} [Decidable p] {e : TableError} {f : PUnit → InPlace σ Unit}
    {g : PUnit → Except TableError (σ × List Trace)} (h : f ⟨⟩ s = .of s (g ⟨⟩)) :
    (if p then refuse e >>= f else f ⟨⟩) s =
      .of s (if p then throw e >>= g else g ⟨⟩) := by
  by_cases hp : p
  · rw [if_pos hp, if_pos hp]
    rfl
  · rw [if_neg hp, if_neg hp]
    exact h

/-- A refusal behind a write that changed nothing. -/
theorem write_refuse {f : σ → σ} {e : TableError} (h : f s = s) :
    (write f >>= fun _ => refuse e : InPlace σ Unit) s = .of s (.error e) :=
  congrArg (Done.mk (.error e) · []) h

/-- An answer behind an operation is given unless that is refused. -/
theorem bind_pure_of (b : α) {m : InPlace σ Unit} {x : Except TableError (σ × List Trace)}
    (hm : m s = .of s x) : (m >>= fun _ => pure b) s =
      ⟨x.map fun _ => b, (Done.of s x).state, (Done.of s x).traces⟩ := by
  change InPlace.bind m (fun _ => InPlace.pure b) s = _
  rw [InPlace.bind, hm]
  cases x with
  | error e => rfl
  | ok r => exact congrArg (Done.mk (.ok b) r.1) (List.append_nil r.2)

/-- On a part of the state, as on the part alone. -/
theorem within_of (p : Part σ τ) {m : InPlace τ Unit} {x : Except TableError (τ × List Trace)}
    (hm : m (p.get s) = .of (p.get s) x) :
    within p m s = .of s (x >>= fun r => pure (p.put s r.1, r.2)) := by
  rw [within, hm]
  cases x with
  | error e => exact congrArg (Done.mk (.error e) · []) (p.put_get s)
  | ok r => rfl

theorem within_bind_of {ρ : Type} (p : Part σ τ) {m : InPlace τ Unit} {x : Except TableError ρ}
    {f : ρ → τ × List Trace} (hm : m (p.get s) = .of (p.get s) (x >>= fun r => pure (f r))) :
    within p m s = .of s (x >>= fun r => pure (p.put s (f r).1, (f r).2)) := by
  rw [within_of p hm, bind_assoc]
  rfl

end InPlace

namespace TimeoutTable

def add (t : TimeoutTable) (key value : List Field) :
    Except TableError (TimeoutTable × List Trace) := do
  let n ← keyReading.all key
  let d ← parseValue value
  if (t.configured? n).isSome then throw .alreadyExists
  return (t.put n (some d.kept.toNat), [trace "timeout set" n d.millis])

def modify (t : TimeoutTable) (key value : List Field) :
    Except TableError (TimeoutTable × List Trace) := do
  let n ← keyReading.all key
  let d ← parseValue value
  if (t.configured? n).isNone then throw .notFound
  return (t.put n (some d.kept.toNat), [trace "timeout set" n d.millis])

def delete (t : TimeoutTable) (key : List Field) :
    Except TableError (TimeoutTable × List Trace) := do
  let n ← keyReading.all key
  if (t.configured? n).isNone then throw .notFound
  return (t.put n none, [trace "timeout restored to default" n n.default])

theorem put_none {t : TimeoutTable} {n : TimeoutName} (h : t.configured? n = none) :
    t.put n none = t := by
  rw [← h]
  cases n <;> rfl

variable (t : TimeoutTable) (key value : List Field)

theorem addInPlace_of : addInPlace key value t = .of t (t.add key value) := by
  refine InPlace.check_of fun n => InPlace.check_of fun d => ?_
  rw [InPlace.look_bind]
  exact InPlace.refuse_of rfl

theorem modifyInPlace_of : modifyInPlace key value t = .of t (t.modify key value) := by
  refine InPlace.check_of fun n => InPlace.check_of fun d => ?_
  rw [InPlace.look_bind]
  exact InPlace.refuse_of rfl

theorem deleteInPlace_of : deleteInPlace key t = .of t (t.delete key) := by
  refine InPlace.check_of fun n => ?_
  rw [InPlace.look_bind]
  cases h : t.configured? n with
  | none => exact InPlace.write_refuse (put_none h)
  | some ms => rfl

end TimeoutTable

namespace RxPorts

def add (t : RxPorts) (maxPorts : UInt32) (key value : List Field) :
    Except TableError (RxPorts × List Trace) := do
  let port ← (keyReading maxPorts).all key
  let name ← valueReading.all value
  if t.contains port then throw .alreadyExists
  return (t.insert port name, [trace "rx port group added" port name])

def modify (t : RxPorts) (maxPorts : UInt32) (key value : List Field) :
    Except TableError (RxPorts × List Trace) := do
  let port ← (keyReading maxPorts).all key
  let name ← valueReading.all value
  if !t.contains port then throw .notFound
  return (t.insert port name, [trace "rx port group modified" port name])

def delete (t : RxPorts) (maxPorts : UInt32) (key : List Field) :
    Except TableError (RxPorts × List Trace) := do
  let port ← (keyReading maxPorts).all key
  match t.find? port with
  | none => throw .notFound
  | some name => return (t.erase port, [trace "rx port group deleted" port name])

variable (t : RxPorts) (maxPorts : UInt32) (key value : List Field)

theorem addInPlace_of : addInPlace maxPorts key value t = .of t (add t maxPorts key value) := by
  refine InPlace.check_of fun port => InPlace.check_of fun name => ?_
  rw [InPlace.look_bind]
  exact InPlace.refuse_of rfl

theorem modifyInPlace_of :
    modifyInPlace maxPorts key value t = .of t (modify t maxPorts key value) := by
  refine InPlace.check_of fun port => InPlace.check_of fun name => ?_
  rw [InPlace.look_bind]
  exact InPlace.refuse_of rfl

theorem deleteInPlace_of : deleteInPlace maxPorts key t = .of t (delete t maxPorts key) := by
  refine InPlace.check_of fun port => ?_
  rw [InPlace.look_bind]
  cases h : t.find? port with
  | none => exact InPlace.write_refuse (Rows.erase_of_find?_none h)
  | some name => rfl

end RxPorts

namespace TxPorts

def add (t : TxPorts) (maxPorts : UInt32) (key value : List Field) :
    Except TableError (TxPorts × List Trace) := do
  let name ← keyReading.all key
  let port ← (valueReading maxPorts).all value
  if t.contains name then throw .alreadyExists
  return (t.insert name port, [trace "tx port group added" name port])

def modify (t : TxPorts) (maxPorts : UInt32) (key value : List Field) :
    Except TableError (TxPorts × List Trace) := do
  let name ← keyReading.all key
  let port ← (valueReading maxPorts).all value
  if !t.contains name then throw .notFound
  return (t.insert name port, [trace "tx port group modified" name port])

def delete (t : TxPorts) (key : List Field) : Except TableError (TxPorts × List Trace) := do
  let name ← keyReading.all key
  match t.find? name with
  | none => throw .notFound
  | some port => return (t.erase name, [trace "tx port group deleted" name port])

variable (t : TxPorts) (maxPorts : UInt32) (key value : List Field)

theorem addInPlace_of : addInPlace maxPorts key value t = .of t (add t maxPorts key value) := by
  refine InPlace.check_of fun name => InPlace.check_of fun port => ?_
  rw [InPlace.look_bind]
  exact InPlace.refuse_of rfl

theorem modifyInPlace_of :
    modifyInPlace maxPorts key value t = .of t (modify t maxPorts key value) := by
  refine InPlace.check_of fun name => InPlace.check_of fun port => ?_
  rw [InPlace.look_bind]
  exact InPlace.refuse_of rfl

theorem deleteInPlace_of : deleteInPlace key t = .of t (delete t key) := by
  refine InPlace.check_of fun name => ?_
  rw [InPlace.look_bind]
  cases h : t.find? name with
  | none => exact InPlace.write_refuse (Rows.erase_of_find?_none h)
  | some port => rfl

end TxPorts

namespace Expectation.Table

variable {κ : Type} [DecidableEq κ] (kind : Kind κ) (t : Table κ) (key value : List Field)
  (interval now : Nat)

def add : Except TableError (Table κ × List Trace) := do
  let k ← kind.reading.all key
  expectEmpty value
  if t.entries.contains k then throw .alreadyExists
  return (
    { t with
      queue := t.queue.insert k (now + interval)
      entries := t.entries.insert k ⟨k, now, 0, 0⟩ },
    [trace kind "expectation added" k])

def modify : Except TableError Unit := do
  let k ← kind.reading.all key
  expectEmpty value
  if !t.entries.contains k then throw .notFound

def delete : Except TableError (Table κ × List Trace) := do
  let k ← kind.reading.all key
  if !t.entries.contains k then throw .notFound
  return (
    { t with
      queue := t.queue.remove k
      entries := t.entries.erase k },
    [trace kind "expectation deleted" k])

theorem addInPlace_of :
    addInPlace kind key value interval now t = .of t (add kind t key value interval now) := by
  refine InPlace.check_of fun k => InPlace.check_of fun _ => ?_
  rw [InPlace.look_bind]
  exact InPlace.refuse_of rfl

theorem modifyInPlace_of : modifyInPlace kind key value t =
    .of t (modify kind t key value >>= fun _ => pure (t, [])) := by
  rw [modify, bind_assoc]
  refine InPlace.check_of fun k => ?_
  rw [bind_assoc]
  refine InPlace.check_of fun _ => ?_
  rw [InPlace.look_bind]
  cases t.entries.contains k <;> rfl

theorem deleteInPlace_of : deleteInPlace kind key t = .of t (delete kind t key) := by
  refine InPlace.check_of fun k => ?_
  rw [InPlace.look_bind]
  exact InPlace.refuse_of rfl

end Expectation.Table

namespace Transmission.Table

/-- A changed table with the packet-out path as it is afterwards. -/
structure Changed (κ ω : Type) where
  table : Table κ
  out : ω
  traces : List Trace

variable {κ ω : Type} [DecidableEq κ] [PacketOut ω] (kind : Kind κ) (t : Table κ)
  (ports : TxPorts) (key value : List Field) (interval now : Nat) (out : ω)

def add : Except TableError (Changed κ ω) := do
  let k ← (kind.reading (some ports)).all key
  let origin ← originReading.all value
  if t.entries.contains k then throw .alreadyExists
  let s := send kind ports now ⟨k, origin, now, 0⟩ t.counters out
  return ⟨⟨t.entries.insert k s.entry, t.queue.insert k (now + interval), s.counters⟩, s.out,
    s.traces ++ [trace kind "transmission added" k]⟩

def modify : Except TableError (Changed κ ω) := do
  let k ← (kind.reading none).all key
  let origin ← originReading.all value
  match t.entries.find? k with
  | none => throw .notFound
  | some e =>
    let s := send kind ports now { e with origin } t.counters out
    return ⟨⟨t.entries.insert k s.entry, (t.queue.remove k).insert k (now + interval),
      s.counters⟩, s.out, s.traces ++ [trace kind "transmission modified" k]⟩

def delete : Except TableError (Table κ × List Trace) := do
  let k ← (kind.reading none).all key
  if !t.entries.contains k then throw .notFound
  return (
    { t with
      queue := t.queue.remove k
      entries := t.entries.erase k },
    [trace kind "transmission deleted" k])

theorem addInPlace_of : addInPlace kind ports key value interval now ⟨t, out⟩ =
    .of ⟨t, out⟩ (add kind t ports key value interval now out >>= fun c =>
      pure (⟨c.table, c.out⟩, c.traces)) := by
  rw [add, bind_assoc]
  refine InPlace.check_of fun k => ?_
  rw [bind_assoc]
  refine InPlace.check_of fun origin => ?_
  rw [InPlace.look_bind]
  cases t.entries.contains k <;> rfl

/-- The entry is stored before the frame is sent and again behind it. -/
theorem modifyInPlace_of : modifyInPlace kind ports key value interval now ⟨t, out⟩ =
    .of ⟨t, out⟩ (modify kind t ports key value interval now out >>= fun c =>
      pure (⟨c.table, c.out⟩, c.traces)) := by
  rw [modify, bind_assoc]
  refine InPlace.check_of fun k => ?_
  rw [bind_assoc]
  refine InPlace.check_of fun origin => ?_
  rw [InPlace.look_bind]
  cases h : t.entries.find? k with
  | none => rfl
  | some e =>
    change Done.mk _ (Linked.mk ⟨(t.entries.insert k _).insert k _, _, _⟩ _) _ = _
    rw [Rows.insert_insert h]
    rfl

omit [PacketOut ω] in
theorem deleteInPlace_of : deleteInPlace kind key ⟨t, out⟩ =
    .of ⟨t, out⟩ (delete kind t key >>= fun r => pure (⟨r.1, out⟩, r.2)) := by
  rw [delete, bind_assoc]
  refine InPlace.check_of fun k => ?_
  rw [InPlace.look_bind]
  cases t.entries.contains k <;> rfl

end Transmission.Table

namespace Agent

variable {χ ω : Type} [PacketOut ω] (a : Agent χ ω) (table : TableId) (key value : List Field)
  (now : Nat)

def add : Except TableError (Agent χ ω × List Trace) :=
  match table with
  | .timeout => do
    let (timeouts, traces) ← a.timeouts.add key value
    return ({ a with timeouts }, traces)
  | .rxPortGroup => do
    let (rxPorts, traces) ← RxPorts.add a.rxPorts a.maxPorts key value
    return ({ a with rxPorts }, traces)
  | .txPortGroup => do
    let (txPorts, traces) ← TxPorts.add a.txPorts a.maxPorts key value
    return ({ a with txPorts }, traces)
  | .generalQueryExpectation => do
    let (generalQuery, traces) ←
      a.generalQuery.add Expectation.generalQuery key value (a.timeouts.get .query) now
    return ({ a with generalQuery }, traces)
  | .reportExpectation => do
    let (report, traces) ←
      a.report.add Expectation.report key value (a.timeouts.get .report) now
    return ({ a with report }, traces)
  | .pimExpectation => do
    let (pim, traces) ← a.pim.add Expectation.pim key value (a.timeouts.get .query) now
    return ({ a with pim }, traces)
  | .generalQueryTx => do
    let c ← a.generalQueryTx.add Transmission.generalQuery a.txPorts key value
      (a.timeouts.get .queryTx) now a.out
    return ({ a with generalQueryTx := c.table, out := c.out }, c.traces)
  | .reportTx => do
    let c ← a.reportTx.add Transmission.report a.txPorts key value
      (a.timeouts.get .reportTx) now a.out
    return ({ a with reportTx := c.table, out := c.out }, c.traces)

def modify : Except TableError (Agent χ ω × List Trace) :=
  match table with
  | .timeout => do
    let (timeouts, traces) ← a.timeouts.modify key value
    return ({ a with timeouts }, traces)
  | .rxPortGroup => do
    let (rxPorts, traces) ← RxPorts.modify a.rxPorts a.maxPorts key value
    return ({ a with rxPorts }, traces)
  | .txPortGroup => do
    let (txPorts, traces) ← TxPorts.modify a.txPorts a.maxPorts key value
    return ({ a with txPorts }, traces)
  | .generalQueryExpectation => do
    a.generalQuery.modify Expectation.generalQuery key value
    return (a, [])
  | .reportExpectation => do
    a.report.modify Expectation.report key value
    return (a, [])
  | .pimExpectation => do
    a.pim.modify Expectation.pim key value
    return (a, [])
  | .generalQueryTx => do
    let c ← a.generalQueryTx.modify Transmission.generalQuery a.txPorts key value
      (a.timeouts.get .queryTx) now a.out
    return ({ a with generalQueryTx := c.table, out := c.out }, c.traces)
  | .reportTx => do
    let c ← a.reportTx.modify Transmission.report a.txPorts key value
      (a.timeouts.get .reportTx) now a.out
    return ({ a with reportTx := c.table, out := c.out }, c.traces)

def delete : Except TableError (Agent χ ω × List Trace) :=
  match table with
  | .timeout => do
    let (timeouts, traces) ← a.timeouts.delete key
    return ({ a with timeouts }, traces)
  | .rxPortGroup => do
    let (rxPorts, traces) ← RxPorts.delete a.rxPorts a.maxPorts key
    return ({ a with rxPorts }, traces)
  | .txPortGroup => do
    let (txPorts, traces) ← TxPorts.delete a.txPorts key
    return ({ a with txPorts }, traces)
  | .generalQueryExpectation => do
    let (generalQuery, traces) ← a.generalQuery.delete Expectation.generalQuery key
    return ({ a with generalQuery }, traces)
  | .reportExpectation => do
    let (report, traces) ← a.report.delete Expectation.report key
    return ({ a with report }, traces)
  | .pimExpectation => do
    let (pim, traces) ← a.pim.delete Expectation.pim key
    return ({ a with pim }, traces)
  | .generalQueryTx => do
    let (generalQueryTx, traces) ← a.generalQueryTx.delete Transmission.generalQuery key
    return ({ a with generalQueryTx }, traces)
  | .reportTx => do
    let (reportTx, traces) ← a.reportTx.delete Transmission.report key
    return ({ a with reportTx }, traces)

theorem addInPlace_of : addInPlace table key value now a = .of a (a.add table key value now) := by
  cases table with
  | timeout => exact InPlace.within_of timeoutsPart (TimeoutTable.addInPlace_of ..)
  | rxPortGroup => exact InPlace.within_of rxPortsPart (RxPorts.addInPlace_of ..)
  | txPortGroup => exact InPlace.within_of txPortsPart (TxPorts.addInPlace_of ..)
  | generalQueryExpectation =>
    exact InPlace.within_of generalQueryPart (Expectation.Table.addInPlace_of ..)
  | reportExpectation =>
    exact InPlace.within_of reportPart (Expectation.Table.addInPlace_of ..)
  | pimExpectation => exact InPlace.within_of pimPart (Expectation.Table.addInPlace_of ..)
  | generalQueryTx =>
    exact InPlace.within_bind_of generalQueryTxPart (Transmission.Table.addInPlace_of ..)
  | reportTx =>
    exact InPlace.within_bind_of reportTxPart (Transmission.Table.addInPlace_of ..)

theorem modifyInPlace_of :
    modifyInPlace table key value now a = .of a (a.modify table key value now) := by
  cases table with
  | timeout => exact InPlace.within_of timeoutsPart (TimeoutTable.modifyInPlace_of ..)
  | rxPortGroup => exact InPlace.within_of rxPortsPart (RxPorts.modifyInPlace_of ..)
  | txPortGroup => exact InPlace.within_of txPortsPart (TxPorts.modifyInPlace_of ..)
  | generalQueryExpectation =>
    exact InPlace.within_bind_of generalQueryPart (Expectation.Table.modifyInPlace_of ..)
  | reportExpectation =>
    exact InPlace.within_bind_of reportPart (Expectation.Table.modifyInPlace_of ..)
  | pimExpectation =>
    exact InPlace.within_bind_of pimPart (Expectation.Table.modifyInPlace_of ..)
  | generalQueryTx =>
    exact InPlace.within_bind_of generalQueryTxPart (Transmission.Table.modifyInPlace_of ..)
  | reportTx =>
    exact InPlace.within_bind_of reportTxPart (Transmission.Table.modifyInPlace_of ..)

omit [PacketOut ω] in
theorem deleteInPlace_of : deleteInPlace table key a = .of a (a.delete table key) := by
  cases table with
  | timeout => exact InPlace.within_of timeoutsPart (TimeoutTable.deleteInPlace_of ..)
  | rxPortGroup => exact InPlace.within_of rxPortsPart (RxPorts.deleteInPlace_of ..)
  | txPortGroup => exact InPlace.within_of txPortsPart (TxPorts.deleteInPlace_of ..)
  | generalQueryExpectation =>
    exact InPlace.within_of generalQueryPart (Expectation.Table.deleteInPlace_of ..)
  | reportExpectation =>
    exact InPlace.within_of reportPart (Expectation.Table.deleteInPlace_of ..)
  | pimExpectation => exact InPlace.within_of pimPart (Expectation.Table.deleteInPlace_of ..)
  | generalQueryTx =>
    exact InPlace.within_bind_of generalQueryTxPart (Transmission.Table.deleteInPlace_of ..)
  | reportTx =>
    exact InPlace.within_bind_of reportTxPart (Transmission.Table.deleteInPlace_of ..)

/-- The outcome of one operation before it is counted and worded. -/
def perform (a : Agent χ ω) (table : TableId) (op : TableOp) (now : Nat) :
    Except TableError (Agent χ ω × TableResponse × List Trace) :=
  match op with
  | .add key value => do
    let (a, traces) ← a.add table key value now
    return (a, .ok, traces)
  | .modify key value => do
    let (a, traces) ← a.modify table key value now
    return (a, .ok, traces)
  | .delete key => do
    let (a, traces) ← a.delete table key
    return (a, .ok, traces)
  | .getStats key => do
    let fields ← a.stats table key now
    return (a, .stats fields, [])

/-- An operation in place has the outcome that it has outright. If it is refused, the agent is as it
was and nothing has been noted. -/
theorem dispatch_eq (op : TableOp) : dispatch table op now a =
    match a.perform table op now with
    | .ok (a', response, traces) => ⟨.ok response, a', traces⟩
    | .error e => ⟨.error e, a, []⟩ := by
  cases op with
  | add key value =>
    refine (InPlace.bind_pure_of TableResponse.ok (a.addInPlace_of table key value now)).trans ?_
    rw [perform]
    cases a.add table key value now <;> rfl
  | modify key value =>
    refine (InPlace.bind_pure_of TableResponse.ok (a.modifyInPlace_of table key value now)).trans ?_
    rw [perform]
    cases a.modify table key value now <;> rfl
  | delete key =>
    refine (InPlace.bind_pure_of TableResponse.ok (a.deleteInPlace_of table key)).trans ?_
    rw [perform]
    cases a.delete table key <;> rfl
  | getStats key =>
    rw [dispatch, perform, InPlace.look_bind]
    cases a.stats table key now <;> rfl

theorem dispatch_refused {op : TableOp} {e : TableError}
    (h : (dispatch table op now a).answer = .error e) :
    dispatch table op now a = ⟨.error e, a, []⟩ := by
  rw [dispatch_eq] at h ⊢
  cases hp : a.perform table op now with
  | ok r =>
    rw [hp] at h
    cases h
  | error e' =>
    rw [hp] at h
    cases h
    rfl

/-- A request outright. -/
theorem request_eq (r : TableRequest) : a.request r now =
    match a.perform r.table r.op now with
    | .ok (a', response, traces) =>
      ⟨a', response, traces ++ [.count (.requests r.table r.op.kind none)]⟩
    | .error e =>
      ⟨a, .ofError e,
        [.count (.requests r.table r.op.kind (some e.code)),
          .note .agent .notice "table request rejected"
            [("table", r.table.name), ("op", r.op.kind.name), ("error", e.message)]]⟩ := by
  rw [request, dispatch_eq]
  cases a.perform r.table r.op now <;> rfl

end Agent
end Snooping
