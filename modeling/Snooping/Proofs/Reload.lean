import Mathlib.Tactic.SplitIfs
import Snooping.Config.Reading
import Snooping.Proofs.Addresses
import Snooping.Proofs.Json5Text

/-!
A configuration that is written is read back as it was, unless one of the two line separators that
JSON does not escape stands in its socket path.
-/
namespace Snooping

open Json5 (isSeparator)

section Addresses

theorem isSeparator_eq_false {c : Char} {p : Char → Bool} (hc : p c = true)
    (hp : p '\u2028' = false ∧ p '\u2029' = false) : isSeparator c = false := by
  have h1 : c ≠ '\u2028' := by rintro rfl; simp [hp.1] at hc
  have h2 : c ≠ '\u2029' := by rintro rfl; simp [hp.2] at hc
  simp [isSeparator, h1, h2]

theorem any_decimal (n : Nat) : (Nat.toDigits 10 n).any isSeparator = false := by
  refine List.any_eq_false.mpr fun c hc => Bool.not_eq_true _ ▸ ?_
  exact isSeparator_eq_false (Text.Decimal.isDigit_of_mem_toDigits hc) (by decide)

theorem Ipv6.any_groups (segments : List UInt16) : (groups segments).any isSeparator = false := by
  refine List.any_eq_false.mpr fun c hc => Bool.not_eq_true _ ▸ ?_
  rcases mem_groups hc with rfl | h
  · decide
  · exact isSeparator_eq_false h (by decide)

theorem Ipv4.any_chars (ip : Ipv4) : ip.chars.any isSeparator = false := by
  have hdot : isSeparator '.' = false := by decide
  simp [chars, any_decimal, hdot]

theorem Ipv6.any_chars (ip : Ipv6) : ip.chars.any isSeparator = false := by
  have hcolon : isSeparator ':' = false := by decide
  have hf : isSeparator 'f' = false := by decide
  unfold chars
  split
  · simp [Ipv4.any_chars, hcolon, hf]
  · dsimp only
    split_ifs <;> simp [any_groups, hcolon]

theorem SocketAddress.any_chars (a : SocketAddress) : a.chars.any isSeparator = false := by
  have h : isSeparator '[' = false ∧ isSeparator ']' = false ∧ isSeparator ':' = false ∧
      isSeparator '%' = false := by decide
  cases a with
  | v4 ip port => simp [chars, Ipv4.any_chars, any_decimal, h]
  | v6 ip scope port =>
    simp only [chars]
    split_ifs <;> simp [Ipv6.any_chars, any_decimal, h]

end Addresses

/-- A row of a key that is not there yet is added behind the others. -/
theorem Rows.toList_insert {κ α : Type} [DecidableEq κ] {r : Rows κ α} {k : κ} (h : k ∉ r.keys)
    (a : α) : (r.insert k a).toList = r.toList ++ [(k, a)] := by
  rw [insert, dif_neg h]

section Objects

namespace Json5

/-- An object whose names are whole and quoted. -/
def obj (members : List (String × Json5)) : Json5 :=
  .object (members.map fun (k, j) => (⟨some k, true⟩, j))

end Json5

variable {members : List (String × Json)}

theorem Json.toJson5?_str (s : String) : (Json.str s).toJson5? =
    if s.toList.any isSeparator then none else some (.string (some s)) := by
  simp only [Json.str, Json.toJson5?, Json.Text.toJson5?, Option.getD_some]
  split_ifs <;> rfl

/-- A member whose name is read as it is written. -/
def Json.memberToJson5? (m : String × Json) : Option (String × Json5) :=
  m.2.toJson5?.map fun j => (m.1, j)

theorem Json.toJson5?_obj (h : ∀ k ∈ members.map Prod.fst, k.toList.any isSeparator = false) :
    (Json.obj members).toJson5? = (members.mapM Json.memberToJson5?).map Json5.obj := by
  have hm : Json.membersToJson5? (members.map fun m => (some m.1, m.2)) =
      (members.mapM Json.memberToJson5?).map
        (List.map fun m => (⟨some m.1, true⟩, m.2)) := by
    induction members with
    | nil => rfl
    | cons m rest ih =>
      obtain ⟨hk, hr⟩ := List.forall_mem_cons.mp h
      rw [List.map_cons, Json.membersToJson5?, ih hr, List.mapM_cons, Json.Text.toJson5?]
      cases hj : m.2.toJson5? <;> cases hms : rest.mapM Json.memberToJson5? <;>
        simp [hk, hj, Json.memberToJson5?]
  have ho : (Json.obj members).toJson5? =
      (Json.membersToJson5? (members.map fun m => (some m.1, m.2))).map .object := by
    rw [← Json.toJson5?]
    rfl
  rw [ho, hm, Option.map_map]
  rfl

namespace Json5

variable {members : List (String × Json5)}

theorem fields?_obj {names : List String} (h : ∀ m ∈ members, m.1 ∈ names) :
    (obj members).fields? names = names.mapM (Json.single? members) := by
  have hm : members? (members.map fun m => (⟨some m.1, true⟩, m.2)) = some members := by
    clear h
    induction members with
    | nil => rfl
    | cons m rest ih =>
      rw [members?] at ih
      rw [List.map_cons, members?, List.mapM_cons, ih]
      rfl
  have ho : (obj members).fields? names = (do
      let members ← members? (members.map fun m => (⟨some m.1, true⟩, m.2))
      if members.all fun (k, j) => k ∈ names || j.isHoldable then
        names.mapM (Json.single? members)
      else failure) := rfl
  have ha : (members.all fun (k, j) => k ∈ names || j.isHoldable) = true := by
    simp only [List.all_eq_true, Bool.or_eq_true, decide_eq_true_eq]
    exact fun m hm => .inl (h m hm)
  rw [ho, hm]
  simp [ha]

/-- What is written for a value is read back as that value. -/
def Inverts {α : Type} (d : Json5 → Option α) (toJson : α → Json) : Prop :=
  ∀ a, (toJson a).toJson5?.bind d = some a

variable {α : Type}

theorem inverts_nameOf {ofName? : String → Option α} {name : α → String}
    (h : ∀ a, ofName? (name a) = some a) (hn : ∀ a, (name a).toList.any isSeparator = false) :
    Inverts (nameOf? ofName?) fun a => .str (name a) := by
  intro a
  simp [Json.toJson5?_str, hn, nameOf?, h]

theorem inverts_uint32 : Inverts uint32? fun n => .nat n.toNat := by
  intro n
  have hn : n.toNat ≤ UInt32.size - 1 := Nat.le_of_lt_succ n.toNat_lt
  have hb : UInt32.size - 1 < Text.doubleOverflow := by decide +kernel
  have hf : Text.isFiniteDecimal n.toNat 0 = true := by
    have hlt : n.toNat < Text.doubleOverflow := Nat.lt_of_le_of_lt hn hb
    simp [Text.isFiniteDecimal, hlt]
  have hw : Text.decimalWholePart (UInt32.size - 1) n.toNat 0 = n.toNat := by
    by_cases hz : n.toNat = 0
    · simp [Text.decimalWholePart, hz]
    · simp only [Text.decimalWholePart, if_neg hz]
      simpa using Nat.min_eq_right hn
  have hr : (Json.nat n.toNat).toJson5? = some (.number (.decimal .none n.toNat 0 true)) := rfl
  rw [hr, Option.bind_some, uint32?, Number.uint32?, hf, hw]
  simp

section Rows

variable {κ : Type} [DecidableEq κ] {key? : String → Option κ} {name : κ → String}
  {d : Json5 → Option α} {toJson : α → Json}

theorem rowsOf?_obj (members : List (String × Json5)) : rowsOf? key? d (obj members) =
    members.foldlM (fun rows m => do return rows.insert (← key? m.1) (← d m.2)) .empty := by
  rw [obj, rowsOf?, List.foldlM_map]
  simp

theorem foldlM_rows (hd : Inverts d toJson) (hk : ∀ k, key? (name k) = some k)
    (rows : List (κ × α)) (before : Rows κ α)
    (hn : ((before.toList ++ rows).map Prod.fst).Nodup) : ∃ members r,
      (rows.map fun (k, a) => (name k, toJson a)).mapM Json.memberToJson5? = some members ∧
      members.foldlM (fun rows m => do return rows.insert (← key? m.1) (← d m.2)) before =
        some r ∧ r.toList = before.toList ++ rows := by
  induction rows generalizing before with
  | nil => exact ⟨[], before, rfl, rfl, by simp⟩
  | cons row rest ih =>
    obtain ⟨k, a⟩ := row
    obtain ⟨j, hj, ha⟩ := Option.bind_eq_some_iff.mp (hd a)
    have hnew : k ∉ before.keys := by
      rw [List.map_append, List.nodup_append] at hn
      exact fun hmem => hn.2.2 k hmem k (by simp) rfl
    have hi := Rows.toList_insert hnew a
    obtain ⟨members, r, hm, hr, hl⟩ := ih (before.insert k a) (by simpa [hi] using hn)
    refine ⟨(name k, j) :: members, r, ?_, ?_, by simp [hl, hi]⟩
    · simp [Json.memberToJson5?, hj, hm]
    · simpa [hk, ha] using hr

theorem inverts_rows (hd : Inverts d toJson) (hk : ∀ k, key? (name k) = some k)
    (hn : ∀ k, (name k).toList.any isSeparator = false) :
    Inverts (rowsOf? key? d) (Rows.toJson name toJson) := by
  intro rows
  have hnodup : (((Rows.empty : Rows κ α).toList ++ rows.toList).map Prod.fst).Nodup := rows.nodup
  obtain ⟨members, r, hm, hr, hl⟩ := foldlM_rows hd hk rows.toList .empty hnodup
  have hp : ∀ k ∈ (rows.toList.map fun (k, a) => (name k, toJson a)).map Prod.fst,
      k.toList.any isSeparator = false := by
    intro k hk
    obtain ⟨row, -, rfl⟩ := List.mem_map.mp (List.map_map ▸ hk)
    exact hn row.1
  rw [Rows.toJson, Json.toJson5?_obj hp, hm, Option.map_some, Option.bind_some, rowsOf?_obj, hr]
  exact congrArg some (Rows.ext hl)

end Rows

end Json5

end Objects

theorem Log.Severity.inverts : Json5.Inverts (Json5.nameOf? ofName?) toJson :=
  Json5.inverts_nameOf ofName?_name fun s => by cases s <;> decide

theorem Log.Format.inverts : Json5.Inverts (Json5.nameOf? ofName?) toJson :=
  Json5.inverts_nameOf ofName?_name fun f => by cases f <;> decide

namespace Config

theorem inverts_facilities : Json5.Inverts
    (Json5.rowsOf? Log.Facility.ofName? (Json5.nameOf? Log.Severity.ofName?))
    (Rows.toJson Log.Facility.name Log.Severity.toJson) :=
  Json5.inverts_rows Log.Severity.inverts Log.Facility.ofName?_name fun f => by
    cases f <;> decide

theorem inverts_timeouts : Json5.Inverts (Json5.rowsOf? TimeoutName.ofName? Json5.uint32?)
    (Rows.toJson TimeoutName.name fun ms => .nat ms.toNat) :=
  Json5.inverts_rows Json5.inverts_uint32 TimeoutName.ofName?_name fun n => by
    cases n <;> decide

theorem Logging.inverts : Json5.Inverts ofJson5? toJson := by
  intro l
  obtain ⟨level, hl, hl'⟩ := Option.bind_eq_some_iff.mp (Log.Severity.inverts l.level)
  obtain ⟨format, hf, hf'⟩ := Option.bind_eq_some_iff.mp (Log.Format.inverts l.format)
  obtain ⟨rows, hr, hr'⟩ := Option.bind_eq_some_iff.mp (inverts_facilities l.facilities)
  have hj : l.toJson.toJson5? =
      some (Json5.obj [("level", level), ("format", format), ("facilities", rows)]) := by
    have hn : ∀ k ∈ ["level", "format", "facilities"], k.toList.any isSeparator = false := by
      decide
    rw [toJson, Json.toJson5?_obj]
    · simp [Json.memberToJson5?, hl, hf, hr]
    · exact hn
  rw [hj, Option.bind_some, ofJson5?, Json5.fields?_obj (by simp)]
  simp [Json.single?, Json5.withDefault, hl', hf', hr']

theorem toJson5?_address (a : SocketAddress) :
    (Json.str a.text).toJson5? = some (.string (some a.text)) := by
  simp [Json.toJson5?_str, SocketAddress.text, SocketAddress.any_chars]

/-- The fields as they are read, with those that are no plain text already read. -/
def fields (c : Config) (maxPorts logging timeouts : Json5) : List (String × Json5) :=
  [("control_socket", .string (some c.controlSocket)), ("max_ports", maxPorts),
      ("logging", logging)] ++
    (c.prometheusAddress.map fun a => ("prometheus_addr", .string (some a.text))).toList ++
    [("timeouts", timeouts)]

variable {c : Config} {maxPorts logging timeouts : Json5}

theorem toJson5?_toJson (hp : (Json.nat c.maxPorts.toNat).toJson5? = some maxPorts)
    (hl : c.logging.toJson.toJson5? = some logging)
    (ht : (c.timeouts.toJson TimeoutName.name fun ms => .nat ms.toNat).toJson5? = some timeouts) :
    c.toJson.toJson5? = if c.controlSocket.toList.any isSeparator then none
      else some (.obj (c.fields maxPorts logging timeouts)) := by
  have hn : ∀ k ∈ ["control_socket", "max_ports", "logging", "prometheus_addr", "timeouts"],
      k.toList.any isSeparator = false := by decide
  have hs := Json.toJson5?_str c.controlSocket
  rw [toJson, Json.toJson5?_obj, fields]
  · cases ha : c.prometheusAddress <;> split_ifs at hs ⊢ <;>
      simp [Json.memberToJson5?, hs, hp, hl, ht, toJson5?_address]
  · intro k hk
    refine hn k ?_
    cases ha : c.prometheusAddress with
    | none =>
      have hs : ["control_socket", "max_ports", "logging", "timeouts"] ⊆
          ["control_socket", "max_ports", "logging", "prometheus_addr", "timeouts"] := by simp
      exact hs (by simpa [ha] using hk)
    | some a => simpa [ha] using hk

theorem ofJson5?_fields (hp : maxPorts.uint32? = some c.maxPorts)
    (hl : Logging.ofJson5? logging = some c.logging)
    (ht : Json5.rowsOf? TimeoutName.ofName? Json5.uint32? timeouts = some c.timeouts) :
    ofJson5? (.obj (c.fields maxPorts logging timeouts)) = some c := by
  have hs (s : String) : Json5.string? (.string (some s)) = some s := rfl
  obtain ⟨socket, ports, log, address, rows⟩ := c
  rw [ofJson5?, Json5.fields?_obj]
  · cases address <;>
      simp [fields, Json.single?, Json5.withDefault, Json5.optional, hs, hp, hl, ht,
        SocketAddress.ofText?_text]
  · cases address <;> simp [fields]

theorem ofJson5?_toJson (c : Config) : c.toJson.toJson5?.bind ofJson5? =
    if c.controlSocket.toList.any isSeparator then none else some c := by
  obtain ⟨maxPorts, hp, hp'⟩ := Option.bind_eq_some_iff.mp (Json5.inverts_uint32 c.maxPorts)
  obtain ⟨logging, hl, hl'⟩ := Option.bind_eq_some_iff.mp (Logging.inverts c.logging)
  obtain ⟨timeouts, ht, ht'⟩ := Option.bind_eq_some_iff.mp (inverts_timeouts c.timeouts)
  rw [toJson5?_toJson hp hl ht]
  split_ifs
  · rfl
  · exact ofJson5?_fields hp' hl' ht'

/-- A configuration that is written is read back as it was, in whatever order its rows stand, or
not at all if its socket path holds a separator. -/
theorem text_reloads (c : Config) : ofText? c.text =
    if c.controlSocket.toList.any isSeparator then none else some c := by
  rw [← ofJson5?_toJson, ofText?, text, Json5.ofText?_pretty]
  rfl

/-- An escape brings a separator into the socket path, and it is written without one. -/
theorem separator_not_reloaded : ∃ t c, ofText? t = some c ∧ ofText? c.text = none := by
  refine ⟨"\x7bcontrol_socket: \"\\u2028\"\x7d", { default with controlSocket := "\u2028" },
    by decide +kernel, ?_⟩
  rw [ofText?, text, Json5.ofText?_pretty]
  exact (ofJson5?_toJson _).trans (if_pos (by decide))

end Config

end Snooping
