import Mathlib.Logic.Basic
import Snooping.Control.Command
import Snooping.Proofs.Decoding

/-! The round trip of everything that is sent as JSON text, kind by kind. -/
namespace Snooping

@[simp]
theorem Ipv4.ofJson?_toJson (ip : Ipv4) : Ipv4.ofJson? ip.toJson = some ip := by
  simp [Ipv4.ofJson?, Ipv4.toJson, Ipv4.ofText?_text]

@[simp]
theorem Mac.ofJson?_toJson (m : Mac) : Mac.ofJson? m.toJson = some m := by
  simp [Mac.ofJson?, Mac.toJson, Mac.ofText_text, Except.toOption]

namespace Field

theorem itemsToJson_eq_map (fields : List Field) : itemsToJson fields = fields.map toJson := by
  induction fields with
  | nil => rfl
  | cons f rest ih => rw [itemsToJson, ih, List.map_cons]

/-- Every field but a reference is one scalar under its name. -/
theorem toJson_cases (f : Field) : (∃ table key, f = .reference table key) ∨ ∃ tag j,
    f.toJson = .obj [(tag, j)] ∧ tag ≠ "reference" ∧ j.depth = 0 ∧ j.IsExact ∧
      plainOfJson? tag j = some f := by
  cases f with
  | reference table key => exact .inl ⟨table, key, rfl⟩
  | _ => exact .inr ⟨_, _, rfl, by decide, rfl, by simp [Ipv4.toJson, Mac.toJson],
      by simp [plainOfJson?]⟩

mutual

theorem exact_toJson (f : Field) : f.toJson.IsExact := by
  obtain ⟨table, key, rfl⟩ | ⟨tag, j, hj, -, -, hx, -⟩ := toJson_cases f
  · have hk := exact_itemsToJson key
    simpa [toJson] using hk
  · simp [hj, hx]

theorem exact_itemsToJson (fields : List Field) : ∀ j ∈ itemsToJson fields, j.IsExact := by
  cases fields with
  | nil => simp [itemsToJson]
  | cons f rest =>
    have hf := exact_toJson f
    have hr := exact_itemsToJson rest
    simpa [itemsToJson] using ⟨hf, hr⟩

end

theorem ofJson?_plain {tag : String} (h : tag ≠ "reference") (room : Nat) (j : Json) :
    ofJson? room (.obj [(tag, j)]) = if 0 < room then plainOfJson? tag j else none := by
  match room with
  | 0 | 1 | 2 => simp [ofJson?]
  | room + 3 => simp [ofJson?, h]

theorem depth_reference_le (table : String) (key : List Field) (room : Nat) :
    (reference table key).toJson.depth ≤ room ↔
      3 ≤ room ∧ ∀ f ∈ key, f.toJson.depth ≤ room - 3 := by
  have h : 3 ≤ room ↔ 0 < room ∧ 0 < room - 1 ∧ 0 < room - 1 - 1 := by omega
  have hs : room - 1 - 1 - 1 = room - 3 := by omega
  simp [toJson, itemsToJson_eq_map, h, hs, and_assoc]

theorem ofJson?_toJson (room : Nat) (f : Field) :
    ofJson? room f.toJson = if f.toJson.depth ≤ room then some f else none := by
  induction room using Nat.strongRecOn generalizing f with
  | ind room ih =>
    obtain ⟨table, key, rfl⟩ | ⟨tag, j, hj, ht, hd, -, hp⟩ := toJson_cases f
    · simp only [depth_reference_le]
      match room with
      | 0 | 1 | 2 => simp [toJson, ofJson?, plainOfJson?]
      | room + 3 =>
        -- The key lies three containers in, and so do the fields of its own.
        have hm := Json.mapM_read (ih room (by omega)) key
        simp [toJson, itemsToJson_eq_map, ofJson?, Json.single?, Json.items?, hm, Json.bind_if]
    · simp [hj, ofJson?_plain ht, hd, hp]

theorem inverts_decoder : decoder.Inverts toJson where
  exact := exact_toJson
  read _ room f := ofJson?_toJson room f

theorem inverts_listDecoder : listDecoder.Inverts listToJson := by
  have h : listToJson = fun fields => .array (fields.map toJson) := by
    funext fields
    rw [listToJson, itemsToJson_eq_map]
  rw [h]
  exact Json.inverts_listOf inverts_decoder

end Field

theorem TableId.inverts_decoder : TableId.decoder.Inverts TableId.toJson :=
  Json.inverts_nameOf TableId.ofName?_name

theorem ErrorCode.inverts_decoder : ErrorCode.decoder.Inverts ErrorCode.toJson :=
  Json.inverts_nameOf ErrorCode.ofName?_name

theorem Disposition.inverts_decoder : Disposition.decoder.Inverts Disposition.toJson :=
  Json.inverts_nameOf Disposition.ofName?_name

namespace TableOp

/-- The members behind the name of the operation. -/
def content : TableOp → List (String × Json)
  | .add key value | .modify key value =>
    [("key", Field.listToJson key), ("value", Field.listToJson value)]
  | .delete key | .getStats key => [("key", Field.listToJson key)]

theorem members_eq (op : TableOp) : op.members = ("op", .str op.kind.name) :: op.content := by
  cases op <;> rfl

theorem content?_content (room : Nat) (op : TableOp) :
    content? op.kind room (.obj op.content) =
      if (Json.obj op.content).depth ≤ room then some op else none := by
  have h := Field.inverts_listDecoder.read true (room - 1)
  cases op <;>
    simp [content?, content, kind, Json.single?, h, Json.bind_if, Json.withDefault, ite_and]

theorem exact_content (op : TableOp) : ∀ m ∈ op.content, m.2.IsExact := by
  have h := Field.inverts_listDecoder.exact
  cases op <;> simp [content, h]

theorem op_not_mem_content (op : TableOp) : ∀ m ∈ op.content, m.1 ≠ "op" := by
  cases op <;> simp [content]

theorem table_not_mem_members (op : TableOp) : ∀ m ∈ op.members, m.1 ≠ "table" := by
  cases op <;> simp [members]

theorem exact_members (op : TableOp) : ∀ m ∈ op.members, m.2.IsExact := by
  have h := exact_content op
  simpa [members_eq] using h

end TableOp

namespace TableRequest

theorem depth_le (r : TableRequest) (room : Nat) :
    r.toJson.depth ≤ room ↔ 0 < room ∧ ∀ m ∈ r.op.members, m.2.depth ≤ room - 1 := by
  simp [toJson, TableId.toJson]

theorem content_depth_le (r : TableRequest) (room : Nat) :
    (Json.obj r.op.content).depth ≤ room ↔ r.toJson.depth ≤ room := by
  simp [depth_le, TableOp.members_eq]

theorem inverts_decoder : decoder.Inverts toJson where
  exact r := by
    have h := TableOp.exact_members r.op
    simpa [toJson, TableId.toJson] using h
  read held room r := by
    have ht : TableId.decoder held (room - 1) r.table.toJson = some r.table :=
      (TableId.inverts_decoder.read held (room - 1) r.table).trans (if_pos (Nat.zero_le _))
    have hs := Json.tagged?_cons r.table.toJson (TableOp.table_not_mem_members r.op)
    have ho := Json.tagged?_cons (.str r.op.kind.name) (TableOp.op_not_mem_content r.op)
    have hk : opKind? (.str r.op.kind.name) = some r.op.kind := TableOp.Kind.ofName?_name _
    have hc := TableOp.content?_content room r.op
    simp only [content_depth_le] at hc
    rw [← TableOp.members_eq] at ho
    by_cases hr : 0 < room
    · -- Holding the members asks for as much room as reading them does.
      have hh : r.op.members.all (·.2.isHoldable (room - 1)) = decide (r.toJson.depth ≤ room) := by
        rw [Bool.eq_iff_iff, List.all_eq_true, decide_eq_true_iff, depth_le, and_iff_right hr]
        exact forall₂_congr fun m hm => Json.isHoldable_iff _ _ (TableOp.exact_members r.op m hm)
      have hj : r.toJson = .obj (("table", r.table.toJson) :: r.op.members) := rfl
      rw [decoder, hj, Json.members?_obj, if_pos hr, ← hj]
      simp only [Option.bind_eq_bind, Option.bind_some, hs, ht, hh, ho, hk, hc]
      by_cases hd : r.toJson.depth ≤ room <;> cases held <;> simp [hd]
    · simp [decoder, toJson, hr]

end TableRequest

theorem TableResponse.inverts_decoder : TableResponse.decoder.Inverts TableResponse.toJson where
  exact r := by
    cases r <;> simp [toJson, ErrorCode.inverts_decoder.exact, Field.inverts_listDecoder.exact]
  read held room r := by
    cases r with
    | ok => simp [decoder, toJson, Json.isUnit]
    | stats fields =>
      have h := Field.inverts_listDecoder.read held (room - 1) fields
      simp [decoder, toJson, Json.bind_if, h, ite_and]
    | error code message =>
      have h := ErrorCode.inverts_decoder.read held (room - 2) code
      have hd : code.toJson.depth = 0 := rfl
      simp [decoder, toJson, Json.bind_if, Json.single?, h, hd, ite_and]

theorem exact_bytes (bs : Bytes) : (bytesToJson bs).IsExact := by
  simp [bytesToJson]

theorem depth_bytes_le (bs : Bytes) (room : Nat) : (bytesToJson bs).depth ≤ room ↔ 0 < room := by
  simp [bytesToJson]

theorem bytes?_bytesToJson (bs : Bytes) (room : Nat) :
    (bytesToJson bs).bytes? room = if 0 < room then some bs else none := by
  have h : (bs.map fun b => Json.nat b.toNat).mapM Json.uint8? = some bs := by
    have hb (b : UInt8) : (Json.nat b.toNat).uint8? =
        if (Json.nat b.toNat).depth ≤ 0 then some b else none := by
      simp
    simpa using Json.mapM_read hb bs
  by_cases hr : 0 < room <;> simp [bytesToJson, Json.bytes?, Json.items?, hr, h]

theorem IdleNotification.inverts_decoder :
    IdleNotification.decoder.Inverts IdleNotification.toJson where
  exact n := by
    cases hg : n.group <;> simp [toJson, hg, TableId.inverts_decoder.exact, Ipv4.toJson]
  read held room n := by
    have h := TableId.inverts_decoder.read held (room - 1) n.table
    have hd : n.table.toJson.depth = 0 := rfl
    obtain ⟨table, name, vlan, group⟩ := n
    cases group with
    | none => simp [decoder, toJson, Json.single?, Json.optional, Json.bind_if, h, hd]
    | some ip =>
      have hi : ip.toJson.depth = 0 := rfl
      have ho : Json.optional Ipv4.ofJson? (some ip.toJson) = some (some ip) := by
        change (Ipv4.ofJson? ip.toJson).map some = _
        rw [Ipv4.ofJson?_toJson, Option.map_some]
      simp [decoder, toJson, Json.single?, ho, Json.bind_if, h, hd, hi]

theorem ControllerMessage.inverts_decoder :
    ControllerMessage.decoder.Inverts ControllerMessage.toJson where
  exact m := by
    cases m with
    | idleNotification n => simp [toJson, IdleNotification.inverts_decoder.exact]
  read held room m := by
    cases m with
    | idleNotification n =>
      have h := IdleNotification.inverts_decoder.read held (room - 1) n
      rw [decoder, toJson, Json.variant?_obj]
      by_cases hr : 0 < room
      · -- The name is known, which decides the match on it.
        rw [if_pos hr]
        change (IdleNotification.decoder held (room - 1) n.toJson).bind
          (fun n => some (idleNotification n)) = _
        simp [h, Json.bind_if, hr]
      · simp [hr]

theorem OutboundFrame.inverts_decoder : OutboundFrame.decoder.Inverts OutboundFrame.toJson where
  exact f := by simp [toJson, exact_bytes]
  read held room f := by
    simp [decoder, toJson, Json.single?, Json.bind_if, bytes?_bytesToJson, depth_bytes_le, ite_and]

theorem Outbound.inverts_decoder : Outbound.decoder.Inverts Outbound.toJson where
  exact o := by
    cases o <;> simp [toJson, ControllerMessage.inverts_decoder.exact,
      OutboundFrame.inverts_decoder.exact, exact_bytes]
  read held room o := by
    cases o with
    | controller m =>
      have h := ControllerMessage.inverts_decoder.read held (room - 1) m
      simp [decoder, toJson, Json.bind_if, h, ite_and]
    | packetIn inPort frame =>
      have hs : room - 1 - 1 = room - 2 := by omega
      simp [decoder, toJson, Json.single?, Json.bind_if, bytes?_bytesToJson, depth_bytes_le,
        hs, ite_and]
    | packetOut f =>
      have h := OutboundFrame.inverts_decoder.read held (room - 1) f
      simp [decoder, toJson, Json.bind_if, h, ite_and]

namespace Control.Command

def name : Command → String
  | .table _ => "table"
  | .packetIn _ _ => "packet_in"
  | .controllerConnected _ => "controller_connected"
  | .controllerDisconnected => "controller_disconnected"
  | .subscribe => "subscribe"
  | .ping => "ping"

/-- The members behind the name of the command. -/
def content : Command → List (String × Json)
  | .table r => [("request", r.toJson)]
  | .packetIn inPort frame => [("in_port", .nat inPort.toNat), ("frame", bytesToJson frame)]
  | .controllerConnected version => [("version", .nat version.toNat)]
  | .controllerDisconnected | .subscribe | .ping => []

theorem members_eq (c : Command) : c.members = ("command", .str c.name) :: c.content := by
  cases c <;> rfl

theorem command_not_mem_content (c : Command) : ∀ m ∈ c.content, m.1 ≠ "command" := by
  cases c <;> simp [content]

theorem exact_content (c : Command) : ∀ m ∈ c.content, m.2.IsExact := by
  cases c <;> simp [content, TableRequest.inverts_decoder.exact, exact_bytes]

theorem depth_le (c : Command) (room : Nat) :
    c.toJson.depth ≤ room ↔ (Json.obj c.content).depth ≤ room := by
  simp [toJson, members_eq]

theorem plain?_obj (c : Command) (members : List (String × Json)) :
    plain? c (.obj members) = some c := rfl

theorem content?_content {room : Nat} (h : 0 < room) (c : Command) :
    content? c.name room (.obj c.content) = if c.toJson.depth ≤ room then some c else none := by
  simp only [depth_le]
  cases c with
  | table r =>
    have hr := TableRequest.inverts_decoder.read true (room - 1) r
    simp [content?, content, name, h, Json.single?, Json.bind_if, hr]
  | packetIn inPort frame =>
    simp [content?, content, name, h, Json.single?, Json.bind_if, bytes?_bytesToJson,
      depth_bytes_le]
  | controllerConnected version =>
    simp [content?, content, name, h, Json.single?]
  | _ => simp [content?, content, name, h, plain?_obj]

theorem exact_toJson (c : Command) : c.toJson.IsExact := by
  have h := exact_content c
  simpa [toJson, members_eq] using h

/-- A written command is an object, so its name is among the members. -/
theorem decoder_toJson (held : Bool) (room : Nat) (c : Command) :
    decoder held room c.toJson =
      if !held && !c.toJson.isHoldable room then none
      else (do
        let (tag, rest) ← Json.tagged? "command" (← c.toJson.members? room)
        content? (← tag.string?) room (.obj rest)) := by
  rw [decoder]
  · split <;> rfl
  · intro head tail h
    cases h

theorem inverts_decoder : decoder.Inverts toJson where
  exact := exact_toJson
  read held room c := by
    have hh : c.toJson.isHoldable room = decide (c.toJson.depth ≤ room) := by
      rw [Bool.eq_iff_iff, decide_eq_true_iff, Json.isHoldable_iff _ _ (exact_toJson c)]
    have hs := Json.tagged?_cons (.str c.name) (command_not_mem_content c)
    rw [← members_eq] at hs
    have hm : c.toJson.members? room = if 0 < room then some c.members else none :=
      Json.members?_obj
    by_cases hr : 0 < room
    · have hc := content?_content hr c
      rw [decoder_toJson, hh, hm, if_pos hr]
      simp only [Option.bind_eq_bind, Option.bind_some, hs, Json.string?_str, hc]
      by_cases hd : c.toJson.depth ≤ room <;> cases held <;> simp [hd]
    · have hd : ¬ c.toJson.depth ≤ room := by
        rw [depth_le, Json.depth_obj_le]
        exact fun h => hr h.1
      rw [decoder_toJson, hm, if_neg hr, if_neg hd]
      split <;> rfl

end Control.Command

theorem Control.Reply.inverts_decoder : Reply.decoder.Inverts Reply.toJson where
  exact r := by
    cases r <;> simp [toJson, TableResponse.inverts_decoder.exact,
      Disposition.inverts_decoder.exact, Outbound.inverts_decoder.exact]
  read held room r := by
    cases r with
    | table r =>
      have h := TableResponse.inverts_decoder.read held (room - 1) r
      simp [decoder, toJson, Json.bind_if, h, ite_and]
    | disposition d =>
      have h := Disposition.inverts_decoder.read held (room - 1) d
      simp [decoder, toJson, Json.bind_if, h, ite_and]
    | event e =>
      have h := Outbound.inverts_decoder.read held (room - 1) e
      simp [decoder, toJson, Json.bind_if, h, ite_and]
    | error message => simp [decoder, toJson, Json.bind_if]
    | _ => simp [decoder, toJson, Json.isUnit]

/-- Every message is read back from its text as it was sent, unless it nests more containers than
may be entered; then nothing is read. -/
theorem wire_round_trip :
    (∀ f : Field, Json.decode Field.decoder f.toJson.text =
      if f.toJson.depth ≤ 127 then some f else none) ∧
    (∀ r : TableRequest, Json.decode TableRequest.decoder r.toJson.text =
      if r.toJson.depth ≤ 127 then some r else none) ∧
    (∀ r : TableResponse, Json.decode TableResponse.decoder r.toJson.text =
      if r.toJson.depth ≤ 127 then some r else none) ∧
    (∀ m : ControllerMessage, Json.decode ControllerMessage.decoder m.toJson.text =
      if m.toJson.depth ≤ 127 then some m else none) ∧
    (∀ o : Outbound, Json.decode Outbound.decoder o.toJson.text =
      if o.toJson.depth ≤ 127 then some o else none) ∧
    (∀ c : Control.Command, Json.decode Control.Command.decoder c.toJson.text =
      if c.toJson.depth ≤ 127 then some c else none) ∧
    ∀ r : Control.Reply, Json.decode Control.Reply.decoder r.toJson.text =
      if r.toJson.depth ≤ 127 then some r else none := by
  refine ⟨?_, ?_, ?_, ?_, ?_, ?_, ?_⟩
  · exact Field.inverts_decoder.decode_text
  · exact TableRequest.inverts_decoder.decode_text
  · exact TableResponse.inverts_decoder.decode_text
  · exact ControllerMessage.inverts_decoder.decode_text
  · exact Outbound.inverts_decoder.decode_text
  · exact Control.Command.inverts_decoder.decode_text
  · exact Control.Reply.inverts_decoder.decode_text

end Snooping
