import Snooping.Json.Decode
import Snooping.Proofs.JsonText

/-!
Decoders against encoders. A decoder inverts an encoder if it reads back every value whose encoding
nests no deeper than there is room, and refuses the others.
-/
namespace Snooping.Json

variable {α : Type} {d : Decoder α} {toJson : α → Json}

/-- What is written is exact, and it is read back if there is room for its depth. -/
structure Decoder.Inverts (d : Decoder α) (toJson : α → Json) : Prop where
  exact : ∀ a, (toJson a).IsExact
  read : ∀ held room a, d held room (toJson a) = if (toJson a).depth ≤ room then some a else none

theorem Decoder.Inverts.decode_text (h : d.Inverts toJson) (a : α) :
    decode d (toJson a).text = if (toJson a).depth ≤ maxDepth then some a else none := by
  rw [decode, ofText?_text (h.exact a), ← h.read false]
  rfl

theorem bind_if {β γ : Type} {p : Prop} [Decidable p] (b : β) (f : β → Option γ) :
    (if p then some b else none).bind f = if p then f b else none := by
  split <;> rfl

section Objects

variable {members : List (String × Json)} {room : Nat}

@[simp]
theorem isExact_str (s : String) : (str s).IsExact := rfl

theorem isExact_nat {n : Nat} (h : n < UInt64.size) : (nat n).IsExact := h

@[simp]
theorem isExact_uint8 (n : UInt8) : (nat n.toNat).IsExact :=
  isExact_nat (Nat.lt_trans (UInt8.toNat_lt n) (by decide))

@[simp]
theorem isExact_uint16 (n : UInt16) : (nat n.toNat).IsExact :=
  isExact_nat (Nat.lt_trans (UInt16.toNat_lt n) (by decide))

@[simp]
theorem isExact_uint32 (n : UInt32) : (nat n.toNat).IsExact :=
  isExact_nat (Nat.lt_trans (UInt32.toNat_lt n) (by decide))

@[simp]
theorem isExact_uint64 (n : UInt64) : (nat n.toNat).IsExact := isExact_nat (UInt64.toNat_lt n)

@[simp]
theorem isExact_array {items : List Json} : (array items).IsExact ↔ ∀ j ∈ items, j.IsExact := by
  induction items with
  | nil => simp [IsExact, ItemsExact]
  | cons j rest ih => simpa [IsExact, ItemsExact] using fun _ => ih

@[simp]
theorem isExact_obj : (obj members).IsExact ↔ ∀ m ∈ members, m.2.IsExact := by
  induction members with
  | nil => simp [obj, IsExact, MembersExact]
  | cons m rest ih => simpa [obj, IsExact, MembersExact] using fun _ => ih

@[simp]
theorem depth_str (s : String) : (str s).depth = 0 := rfl

@[simp]
theorem depth_nat (n : Nat) : (nat n).depth = 0 := rfl

@[simp]
theorem depth_array_le {items : List Json} :
    (array items).depth ≤ room ↔ 0 < room ∧ ∀ j ∈ items, j.depth ≤ room - 1 := by
  have h : itemsDepth items ≤ room - 1 ↔ ∀ j ∈ items, j.depth ≤ room - 1 := by
    induction items with
    | nil => simp [itemsDepth]
    | cons j rest ih => rw [itemsDepth, Nat.max_le, ih, List.forall_mem_cons]
  rw [← h, depth]
  omega

@[simp]
theorem depth_obj_le : (obj members).depth ≤ room ↔
    0 < room ∧ ∀ m ∈ members, m.2.depth ≤ room - 1 := by
  have h : membersDepth (members.map fun m => (some m.1, m.2)) ≤ room - 1 ↔
      ∀ m ∈ members, m.2.depth ≤ room - 1 := by
    induction members with
    | nil => simp [membersDepth]
    | cons m rest ih => rw [List.map_cons, membersDepth, Nat.max_le, ih, List.forall_mem_cons]
  have hd : (obj members).depth = membersDepth (members.map fun m => (some m.1, m.2)) + 1 := rfl
  rw [← h, hd]
  omega

@[simp]
theorem string?_str (s : String) : (str s).string? = some s := rfl

@[simp]
theorem uint8?_nat (n : UInt8) : (nat n.toNat).uint8? = some n := by
  simp [uint8?, natBelow?, nat, UInt8.toNat_lt n]

@[simp]
theorem uint16?_nat (n : UInt16) : (nat n.toNat).uint16? = some n := by
  simp [uint16?, natBelow?, nat, UInt16.toNat_lt n]

@[simp]
theorem uint32?_nat (n : UInt32) : (nat n.toNat).uint32? = some n := by
  simp [uint32?, natBelow?, nat, UInt32.toNat_lt n]

@[simp]
theorem uint64?_nat (n : UInt64) : (nat n.toNat).uint64? = some n := by
  simp [uint64?, natBelow?, nat, UInt64.toNat_lt n]

@[simp]
theorem members?_obj : (obj members).members? room = if 0 < room then some members else none := by
  have h : (members.map fun m => (some m.1, m.2)).mapM
      (fun m => m.1.map fun (k : String) => (k, m.2)) = some members := by
    induction members with
    | nil => rfl
    | cons m rest ih =>
      rw [List.map_cons, List.mapM_cons, ih]
      rfl
  rw [← h]
  rfl

@[simp]
theorem fields?_obj (names : List String) : (obj members).fields? names room =
    if 0 < room then names.mapM (single? members) else none := by
  have h : (obj members).members? room = if 0 < room then some members else none := members?_obj
  rw [fields?]
  · rw [h]
    split <;> rfl
  · intro items h
    cases h

@[simp]
theorem variant?_str (s : String) : (str s).variant? room = some (s, none) := rfl

@[simp]
theorem variant?_obj (tag : String) (j : Json) : (obj [(tag, j)]).variant? room =
    if 0 < room then some (tag, some j) else none := rfl

/-- The member of that name is split off if it comes first. -/
theorem tagged?_cons {tag : String} (j : Json) (h : ∀ m ∈ members, m.1 ≠ tag) :
    tagged? tag ((tag, j) :: members) = some (j, members) := by
  have hn : members.filter (fun m => m.1 = tag) = [] := by simpa using h
  simp only [tagged?, single?, List.filter_cons_of_pos, decide_true, hn]
  simpa using fun a b hm => h (a, b) hm

theorem inverts_nameOf {ofName? : String → Option α} {name : α → String}
    (h : ∀ a, ofName? (name a) = some a) : (nameOf ofName?).Inverts (fun a => str (name a)) where
  exact a := isExact_str _
  read held room a := by simp [nameOf, isUnit, h]

/-- A list is read if each of its items is. -/
theorem mapM_read {read : Json → Option α}
    (h : ∀ a, read (toJson a) = if (toJson a).depth ≤ room then some a else none) (as : List α) :
    (as.map toJson).mapM read = if ∀ a ∈ as, (toJson a).depth ≤ room then some as else none := by
  induction as with
  | nil => rfl
  | cons a rest ih =>
    rw [List.map_cons, List.mapM_cons, h, ih]
    by_cases ha : (toJson a).depth ≤ room <;> simp [ha]
    split <;> rfl

theorem inverts_listOf (h : d.Inverts toJson) :
    (listOf d).Inverts fun as => .array (as.map toJson) where
  exact as := by simp [h.exact]
  read held room as := by
    have hm := mapM_read (h.read held (room - 1)) as
    by_cases hr : 0 < room <;> simp [listOf, items?, hr, hm]

end Objects
end Snooping.Json
