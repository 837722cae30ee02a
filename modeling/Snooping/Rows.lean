/-! Rows of a table: at most one value per key, in order of first insertion. -/
namespace Snooping

structure Rows (κ α : Type) where
  toList : List (κ × α)
  nodup : (toList.map Prod.fst).Nodup

namespace Rows

variable {κ α : Type}

section Lists
variable [DecidableEq κ]

/-- The value of the first row with key `k`. -/
def value? (k : κ) : List (κ × α) → Option α
  | [] => none
  | (k', a) :: rest => if k' = k then some a else value? k rest

def setValue (k : κ) (a : α) : List (κ × α) → List (κ × α) :=
  List.map fun row => if row.1 = k then (row.1, a) else row

theorem map_fst_setValue (k : κ) (a : α) (l : List (κ × α)) :
    (setValue k a l).map Prod.fst = l.map Prod.fst := by
  simp only [setValue, List.map_map]
  congr 1
  funext row
  by_cases h : row.1 = k <;> simp [h]

theorem value?_eq_none_iff {l : List (κ × α)} {k : κ} :
    value? k l = none ↔ k ∉ l.map Prod.fst := by
  induction l with
  | nil => simp [value?]
  | cons row rest ih =>
    by_cases h : row.1 = k
    · simp [value?, h]
    · simp [value?, h, ih, Ne.symm h]

theorem mem_of_value? {l : List (κ × α)} {k : κ} {a : α} (h : value? k l = some a) :
    (k, a) ∈ l := by
  induction l with
  | nil => simp [value?] at h
  | cons row rest ih => grind [value?]

theorem value?_setValue (l : List (κ × α)) (k k' : κ) (a : α) :
    value? k' (setValue k a l) = if k' = k then (value? k' l).map fun _ => a else value? k' l := by
  induction l with
  | nil => simp [value?, setValue]
  | cons row rest ih =>
    simp only [setValue, List.map_cons] at ih ⊢
    by_cases h₀ : row.1 = k <;> by_cases h : row.1 = k' <;> grind [value?]

theorem value?_append_of_none {l m : List (κ × α)} {k : κ} (h : value? k l = none) :
    value? k (l ++ m) = value? k m := by
  induction l with
  | nil => rfl
  | cons row rest ih => grind [value?]

theorem value?_append_of_some {l m : List (κ × α)} {k : κ} {a : α} (h : value? k l = some a) :
    value? k (l ++ m) = some a := by
  induction l with
  | nil => simp [value?] at h
  | cons row rest ih => grind [value?]

theorem value?_map {β : Type} (f : α → β) (l : List (κ × α)) (k : κ) :
    value? k (l.map fun row => (row.1, f row.2)) = (value? k l).map f := by
  induction l with
  | nil => rfl
  | cons row rest ih => grind [value?]

theorem setValue_setValue (k : κ) (a b : α) (l : List (κ × α)) :
    setValue k b (setValue k a l) = setValue k b l := by
  simp only [setValue, List.map_map]
  refine List.map_congr_left fun row _ => ?_
  by_cases h : row.1 = k <;> simp [h]

theorem value?_filter_ne (l : List (κ × α)) (k k' : κ) :
    value? k' (l.filter fun row => row.1 ≠ k) = if k' = k then none else value? k' l := by
  induction l with
  | nil => simp [value?]
  | cons row rest ih => grind [value?]

end Lists

def empty : Rows κ α := ⟨[], List.nodup_nil⟩

instance : Inhabited (Rows κ α) := ⟨empty⟩

theorem ext {r s : Rows κ α} (h : r.toList = s.toList) : r = s := by
  cases r
  cases s
  simp_all

instance [DecidableEq κ] [DecidableEq α] : DecidableEq (Rows κ α) := fun r s =>
  decidable_of_iff (r.toList = s.toList) ⟨ext, fun h => h ▸ rfl⟩

def keys (r : Rows κ α) : List κ := r.toList.map Prod.fst

def size (r : Rows κ α) : Nat := r.toList.length

def isEmpty (r : Rows κ α) : Bool := r.toList.isEmpty

/-- The same rows with other values. -/
def mapValues {β : Type} (f : α → β) (r : Rows κ α) : Rows κ β where
  toList := r.toList.map fun row => (row.1, f row.2)
  nodup := by
    rw [List.map_map]
    exact r.nodup

variable [DecidableEq κ]

def find? (r : Rows κ α) (k : κ) : Option α := value? k r.toList

def contains (r : Rows κ α) (k : κ) : Bool := (r.find? k).isSome

/-- Sets the value of `k`, in its place if it has one and at the end if not. -/
def insert (r : Rows κ α) (k : κ) (a : α) : Rows κ α :=
  if h : k ∈ r.keys then ⟨setValue k a r.toList, by rw [map_fst_setValue]; exact r.nodup⟩
  else
    { toList := r.toList ++ [(k, a)]
      nodup := by
        rw [List.map_append, List.nodup_append]
        refine ⟨r.nodup, by simp, ?_⟩
        intro x hx y hy hxy
        simp only [List.map_cons, List.map_nil, List.mem_singleton] at hy
        exact h (by rw [← hy, ← hxy]; exact hx) }

def erase (r : Rows κ α) (k : κ) : Rows κ α where
  toList := r.toList.filter fun row => row.1 ≠ k
  nodup := r.nodup.sublist (List.filter_sublist.map Prod.fst)

theorem find?_empty (k : κ) : (empty : Rows κ α).find? k = none := rfl

theorem find?_eq_none_iff {r : Rows κ α} {k : κ} : r.find? k = none ↔ k ∉ r.keys :=
  value?_eq_none_iff

theorem mem_of_find? {r : Rows κ α} {k : κ} {a : α} (h : r.find? k = some a) :
    (k, a) ∈ r.toList :=
  mem_of_value? h

theorem find?_insert (r : Rows κ α) (k k' : κ) (a : α) :
    (r.insert k a).find? k' = if k' = k then some a else r.find? k' := by
  unfold insert
  by_cases hk : k ∈ r.keys
  · rw [dif_pos hk]
    simp only [find?, value?_setValue]
    split
    · rename_i h
      have : value? k' r.toList ≠ none := by
        rw [Ne, value?_eq_none_iff, h]
        exact fun hn => hn hk
      obtain ⟨b, hb⟩ := Option.ne_none_iff_exists'.mp this
      simp [hb]
    · rfl
  · rw [dif_neg hk]
    have hn := find?_eq_none_iff.mpr hk
    simp only [find?] at hn ⊢
    by_cases h : k' = k
    · subst h
      simp [value?_append_of_none hn, value?]
    · rw [if_neg h]
      cases hv : value? k' r.toList with
      | none => simp [value?_append_of_none hv, value?, Ne.symm h]
      | some b => exact value?_append_of_some hv

theorem find?_erase (r : Rows κ α) (k k' : κ) :
    (r.erase k).find? k' = if k' = k then none else r.find? k' :=
  value?_filter_ne r.toList k k'

theorem erase_of_find?_none {r : Rows κ α} {k : κ} (h : r.find? k = none) : r.erase k = r := by
  have hk := find?_eq_none_iff.mp h
  refine Rows.ext (List.filter_eq_self.mpr fun row hrow => ?_)
  have hne : row.1 ≠ k := fun he => hk (he ▸ List.mem_map_of_mem hrow)
  simpa using hne

/-- Of two writes to a row that is there, the first is lost. -/
theorem insert_insert {r : Rows κ α} {k : κ} {a : α} (h : r.find? k = some a) (b c : α) :
    (r.insert k b).insert k c = r.insert k c := by
  have hk : k ∈ r.keys := List.mem_map_of_mem (mem_of_find? h)
  have hkeys : k ∈ (r.insert k b).keys := by
    rw [insert, dif_pos hk, keys, map_fst_setValue]
    exact hk
  apply Rows.ext
  rw [insert, dif_pos hkeys, insert, dif_pos hk, insert, dif_pos hk]
  exact setValue_setValue k b c r.toList

theorem find?_mapValues {β : Type} (f : α → β) (r : Rows κ α) (k : κ) :
    (r.mapValues f).find? k = (r.find? k).map f :=
  value?_map f r.toList k

end Rows
end Snooping
