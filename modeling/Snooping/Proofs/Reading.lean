import Snooping.Table.Reading

/-! When a computation that may refuse succeeds, one step at a time. -/
namespace Snooping

section Refusal

variable {ε α β : Type}

theorem bind_eq_ok_iff {x : Except ε α} {f : α → Except ε β} {b : β} :
    x >>= f = .ok b ↔ ∃ a, x = .ok a ∧ f a = .ok b := by
  cases x with
  | error e => simp [bind, Except.bind]
  | ok a => simp [bind, Except.bind]

theorem pure_eq_ok_iff {a b : α} : (pure a : Except ε α) = .ok b ↔ a = b := by
  simp [pure, Except.pure]

/-- A guard that refuses under `p`, with what comes after it. -/
theorem guard_eq_ok_iff {p : Prop} [Decidable p] {e : ε} {f : PUnit → Except ε β} {b : β} :
    (if p then throw e >>= f else f ⟨⟩) = .ok b ↔ ¬ p ∧ f ⟨⟩ = .ok b := by
  by_cases hp : p
  · simp [hp, throw, throwThe, MonadExceptOf.throw, bind, Except.bind]
  · simp [hp]

theorem toOption_eq_some_iff {x : Except ε α} {a : α} : x.toOption = some a ↔ x = .ok a := by
  cases x <;> simp [Except.toOption]

variable {α' γ δ : Type} {x : Except ε α} {k : α → Except ε δ} {k' : α → Except ε γ}
  {l : α' → Except ε δ} {f : γ → δ} {h : α → α'}

theorem bind_map (hk : ∀ a, k a = (k' a).map f) : (x >>= k) = (x >>= k').map f := by
  cases x with
  | error e => rfl
  | ok a => exact hk a

theorem map_bind_map (hk : ∀ a, l (h a) = (k' a).map f) : (x.map h >>= l) = (x >>= k').map f := by
  cases x with
  | error e => rfl
  | ok a => exact hk a

end Refusal

namespace Reading

variable {α β : Type} {r : Reading α} {f : α → Reading β} {fields rest : List Field} {a : α} {b : β}

theorem all_eq_ok_iff : r.all fields = .ok a ↔ r fields = (.ok a, []) := by
  unfold all
  split
  · rename_i b rest h
    cases rest <;> simp [h, finish, Except.map]
  · rename_i e _ h
    simp [h]

theorem bind_eq_ok_iff : (r >>= f) fields = (.ok b, rest) ↔
    ∃ a mid, r fields = (.ok a, mid) ∧ f a mid = (.ok b, rest) := by
  change Reading.bind r f fields = _ ↔ _
  unfold Reading.bind
  split
  · rename_i a mid h
    rw [h]
    constructor
    · intro hf
      exact ⟨a, mid, rfl, hf⟩
    · rintro ⟨a', mid', he, hf⟩
      cases he
      exact hf
  · rename_i e mid h
    simp [h]

theorem pure_eq_ok_iff {b : α} : (pure a : Reading α) fields = (.ok b, rest) ↔
    a = b ∧ fields = rest := by
  change (_, _) = _ ↔ _
  simp

theorem lift_eq_ok_iff {x : Except TableError α} :
    lift x fields = (.ok a, rest) ↔ x = .ok a ∧ fields = rest := by
  simp [lift]

end Reading
end Snooping
