/-! Cutting a text to a number of UTF-8 bytes without splitting a character. -/
namespace Snooping.Text

/-- Looks back from byte `i` for a place where a character starts or the text ends. The search
fails if it would have to go back beyond the first byte. -/
def boundary? (s : String) : Nat → Option s.Pos
  | 0 => if h : (0 : String.Pos.Raw).IsValid s then some ⟨0, h⟩ else none
  | i + 1 =>
    if h : String.Pos.Raw.IsValid s ⟨i + 1⟩ then some ⟨⟨i + 1⟩, h⟩ else boundary? s i

/-- The search is over at the first byte at the latest. -/
theorem isSome_boundary? (s : String) (i : Nat) : (boundary? s i).isSome = true := by
  induction i with
  | zero => rw [boundary?, dif_pos String.Pos.Raw.isValid_zero, Option.isSome_some]
  | succ i ih =>
    rw [boundary?]
    split
    · rfl
    · exact ih

/-- A text that fits is kept; a longer one is cut at the last boundary that fits. -/
def truncate (room : Nat) (s : String) : String :=
  if s.utf8ByteSize ≤ room then s
  else s.extract s.startPos ((boundary? s room).get (isSome_boundary? s room))

end Snooping.Text
