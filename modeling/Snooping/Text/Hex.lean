/-! Bytes written as two lower-case hexadecimal digits each. -/
namespace Snooping.Text.Hex

/-- The value of one hexadecimal digit, in either case. -/
def digit? (c : Char) : Option Nat :=
  if '0' ≤ c ∧ c ≤ '9' then some (c.toNat - '0'.toNat)
  else if 'a' ≤ c ∧ c ≤ 'f' then some (c.toNat - 'a'.toNat + 10)
  else if 'A' ≤ c ∧ c ≤ 'F' then some (c.toNat - 'A'.toNat + 10)
  else none

def ofByte (b : UInt8) : List Char :=
  [Nat.digitChar (b.toNat / 16), Nat.digitChar (b.toNat % 16)]

def ofBytes (bs : List UInt8) : List Char := bs.flatMap ofByte

def pair? (hi lo : Char) : Option UInt8 := do
  let h ← digit? hi
  let l ← digit? lo
  return UInt8.ofNat (16 * h + l)

/-- Reads digits in pairs; an odd digit or any other character is refused. -/
def bytes? : List Char → Option (List UInt8)
  | [] => some []
  | hi :: lo :: rest => do
    let b ← pair? hi lo
    let bs ← bytes? rest
    return b :: bs
  | [_] => none

theorem bytes?_ofByte_append (b : UInt8) (cs : List Char) :
    bytes? (ofByte b ++ cs) = (bytes? cs).map (b :: ·) := by
  have h : ∀ n < 256, pair? (Nat.digitChar (n / 16)) (Nat.digitChar (n % 16)) =
      some (UInt8.ofNat n) := by
    decide +kernel
  have hb := h b.toNat (UInt8.toNat_lt b)
  rw [UInt8.ofNat_toNat] at hb
  cases hc : bytes? cs <;> simp [ofByte, bytes?, hb, hc]

theorem bytes?_ofBytes (bs : List UInt8) : bytes? (ofBytes bs) = some bs := by
  induction bs with
  | nil => rfl
  | cons b rest ih =>
    rw [ofBytes, List.flatMap_cons, bytes?_ofByte_append]
    simpa [ofBytes] using congrArg (Option.map (b :: ·)) ih

/-- The value of a run of digits, the first one the most significant. -/
def number? (cs : List Char) : Option Nat :=
  cs.foldl (fun n c => do return 16 * (← n) + (← digit? c)) (some 0)

/-- At least `width` digits of `n`, padded with zeros. -/
def padded (width n : Nat) : List Char :=
  let ds := Nat.toDigits 16 n
  List.replicate (width - ds.length) '0' ++ ds

end Snooping.Text.Hex
