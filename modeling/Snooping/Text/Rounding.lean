/-! Decimal numbers in double precision: which are finite, and what their whole parts are. -/
namespace Snooping.Text

/-- The numbers from here on round to infinity. -/
def doubleOverflow : Nat := Nat.pow 2 1024 - Nat.pow 2 970

/-- Whether `mantissa * 10 ^ exponent` rounds to a finite double. -/
def isFiniteDecimal (mantissa : Nat) (exponent : Int) : Bool :=
  mantissa == 0 ||
    match exponent with
    | .ofNat e => e ≤ 400 && mantissa * Nat.pow 10 e < doubleOverflow
    | .negSucc e =>
      (Nat.toDigits 10 mantissa).length ≤ e + 1 || mantissa < doubleOverflow * Nat.pow 10 (e + 1)

/-- The nearest number of 53 binary digits, the even one at a tie. -/
def nearestDouble (n : Nat) : Nat :=
  let unit := Nat.pow 2 (n.log2 - 52)
  let q := n / unit
  let twice := 2 * (n % unit)
  (if unit < twice || (unit == twice && q % 2 == 1) then q + 1 else q) * unit

/-- Rounding up adds one unit of the last digit, which is no more than the number itself. -/
theorem nearestDouble_le {n : Nat} (hn : n ≠ 0) : nearestDouble n ≤ 2 * n := by
  have hu : Nat.pow 2 (n.log2 - 52) ≤ n :=
    Nat.le_trans (Nat.pow_le_pow_right (by decide) (Nat.sub_le _ _)) (Nat.log2_self_le hn)
  have hq := Nat.div_mul_le_self n (Nat.pow 2 (n.log2 - 52))
  unfold nearestDouble
  dsimp only
  split
  · rw [Nat.add_mul, Nat.one_mul]
    omega
  · omega

/-- Whether `mantissa` times `10 ^ exponent` is finite when the mantissa, the power and the product
are rounded one by one. Only powers that are finite themselves are taken. -/
def isFiniteProduct (mantissa : Nat) (exponent : Int) : Bool :=
  mantissa == 0 ||
    match exponent with
    | .ofNat e => e ≤ 308 && nearestDouble mantissa * nearestDouble (Nat.pow 10 e) < doubleOverflow
    | .negSucc _ => true

theorem isFiniteProduct_zero {n : Nat} (h : 2 * n < doubleOverflow) :
    isFiniteProduct n 0 = true := by
  have h1 : nearestDouble (Nat.pow 10 0) = 1 := rfl
  by_cases hn : n = 0
  · simp [isFiniteProduct, hn]
  · have := nearestDouble_le hn
    simp only [isFiniteProduct, h1]
    simp
    omega

/-- The least `p` with `n ≤ 2 ^ p`. -/
def binaryLength (n : Nat) : Nat := if n ≤ 1 then 0 else (n - 1).log2 + 1

/-- The whole part of the double nearest to `num / den`, for quotients below `2 ^ 53`. A double has
53 binary digits, so only the last half step below a whole number is rounded up to it. -/
def wholePart (num den : Nat) : Nat :=
  let k := num / den
  let scale := Nat.pow 2 (54 - binaryLength (k + 1))
  if (k + 1) * den * scale ≤ num * scale + den then k + 1 else k

/-- The whole part of `mantissa * 10 ^ exponent` after rounding, or `limit` if it is not below. -/
def decimalWholePart (limit mantissa : Nat) (exponent : Int) : Nat :=
  if mantissa = 0 then 0
  else match exponent with
  | .ofNat e => min limit (mantissa * Nat.pow 10 e)
  | .negSucc e =>
    if (Nat.toDigits 10 mantissa).length ≤ e then 0
    else
      let den := Nat.pow 10 (e + 1)
      if limit * den ≤ mantissa then limit else min limit (wholePart mantissa den)

end Snooping.Text
