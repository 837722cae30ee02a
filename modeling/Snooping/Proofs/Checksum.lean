import Mathlib.Algebra.GroupWithZero.Nat
import Snooping.Net.Checksum

/-!
The checksum as arithmetic. Words are summed modulo 65535, where all ones stand for zero, and a
message is intact when its words sum to zero without all being zero. A filled field makes it so.
-/
namespace Snooping

theorem be16_toNat (hi lo : UInt8) : (be16 hi lo).toNat = hi.toNat * 256 + lo.toNat := by
  have hhi := hi.toNat_lt
  have hlo := lo.toNat_lt
  have hshift : hi.toNat <<< 8 < 2 ^ 16 := by
    rw [Nat.shiftLeft_eq]
    omega
  have hor := Nat.shiftLeft_add_eq_or_of_lt (i := 8) hlo hi.toNat
  rw [be16, UInt16.toNat_or, UInt16.toNat_shiftLeft, UInt8.toNat_toUInt16, UInt8.toNat_toUInt16]
  change hi.toNat <<< 8 % 2 ^ 16 ||| lo.toNat = _
  rw [Nat.mod_eq_of_lt hshift, ← hor, Nat.shiftLeft_eq]

theorem highByte_toNat (w : UInt16) : (w >>> 8).toUInt8.toNat = w.toNat / 256 := by
  have hw := w.toNat_lt
  rw [UInt16.toNat_toUInt8, UInt16.toNat_shiftRight]
  change w.toNat >>> 8 % 2 ^ 8 = _
  rw [Nat.shiftRight_eq_div_pow]
  omega

/-- A word is put together again from its two bytes. -/
theorem be16_bytes (w : UInt16) : be16 (w >>> 8).toUInt8 w.toUInt8 = w := by
  have hw := w.toNat_lt
  apply UInt16.toNat_inj.mp
  rw [be16_toNat, highByte_toNat, UInt16.toNat_toUInt8]
  omega

theorem be16Bytes_be16 (hi lo : UInt8) : be16Bytes (be16 hi lo) = [hi, lo] := by
  have hhi := hi.toNat_lt
  have hlo := lo.toNat_lt
  have hhigh : (be16 hi lo >>> 8).toUInt8 = hi := by
    apply UInt8.toNat_inj.mp
    rw [highByte_toNat, be16_toNat]
    omega
  have hlow : (be16 hi lo).toUInt8 = lo := by
    apply UInt8.toNat_inj.mp
    rw [UInt16.toNat_toUInt8, be16_toNat]
    omega
  rw [be16Bytes, hhigh, hlow]

namespace Checksum

/-- The sum of the words, without a bound. -/
def total : Bytes → Nat
  | hi :: lo :: rest => (be16 hi lo).toNat + total rest
  | [last] => last.toNat * 256
  | [] => 0

/-- The sum with its carries added back in: zero for zero only, else between 1 and 65535. -/
def residue (n : Nat) : Nat := if n = 0 then 0 else (n - 1) % 65535 + 1

variable {data : Bytes} {offset : Nat}

/-- The largest message whose sum cannot leave 32 bits. -/
def maxLength : Nat := 131074

theorem total_le (data : Bytes) : total data ≤ 65535 * ((data.length + 1) / 2) := by
  induction data using total.induct with
  | case1 hi lo rest ih =>
    have hw := (be16 hi lo).toNat_lt
    simp only [total, List.length_cons]
    omega
  | case2 last =>
    have hb := last.toNat_lt
    simp only [total, List.length_singleton]
    omega
  | case3 => exact Nat.zero_le _

theorem lastWord_toNat (b : UInt8) : (b.toUInt32 <<< (8 : UInt32)).toNat = b.toNat * 256 := by
  have hb := b.toNat_lt
  rw [UInt32.toNat_shiftLeft, UInt8.toNat_toUInt32]
  change b.toNat <<< 8 % 2 ^ 32 = _
  rw [Nat.shiftLeft_eq]
  omega

theorem wordSum_toNat (sum : UInt32) (data : Bytes) :
    (wordSum sum data).toNat = (sum.toNat + total data) % 2 ^ 32 := by
  induction sum, data using wordSum.induct with
  | case1 sum hi lo rest ih =>
    rw [wordSum, ih, total, UInt32.toNat_add, UInt16.toNat_toUInt32]
    omega
  | case2 sum last => rw [wordSum, total, UInt32.toNat_add, lastWord_toNat]
  | case3 sum =>
    have hsum := sum.toNat_lt
    rw [wordSum, total]
    omega

/-- Up to the largest length, the sum in 32 bits does not wrap. -/
theorem wordSum_zero_toNat (h : data.length ≤ maxLength) : (wordSum 0 data).toNat = total data := by
  have hle := total_le data
  rw [maxLength] at h
  rw [wordSum_toNat, UInt32.toNat_zero]
  omega

theorem lowHalf_toNat (sum : UInt32) :
    (sum &&& (0xffff : UInt32)).toNat = sum.toNat % 65536 :=
  (UInt32.toNat_and ..).trans (Nat.and_two_pow_sub_one_eq_mod sum.toNat 16)

theorem highHalf_toNat (sum : UInt32) : (sum >>> (16 : UInt32)).toNat = sum.toNat / 65536 :=
  (UInt32.toNat_shiftRight ..).trans (Nat.shiftRight_eq_div_pow sum.toNat 16)

theorem endAround_toNat (sum : UInt32) :
    (endAround sum).toNat = sum.toNat % 65536 + sum.toNat / 65536 := by
  have hsum := sum.toNat_lt
  rw [endAround, UInt32.toNat_add, lowHalf_toNat, highHalf_toNat]
  omega

theorem foldCarries_toNat (sum : UInt32) : (foldCarries sum).toNat = residue sum.toNat := by
  have hsum := sum.toNat_lt
  rw [foldCarries, endAround_toNat, endAround_toNat, residue]
  split <;> omega

theorem onesComplementSum_toNat (h : data.length ≤ maxLength) :
    (onesComplementSum data).toNat = residue (total data) := by
  have hlt : residue (total data) < 2 ^ 16 := by
    unfold residue
    split <;> omega
  rw [onesComplementSum, UInt32.toNat_toUInt16, foldCarries_toNat, wordSum_zero_toNat h,
    Nat.mod_eq_of_lt hlt]

/-- A message is intact when its words sum to a multiple of 65535 that is not zero. -/
theorem isValid_iff (h : data.length ≤ maxLength) :
    isValid data = true ↔ 0 < total data ∧ 65535 ∣ total data := by
  rw [isValid, beq_iff_eq, ← UInt16.toNat_inj, onesComplementSum_toNat h, residue]
  change _ = 65535 ↔ _
  split <;> omega

theorem checksum_toNat (h : data.length ≤ maxLength) :
    (checksum data).toNat = 65535 - residue (total data) := by
  rw [checksum, UInt16.toNat_not, onesComplementSum_toNat h]
  rfl

theorem length_putWord (data : Bytes) (offset : Nat) (w : UInt16) :
    (putWord data offset w).length = data.length := by
  simp [putWord]

theorem putWord_zero (hi lo : UInt8) (rest : Bytes) (w : UInt16) :
    putWord (hi :: lo :: rest) 0 w = (w >>> 8).toUInt8 :: w.toUInt8 :: rest := rfl

/-- Behind a whole word, a field is written as in the rest of the data. -/
theorem putWord_cons (hi lo : UInt8) (rest : Bytes) (offset : Nat) (w : UInt16) :
    putWord (hi :: lo :: rest) (offset + 2) w = hi :: lo :: putWord rest offset w := rfl

/-- A field on a word boundary counts with its own value. -/
theorem total_putWord (w : UInt16) (ho : offset % 2 = 0) (hl : offset + 2 ≤ data.length) :
    total (putWord data offset w) = total (putWord data offset 0) + w.toNat := by
  induction data using total.induct generalizing offset with
  | case1 hi lo rest ih =>
    obtain _ | _ | offset := offset
    · rw [putWord_zero, putWord_zero, total, total, be16_bytes, be16_bytes, UInt16.toNat_zero]
      omega
    · omega
    · simp only [List.length_cons] at hl
      rw [putWord_cons, putWord_cons, total, total, ih (by omega) (by omega), Nat.add_assoc]
  | case2 last => simp at hl
  | case3 => simp at hl

/-- A field that is filled on a word boundary makes the message intact. -/
theorem isValid_fill (h : data.length ≤ maxLength) (ho : offset % 2 = 0)
    (hl : offset + 2 ≤ data.length) : isValid (fill data offset) = true := by
  have hcleared : (putWord data offset 0).length ≤ maxLength := by rwa [length_putWord]
  rw [isValid_iff (by rwa [fill, length_putWord]), fill, total_putWord _ ho hl,
    checksum_toNat hcleared, residue]
  split <;> omega

end Checksum
end Snooping
