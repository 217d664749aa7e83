import DataQuality.Decimal.Shortest
import DataQuality.Proofs.Decimal.Bounds

/-!
# Doubles and decimals

A whole number times a power of ten is read as a finite double near it, unless it is great.
The mantissa and exponent that the digits of a double are found from are those of the
number it stands for.
-/
namespace DataQuality.Double

open Float.Model
open Float.Model.UnpackedFloat

/-- The powers of ten that need no rounding. -/
def tenTable (k : Fin 23) : Float := Float.exactlyRepresentablePowersOfTen[k]

theorem parts_tenTable (k : Fin 23) : ∃ m e, ∃ hm : 0 < m,
    parts (tenTable k) = .finite .positive m e hm ∧
      m * 2 ^ (e + 100).toNat = 10 ^ k.val * 2 ^ 100 ∧ 0 ≤ e + 100 := by
  fin_cases k <;> exact ⟨_, _, by decide, rfl, rfl, by decide⟩

theorem tenTable_eq (k : Fin 23) :
    (tenTable k).isFinite = true ∧ value (tenTable k) = 10 ^ k.val := by
  obtain ⟨m, e, hm, hparts, hvalue, he⟩ := parts_tenTable k
  have hrat : (m : ℚ) * 2 ^ (e + 100).toNat = 10 ^ k.val * 2 ^ 100 := by exact_mod_cast hvalue
  have hexponent : ((e + 100).toNat : ℤ) = e + 100 := Int.toNat_of_nonneg he
  rw [← ofParts_pos] at hparts
  refine ⟨isFinite_of_parts hparts, ?_⟩
  rw [value_of_parts hparts, signed]
  rw [← zpow_natCast, hexponent, zpow_add₀ (by norm_num)] at hrat
  have hpow : (2 : ℚ) ^ (100 : ℤ) = 2 ^ 100 := by norm_cast
  rw [hpow, ← mul_assoc] at hrat
  exact mul_right_cancel₀ (by positivity) hrat

/-- A whole number that is read as a double. -/
theorem near_toFloat {n : ℕ} (h : n < 2 ^ 64) : Near n n.toUInt64.toFloat := by
  have hnat : n.toUInt64.toNat = n := UInt64.toNat_ofNat_of_lt' h
  have hfloat : n.toUInt64.toFloat =
      ofUnpacked (UnpackedFloat.normalize .binary64 n.toUInt64.toNat 0 .positive) := rfl
  have hnear := near_normalize n 0 .positive
  rw [zpow_zero, mul_one, Int.cast_natCast] at hnear
  rwa [hfloat, hnat]

/-- Two roundings in a row, of a factor and of a product. -/
theorem bounds_of_two_roundings {w v p m : ℚ} (hm : 1 ≤ m) (hp : 1 ≤ p)
    (hw : |w - m| ≤ (m + 1) / 2 ^ 52) (hv : |v - w * p| ≤ (|w * p| + 1) / 2 ^ 52) :
    |v - m * p| ≤ (m * p + 1) / 2 ^ 50 := by
  have hmp : 0 < m * p := by positivity
  have hfactor : |w * p - m * p| ≤ m * p / 2 ^ 51 := by
    rw [← sub_mul, abs_mul, abs_of_pos (by linarith : 0 < p)]
    have hmul := mul_le_mul_of_nonneg_right hw (by linarith : 0 ≤ p)
    have hmp' : p ≤ m * p := le_mul_of_one_le_left (by linarith) hm
    norm_num at hmul ⊢
    linarith
  have hsize := abs_sub_abs_le_abs_sub (w * p) (m * p)
  have htriangle := abs_sub_le v (w * p) (m * p)
  rw [abs_of_pos hmp] at hsize
  generalize |w * p| = c at *
  norm_num at hv hfactor ⊢
  linarith

/-- A number of moderate size and a power of ten that needs no rounding are multiplied. -/
theorem mul_tenTable_bounds {m : ℕ} (k : Fin 23) (hm : m < 2 ^ 53) :
    (m.toUInt64.toFloat * tenTable k).isFinite = true ∧
      |value (m.toUInt64.toFloat * tenTable k) - m * 10 ^ k.val| ≤
        (m * 10 ^ k.val + 1) / 2 ^ 50 := by
  obtain ⟨hten, hvalue⟩ := tenTable_eq k
  have hfloat := near_toFloat (n := m) (by omega)
  have hm' : (m : ℚ) < 2 ^ 53 := by exact_mod_cast hm
  have hone : (1 : ℚ) ≤ 10 ^ k.val := one_le_pow₀ (by norm_num)
  have hpow : (10 : ℚ) ^ k.val ≤ 10 ^ 22 := pow_le_pow_right₀ (by norm_num) (by omega)
  have habs : |(m : ℚ)| = m := abs_of_nonneg (Nat.cast_nonneg m)
  obtain ⟨hfinite, hsize⟩ := hfloat.within (b := 2 ^ 53) (by rw [habs]; exact hm'.le)
    (lt_of_lt_of_le (by norm_num) (two_pow_le_limit (k := 54) (by norm_num)))
  have hproduct := near_mul hfinite hten
  rw [hvalue] at hproduct
  have hgreat : |value m.toUInt64.toFloat * 10 ^ k.val| < limit := calc
    |value m.toUInt64.toFloat * 10 ^ k.val| ≤ (2 * 2 ^ 53 + 1) * 10 ^ 22 := by
      rw [abs_mul, abs_of_pos (by linarith : (0 : ℚ) < 10 ^ k.val)]
      exact mul_le_mul hsize hpow (by positivity) (by norm_num)
    _ < 2 ^ 200 := by norm_num
    _ ≤ limit := two_pow_le_limit (by norm_num)
  have hx := hproduct.isFinite hgreat
  refine ⟨hx, ?_⟩
  rcases Nat.eq_zero_or_pos m with rfl | hpos
  · rw [Nat.cast_zero] at hfloat ⊢
    rw [hfloat.value_eq_zero, zero_mul] at hproduct
    rw [hproduct.value_eq_zero]
    norm_num
  · have herror := hfloat.error hfinite
    rw [habs] at herror
    exact bounds_of_two_roundings (by exact_mod_cast hpos) hone herror (hproduct.error hx)

theorem exponent_lt {m n : ℕ} (hm : 0 < m) (h : (m : ℚ) * 10 ^ n < limit) : n < 1024 := by
  by_contra hn
  have hpow : (2 : ℚ) ^ 1024 ≤ 10 ^ n := calc
    (2 : ℚ) ^ 1024 ≤ 2 ^ n := pow_le_pow_right₀ (by norm_num) (by omega)
    _ ≤ 10 ^ n := pow_le_pow_left₀ (by norm_num) (by norm_num) n
  have hmul : (10 : ℚ) ^ n ≤ m * 10 ^ n :=
    le_mul_of_one_le_left (by positivity) (by exact_mod_cast hm)
  have hlimit : (2 : ℚ) ^ 0 ≤ limit := two_pow_le_limit (by norm_num)
  rw [two_pow_eq_limit] at hpow
  norm_num at hlimit
  linarith

/-- A whole number and any power of ten are multiplied. -/
theorem near_ofScientific {m n : ℕ} (h : (m : ℚ) * 10 ^ n < limit) :
    Near (m * 10 ^ n) (ofUnpacked (UnpackedFloat.ofScientific .binary64 m (Int.ofNat n))) := by
  unfold UnpackedFloat.ofScientific
  rcases Nat.eq_zero_or_pos m with rfl | hm
  · rw [dif_pos rfl, Nat.cast_zero, zero_mul]
    exact near_packed_zero _
  have hsmall := exponent_lt hm h
  have hbits : (2 : ℤ) ^ Format.binary64.exponentBits = 2048 := rfl
  have hgreat : ¬ Int.ofNat n > 2048 := by rw [Int.ofNat_eq_natCast]; omega
  have hlow : ¬ Int.ofNat n < -(2048 + (m.log2 : ℤ)) := by rw [Int.ofNat_eq_natCast]; omega
  have hsign : 0 ≤ Int.ofNat n := Int.natCast_nonneg n
  rw [dif_neg hm.ne', hbits, if_neg hgreat, if_neg hlow, if_pos hsign]
  have hshift : m <<< 53 = m * 2 ^ 53 := Nat.shiftLeft_eq m 53
  have hfine : IsFine (m <<< 53 * 10 ^ n) (-53 + 0) := by
    left
    rw [hshift]
    have hten : 1 ≤ 10 ^ n := Nat.one_le_two_pow.trans (Nat.pow_le_pow_left (by norm_num) n)
    calc 2 ^ 52 ≤ m * 2 ^ 53 := by omega
      _ ≤ m * 2 ^ 53 * 10 ^ n := Nat.le_mul_of_pos_right _ hten
  have hproduct := near_mul_finite .positive .positive (m := m <<< 53) (n := 10 ^ n)
    (by rw [hshift]; positivity) (by positivity) hfine
  have hvalue : signed .positive ((m <<< 53 : ℕ) * 2 ^ (-53 : ℤ)) *
      signed .positive ((10 ^ n : ℕ) * 2 ^ (0 : ℤ)) = (m : ℚ) * 10 ^ n := by
    rw [signed, signed, hshift]
    have hpow : (9007199254740992 : ℚ) * 2 ^ (-53 : ℤ) = 1 := by norm_num
    push_cast
    rw [mul_assoc (m : ℚ), hpow, mul_one, mul_one]
  rw [hvalue] at hproduct
  exact hproduct

/-- A whole number times a power of ten is read as a double near it. -/
theorem ofScientific_bounds {m n : ℕ} (h : (m : ℚ) * 10 ^ n < limit) :
    (Float.ofScientific m false n).isFinite = true ∧
      |value (Float.ofScientific m false n) - m * 10 ^ n| ≤ (m * 10 ^ n + 1) / 2 ^ 50 := by
  unfold Float.ofScientific
  split
  · next hfast => exact mul_tenTable_bounds ⟨n, by omega⟩ hfast.1
  · have hfloat : Float.ofModel (Float.Model.ofScientific m (Int.ofNat n)) =
        ofUnpacked (UnpackedFloat.ofScientific .binary64 m (Int.ofNat n)) := rfl
    have hnear := near_ofScientific h
    have hpos : (0 : ℚ) ≤ m * 10 ^ n := by positivity
    have hfinite := hnear.isFinite (by rwa [abs_of_nonneg hpos])
    have herror := hnear.error hfinite
    rw [abs_of_nonneg hpos] at herror
    dsimp only
    rw [if_neg Bool.false_ne_true, hfloat]
    refine ⟨hfinite, herror.trans ?_⟩
    norm_num
    linarith

theorem toNat_unpackMantissa (b : BitVec Format.binary64.numBits) :
    (unpackMantissa b).toNat = b.toNat % 2 ^ 52 := by
  unfold unpackMantissa
  rw [BitVec.toNat_cast, BitVec.extractLsb_toNat]
  rfl

theorem toNat_unpackExponent (b : BitVec Format.binary64.numBits) :
    (unpackExponent b).toNat = b.toNat / 2 ^ 52 % 2 ^ 11 := by
  unfold unpackExponent
  rw [BitVec.toNat_cast, BitVec.extractLsb_toNat, Nat.shiftRight_eq_div_pow]
  rfl

end DataQuality.Double

namespace DataQuality.Decimal

def Binary.number (b : Binary) : ℚ := b.mantissa * 2 ^ b.exponent

open Double Float.Model Float.Model.UnpackedFloat in
/-- Digits are found from the number that a double stands for. -/
theorem Binary.number_ofBits {x : Float} (hx : x.isFinite = true) :
    (Binary.ofBits (x.toBits.toNat % Nat.pow 2 63)).number = |value x| := by
  obtain ⟨b, hparts, hnat⟩ : ∃ b : BitVec Format.binary64.numBits,
      parts x = UnpackedFloat.unpack .binary64 b ∧ x.toBits.toNat = b.toNat :=
    ⟨x.toBits.toBitVec, rfl, rfl⟩
  have hmantissa := toNat_unpackMantissa b
  have hexponent := toNat_unpackExponent b
  rw [unpack_eq] at hparts
  rw [hnat]
  generalize b.toNat = bits at hmantissa hexponent ⊢
  have hfraction : bits % 2 ^ 63 % 2 ^ 52 = (unpackMantissa b).toNat := by omega
  have hbiased : bits % 2 ^ 63 / 2 ^ 52 % 2 ^ 11 = (unpackExponent b).toNat := by omega
  unfold Binary.ofBits
  simp only [Nat.pow_eq, hfraction, hbiased]
  split at hparts
  · split at hparts
    all_goals
      rw [isFinite_eq, hparts] at hx
      cases hx
  split at hparts
  · next hzero =>
    have hzero' : (unpackExponent b).toNat = 0 := congrArg BitVec.toNat hzero
    rw [value_of_parts hparts, abs_signed, if_pos hzero', abs_of_nonneg (by positivity)]
    rfl
  · next hnonzero =>
    have hnonzero' : (unpackExponent b).toNat ≠ 0 := fun h =>
      hnonzero (BitVec.eq_of_toNat_eq h)
    rw [value_of_parts hparts, abs_signed, if_neg hnonzero', abs_of_nonneg (by positivity)]
    rfl

end DataQuality.Decimal
