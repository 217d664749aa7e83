import DataQuality.Json.Decode
import DataQuality.Json.Writer
import DataQuality.Proofs.Decimal.Conversion
import DataQuality.Proofs.Json.Numerals

/-!
# Doubles read back

The literal of a double stands for a number at most half as great again as the double. A
literal whose number is not great is read as a double, so every finite double but the very
greatest is written as a literal that can be read.
-/
namespace DataQuality

namespace Decimal

def Digits.number (d : Digits) : ℚ := d.digits * 10 ^ d.exponent

/-- The number that a literal without its sign stands for. -/
def Literal.number (l : Literal) : ℚ :=
  natOfDigits (l.whole ++ l.fraction.getD []) *
    10 ^ (l.exponent.getD 0 - (l.fraction.getD []).length)

/-- A power with an integer exponent, as the quotient of two whole numbers. -/
theorem zpow_mul_cast {a : ℕ} (ha : 0 < a) (i : ℤ) :
    (a : ℚ) ^ i * ((if i < 0 then a ^ i.natAbs else 1 : ℕ) : ℚ) =
      ((if 0 ≤ i then a ^ i.natAbs else 1 : ℕ) : ℚ) := by
  have ha' : (a : ℚ) ≠ 0 := by exact_mod_cast ha.ne'
  rcases le_or_gt 0 i with hi | hi
  · have habs : i = i.natAbs := by omega
    rw [if_neg (by omega), if_pos hi, Nat.cast_one, mul_one]
    conv_lhs => rw [habs, zpow_natCast]
    push_cast
    rfl
  · have habs : i = -(i.natAbs : ℤ) := by omega
    rw [if_pos hi, if_neg (by omega), Nat.cast_one]
    conv_lhs => rw [habs, zpow_neg, zpow_natCast, Int.natAbs_neg, Int.natAbs_natCast]
    push_cast
    exact inv_mul_cancel₀ (pow_ne_zero _ ha')

namespace Binary

variable (b : Binary) (grid : ℤ)

/-- A double over the common denominator of a grid. -/
theorem value_scale :
    ((b.scale grid).value : ℚ) * 10 ^ grid = b.number * (b.scale grid).denominator := by
  have htwo := zpow_mul_cast (a := 2) (by norm_num) b.exponent
  have hten := zpow_mul_cast (a := 10) (by norm_num) grid
  unfold scale number
  simp only [Nat.pow_eq]
  push_cast at htwo hten ⊢
  rw [← htwo, ← hten]
  ring

theorem denominator_scale_pos : 0 < (b.scale grid).denominator := by
  unfold scale
  simp only [Nat.pow_eq]
  positivity

/-- The upper end of the interval of a double is at most half as great again. -/
theorem two_mul_high_le (hm : b.mantissa ≠ 0) :
    2 * (b.scale grid).high ≤ 3 * (b.scale grid).value := by
  have hends : 2 * (4 * b.mantissa + 2) ≤ 3 * (4 * b.mantissa) := by omega
  unfold scale
  dsimp only
  rw [← Nat.mul_assoc, ← Nat.mul_assoc 3]
  exact Nat.mul_le_mul_right _ hends

/-- Steps of a grid that do not lie above the interval of a double. -/
theorem number_le_of_le_high (hm : b.mantissa ≠ 0) {n : ℕ}
    (h : n * (b.scale grid).denominator ≤ (b.scale grid).high) :
    2 * (⟨n, grid⟩ : Digits).number ≤ 3 * b.number := by
  have hscale := b.value_scale grid
  have hpos : (0 : ℚ) < (b.scale grid).denominator := by exact_mod_cast b.denominator_scale_pos grid
  have hle : 2 * (n * (b.scale grid).denominator) ≤ 3 * (b.scale grid).value :=
    (Nat.mul_le_mul_left 2 h).trans (b.two_mul_high_le grid hm)
  have hrat : (2 : ℚ) * (n * (b.scale grid).denominator) ≤ 3 * (b.scale grid).value := by
    exact_mod_cast hle
  have hten : (0 : ℚ) < 10 ^ grid := by positivity
  have hmul := mul_le_mul_of_nonneg_right hrat hten.le
  unfold Digits.number
  refine le_of_mul_le_mul_right ?_ hpos
  calc 2 * ((n : ℚ) * 10 ^ grid) * (b.scale grid).denominator
      = 2 * (n * (b.scale grid).denominator) * 10 ^ grid := by ring
    _ ≤ 3 * (b.scale grid).value * 10 ^ grid := hmul
    _ = 3 * b.number * (b.scale grid).denominator := by rw [mul_assoc, hscale, mul_assoc]

theorem admits_of_nearest? {s : Scaled} {closed : Bool} {n : ℕ} (h : s.nearest? closed = some n) :
    s.admits closed n = true := by
  unfold Scaled.nearest? at h
  dsimp only at h
  split at h
  · cases h
  · next hlow _ =>
    obtain rfl := Option.some.inj h
    exact hlow
  · next _ hhigh =>
    obtain rfl := Option.some.inj h
    exact hhigh
  · next hlow hhigh =>
    split at h
    · obtain rfl := Option.some.inj h
      exact hlow
    split at h
    · obtain rfl := Option.some.inj h
      exact hhigh
    split at h
    · obtain rfl := Option.some.inj h
      exact hlow
    · obtain rfl := Option.some.inj h
      exact hhigh

theorem le_high_of_admits {s : Scaled} {closed : Bool} {n : ℕ} (h : s.admits closed n = true) :
    n * s.denominator ≤ s.high := by
  unfold Scaled.admits at h
  dsimp only at h
  split at h
  · simp only [Bool.and_eq_true, decide_eq_true_eq] at h
    exact h.2
  · simp only [Bool.and_eq_true, decide_eq_true_eq] at h
    exact h.2.le

/-- No search finds digits whose number lies above the interval of the double. -/
theorem number_search_le (hm : b.mantissa ≠ 0) (steps : ℕ) (grid : ℤ) :
    2 * (b.search steps grid).number ≤ 3 * b.number := by
  induction steps generalizing grid with
  | zero =>
    refine b.number_le_of_le_high grid hm ((Nat.div_mul_le_self _ _).trans ?_)
    unfold scale
    exact Nat.mul_le_mul_right _ (by omega)
  | succ steps ih =>
    rw [search]
    split
    · next n hn =>
      split
      · exact ih (grid - 1)
      · exact b.number_le_of_le_high grid hm (le_high_of_admits (admits_of_nearest? hn))
    · exact ih (grid - 1)

theorem number_stripZeros (n : ℕ) (d : Digits) : (shortest.stripZeros n d).number = d.number := by
  induction n generalizing d with
  | zero => rfl
  | succ n ih =>
    unfold shortest.stripZeros
    split
    · next h =>
      simp only [Bool.and_eq_true, decide_eq_true_eq] at h
      have hdigits : d.digits / 10 * 10 = d.digits := by omega
      have hrat : ((d.digits / 10 : ℕ) : ℚ) * 10 = d.digits := by exact_mod_cast hdigits
      rw [ih]
      unfold Digits.number
      rw [← hrat, zpow_add₀ (by norm_num)]
      ring
    · rfl

/-- The shortest digits of a double stand for at most half as much again. -/
theorem number_shortest_le (hm : b.mantissa ≠ 0) : 2 * b.shortest.number ≤ 3 * b.number := by
  unfold shortest
  rw [number_stripZeros]
  exact b.number_search_le hm 19 _

end Binary

theorem natOfDigits_append (ds fs : List Char) :
    natOfDigits (ds ++ fs) = natOfDigits ds * 10 ^ fs.length + natOfDigits fs := by
  induction fs using List.reverseRecOn with
  | nil => simp
  | append_singleton fs c ih =>
    rw [← List.append_assoc, natOfDigits_append_singleton, ih, natOfDigits_append_singleton,
      List.length_append, List.length_singleton, pow_succ]
    ring

theorem natOfDigits_zeros (k : ℕ) : natOfDigits (List.replicate k '0') = 0 := by
  induction k with
  | zero => rfl
  | succ k ih =>
    rw [List.replicate_succ', natOfDigits_append_singleton, ih]
    rfl

/-- What is written of digits stands for their number. -/
theorem Digits.number_literal (d : Digits) (negative : Bool) :
    (d.literal negative).number = d.number := by
  have hds := natOfDigits_natDigits d.digits
  have hne := natDigits_ne_nil d.digits
  unfold literal Literal.number number
  generalize natDigits d.digits = ds at hds hne ⊢
  dsimp only
  split
  · -- zeros up to the point
    next hcase =>
    simp only [Bool.and_eq_true, decide_eq_true_eq] at hcase
    obtain ⟨k, hk⟩ := Int.eq_ofNat_of_zero_le hcase.1
    have hzero : natOfDigits ['0'] = 0 := rfl
    rw [hk, Int.toNat_natCast, Option.getD_some, Option.getD_none, natOfDigits_append,
      natOfDigits_append, natOfDigits_zeros, hzero, hds, List.length_singleton, zpow_natCast]
    push_cast
    rw [List.length_replicate, zpow_neg, zpow_one]
    field_simp
    ring
  split
  · -- the point among the digits
    next hcase hpoint =>
    simp only [Bool.and_eq_true, decide_eq_true_eq, not_and_or] at hcase hpoint
    have hlength : (ds.drop (ds.length + d.exponent : ℤ).toNat).length = -d.exponent := by
      rw [List.length_drop]
      omega
    rw [Option.getD_some, Option.getD_none, List.take_append_drop, hds, hlength, zero_sub, neg_neg]
  split
  · -- zeros after the point
    next hpoint =>
    simp only [Bool.and_eq_true, decide_eq_true_eq] at hpoint
    have hzero : natOfDigits ['0'] = 0 := rfl
    rw [Option.getD_some, Option.getD_none, natOfDigits_append, natOfDigits_append,
      natOfDigits_zeros, hzero, hds, Nat.zero_mul, Nat.zero_mul, Nat.zero_add, Nat.zero_add,
      List.length_append, List.length_replicate]
    congr 2
    omega
  · -- an exponent
    obtain ⟨c, cs, rfl⟩ := List.exists_cons_of_ne_nil hne
    split
    · next htail =>
      obtain rfl : cs = [] := htail
      rw [Option.getD_some, Option.getD_none, List.append_nil, hds]
      congr 2
      simp
    · next htail =>
      rw [Option.getD_some, Option.getD_some, List.tail_cons, List.take_succ_cons, List.take_zero,
        List.singleton_append, hds]
      congr 2
      rw [List.length_cons]
      omega

/-- A number of some digits is not below the power of ten of its first one. -/
theorem ten_pow_le_natOfDigits {c : Char} {cs : List Char} (hc : isDigit c = true) (hne : c ≠ '0') :
    10 ^ cs.length ≤ natOfDigits (c :: cs) := by
  have hone : natOfDigits [c] = digitValue c := by simp [natOfDigits]
  have hpos : 1 ≤ digitValue c := by
    simp only [isDigit, Bool.and_eq_true, decide_eq_true_eq] at hc
    have hle : 48 ≤ c.toNat := hc.1
    have hneq : c.toNat ≠ 48 := fun h => hne (Char.toNat_inj.1 h)
    unfold digitValue
    omega
  have happend := natOfDigits_append [c] cs
  rw [List.singleton_append, hone] at happend
  rw [happend]
  have hmul := Nat.mul_le_mul_right (10 ^ cs.length) hpos
  omega

theorem Digits.ten_zpow_le_number {d : Digits} (h : d.number ≠ 0) :
    10 ^ ((natDigits d.digits).length + d.exponent - 1) ≤ d.number := by
  have hpos : 0 < d.digits := by
    rcases Nat.eq_zero_or_pos d.digits with h0 | hpos
    · exact absurd (by rw [number, h0, Nat.cast_zero, zero_mul]) h
    · exact hpos
  have hdigits : ∀ c ∈ natDigits d.digits, isDigit c = true := fun c => isDigit_of_mem_natDigits
  have hhead := head?_natDigits_ne hpos
  have hds := natOfDigits_natDigits d.digits
  obtain ⟨c, cs, hcons⟩ := List.exists_cons_of_ne_nil (natDigits_ne_nil d.digits)
  rw [hcons] at hdigits hhead hds ⊢
  have hle : 10 ^ cs.length ≤ natOfDigits (c :: cs) :=
    ten_pow_le_natOfDigits (hdigits c (by simp)) fun hc => hhead (by rw [hc]; rfl)
  rw [hds] at hle
  have hrat : (10 : ℚ) ^ cs.length ≤ d.digits := by exact_mod_cast hle
  have hexponent : ((c :: cs).length + d.exponent - 1 : ℤ) = cs.length + d.exponent := by
    rw [List.length_cons]
    omega
  rw [hexponent, zpow_add₀ (by norm_num), zpow_natCast]
  exact mul_le_mul_of_nonneg_right hrat (by positivity)

/-- A literal as doubles are written: with a point or an exponent, with few digits before
the point, and with no exponent above its number. -/
structure Literal.IsReal (l : Literal) : Prop where
  whole_length : l.whole.length ≤ 16
  real : l.fraction.isSome = true ∨ l.exponent.isSome = true
  exponent_le : ∀ e, l.exponent = some e → l.number ≠ 0 → 10 ^ e ≤ l.number

theorem Digits.length_whole_literal_le (d : Digits) (negative : Bool) :
    (d.literal negative).whole.length ≤ 16 := by
  unfold literal
  dsimp only
  split
  · next hcase =>
    simp only [Bool.and_eq_true, decide_eq_true_eq] at hcase
    rw [List.length_append, List.length_replicate]
    omega
  split
  · next hcase =>
    simp only [Bool.and_eq_true, decide_eq_true_eq] at hcase
    rw [List.length_take]
    omega
  split
  · exact (by norm_num : 1 ≤ 16)
  split
  · next htail =>
    have hlength := congrArg List.length htail
    rw [List.length_tail, List.length_nil] at hlength
    change (natDigits d.digits).length ≤ 16
    omega
  · rw [List.length_take]
    omega

/-- An exponent is that of the first digit, and is written unless there is a point. -/
theorem Digits.exponent_literal (d : Digits) (negative : Bool) :
    (d.literal negative).fraction.isSome = true ∧ (d.literal negative).exponent = none ∨
      (d.literal negative).exponent = some ((natDigits d.digits).length + d.exponent - 1) := by
  unfold literal
  dsimp only
  split
  · exact .inl ⟨rfl, rfl⟩
  split
  · exact .inl ⟨rfl, rfl⟩
  split
  · exact .inl ⟨rfl, rfl⟩
  split
  · exact .inr rfl
  · exact .inr rfl

theorem Digits.isReal_literal (d : Digits) (negative : Bool) : (d.literal negative).IsReal where
  whole_length := d.length_whole_literal_le negative
  real := by
    rcases d.exponent_literal negative with ⟨hfraction, -⟩ | hexponent
    · exact .inl hfraction
    · exact .inr (by rw [hexponent]; rfl)
  exponent_le e he hzero := by
    rw [d.number_literal] at hzero ⊢
    rcases d.exponent_literal negative with ⟨-, hnone⟩ | hexponent
    · rw [hnone] at he
      cases he
    · obtain rfl := Option.some.inj (hexponent.symm.trans he)
      exact d.ten_zpow_le_number hzero

end Decimal

namespace Json

open Decimal (Literal isDigit natOfDigits natOfDigits_append_singleton)

/-- A significand whose number is not above the number that some digits stand for, with
some of them behind the point. -/
structure Significand.Below (s : Significand) (n places : ℕ) : Prop where
  value_le : s.value ≤ maxUInt64
  number_le : (s.value : ℚ) * 10 ^ s.exponent ≤ n * 10 ^ (-places : ℤ)
  exponent_le : s.exponent ≤ 0
  exact : s.full = false → s.value = n ∧ s.exponent = -places

/-- Few digits before the point are all taken. -/
theorem foldl_takeWhole {ds : List Char} (h : natOfDigits ds ≤ maxUInt64) :
    ds.foldl Significand.takeWhole ⟨0, 0, false⟩ = ⟨natOfDigits ds, 0, false⟩ := by
  induction ds using List.reverseRecOn with
  | nil => rfl
  | append_singleton ds c ih =>
    rw [natOfDigits_append_singleton] at h
    have hnext : ¬ maxUInt64 < natOfDigits ds * 10 + Decimal.digitValue c := by omega
    rw [List.foldl_append, ih (by omega), natOfDigits_append_singleton, List.foldl_cons,
      List.foldl_nil, Significand.takeWhole]
    simp only [hnext, Bool.false_or, decide_false, Bool.false_eq_true, if_false, Nat.mul_comm 10]

/-- One more digit behind the point. -/
theorem Significand.Below.takeFraction {s : Significand} {n places : ℕ} (h : s.Below n places)
    (c : Char) : (s.takeFraction c).Below (10 * n + Decimal.digitValue c) (places + 1) := by
  have hplaces : (10 : ℚ) ^ (-places : ℤ) = 10 * 10 ^ (-(places + 1 : ℕ) : ℤ) := by
    rw [← zpow_one_add₀ (by norm_num)]
    congr 1
    omega
  have hpos : (0 : ℚ) < 10 ^ (-(places + 1 : ℕ) : ℤ) := by positivity
  unfold Significand.takeFraction
  dsimp only
  split
  · refine ⟨h.value_le, h.number_le.trans ?_, h.exponent_le, fun hfull => (by cases hfull)⟩
    rw [hplaces, ← mul_assoc, mul_comm (n : ℚ)]
    refine mul_le_mul_of_nonneg_right ?_ hpos.le
    push_cast
    exact le_add_of_nonneg_right (Nat.cast_nonneg _)
  · next hfits =>
    simp only [Bool.or_eq_true, decide_eq_true_eq, not_or, Bool.not_eq_true] at hfits
    obtain ⟨hvalue, hexponent⟩ := h.exact hfits.1
    have hexponent' : s.exponent - 1 = -((places + 1 : ℕ) : ℤ) := by omega
    have hvalue' : s.value * 10 + Decimal.digitValue c = 10 * n + Decimal.digitValue c := by omega
    have hle : s.value * 10 + Decimal.digitValue c ≤ maxUInt64 := by omega
    have hnonpos : s.exponent - 1 ≤ 0 := by omega
    refine ⟨hle, ?_, hnonpos, fun _ => ⟨hvalue', hexponent'⟩⟩
    rw [hexponent', hvalue']

theorem Significand.Below.foldl_takeFraction {s : Significand} {ds fs : List Char}
    (h : s.Below (natOfDigits ds) 0) :
    (fs.foldl Significand.takeFraction s).Below (natOfDigits (ds ++ fs)) fs.length := by
  induction fs using List.reverseRecOn with
  | nil => simpa using h
  | append_singleton fs c ih =>
    rw [List.foldl_append, ← List.append_assoc, natOfDigits_append_singleton, List.length_append]
    exact ih.takeFraction c

/-- The digits that are taken of a literal do not stand for more than all its digits. -/
theorem below_significand {l : Literal} (hregular : l.Regular) (hreal : l.IsReal) :
    (significand l).Below (natOfDigits (l.whole ++ l.fraction.getD []))
      (l.fraction.getD []).length := by
  have hlt := Decimal.natOfDigits_lt hregular.whole_digits
  have hpow : 10 ^ l.whole.length ≤ 10 ^ 16 := Nat.pow_le_pow_right (by norm_num) hreal.whole_length
  have hle : natOfDigits l.whole ≤ maxUInt64 := by
    unfold maxUInt64
    omega
  unfold significand
  rw [foldl_takeWhole hle]
  exact Significand.Below.foldl_takeFraction ⟨hle, by simp, le_rfl, fun _ => ⟨rfl, rfl⟩⟩

/-- Scaling down always succeeds. -/
theorem isSome_scaleFloat_of_neg (fuel : ℕ) (f : Float) {e : ℤ} (he : e < 0) :
    (scaleFloat fuel f e).isSome = true := by
  induction fuel generalizing f e with
  | zero => rfl
  | succ fuel ih =>
    rw [scaleFloat]
    split
    · rw [if_neg (by omega)]
      rfl
    split
    · rfl
    rw [if_neg (by omega)]
    exact ih _ (by omega)

open Double (value limit)

/-- The greatest power of ten among the doubles. -/
theorem ten_pow_308_lt : (10 : ℚ) ^ 308 < limit := by
  have hnat : 10 ^ 308 < 15 * 2 ^ 1020 := by decide +kernel
  unfold limit
  exact_mod_cast hnat

theorem limit_lt_ten_pow_309 : limit < (10 : ℚ) ^ 309 := by
  have hnat : 15 * 2 ^ 1020 < 10 ^ 309 := by decide +kernel
  unfold limit
  exact_mod_cast hnat

/-- The product of two rounded factors, each a little greater than the exact one. -/
theorem mul_lt_of_rounded {v p x y g : ℚ} (hv : 0 ≤ v) (hp : 1 ≤ p) (hpg : p < g) (hx : 0 ≤ x)
    (hxv : x ≤ v + (v + 1) / 2 ^ 50) (hyp : y ≤ p + (p + 1) / 2 ^ 50) (h : 8 * (v * p) ≤ 7 * g) :
    x * y < g := by
  have hy : y ≤ p * (1 + 1 / 2 ^ 49) := by
    norm_num at hyp ⊢
    linarith
  have hvp : 0 ≤ v * p := by positivity
  calc x * y ≤ x * (p * (1 + 1 / 2 ^ 49)) := mul_le_mul_of_nonneg_left hy hx
    _ ≤ (v + (v + 1) / 2 ^ 50) * (p * (1 + 1 / 2 ^ 49)) :=
      mul_le_mul_of_nonneg_right hxv (by positivity)
    _ = (v * p * (1 + 1 / 2 ^ 50) + p / 2 ^ 50) * (1 + 1 / 2 ^ 49) := by ring
    _ < g := by
      norm_num
      linarith

/-- The product of a rounded whole number and a rounded power of ten. -/
theorem isFinite_mul_tenPower {v n : ℕ} (hv : v ≤ maxUInt64) (hn : n ≤ 308)
    (h : 8 * ((v : ℚ) * 10 ^ n) ≤ 7 * limit) :
    (Float.ofScientific v false 0 * tenPower n).isFinite = true := by
  have hv' : (v : ℚ) < 2 ^ 64 := by
    unfold maxUInt64 at hv
    exact_mod_cast (by omega : v < 2 ^ 64)
  have hone : (1 : ℚ) ≤ 10 ^ n := one_le_pow₀ (by norm_num)
  have hten : (10 : ℚ) ^ n < limit :=
    (pow_le_pow_right₀ (by norm_num) hn).trans_lt ten_pow_308_lt
  obtain ⟨hleft, hwhole⟩ := Double.ofScientific_bounds (m := v) (n := 0)
    (by rw [pow_zero, mul_one]; exact hv'.trans_le (Double.two_pow_le_limit (by norm_num)))
  obtain ⟨hright, hpower⟩ := Double.ofScientific_bounds (m := 1) (n := n)
    (by rw [Nat.cast_one, one_mul]; exact hten)
  rw [pow_zero, mul_one] at hwhole
  rw [Nat.cast_one, one_mul] at hpower
  have hx := abs_sub_abs_le_abs_sub (value (Float.ofScientific v false 0)) (v : ℚ)
  have hy := abs_sub_abs_le_abs_sub (value (Float.ofScientific 1 false n)) (10 ^ n)
  have hvabs : |(v : ℚ)| = v := abs_of_nonneg (Nat.cast_nonneg v)
  have htenabs : |(10 : ℚ) ^ n| = 10 ^ n := abs_of_pos (by positivity)
  rw [hvabs] at hx
  rw [htenabs] at hy
  refine (Double.near_mul hleft hright).isFinite ?_
  rw [abs_mul]
  exact mul_lt_of_rounded (Nat.cast_nonneg v) hone hten (abs_nonneg _) (by linarith) (by linarith) h

/-- A significand whose number is not great can be scaled. -/
theorem isSome_scaleFloat {v : ℕ} {e : ℤ} (hv : v ≤ maxUInt64)
    (h : 8 * ((v : ℚ) * 10 ^ e) ≤ 7 * limit) (fuel : ℕ) :
    (scaleFloat fuel (Float.ofScientific v false 0) e).isSome = true := by
  rcases lt_or_ge e 0 with he | he
  · exact isSome_scaleFloat_of_neg fuel _ he
  cases fuel with
  | zero => rfl
  | succ fuel =>
    obtain ⟨n, rfl⟩ := Int.eq_ofNat_of_zero_le he
    rw [zpow_natCast] at h
    rw [scaleFloat, Int.natAbs_natCast]
    split
    · next hn =>
      have hinf := Double.isInf_of_isFinite (isFinite_mul_tenPower hv hn h)
      simp only [hinf]
      rfl
    · next hn =>
      rcases Nat.eq_zero_or_pos v with rfl | hpos
      · have hzero : (Float.ofScientific 0 false 0 == 0.0) = true := by decide +kernel
        rw [if_pos hzero]
        rfl
      · have hpow : (10 : ℚ) ^ 309 ≤ 10 ^ n := pow_le_pow_right₀ (by norm_num) (by omega)
        have hmul : (10 : ℚ) ^ n ≤ v * 10 ^ n :=
          le_mul_of_one_le_left (by positivity) (by exact_mod_cast hpos)
        have hgreat := limit_lt_ten_pow_309
        have hlimit : (2 : ℚ) ^ 0 ≤ limit := Double.two_pow_le_limit (by norm_num)
        rw [pow_zero] at hlimit
        generalize (10 : ℚ) ^ 309 = g at *
        linarith

/-- A literal of a number that is not great is read as a double. -/
theorem isSome_float? {l : Literal} (hregular : l.Regular) (hreal : l.IsReal)
    (h : 8 * l.number ≤ 7 * limit) : (float? l).isSome = true := by
  have hbelow := below_significand hregular hreal
  have hinteger : integer? l = none := by
    unfold integer?
    rcases hreal.real with hreal | hreal <;> simp [hreal]
  unfold float?
  rw [hinteger]
  dsimp only
  have hnumber : l.number = natOfDigits (l.whole ++ l.fraction.getD []) *
      10 ^ (l.exponent.getD 0 - (l.fraction.getD []).length) := rfl
  cases hexponent : l.exponent with
  | none =>
    rw [hexponent, Option.getD_none, zero_sub] at hnumber
    have hle := hbelow.number_le
    dsimp only
    rw [Option.isSome_map]
    exact isSome_scaleFloat hbelow.value_le (by linarith) 8
  | some e =>
    rw [hexponent, Option.getD_some, sub_eq_add_neg, zpow_add₀ (by norm_num)] at hnumber
    have hle : ((significand l).value : ℚ) * 10 ^ ((significand l).exponent + e) ≤ l.number := by
      rw [hnumber, zpow_add₀ (by norm_num)]
      have hmul := mul_le_mul_of_nonneg_right hbelow.number_le (by positivity : (0 : ℚ) ≤ 10 ^ e)
      linarith
    dsimp only
    split
    · next hgreat =>
      split
      · next hpositive =>
        -- a number of so great an exponent would itself be great
        simp only [Bool.and_eq_true, bne_iff_ne, decide_eq_true_eq] at hpositive
        unfold maxExponent at hgreat
        have hvalue : (0 : ℚ) < (significand l).value := by
          exact_mod_cast Nat.pos_of_ne_zero hpositive.1
        have hpos : (0 : ℚ) < l.number := lt_of_lt_of_le (by positivity) hle
        have hexponent_le := hreal.exponent_le e hexponent hpos.ne'
        have hpow : (10 : ℚ) ^ 309 ≤ 10 ^ e := by
          obtain ⟨n, rfl⟩ := Int.eq_ofNat_of_zero_le hpositive.2.le
          rw [zpow_natCast]
          exact pow_le_pow_right₀ (by norm_num) (by omega)
        have hlimit := limit_lt_ten_pow_309
        generalize (10 : ℚ) ^ 309 = g at hpow hlimit
        exfalso
        linarith
      · rfl
    · rw [Option.isSome_map]
      exact isSome_scaleFloat hbelow.value_le (by linarith) 8

/-- A finite double of at most half the greatest size is written as a literal that is read
as a double. -/
theorem isSome_float?_ofFiniteFloat {x : Float} (hx : x.isFinite = true)
    (h : 2 * |value x| ≤ limit) : (float? (Literal.ofFiniteFloat x)).isSome = true := by
  have hregular := Literal.regular_ofFiniteFloat x
  have hnumber := Decimal.Binary.number_ofBits hx
  unfold Literal.ofFiniteFloat at hregular ⊢
  dsimp only at hregular ⊢
  generalize Decimal.Binary.ofBits (x.toBits.toNat % Nat.pow 2 63) = b at hregular hnumber ⊢
  generalize (x.toBits.toNat / Nat.pow 2 63 == 1) = negative at hregular ⊢
  split at hregular
  · next hzero =>
    rw [if_pos hzero]
    cases negative <;> rfl
  · next hm =>
    rw [if_neg hm]
    refine isSome_float? hregular (b.shortest.isReal_literal negative) ?_
    have hshortest := b.number_shortest_le hm
    rw [b.shortest.number_literal]
    linarith [abs_nonneg (value x)]

/-- An infinity and what is no number are written as `null`, and that is read as no double. -/
theorem asFloat?_ofFloat_of_not_isFinite {x : Float} (h : ¬ x.isFinite = true) :
    (ofFloat x).asFloat? = none := by
  rw [ofFloat, if_neg h]
  rfl

/-- A double that is not among the greatest is read from its written form exactly if it is
finite. -/
theorem isSome_asFloat?_ofFloat_iff {x : Float} (h : x.isFinite = true → 2 * |value x| ≤ limit) :
    (ofFloat x).asFloat?.isSome = true ↔ x.isFinite = true := by
  constructor
  · intro hsome
    by_contra hinfinite
    rw [asFloat?_ofFloat_of_not_isFinite hinfinite] at hsome
    cases hsome
  · intro hfinite
    rw [ofFloat, if_pos hfinite]
    exact isSome_float?_ofFiniteFloat hfinite (h hfinite)

end Json

end DataQuality
