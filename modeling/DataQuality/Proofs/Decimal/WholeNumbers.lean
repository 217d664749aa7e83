import DataQuality.Decimal.Real
import DataQuality.Proofs.Decimal.Conversion
import DataQuality.Proofs.Decimal.Digits

/-!
# Whole numbers as doubles

A whole number from one on that is less than two to the power 53 is a double, and is not changed by
being read, by being multiplied by one, or by being converted to a double and back.
-/
namespace DataQuality.Double

open Float.Model
open Float.Model.UnpackedFloat

/-- Zeros that are shifted out leave no trace. -/
theorem shiftRight_zeros (r k : ℕ) :
    (⟨r * 2 ^ k, false, false⟩ : ExtendedMantissa) >>> k = ⟨r, false, false⟩ := by
  change k.repeat ExtendedMantissa.shiftRightOne _ = _
  induction k generalizing r with
  | zero => simp [Nat.repeat]
  | succ k ih =>
    have hsplit : r * 2 ^ (k + 1) = r * 2 * 2 ^ k := by ring
    rw [Nat.repeat, hsplit, ih]
    simp [ExtendedMantissa.shiftRightOne]

theorem log2_eq_of_bounds {r k : ℕ} (hlow : 2 ^ k ≤ r) (hhigh : r < 2 ^ (k + 1)) : r.log2 = k :=
  (Nat.log2_eq_iff (by have := Nat.two_pow_pos k; omega)).2 ⟨hlow, hhigh⟩

theorem parts_tenTable_zero : parts (tenTable 0) = ofParts .positive (2 ^ 52) (-52) := by
  rw [ofParts_pos .positive (by norm_num)]
  rfl

/-- A mantissa that is full, with zeros behind it, is kept as it is. -/
theorem roundWithAccuracy_zeros (s : Sign) {r k : ℕ} {e : ℤ} (hlow : 2 ^ 52 ≤ r) (hhigh : r < 2 ^ 53)
    (he : -1074 ≤ e + k) :
    roundWithAccuracy .binary64 s (r * 2 ^ k) e .exact = ofParts s r (e + k) := by
  have hlog : (r * 2 ^ k).log2 = 52 + k := by
    refine log2_eq_of_bounds ?_ ?_
    · rw [pow_add]
      exact Nat.mul_le_mul_right _ hlow
    · rw [Nat.add_right_comm, pow_add]
      exact Nat.mul_lt_mul_of_pos_right hhigh (by positivity)
  have hshift : shift (r * 2 ^ k) e = k := by
    unfold shift totalExponent
    omega
  have hkept : kept (r * 2 ^ k) e .exact = r := by
    unfold kept
    rw [hshift]
    change ((⟨r * 2 ^ k, false, false⟩ : ExtendedMantissa) >>> k).roundedMantissa = r
    rw [shiftRight_zeros]
    rfl
  have hdone : shift r (e + k) = 0 := by
    have hlog : r.log2 = 52 := log2_eq_of_bounds hlow hhigh
    unfold shift totalExponent
    omega
  rw [roundWithAccuracy_eq, hshift, hkept, hdone]
  simp

/-- The mantissa of a whole number, full of digits. -/
def fullMantissa (n : ℕ) : ℕ := n * 2 ^ (52 - n.log2)

/-- The exponent that belongs to it. -/
def fullExponent (n : ℕ) : ℤ := -((52 - n.log2 : ℕ) : ℤ)

/-- A double that is a whole number. -/
def IsWhole (n : ℕ) (x : Float) : Prop := parts x = ofParts .positive (fullMantissa n) (fullExponent n)

section

variable {n : ℕ} (hpos : 0 < n) (hlt : n < 2 ^ 53)
include hpos hlt

theorem log2_le : n.log2 ≤ 52 := by
  have := (Nat.log2_lt hpos.ne').2 hlt
  omega

theorem fullMantissa_bounds : 2 ^ 52 ≤ fullMantissa n ∧ fullMantissa n < 2 ^ 53 := by
  have hlog := log2_le hpos hlt
  have hlow : 2 ^ n.log2 ≤ n := Nat.log2_self_le hpos.ne'
  have hhigh : n < 2 ^ (n.log2 + 1) := Nat.lt_log2_self
  unfold fullMantissa
  constructor
  · calc 2 ^ 52 = 2 ^ n.log2 * 2 ^ (52 - n.log2) := by rw [← pow_add]; congr 1; omega
      _ ≤ n * 2 ^ (52 - n.log2) := Nat.mul_le_mul_right _ hlow
  · calc n * 2 ^ (52 - n.log2) < 2 ^ (n.log2 + 1) * 2 ^ (52 - n.log2) :=
        Nat.mul_lt_mul_of_pos_right hhigh (by positivity)
      _ = 2 ^ 53 := by rw [← pow_add]; congr 1; omega

theorem isCanonical_full : IsCanonical (fullMantissa n) (fullExponent n) := by
  obtain ⟨hlow, hhigh⟩ := fullMantissa_bounds hpos hlt
  exact ⟨hhigh, by unfold fullExponent; omega, .inl hlow⟩

/-- A whole number packed into a double. -/
theorem isWhole_ofUnpacked :
    IsWhole n (ofUnpacked (ofParts .positive (fullMantissa n) (fullExponent n))) := by
  unfold IsWhole
  rw [parts_ofUnpacked, unpack_pack_ofParts .positive (isCanonical_full hpos hlt), if_pos]
  unfold fullExponent
  omega

/-- A whole number is converted to itself. -/
theorem isWhole_toFloat : IsWhole n n.toUInt64.toFloat := by
  have hnat : n.toUInt64.toNat = n := UInt64.toNat_ofNat_of_lt' (hlt.trans (by decide))
  have hfloat : n.toUInt64.toFloat =
      ofUnpacked (UnpackedFloat.normalize .binary64 n.toUInt64.toNat 0 .positive) := rfl
  have hlog := log2_le hpos hlt
  have hround : UnpackedFloat.normalize .binary64 n 0 .positive =
      ofParts .positive (fullMantissa n) (fullExponent n) := by
    obtain ⟨hlow, hhigh⟩ := fullMantissa_bounds hpos hlt
    have hexponent : max (totalExponent n 0 - 53) (-1074) = fullExponent n := by
      unfold totalExponent fullExponent
      omega
    have hdigits : n * 2 ^ (0 - fullExponent n).toNat = fullMantissa n := by
      unfold fullMantissa fullExponent
      congr 2
      omega
    have hexact := roundWithAccuracy_zeros .positive (k := 0) (e := fullExponent n) hlow hhigh
      (by unfold fullExponent; omega)
    unfold UnpackedFloat.normalize UnpackedFloat.round
    rw [Int.compare_eq_gt.2 (by omega)]
    simp only [targetExponent_eq, decreaseExponent_eq, Int.toNat_natCast, hexponent, hdigits]
    have hback : 0 - ((0 - fullExponent n).toNat : ℤ) = fullExponent n := by
      unfold fullExponent
      omega
    rw [hback]
    simpa using hexact
  rw [hfloat, hnat, hround]
  exact isWhole_ofUnpacked hpos hlt

/-- A whole number times one is itself. -/
theorem isWhole_mul_one {x y : Float} (hx : IsWhole n x)
    (hy : parts y = ofParts .positive (2 ^ 52) (-52)) : IsWhole n (x * y) := by
  obtain ⟨hlow, hhigh⟩ := fullMantissa_bounds hpos hlt
  have hproduct : x * y = ofUnpacked (UnpackedFloat.mul .binary64 (parts x) (parts y)) := rfl
  have hmul : UnpackedFloat.mul .binary64 (parts x) (parts y) =
      roundWithAccuracy .binary64 .positive (fullMantissa n * 2 ^ 52) (fullExponent n + -52) .exact := by
    unfold IsWhole at hx
    rw [hx, hy, ofParts_pos _ (by omega), ofParts_pos _ (by norm_num)]
    rfl
  have hexact := roundWithAccuracy_zeros .positive (k := 52) (e := fullExponent n + -52) hlow hhigh
    (by unfold fullExponent; omega)
  have hexponent : fullExponent n + -52 + (52 : ℕ) = fullExponent n := by omega
  rw [hexponent] at hexact
  rw [hproduct, hmul, hexact]
  exact isWhole_ofUnpacked hpos hlt

/-- A whole number is read as itself. -/
theorem isWhole_ofScientific : IsWhole n (Float.ofScientific n false 0) := by
  unfold Float.ofScientific
  rw [dif_pos ⟨hlt, by omega⟩]
  exact isWhole_mul_one hpos hlt (isWhole_toFloat hpos hlt) parts_tenTable_zero

/-- A whole number is converted back to itself. -/
theorem toNat_toUInt64 {x : Float} (hx : IsWhole n x) : x.toUInt64.toNat = n := by
  obtain ⟨hlow, hhigh⟩ := fullMantissa_bounds hpos hlt
  have hparts : parts x = .finite .positive (fullMantissa n) (fullExponent n) (by omega) := by
    rw [← ofParts_pos]
    exact hx
  have hconvert : x.toUInt64 =
      UInt64.ofNatClamp ((parts x).toInt 0 (UInt64.size - 1)).toNat := rfl
  have hint : (parts x).toInt 0 (UInt64.size - 1) = n := by
    have hexponent : (0 - fullExponent n).toNat = 52 - n.log2 := by
      unfold fullExponent
      omega
    have hnone : (fullExponent n).toNat = 0 := by
      unfold fullExponent
      omega
    rw [hparts]
    change roundToInt .positive (fullMantissa n) (fullExponent n) = n
    unfold roundToInt shiftToExponent
    simp only [decreaseExponent_eq, sub_zero, hnone, pow_zero, Nat.mul_one, Nat.cast_zero, hexponent,
      mantissa_shiftRight, mantissa_ofMantissaAndAccuracy]
    change ((fullMantissa n / 2 ^ (52 - n.log2) : ℕ) : ℤ) = n
    rw [fullMantissa, Nat.mul_div_cancel _ (by positivity)]
  rw [hconvert, hint, Int.toNat_natCast]
  exact UInt64.toNat_ofNatClamp_of_lt (hlt.trans (by decide))

/-- Two doubles of one whole number are equal. -/
theorem beq_of_isWhole {x y : Float} (hx : IsWhole n x) (hy : IsWhole n y) : (x == y) = true := by
  obtain ⟨hlow, hhigh⟩ := fullMantissa_bounds hpos hlt
  unfold IsWhole at hx hy
  rw [beq_iff, hx, hy, ofParts_pos _ (by omega)]
  simp [UnpackedFloat.compare]

theorem not_lt_one {x y : Float} (hx : IsWhole n x)
    (hy : parts y = ofParts .positive (2 ^ 52) (-52)) : ¬ x < y := by
  obtain ⟨hlow, hhigh⟩ := fullMantissa_bounds hpos hlt
  unfold IsWhole at hx
  rw [lt_iff, hx, hy, ofParts_pos _ (by omega), ofParts_pos _ (by norm_num)]
  intro hless
  have hlex := lex_of_compare (Option.some.inj hless)
  unfold fullExponent at hlex
  omega

end

theorem parts_one : parts 1.0 = ofParts .positive (2 ^ 52) (-52) := rfl

/-- A number that is not below one is converted to a whole number from one on. -/
theorem one_le_toNat_toUInt64 {x : Float} (hone : ¬ x < 1.0) (hnumber : parts x ≠ .notANumber) :
    1 ≤ x.toUInt64.toNat := by
  have hconvert : x.toUInt64 =
      UInt64.ofNatClamp ((parts x).toInt 0 (UInt64.size - 1)).toNat := rfl
  have hclamp {i : ℤ} (hi : 1 ≤ i) : 1 ≤ (UInt64.ofNatClamp i.toNat).toNat := by
    by_cases hlt : i.toNat < UInt64.size
    · rw [UInt64.toNat_ofNatClamp_of_lt hlt]
      omega
    · rw [UInt64.toNat_ofNatClamp_of_le (Nat.le_of_not_lt hlt)]
      decide
  rw [hconvert]
  refine hclamp ?_
  rw [lt_iff, parts_one, ofParts_pos .positive (by norm_num)] at hone
  rcases parts_cases x with hx | ⟨s, hx⟩ | ⟨s, m, e, hx, hcanonical, -⟩
  · exact absurd hx hnumber
  · rw [hx] at hone ⊢
    cases s with
    | negative => exact absurd rfl hone
    | positive => decide
  rw [hx] at hone ⊢
  rcases Nat.eq_zero_or_pos m with rfl | hm
  · exact absurd rfl hone
  rw [ofParts_pos s hm] at hone ⊢
  cases s with
  | negative => exact absurd rfl hone
  | positive =>
    have hlex : ¬ (compare e (-52)).then (compare m (2 ^ 52)) = .lt := fun h => hone (congrArg some h)
    have hexponent : -52 ≤ e := by
      by_contra hlt
      exact hlex (Ordering.then_eq_lt.2 (.inl (Int.compare_eq_lt.2 (by omega))))
    have hmantissa : 2 ^ 52 ≤ m := hcanonical.full.resolve_right (by omega)
    change 1 ≤ roundToInt .positive m e
    unfold roundToInt shiftToExponent
    simp only [decreaseExponent_eq, mantissa_shiftRight, mantissa_ofMantissaAndAccuracy]
    change (1 : ℤ) ≤ ((m * 2 ^ (e - 0).toNat / 2 ^ (0 - (e - (e - 0).toNat)).toNat : ℕ) : ℤ)
    have hshift : 2 ^ (0 - (e - (e - 0).toNat)).toNat ≤ m * 2 ^ (e - 0).toNat := calc
      2 ^ (0 - (e - (e - 0).toNat)).toNat ≤ 2 ^ 52 := Nat.pow_le_pow_right (by norm_num) (by omega)
      _ ≤ m := hmantissa
      _ ≤ m * 2 ^ (e - 0).toNat := Nat.le_mul_of_pos_right m (by positivity)
    exact_mod_cast Nat.div_pos hshift (by positivity)

/-- What is no number is equal to nothing. -/
theorem parts_ne_of_beq {x y : Float} (h : (x == y) = true) : parts y ≠ .notANumber := by
  intro hy
  rw [beq_iff, hy] at h
  cases hx : parts x <;> rw [hx] at h <;> cases h

end DataQuality.Double

namespace DataQuality.Decimal

open Double

/-- No name of a value begins with a digit. -/
theorem readNamed?_of_digit {c : Char} (hc : isDigit c = true) (cs : List Char) :
    readNamed? (c :: cs) = none := by
  obtain ⟨-, hhigh⟩ := toNat_of_isDigit hc
  have hlower : c.toLower = c := by
    unfold Char.toLower
    rw [dif_neg]
    rintro ⟨hupper, -⟩
    have : 65 ≤ c.toNat := hupper
    omega
  have hother (name : String) (hname : name.toList.head?.any (·.toNat ≤ 57) = false) :
      String.ofList ((c :: cs).map Char.toLower) ≠ name := by
    rintro rfl
    rw [String.toList_ofList, List.map_cons, hlower] at hname
    exact absurd hhigh (by simpa using hname)
  unfold readNamed?
  simp only [hother "inf" (by decide), hother "infinity" (by decide), hother "nan" (by decide),
    decide_false, Bool.or_self, Bool.false_eq_true, if_false]

/-- The digits of a whole number are read as it. -/
theorem readFloat?_natDigits {n : ℕ} (hpos : 0 < n) (hlt : n < 2 ^ 53) :
    ∃ x, readFloat? (natDigits n) = some x ∧ IsWhole n x := by
  refine ⟨Float.ofScientific n false 0, ?_, isWhole_ofScientific hpos hlt⟩
  have hdigit : ∀ c ∈ natDigits n, isDigit c = true := fun c hc => isDigit_of_mem_natDigits hc
  have hspan : (natDigits n ++ []).span isDigit = (natDigits n, []) := span_digits hdigit rfl
  have hlength : (natDigits n).length ≤ 16 :=
    (Nat.length_toDigits_le_iff (by norm_num) (by norm_num)).2 (hlt.trans (by norm_num))
  have hunsigned : readUnsigned? false (natDigits n) = some ⟨false, n, 0⟩ := by
    rw [List.append_nil] at hspan
    unfold readUnsigned? spanDigits
    rw [hspan]
    simp [natDigits_ne_nil]
  have hmagnitude : readMagnitude? false (natDigits n) = some (Float.ofScientific n false 0) := by
    have hnamed : readNamed? (natDigits n) = none := by
      obtain ⟨d, ds, hcons, hd⟩ := natDigits_eq_cons n
      rw [hcons]
      exact readNamed?_of_digit hd ds
    unfold readMagnitude?
    rw [hnamed, hunsigned]
    dsimp only [Option.map_some]
    unfold Scientific.toFloat
    dsimp only
    rw [if_neg Bool.false_ne_true, if_neg hpos.ne', if_neg (by omega), if_neg (by omega),
      if_neg (by omega)]
    rfl
  unfold readFloat?
  split
  · next hsign => exact absurd (hdigit '-' (hsign ▸ List.mem_cons_self)) (by decide)
  · next hsign => exact absurd (hdigit '+' (hsign ▸ List.mem_cons_self)) (by decide)
  · exact hmagnitude

end DataQuality.Decimal
