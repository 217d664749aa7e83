import Mathlib

/-!
# Rounding to doubles

A finite double has a sign, a mantissa and an exponent, in a canonical form that rounding
produces and that packing into bits keeps. Rounding changes a number by no more than the
number itself, made greater by one, divided by two to the power 52, and a number that is
not of an exponent too great for doubles stays finite.
-/
namespace DataQuality.Double

open Float.Model
open Float.Model.UnpackedFloat

/-- The mantissa and the exponent of a finite double. -/
structure IsCanonical (m : ℕ) (e : ℤ) : Prop where
  mantissa_lt : m < 2 ^ 53
  exponent_ge : -1074 ≤ e
  full : 2 ^ 52 ≤ m ∨ e = -1074

/-- A mantissa with enough digits that rounding has none to add. -/
def IsFine (m : ℕ) (e : ℤ) : Prop := 2 ^ 52 ≤ m ∨ e ≤ -1074

/-- A zero or a finite number with this sign, mantissa and exponent. -/
def ofParts (s : Sign) (m : ℕ) (e : ℤ) : UnpackedFloat :=
  if h : m = 0 then .zero s else .finite s m e (Nat.pos_of_ne_zero h)

theorem targetExponent_eq (t : ℤ) : Format.binary64.targetExponent t = max (t - 53) (-1074) := by
  rfl

theorem mantissa_shiftRight (em : ExtendedMantissa) (k : ℕ) :
    (em >>> k).mantissa = em.mantissa / 2 ^ k := by
  change (k.repeat ExtendedMantissa.shiftRightOne em).mantissa = _
  induction k with
  | zero => simp [Nat.repeat]
  | succ k ih =>
    rw [Nat.repeat]
    change (k.repeat ExtendedMantissa.shiftRightOne em).mantissa / 2 = _
    rw [ih, Nat.div_div_eq_div_mul, pow_succ]

theorem roundedMantissa_bounds (em : ExtendedMantissa) :
    em.mantissa ≤ em.roundedMantissa ∧ em.roundedMantissa ≤ em.mantissa + 1 := by
  obtain ⟨m, r, s⟩ := em
  have hparity : m % 2 ≤ 1 := by omega
  cases r <;> cases s <;>
    simp only [ExtendedMantissa.roundedMantissa, ExtendedMantissa.accuracy,
      Accuracy.roundToNearestEven] <;> omega

theorem mantissa_ofMantissaAndAccuracy (m : ℕ) (acc : Accuracy) :
    (ExtendedMantissa.ofMantissaAndAccuracy m acc).mantissa = m := by
  unfold ExtendedMantissa.ofMantissaAndAccuracy
  split <;> rfl

/-- How far the digits are shifted before they are rounded. -/
def shift (m : ℕ) (e : ℤ) : ℕ :=
  (max (totalExponent m e - 53) (-1074) - e).toNat

theorem shiftToTargetExponent_eq (m : ℕ) (e : ℤ) (acc : Accuracy) :
    shiftToTargetExponent .binary64 m e acc =
      (ExtendedMantissa.ofMantissaAndAccuracy m acc >>> shift m e, e + shift m e) := rfl

/-- Rounded digits, at most one too many, are brought to the canonical form, and their
number stays the same. -/
theorem canonical_shift {r : ℕ} {e : ℤ} (hr : r ≤ 2 ^ 53) (he : -1074 ≤ e)
    (hfull : 2 ^ 52 ≤ r ∨ e = -1074) :
    IsCanonical (r / 2 ^ shift r e) (e + shift r e) ∧
      r / 2 ^ shift r e * 2 ^ shift r e = r := by
  by_cases hlt : r < 2 ^ 53
  · have hlog : r.log2 < 53 := by
      rcases Nat.eq_zero_or_pos r with rfl | hpos
      · decide
      · exact (Nat.log2_lt hpos.ne').2 hlt
    have hshift : shift r e = 0 := by
      unfold shift totalExponent
      omega
    rw [hshift]
    simp only [pow_zero, Nat.div_one, Nat.mul_one, and_true, Nat.cast_zero, add_zero]
    exact ⟨hlt, he, hfull⟩
  · obtain rfl : r = 2 ^ 53 := by omega
    have hshift : shift (2 ^ 53) e = 1 := by
      unfold shift totalExponent
      rw [Nat.log2_two_pow]
      omega
    rw [hshift]
    refine ⟨⟨by norm_num, by omega, .inl (by norm_num)⟩, by norm_num⟩

/-- What is left of fine digits when they are shifted fits into a double. -/
theorem shifted_bounds {m : ℕ} {e : ℤ} (h : IsFine m e) :
    m / 2 ^ shift m e < 2 ^ 53 ∧ -1074 ≤ e + shift m e ∧
      (2 ^ 52 ≤ m / 2 ^ shift m e ∨ e + shift m e = -1074) := by
  have hupper : m < 2 ^ (m.log2 + 1) := Nat.lt_log2_self
  have htotal : totalExponent m e = m.log2 + 1 + e := rfl
  refine ⟨?_, ?_, ?_⟩
  · have hexponent : m.log2 + 1 ≤ 53 + shift m e := by
      unfold shift
      omega
    rw [Nat.div_lt_iff_lt_mul (by positivity), ← pow_add]
    exact hupper.trans_le (Nat.pow_le_pow_right (by norm_num) hexponent)
  · unfold shift
    omega
  · by_cases hm : m = 0
    · subst hm
      right
      have he : e ≤ -1074 := h.resolve_left (by norm_num)
      unfold shift totalExponent
      simp only [Nat.log2_zero]
      omega
    have hlower : 2 ^ m.log2 ≤ m := Nat.log2_self_le hm
    by_cases hsmall : (m.log2 : ℤ) + 1 + e - 53 ≤ -1074
    · right
      have he : e ≤ -1074 := by
        rcases h with hfull | he
        · have hlog : 52 ≤ m.log2 := (Nat.le_log2 hm).2 hfull
          omega
        · exact he
      unfold shift
      omega
    · left
      have hlog : 52 ≤ m.log2 := by
        rcases h with hfull | he
        · exact (Nat.le_log2 hm).2 hfull
        · omega
      have hexponent : 52 + shift m e = m.log2 := by
        unfold shift
        omega
      rw [Nat.le_div_iff_mul_le (by positivity), ← pow_add, hexponent]
      exact hlower

/-- A step of the last digit is small beside the number, or beside one. -/
theorem two_zpow_shift_le {m : ℕ} {e : ℤ} (h : IsFine m e) {v : ℚ} (hv : (m : ℚ) * 2 ^ e ≤ v) :
    (2 : ℚ) ^ (e + shift m e) ≤ (v + 1) / 2 ^ 52 := by
  have hm : (0 : ℚ) ≤ m * 2 ^ e := by positivity
  rw [le_div_iff₀ (by positivity)]
  rcases (shifted_bounds h).2.2 with hfull | hsmall
  · have hnat : 2 ^ 52 * 2 ^ shift m e ≤ m := by
      rwa [← Nat.le_div_iff_mul_le (by positivity)]
    have hrat : (2 : ℚ) ^ 52 * 2 ^ shift m e ≤ m := by exact_mod_cast hnat
    have hstep : (2 : ℚ) ^ (e + shift m e) * 2 ^ 52 ≤ m * 2 ^ e := calc
      (2 : ℚ) ^ (e + shift m e) * 2 ^ 52 = (2 : ℚ) ^ 52 * 2 ^ shift m e * 2 ^ e := by
        rw [zpow_add₀ (by norm_num), zpow_natCast]
        ring
      _ ≤ (m : ℚ) * 2 ^ e := mul_le_mul_of_nonneg_right hrat (by positivity)
    linarith
  · rw [hsmall]
    have hstep : (2 : ℚ) ^ (-1074 : ℤ) * 2 ^ 52 ≤ 1 := by
      rw [← zpow_natCast, ← zpow_add₀ (by norm_num)]
      exact zpow_le_one_of_nonpos₀ (by norm_num) (by norm_num)
    linarith

/-- The digits that rounding keeps. -/
def kept (m : ℕ) (e : ℤ) (acc : Accuracy) : ℕ :=
  (ExtendedMantissa.ofMantissaAndAccuracy m acc >>> shift m e).roundedMantissa

theorem kept_bounds (m : ℕ) (e : ℤ) (acc : Accuracy) :
    m / 2 ^ shift m e ≤ kept m e acc ∧ kept m e acc ≤ m / 2 ^ shift m e + 1 := by
  have h := roundedMantissa_bounds (ExtendedMantissa.ofMantissaAndAccuracy m acc >>> shift m e)
  rwa [mantissa_shiftRight, mantissa_ofMantissaAndAccuracy] at h

theorem roundWithAccuracy_eq (s : Sign) (m : ℕ) (e : ℤ) (acc : Accuracy) :
    roundWithAccuracy .binary64 s m e acc =
      ofParts s (kept m e acc / 2 ^ shift (kept m e acc) (e + shift m e))
        (e + shift m e + shift (kept m e acc) (e + shift m e)) := by
  unfold roundWithAccuracy
  simp only [shiftToTargetExponent_eq, mantissa_shiftRight, mantissa_ofMantissaAndAccuracy]
  rfl

/-- A number between two neighbouring mantissas is rounded to one near it. -/
theorem exists_roundWithAccuracy (s : Sign) {m : ℕ} {e : ℤ} (h : IsFine m e) (acc : Accuracy)
    {v : ℚ} (hlow : (m : ℚ) * 2 ^ e ≤ v) (hhigh : v ≤ (m + 1) * 2 ^ e) :
    ∃ r E, roundWithAccuracy .binary64 s m e acc = ofParts s r E ∧ IsCanonical r E ∧
      |(r : ℚ) * 2 ^ E - v| ≤ (v + 1) / 2 ^ 52 := by
  obtain ⟨hlt, hge, hfull⟩ := shifted_bounds h
  obtain ⟨hfloor, hceil⟩ := kept_bounds m e acc
  have hstep := two_zpow_shift_le h hlow
  rw [roundWithAccuracy_eq]
  generalize kept m e acc = r at hfloor hceil ⊢
  generalize shift m e = k at *
  obtain ⟨hcanonical, hexact⟩ := canonical_shift (r := r) (by omega) hge (by omega)
  refine ⟨_, _, rfl, hcanonical, ?_⟩
  generalize shift r (e + k) = j at hexact ⊢
  have hsame : ((r / 2 ^ j : ℕ) : ℚ) * 2 ^ (e + k + j) = r * 2 ^ k * 2 ^ e := by
    have hrat : ((r / 2 ^ j : ℕ) : ℚ) * 2 ^ j = r := by exact_mod_cast hexact
    rw [zpow_add₀ (by norm_num), zpow_add₀ (by norm_num), zpow_natCast, zpow_natCast, ← hrat]
    ring
  have hlower : m + 1 ≤ r * 2 ^ k + 2 ^ k := by
    have hdiv := Nat.lt_div_mul_add (a := m) (Nat.two_pow_pos k)
    have hmul := Nat.mul_le_mul_right (2 ^ k) hfloor
    omega
  have hupper : r * 2 ^ k ≤ m + 2 ^ k := by
    have hdiv := Nat.div_mul_le_self m (2 ^ k)
    have hmul := Nat.mul_le_mul_right (2 ^ k) hceil
    rw [Nat.add_mul] at hmul
    omega
  have hlower' : ((m : ℚ) + 1) * 2 ^ e ≤ (r * 2 ^ k + 2 ^ k) * 2 ^ e :=
    mul_le_mul_of_nonneg_right (by exact_mod_cast hlower) (by positivity)
  have hupper' : (r * 2 ^ k : ℚ) * 2 ^ e ≤ (m + 2 ^ k) * 2 ^ e :=
    mul_le_mul_of_nonneg_right (by exact_mod_cast hupper) (by positivity)
  rw [zpow_add₀ (by norm_num), zpow_natCast] at hstep
  rw [hsame, abs_le]
  constructor <;> linarith

/-- What bits are unpacked to. -/
theorem unpack_eq (b : BitVec Format.binary64.numBits) :
    UnpackedFloat.unpack .binary64 b =
      if unpackExponent b = -1#11 then
        if unpackMantissa b = 0#52 then .infinity (Sign.ofBitVec (unpackSign b)) else .notANumber
      else if unpackExponent b = 0#11 then
        ofParts (Sign.ofBitVec (unpackSign b)) (unpackMantissa b).toNat (-1074)
      else
        ofParts (Sign.ofBitVec (unpackSign b)) (2 ^ 52 + (unpackMantissa b).toNat)
          ((unpackExponent b).toNat - 1075) := by
  unfold UnpackedFloat.unpack ofParts
  change (if unpackExponent b = -1#11 then if unpackMantissa b = 0#52 then _ else _
    else if unpackExponent b = 0#11 then if h : unpackMantissa b = 0#52 then _ else _
    else _) = _
  by_cases hones : unpackExponent b = -1#11
  · rw [if_pos hones, if_pos hones]
  rw [if_neg hones, if_neg hones]
  by_cases hzero : unpackExponent b = 0#11
  · rw [if_pos hzero, if_pos hzero]
    by_cases hm : unpackMantissa b = 0#52
    · have hnat : (unpackMantissa b).toNat = 0 := congrArg BitVec.toNat hm
      rw [dif_pos hm, dif_pos hnat]
    · have hnat : (unpackMantissa b).toNat ≠ 0 := fun h => hm (BitVec.eq_of_toNat_eq h)
      rw [dif_neg hm, dif_neg hnat, hzero]
      rfl
  · have happend : (1#1 ++ unpackMantissa b).toNat = 2 ^ 52 + (unpackMantissa b).toNat := by
      rw [BitVec.toNat_append, ← Nat.shiftLeft_add_eq_or_of_lt (unpackMantissa b).isLt]
      simp [Nat.shiftLeft_eq]
    rw [if_neg hzero, if_neg hzero, dif_neg (by omega)]
    simp only [happend]
    rfl

/-- The parts of a double are of the canonical form. -/
theorem unpack_cases (b : BitVec Format.binary64.numBits) :
    UnpackedFloat.unpack .binary64 b = .notANumber ∨
      (∃ s, UnpackedFloat.unpack .binary64 b = .infinity s) ∨
      ∃ s m e, UnpackedFloat.unpack .binary64 b = ofParts s m e ∧ IsCanonical m e ∧ e < 972 := by
  rw [unpack_eq]
  generalize unpackMantissa b = m, unpackExponent b = e, Sign.ofBitVec (unpackSign b) = s
  change BitVec 52 at m
  change BitVec 11 at e
  have hm : m.toNat < 2 ^ 52 := m.isLt
  have he : e.toNat < 2 ^ 11 := e.isLt
  split
  · split
    · exact .inr (.inl ⟨s, rfl⟩)
    · exact .inl rfl
  next hones =>
  right
  right
  split
  · exact ⟨s, _, _, rfl, ⟨by omega, by omega, .inr rfl⟩, by omega⟩
  next hzero =>
  have hones : e.toNat ≠ 2047 := fun h => hones (BitVec.eq_of_toNat_eq h)
  have hzero : e.toNat ≠ 0 := fun h => hzero (BitVec.eq_of_toNat_eq h)
  exact ⟨s, _, _, rfl, ⟨by omega, by omega, .inl (by omega)⟩, by omega⟩

/-- What packed parts are unpacked to. -/
theorem unpack_packComponents (s : Sign) (e : BitVec 11) (m : BitVec 52) :
    UnpackedFloat.unpack .binary64 (packComponents .binary64 s e m) =
      if e = -1#11 then if m = 0#52 then .infinity s else .notANumber
      else if e = 0#11 then ofParts s m.toNat (-1074)
      else ofParts s (2 ^ 52 + m.toNat) (e.toNat - 1075) := by
  rw [unpack_eq, unpackMantissa_packComponents, unpackExponent_packComponents,
    unpackSign_packComponents, Sign.ofBitVec_toBitVec]

theorem unpack_pack_infinity (s : Sign) :
    UnpackedFloat.unpack .binary64 (UnpackedFloat.pack .binary64 (.infinity s)) = .infinity s := by
  change UnpackedFloat.unpack _ (packComponents .binary64 s (-1#11) 0#52) = _
  rw [unpack_packComponents, if_pos rfl, if_pos rfl]

theorem unpack_pack_notANumber :
    UnpackedFloat.unpack .binary64 (UnpackedFloat.pack .binary64 .notANumber) = .notANumber :=
  unpack_packedNaN

/-- A mantissa of the full length is packed without its first bit. -/
theorem unpack_packComponents_full (s : Sign) {m : ℕ} {e : ℤ} (hfull : 2 ^ 52 ≤ m)
    (hlt : m < 2 ^ 53) (hge : -1074 ≤ e) (hfits : e < 972) :
    UnpackedFloat.unpack .binary64 (packComponents .binary64 s
      (BitVec.ofNat 11 (e + 1075).toNat) (BitVec.ofNat 52 m)) = ofParts s m e := by
  have he : (BitVec.ofNat 11 (e + 1075).toNat).toNat = (e + 1075).toNat := by
    rw [BitVec.toNat_ofNat]
    omega
  have hm : (BitVec.ofNat 52 m).toNat = m - 2 ^ 52 := by
    rw [BitVec.toNat_ofNat]
    omega
  have hones : BitVec.ofNat 11 (e + 1075).toNat ≠ -1#11 := by
    intro h
    have hnat := congrArg BitVec.toNat h
    rw [he] at hnat
    change _ = 2047 at hnat
    omega
  have hzero : BitVec.ofNat 11 (e + 1075).toNat ≠ 0#11 := by
    intro h
    have hnat := congrArg BitVec.toNat h
    rw [he] at hnat
    change _ = 0 at hnat
    omega
  have hadd : 2 ^ 52 + (m - 2 ^ 52) = m := by omega
  have hsub : ((e + 1075).toNat : ℤ) - 1075 = e := by omega
  rw [unpack_packComponents, if_neg hones, if_neg hzero, he, hm, hadd, hsub]

/-- A shorter mantissa is packed as a whole, with the least exponent. -/
theorem unpack_packComponents_short (s : Sign) {m : ℕ} (hlt : m < 2 ^ 52) :
    UnpackedFloat.unpack .binary64 (packComponents .binary64 s 0#11 (BitVec.ofNat 52 m)) =
      ofParts s m (-1074) := by
  have hm : (BitVec.ofNat 52 m).toNat = m := by
    rw [BitVec.toNat_ofNat]
    omega
  rw [unpack_packComponents, if_neg (by decide), if_pos rfl, hm]

/-- A number of the canonical form is a double, unless it is too great. -/
theorem unpack_pack_ofParts (s : Sign) {m : ℕ} {e : ℤ} (h : IsCanonical m e) :
    UnpackedFloat.unpack .binary64 (UnpackedFloat.pack .binary64 (ofParts s m e)) =
      if e < 972 then ofParts s m e else .infinity s := by
  obtain ⟨hlt, hge, hfull⟩ := h
  by_cases hm : m = 0
  · obtain rfl : e = -1074 := hfull.resolve_left (by omega)
    subst hm
    rw [if_pos (by norm_num)]
    exact unpack_packComponents_short s (by norm_num)
  have hbiased : (e + Format.binary64.exponentBias +
      Format.binary64.mantissaBitsWithoutImplicit).toNat = (e + 1075).toNat := by
    change (e + 1023 + 52).toNat = _
    omega
  have hparts : ofParts s m e = .finite s m e (Nat.pos_of_ne_zero hm) := dif_neg hm
  rw [hparts, UnpackedFloat.pack, hbiased, ← hparts]
  split
  · next hgreat =>
    change 2048 ≤ _ at hgreat
    have hover : ¬ e < 972 := by omega
    rw [if_neg hover]
    exact unpack_pack_infinity s
  next hsmall =>
  change ¬ 2048 ≤ _ at hsmall
  have hfits : e < 972 := by omega
  rw [if_pos hfits]
  by_cases hnormal : 2 ^ 52 ≤ m
  · have hlog : m.log2 = 52 := (Nat.log2_eq_iff hm).2 ⟨hnormal, hlt⟩
    have hbits : m.log2 + 1 = Format.binary64.mantissaBits := by
      rw [hlog]
      rfl
    rw [if_pos hbits]
    exact unpack_packComponents_full s hnormal hlt hge hfits
  · have hlog : m.log2 < 52 := (Nat.log2_lt hm).2 (by omega)
    have hbits : ¬ m.log2 + 1 = Format.binary64.mantissaBits := by
      change ¬ m.log2 + 1 = 53
      omega
    rw [if_neg hbits, hfull.resolve_left hnormal]
    exact unpack_packComponents_short s (by omega)

end DataQuality.Double
