import DataQuality.Proofs.Decimal.Rounding

/-!
# Arithmetic of doubles

A finite double stands for a rational number. Adding, subtracting, multiplying and dividing
finite doubles gives a finite double near the exact result and of its sign, or the infinity
of its sign if the result is great.
-/
namespace DataQuality.Double

open Float.Model
open Float.Model.UnpackedFloat

/-- The parts of a double. -/
def parts (x : Float) : UnpackedFloat := x.toModel.unpack

/-- The double that is packed from these parts. -/
def ofUnpacked (u : UnpackedFloat) : Float := .ofModel (Float.Model.pack u)

theorem parts_ofUnpacked (u : UnpackedFloat) :
    parts (ofUnpacked u) = UnpackedFloat.unpack .binary64 (UnpackedFloat.pack .binary64 u) := rfl

/-- A number with a sign. -/
def signed (s : Sign) (v : ℚ) : ℚ :=
  match s with
  | .negative => -v
  | .positive => v

/-- The number that a finite double stands for. -/
def value (x : Float) : ℚ :=
  match parts x with
  | .finite s m e _ => signed s (m * 2 ^ e)
  | _ => 0

/-- A bound below which no number is rounded to an infinity. The least number beyond all
doubles is a fifteenth greater. -/
def limit : ℚ := 15 * 2 ^ 1020

theorem two_pow_le_limit {k : ℕ} (hk : k ≤ 1020) : 2 ^ k ≤ limit := calc
  (2 : ℚ) ^ k ≤ 2 ^ 1020 := pow_le_pow_right₀ (by norm_num) hk
  _ ≤ 15 * 2 ^ 1020 := le_mul_of_one_le_left (by positivity) (by norm_num)

theorem two_pow_eq_limit : (2 : ℚ) ^ 1024 = 16 / 15 * limit := by
  have hpow : (2 : ℚ) ^ 1024 = 2 ^ 4 * 2 ^ 1020 := pow_add 2 4 1020
  rw [hpow, limit]
  generalize (2 : ℚ) ^ 1020 = p
  ring

theorem abs_signed (s : Sign) (v : ℚ) : |signed s v| = |v| := by
  cases s
  · exact abs_neg v
  · rfl

@[simp] theorem signed_zero (s : Sign) : signed s 0 = 0 := by
  cases s
  · exact neg_zero
  · rfl

theorem signed_signed (s : Sign) (v : ℚ) : signed s (signed s v) = v := by
  cases s
  · exact neg_neg v
  · rfl

theorem signed_sub (s : Sign) (v w : ℚ) : signed s v - signed s w = signed s (v - w) := by
  cases s
  · exact (neg_sub_neg v w).trans (neg_sub v w).symm
  · rfl

theorem signed_neg (s : Sign) (v : ℚ) : signed (-s) v = -signed s v := by
  cases s
  · exact (neg_neg v).symm
  · rfl

theorem signed_mul (s t : Sign) (v w : ℚ) : signed (s * t) (v * w) = signed s v * signed t w := by
  cases s <;> cases t
  · exact (neg_mul_neg v w).symm
  · exact (neg_mul v w).symm
  · exact (mul_neg v w).symm
  · rfl

theorem signed_div (s t : Sign) (v w : ℚ) : signed (s / t) (v / w) = signed s v / signed t w := by
  cases s <;> cases t
  · exact (neg_div_neg_eq v w).symm
  · exact (neg_div w v).symm
  · exact (div_neg v).symm
  · rfl

theorem apply_mul (s : Sign) (m : ℕ) (v : ℚ) : (s.apply m : ℚ) * v = signed s (m * v) := by
  cases s <;> simp [Sign.apply, signed]

theorem parts_cases (x : Float) :
    parts x = .notANumber ∨ (∃ s, parts x = .infinity s) ∨
      ∃ s m e, parts x = ofParts s m e ∧ IsCanonical m e ∧ e < 972 := unpack_cases _

theorem isFinite_eq (x : Float) : x.isFinite = (parts x).isFinite := rfl

section

variable {x y : Float} {s : Sign} {m : ℕ} {e : ℤ} {v : ℚ}

theorem ofParts_zero (s : Sign) (e : ℤ) : ofParts s 0 e = .zero s := rfl

theorem ofParts_pos (s : Sign) (hm : 0 < m) (e : ℤ) : ofParts s m e = .finite s m e hm :=
  dif_neg hm.ne'

theorem isFinite_of_parts (h : parts x = ofParts s m e) : x.isFinite = true := by
  rw [isFinite_eq, h, ofParts]
  split <;> rfl

theorem isInf_of_isFinite (h : x.isFinite = true) : x.isInf = false := by
  have hinf : x.isInf = (parts x).isInf := rfl
  rw [isFinite_eq] at h
  rw [hinf]
  cases hx : parts x with
  | infinity s =>
    rw [hx] at h
    cases h
  | _ => rfl

theorem exists_parts (h : x.isFinite = true) :
    ∃ s m e, parts x = ofParts s m e ∧ IsCanonical m e ∧ e < 972 := by
  rw [isFinite_eq] at h
  rcases parts_cases x with hx | ⟨s, hx⟩ | hx
  · rw [hx] at h
    cases h
  · rw [hx] at h
    cases h
  · exact hx

theorem value_of_parts (h : parts x = ofParts s m e) : value x = signed s (m * 2 ^ e) := by
  unfold value
  rw [h, ofParts]
  by_cases hm : m = 0
  · rw [dif_pos hm, hm]
    cases s <;> simp [signed]
  · rw [dif_neg hm]

/-- What a number is rounded to: a finite double near it and of its sign, or if it is
great the infinity of its sign. -/
inductive Near (v : ℚ) (x : Float) : Prop
  | finite (hx : x.isFinite = true) (herror : |value x - v| ≤ (|v| + 1) / 2 ^ 52)
      (hnonneg : 0 ≤ v → 0 ≤ value x) (hnonpos : v ≤ 0 → value x ≤ 0)
  | infinite (s : Sign) (hx : parts x = .infinity s) (hv : limit ≤ signed s v)

/-- A finite double is near the number it stands for. -/
theorem near_value (h : x.isFinite = true) : Near (value x) x :=
  .finite h (by rw [sub_self, abs_zero]; positivity) id id

/-- Parts of the canonical form that are near a number are packed to a double near it. -/
theorem near_ofParts (s : Sign) (h : IsCanonical m e) (hv : 0 < v)
    (herror : |(m : ℚ) * 2 ^ e - v| ≤ (v + 1) / 2 ^ 52) :
    Near (signed s v) (ofUnpacked (ofParts s m e)) := by
  have hparts := parts_ofUnpacked (ofParts s m e)
  rw [unpack_pack_ofParts s h] at hparts
  by_cases he : e < 972
  · rw [if_pos he] at hparts
    have hpos : (0 : ℚ) ≤ m * 2 ^ e := by positivity
    refine .finite (isFinite_of_parts hparts) ?_ ?_ ?_
    · rw [value_of_parts hparts, signed_sub, abs_signed, abs_signed, abs_of_pos hv]
      exact herror
    · rw [value_of_parts hparts]
      cases s
      · intro hneg
        have : 0 ≤ -v := hneg
        linarith
      · exact fun _ => hpos
    · rw [value_of_parts hparts]
      cases s
      · exact fun _ => neg_nonpos.2 hpos
      · intro hneg
        have : v ≤ 0 := hneg
        linarith
  · rw [if_neg he] at hparts
    refine .infinite s hparts ?_
    rw [signed_signed]
    have hm : 2 ^ 52 ≤ m := h.full.resolve_right (by omega)
    have hgreat : 16 / 15 * limit ≤ m * 2 ^ e := by
      rw [← two_pow_eq_limit]
      calc (2 : ℚ) ^ 1024 = (2 : ℚ) ^ 52 * 2 ^ (972 : ℤ) := by
            rw [← zpow_natCast, ← zpow_natCast, ← zpow_add₀ (by norm_num)]
            rfl
        _ ≤ (m : ℚ) * 2 ^ e := by
          refine mul_le_mul (by exact_mod_cast hm) ?_ (by positivity) (by positivity)
          exact zpow_le_zpow_right₀ (by norm_num) (by omega)
    have hnear := (abs_le.1 herror).2
    have hlimit : 2 ^ 10 ≤ limit := two_pow_le_limit (by norm_num)
    norm_num at hnear hlimit
    linarith

theorem near_zero (h : parts x = .zero s) : Near 0 x := by
  have hvalue : value x = 0 := by rw [value, h]
  have hx : x.isFinite = true := by rw [isFinite_eq, h]; rfl
  rw [← hvalue]
  exact near_value hx

/-- Rounding fine digits. -/
theorem near_roundWithAccuracy (s : Sign) (h : IsFine m e) (acc : Accuracy) (hv : 0 < v)
    (hlow : (m : ℚ) * 2 ^ e ≤ v) (hhigh : v ≤ (m + 1) * 2 ^ e) :
    Near (signed s v) (ofUnpacked (roundWithAccuracy .binary64 s m e acc)) := by
  obtain ⟨r, E, hround, hcanonical, herror⟩ := exists_roundWithAccuracy s h acc hlow hhigh
  rw [hround]
  exact near_ofParts s hcanonical hv herror

/-- Digits whose number is known exactly. -/
theorem near_exact (s : Sign) (h : IsFine m e) (hm : 0 < m) :
    Near (signed s (m * 2 ^ e)) (ofUnpacked (roundWithAccuracy .binary64 s m e .exact)) := by
  have hpos : (0 : ℚ) < 2 ^ e := by positivity
  refine near_roundWithAccuracy s h .exact (by positivity) le_rfl ?_
  linarith

theorem decreaseExponent_eq (m : ℕ) (e t : ℤ) :
    decreaseExponent m e t = (m * 2 ^ (e - t).toNat, e - (e - t).toNat) := by
  unfold decreaseExponent
  simp only [Nat.shiftLeft_eq]

/-- Digits with zeros behind them stand for the same number. -/
theorem mul_two_pow_mul (m k : ℕ) (e : ℤ) :
    ((m * 2 ^ k : ℕ) : ℚ) * 2 ^ (e - k) = m * 2 ^ e := by
  rw [zpow_sub₀ (by norm_num), zpow_natCast]
  push_cast
  field_simp

/-- Rounding any digits. -/
theorem near_round (s : Sign) (hm : 0 < m) (e : ℤ) :
    Near (signed s (m * 2 ^ e)) (ofUnpacked (round .binary64 s m e)) := by
  unfold UnpackedFloat.round
  simp only [targetExponent_eq, decreaseExponent_eq]
  have htotal : totalExponent m e = m.log2 + 1 + e := rfl
  have hlog : 2 ^ m.log2 ≤ m := Nat.log2_self_le hm.ne'
  generalize hk : (e - max (totalExponent m e - 53) (-1074)).toNat = k
  have hfine : IsFine (m * 2 ^ k) (e - k) := by
    by_cases hsmall : e - k ≤ -1074
    · exact .inr hsmall
    · left
      have hexponent : 52 ≤ m.log2 + k := by omega
      calc 2 ^ 52 ≤ 2 ^ (m.log2 + k) := Nat.pow_le_pow_right (by norm_num) hexponent
        _ = 2 ^ m.log2 * 2 ^ k := pow_add 2 _ _
        _ ≤ m * 2 ^ k := Nat.mul_le_mul_right _ hlog
  have hnear := near_exact s hfine (by positivity)
  rwa [mul_two_pow_mul] at hnear

/-- Rounding a whole number times a power of two. -/
theorem near_normalize (n : ℤ) (e : ℤ) (s : Sign) :
    Near (n * 2 ^ e) (ofUnpacked (normalize .binary64 n e s)) := by
  unfold UnpackedFloat.normalize
  rcases lt_trichotomy n 0 with hn | rfl | hn
  · have habs : (((-n).toNat : ℕ) : ℚ) = -n := by exact_mod_cast Int.toNat_of_nonneg (by omega)
    have hnear := near_round .negative (m := (-n).toNat) (by omega) e
    rw [Int.compare_eq_lt.2 hn]
    rw [habs] at hnear
    simpa [signed] using hnear
  · have hpacked := unpack_pack_ofParts s (m := 0) (e := -1074) ⟨by norm_num, le_rfl, .inr rfl⟩
    rw [Int.compare_eq_eq.2 rfl]
    simp only [Int.cast_zero, zero_mul]
    exact near_zero (x := ofUnpacked (.zero s)) hpacked
  · have habs : ((n.toNat : ℕ) : ℚ) = n := by exact_mod_cast Int.toNat_of_nonneg (by omega)
    have hnear := near_round .positive (m := n.toNat) (by omega) e
    rw [Int.compare_eq_gt.2 hn]
    rwa [habs] at hnear

/-- Parts of the canonical form are packed to the double they are the parts of. -/
theorem near_packed (s : Sign) (h : IsCanonical m e) (he : e < 972) :
    Near (signed s (m * 2 ^ e)) (ofUnpacked (ofParts s m e)) := by
  have hparts := parts_ofUnpacked (ofParts s m e)
  rw [unpack_pack_ofParts s h, if_pos he] at hparts
  rw [← value_of_parts hparts]
  exact near_value (isFinite_of_parts hparts)

theorem near_packed_zero (s : Sign) : Near 0 (ofUnpacked (.zero s)) := by
  have hnear := near_packed s (m := 0) (e := -1074) ⟨by norm_num, le_rfl, .inr rfl⟩ (by norm_num)
  rwa [ofParts_zero, Nat.cast_zero, zero_mul, signed_zero] at hnear

/-- A mantissa over a smaller exponent stands for the same number. -/
theorem apply_decreaseExponent (s : Sign) (m : ℕ) {e t : ℤ} (h : t ≤ e) :
    (s.apply (decreaseExponent m e t).1 : ℚ) * 2 ^ t = signed s (m * 2 ^ e) := by
  have hsame := mul_two_pow_mul m (e - t).toNat e
  have ht : e - ((e - t).toNat : ℤ) = t := by omega
  rw [ht] at hsame
  rw [apply_mul, decreaseExponent_eq]
  exact congrArg _ hsame

/-- The sum of two finite doubles. -/
theorem near_add (hx : x.isFinite = true) (hy : y.isFinite = true) :
    Near (value x + value y) (x + y) := by
  obtain ⟨s, m, e, hpx, hcx, hex⟩ := exists_parts hx
  obtain ⟨t, n, f, hpy, hcy, hey⟩ := exists_parts hy
  have hsum : x + y = ofUnpacked (UnpackedFloat.add .binary64 (parts x) (parts y)) := rfl
  rw [hsum, value_of_parts hpx, value_of_parts hpy, hpx, hpy]
  rcases Nat.eq_zero_or_pos m with rfl | hm
  · rw [ofParts_zero, Nat.cast_zero, zero_mul, signed_zero, zero_add]
    rcases Nat.eq_zero_or_pos n with rfl | hn
    · rw [ofParts_zero, Nat.cast_zero, zero_mul, signed_zero, UnpackedFloat.add]
      split <;> exact near_packed_zero _
    · have hpacked := near_packed t hcy hey
      rw [ofParts_pos t hn] at hpacked ⊢
      exact hpacked
  · rcases Nat.eq_zero_or_pos n with rfl | hn
    · have hpacked := near_packed s hcx hex
      rw [ofParts_zero, Nat.cast_zero, zero_mul, signed_zero, add_zero]
      rw [ofParts_pos s hm] at hpacked ⊢
      exact hpacked
    · have hnear := near_normalize (s.apply (decreaseExponent m e (min e f)).1 +
        t.apply (decreaseExponent n f (min e f)).1) (min e f) .positive
      rw [Int.cast_add, add_mul, apply_decreaseExponent s m (min_le_left e f),
        apply_decreaseExponent t n (min_le_right e f)] at hnear
      rw [ofParts_pos s hm, ofParts_pos t hn]
      exact hnear

/-- The difference of two finite doubles. -/
theorem near_sub (hx : x.isFinite = true) (hy : y.isFinite = true) :
    Near (value x - value y) (x - y) := by
  obtain ⟨s, m, e, hpx, hcx, hex⟩ := exists_parts hx
  obtain ⟨t, n, f, hpy, hcy, hey⟩ := exists_parts hy
  have hdifference : x - y = ofUnpacked (UnpackedFloat.sub .binary64 (parts x) (parts y)) := rfl
  rw [hdifference, value_of_parts hpx, value_of_parts hpy, hpx, hpy]
  rcases Nat.eq_zero_or_pos m with rfl | hm
  · rw [ofParts_zero, Nat.cast_zero, zero_mul, signed_zero, zero_sub]
    rcases Nat.eq_zero_or_pos n with rfl | hn
    · rw [ofParts_zero, Nat.cast_zero, zero_mul, signed_zero, neg_zero, UnpackedFloat.sub]
      split <;> exact near_packed_zero _
    · have hpacked := near_packed (-t) hcy hey
      rw [signed_neg, ofParts_pos (-t) hn] at hpacked
      rw [ofParts_pos t hn]
      exact hpacked
  · rcases Nat.eq_zero_or_pos n with rfl | hn
    · have hpacked := near_packed s hcx hex
      rw [ofParts_zero, Nat.cast_zero, zero_mul, signed_zero, sub_zero]
      rw [ofParts_pos s hm] at hpacked ⊢
      exact hpacked
    · have hnear := near_normalize (s.apply (decreaseExponent m e (min e f)).1 -
        t.apply (decreaseExponent n f (min e f)).1) (min e f) .positive
      rw [Int.cast_sub, sub_mul, apply_decreaseExponent s m (min_le_left e f),
        apply_decreaseExponent t n (min_le_right e f)] at hnear
      rw [ofParts_pos s hm, ofParts_pos t hn]
      exact hnear

/-- The product of mantissas of which one is fine, or of two very small numbers. -/
theorem near_mul_finite (s t : Sign) {n : ℕ} {f : ℤ} (hm : 0 < m) (hn : 0 < n)
    (h : IsFine (m * n) (e + f)) :
    Near (signed s (m * 2 ^ e) * signed t (n * 2 ^ f))
      (ofUnpacked (UnpackedFloat.mul .binary64 (.finite s m e hm) (.finite t n f hn))) := by
  have hnear := near_exact (s * t) h (Nat.mul_pos hm hn)
  have hvalue : (((m * n : ℕ) : ℚ)) * 2 ^ (e + f) = m * 2 ^ e * (n * 2 ^ f) := by
    rw [zpow_add₀ (by norm_num)]
    push_cast
    ring
  rw [hvalue, signed_mul] at hnear
  exact hnear

theorem IsCanonical.isFine_mul {n : ℕ} {f : ℤ} (h : IsCanonical m e) (h' : IsCanonical n f)
    (hm : 0 < m) (hn : 0 < n) : IsFine (m * n) (e + f) := by
  rcases h.full with hfull | he
  · exact .inl (hfull.trans (Nat.le_mul_of_pos_right m hn))
  · rcases h'.full with hfull | hf
    · exact .inl (hfull.trans (Nat.le_mul_of_pos_left n hm))
    · exact .inr (by omega)

/-- The product of two finite doubles. -/
theorem near_mul (hx : x.isFinite = true) (hy : y.isFinite = true) :
    Near (value x * value y) (x * y) := by
  obtain ⟨s, m, e, hpx, hcx, hex⟩ := exists_parts hx
  obtain ⟨t, n, f, hpy, hcy, hey⟩ := exists_parts hy
  have hproduct : x * y = ofUnpacked (UnpackedFloat.mul .binary64 (parts x) (parts y)) := rfl
  rw [hproduct, value_of_parts hpx, value_of_parts hpy, hpx, hpy]
  rcases Nat.eq_zero_or_pos m with rfl | hm
  · rw [ofParts_zero, Nat.cast_zero, zero_mul, signed_zero, zero_mul, ofParts]
    split <;> exact near_packed_zero _
  · rw [ofParts_pos s hm]
    rcases Nat.eq_zero_or_pos n with rfl | hn
    · rw [ofParts_zero, Nat.cast_zero, zero_mul, signed_zero, mul_zero]
      exact near_packed_zero _
    · rw [ofParts_pos t hn]
      exact near_mul_finite s t hm hn (hcx.isFine_mul hcy hm hn)

/-- The quotient of two mantissas has enough digits. -/
theorem isFine_div {n : ℕ} {f E : ℤ} (hm : 0 < m) (hn : 0 < n)
    (hE : E = min (e - f) (max (totalExponent m e - totalExponent n f - 53) (-1074))) :
    IsFine (m * 2 ^ (e - f - E).toNat / n) E := by
  by_cases hsmall : E ≤ -1074
  · exact .inr hsmall
  left
  have htotal : totalExponent m e = m.log2 + 1 + e := rfl
  have htotal' : totalExponent n f = n.log2 + 1 + f := rfl
  have hlog : 2 ^ m.log2 ≤ m := Nat.log2_self_le hm.ne'
  have hlog' : n ≤ 2 ^ (n.log2 + 1) := Nat.lt_log2_self.le
  generalize hk : (e - f - E).toNat = k
  have hexponent : 52 + (n.log2 + 1) ≤ m.log2 + k := by omega
  rw [Nat.le_div_iff_mul_le hn]
  calc 2 ^ 52 * n ≤ 2 ^ 52 * 2 ^ (n.log2 + 1) := Nat.mul_le_mul_left _ hlog'
    _ = 2 ^ (52 + (n.log2 + 1)) := (pow_add 2 _ _).symm
    _ ≤ 2 ^ (m.log2 + k) := Nat.pow_le_pow_right (by norm_num) hexponent
    _ = 2 ^ m.log2 * 2 ^ k := pow_add 2 _ _
    _ ≤ m * 2 ^ k := Nat.mul_le_mul_right _ hlog

/-- The quotient of two finite numbers other than zero. -/
theorem near_div_finite (s t : Sign) {n : ℕ} {f : ℤ} (hm : 0 < m) (hn : 0 < n) :
    Near (signed s (m * 2 ^ e) / signed t (n * 2 ^ f))
      (ofUnpacked (UnpackedFloat.div .binary64 (.finite s m e hm) (.finite t n f hn))) := by
  rw [UnpackedFloat.div, divCore]
  simp only [targetExponent_eq, Nat.shiftLeft_eq]
  generalize hE : min (e - f) (max (totalExponent m e - totalExponent n f - 53) (-1074)) = E
  have hfine := isFine_div hm hn hE.symm
  have hk : ((e - f - E).toNat : ℤ) = e - f - E := by omega
  generalize (e - f - E).toNat = k at *
  have hn' : (0 : ℚ) < n := by exact_mod_cast hn
  have hquotient : (m * 2 ^ e : ℚ) / (n * 2 ^ f) = m * 2 ^ k / n * 2 ^ E := by
    have he : e = k + f + E := by omega
    rw [he, zpow_add₀ (by norm_num), zpow_add₀ (by norm_num), zpow_natCast]
    field_simp
  rw [← signed_div, hquotient]
  refine near_roundWithAccuracy (s / t) hfine _ (by positivity) ?_ ?_
  · refine mul_le_mul_of_nonneg_right ?_ (by positivity)
    have hfloor : ((m * 2 ^ k / n : ℕ) : ℚ) ≤ (m * 2 ^ k : ℕ) / n := Nat.cast_div_le
    exact_mod_cast hfloor
  · refine mul_le_mul_of_nonneg_right ?_ (by positivity)
    rw [div_le_iff₀ hn']
    have hceil := (Nat.lt_div_mul_add (a := m * 2 ^ k) hn).le
    have hceil' : m * 2 ^ k ≤ (m * 2 ^ k / n + 1) * n := by linarith
    exact_mod_cast hceil'

/-- The quotient of two finite doubles, the second of which is not zero. -/
theorem near_div (hx : x.isFinite = true) (hy : y.isFinite = true) (hzero : value y ≠ 0) :
    Near (value x / value y) (x / y) := by
  obtain ⟨s, m, e, hpx, hcx, hex⟩ := exists_parts hx
  obtain ⟨t, n, f, hpy, hcy, hey⟩ := exists_parts hy
  have hquotient : x / y = ofUnpacked (UnpackedFloat.div .binary64 (parts x) (parts y)) := rfl
  rw [value_of_parts hpy] at hzero
  have hn : 0 < n := by
    rcases Nat.eq_zero_or_pos n with rfl | hn
    · simp at hzero
    · exact hn
  rw [hquotient, value_of_parts hpx, value_of_parts hpy, hpx, hpy, ofParts_pos t hn]
  rcases Nat.eq_zero_or_pos m with rfl | hm
  · rw [ofParts_zero, Nat.cast_zero, zero_mul, signed_zero, zero_div]
    exact near_packed_zero _
  · rw [ofParts_pos s hm]
    exact near_div_finite s t hm hn

end

end DataQuality.Double
