import DataQuality.Decimal.Real
import DataQuality.Proofs.Decimal.Arithmetic

/-!
# Bounds of doubles

Comparing doubles, and bounds that arithmetic keeps: sums of doubles with a moderate upper
bound have one too, or are minus infinity, and whatever is not negative stays so.
-/
namespace DataQuality.Double

open Float.Model
open Float.Model.UnpackedFloat

section

variable {x y : Float} {m n : ℕ} {e f : ℤ} {a b v : ℚ}

theorem lt_iff (x y : Float) : x < y ↔ (parts x).compare (parts y) = some .lt := by
  change Float.lt x y = true ↔ _
  unfold Float.lt
  rw [decide_eq_true_iff]
  change ((parts x).compare (parts y) == some .lt) = true ↔ _
  rw [beq_iff_eq]

theorem beq_iff (x y : Float) : (x == y) = true ↔ (parts x).compare (parts y) = some .eq := by
  change ((parts x).compare (parts y) == some .eq) = true ↔ _
  rw [beq_iff_eq]

/-- Of two numbers of the canonical form, the one with the smaller exponent is smaller. -/
theorem IsCanonical.mul_lt (h : IsCanonical m e) (h' : IsCanonical n f)
    (hlt : e < f ∨ e = f ∧ m < n) : (m : ℚ) * 2 ^ e < n * 2 ^ f := by
  rcases hlt with hlt | ⟨rfl, hlt⟩
  · have hge := h.exponent_ge
    have hm : (m : ℚ) < 2 ^ 53 := by exact_mod_cast h.mantissa_lt
    have hn : (2 : ℚ) ^ 52 ≤ n := by exact_mod_cast h'.full.resolve_right (by omega)
    calc (m : ℚ) * 2 ^ e < 2 ^ 53 * 2 ^ e := mul_lt_mul_of_pos_right hm (by positivity)
      _ = 2 ^ 52 * 2 ^ (e + 1) := by
        rw [zpow_add₀ (by norm_num)]
        ring
      _ ≤ n * 2 ^ f := by
        refine mul_le_mul hn ?_ (by positivity) (by positivity)
        exact zpow_le_zpow_right₀ (by norm_num) (by omega)
  · exact mul_lt_mul_of_pos_right (by exact_mod_cast hlt) (by positivity)

theorem lex_of_compare (h : (compare e f).then (compare m n) = .lt) : e < f ∨ e = f ∧ m < n := by
  rcases Ordering.then_eq_lt.1 h with h | ⟨h, h'⟩
  · exact .inl (Int.compare_eq_lt.1 h)
  · exact .inr ⟨Int.compare_eq_eq.1 h, Nat.compare_eq_lt.1 h'⟩

theorem signed_lt_of_compare (s t : Sign) (h : IsCanonical m e) (h' : IsCanonical n f)
    (hlt : (ofParts s m e).compare (ofParts t n f) = some .lt) :
    signed s (m * 2 ^ e) < signed t (n * 2 ^ f) := by
  have hpos {k : ℕ} (hk : 0 < k) (g : ℤ) : (0 : ℚ) < k * 2 ^ g := by positivity
  rcases Nat.eq_zero_or_pos m with rfl | hm
  · rw [Nat.cast_zero, zero_mul, signed_zero]
    rcases Nat.eq_zero_or_pos n with rfl | hn
    · cases hlt
    · rw [ofParts_zero, ofParts_pos t hn] at hlt
      cases t
      · cases hlt
      · exact hpos hn f
  · rcases Nat.eq_zero_or_pos n with rfl | hn
    · rw [ofParts_zero, ofParts_pos s hm] at hlt
      rw [Nat.cast_zero, zero_mul, signed_zero]
      cases s
      · exact neg_neg_of_pos (hpos hm e)
      · cases hlt
    · rw [ofParts_pos s hm, ofParts_pos t hn] at hlt
      cases s <;> cases t
      · have hswap : ((compare e f).then (compare m n)).swap = .lt := Option.some.inj hlt
        rw [Ordering.swap_then, Int.compare_swap, Nat.compare_swap] at hswap
        exact neg_lt_neg (h'.mul_lt h (lex_of_compare hswap))
      · exact (neg_neg_of_pos (hpos hm e)).trans (hpos hn f)
      · cases hlt
      · exact h.mul_lt h' (lex_of_compare (Option.some.inj hlt))

/-- Comparing finite doubles compares the numbers they stand for. -/
theorem value_lt_of_lt (hx : x.isFinite = true) (hy : y.isFinite = true) (h : x < y) :
    value x < value y := by
  obtain ⟨s, m, e, hpx, hcx, -⟩ := exists_parts hx
  obtain ⟨t, n, f, hpy, hcy, -⟩ := exists_parts hy
  rw [lt_iff, hpx, hpy] at h
  rw [value_of_parts hpx, value_of_parts hpy]
  exact signed_lt_of_compare s t hcx hcy h

theorem abs_value_lt (h : x.isFinite = true) : |value x| < 16 / 15 * limit := by
  obtain ⟨s, m, e, hparts, hcanonical, he⟩ := exists_parts h
  have hm : (m : ℚ) < 2 ^ 53 := by exact_mod_cast hcanonical.mantissa_lt
  rw [value_of_parts hparts, abs_signed, abs_of_nonneg (by positivity), ← two_pow_eq_limit]
  calc (m : ℚ) * 2 ^ e < 2 ^ 53 * 2 ^ e := mul_lt_mul_of_pos_right hm (by positivity)
    _ ≤ 2 ^ 53 * 2 ^ (971 : ℤ) := by
      refine mul_le_mul_of_nonneg_left ?_ (by positivity)
      exact zpow_le_zpow_right₀ (by norm_num) (by omega)
    _ = (2 : ℚ) ^ 1024 := by
      rw [← zpow_natCast, ← zpow_natCast, ← zpow_add₀ (by norm_num)]
      rfl

namespace Near

/-- Where the exact result is not great, the rounded one is finite. -/
theorem isFinite (h : Near v x) (hv : |v| < limit) : x.isFinite = true := by
  cases h with
  | finite hx => exact hx
  | infinite s hx hgreat =>
    have habs := le_abs_self (signed s v)
    rw [abs_signed] at habs
    linarith

theorem error (h : Near v x) (hx : x.isFinite = true) : |value x - v| ≤ (|v| + 1) / 2 ^ 52 := by
  cases h with
  | finite _ herror => exact herror
  | infinite s hparts _ =>
    rw [isFinite_eq, hparts] at hx
    cases hx

theorem value_eq_zero (h : Near 0 x) : value x = 0 := by
  cases h with
  | finite _ _ hnonneg hnonpos => exact le_antisymm (hnonpos le_rfl) (hnonneg le_rfl)
  | infinite s _ hgreat =>
    have hlimit : (2 : ℚ) ^ 0 ≤ limit := two_pow_le_limit (by norm_num)
    rw [signed_zero] at hgreat
    norm_num at hlimit
    linarith

theorem abs_value_le (h : Near v x) (hx : x.isFinite = true) :
    |value x| ≤ |v| + (|v| + 1) / 2 ^ 52 := by
  have htriangle := abs_sub_abs_le_abs_sub (value x) v
  have herror := h.error hx
  linarith

end Near

/-- A finite double whose number has at most this size. -/
def Within (b : ℚ) (x : Float) : Prop := x.isFinite = true ∧ |value x| ≤ b

theorem Near.within (h : Near v x) (hv : |v| ≤ b) (hb : b < limit) : Within (2 * b + 1) x := by
  have hx := h.isFinite (hv.trans_lt hb)
  have hle := h.abs_value_le hx
  refine ⟨hx, hle.trans ?_⟩
  have hpos := abs_nonneg v
  norm_num
  linarith

namespace Within

theorem mono (h : Within a x) (hab : a ≤ b) : Within b x := ⟨h.1, h.2.trans hab⟩

theorem sub (hx : Within a x) (hy : Within b y) (hlimit : a + b < limit) :
    Within (2 * (a + b) + 1) (x - y) :=
  (near_sub hx.1 hy.1).within ((abs_sub _ _).trans (add_le_add hx.2 hy.2)) hlimit

theorem mul (hx : Within a x) (hy : Within b y) (hlimit : a * b < limit) :
    Within (2 * (a * b) + 1) (x * y) := by
  refine (near_mul hx.1 hy.1).within ?_ hlimit
  rw [abs_mul]
  exact mul_le_mul hx.2 hy.2 (abs_nonneg _) ((abs_nonneg _).trans hx.2)

/-- Dividing by what is at least a half. -/
theorem div (hx : Within a x) (hy : y.isFinite = true) (hhalf : 1 / 2 ≤ value y)
    (hlimit : 2 * a < limit) : Within (2 * (2 * a) + 1) (x / y) := by
  have hpos : 0 < value y := by linarith
  refine (near_div hx.1 hy hpos.ne').within ?_ hlimit
  rw [abs_div, abs_of_pos hpos, div_le_iff₀ hpos]
  have ha := (abs_nonneg _).trans hx.2
  calc |value x| ≤ 2 * a * (1 / 2) := by linarith [hx.2]
    _ ≤ 2 * a * value y := mul_le_mul_of_nonneg_left hhalf (by linarith)

end Within

/-- The parts of a positive finite double. -/
theorem exists_parts_of_pos (hx : x.isFinite = true) (hpos : 0 < value x) :
    ∃ m e, ∃ hm : 0 < m, parts x = .finite .positive m e hm := by
  obtain ⟨s, m, e, hparts, -, -⟩ := exists_parts hx
  rw [value_of_parts hparts] at hpos
  rcases Nat.eq_zero_or_pos m with rfl | hm
  · rw [Nat.cast_zero, zero_mul, signed_zero] at hpos
    exact absurd hpos (lt_irrefl _)
  cases s
  · have hneg : (0 : ℚ) ≤ m * 2 ^ e := by positivity
    have hpos' : 0 < -((m : ℚ) * 2 ^ e) := hpos
    linarith
  · exact ⟨m, e, hm, by rw [hparts, ofParts_pos _ hm]⟩

theorem parts_div (x y : Float) : parts (x / y) = UnpackedFloat.unpack .binary64
    (UnpackedFloat.pack .binary64 (UnpackedFloat.div .binary64 (parts x) (parts y))) := rfl

/-- An infinity divided by a positive finite double. -/
theorem parts_infinity_div {s : Sign} (hx : parts x = .infinity s) (hy : y.isFinite = true)
    (hpos : 0 < value y) : parts (x / y) = .infinity s := by
  obtain ⟨n, f, hn, hparts⟩ := exists_parts_of_pos hy hpos
  rw [parts_div, hx, hparts]
  cases s <;> exact unpack_pack_infinity _

/-- Minus infinity, or a finite double whose number is at most a bound. -/
def AtMost (b : ℚ) (x : Float) : Prop :=
  parts x = .infinity .negative ∨ x.isFinite = true ∧ value x ≤ b

theorem Near.atMost (h : Near v x) (hv : v ≤ b) (hb : 0 ≤ b) (hlimit : b < limit) :
    AtMost (2 * b + 1) x := by
  cases h with
  | finite hx herror hnonneg hnonpos =>
    refine .inr ⟨hx, ?_⟩
    rcases le_total v 0 with hneg | hpos
    · have hvalue := hnonpos hneg
      linarith
    · have hvalue := (abs_le.1 herror).2
      rw [abs_of_nonneg hpos] at hvalue
      norm_num at hvalue
      linarith
  | infinite s hparts hgreat =>
    cases s
    · exact .inl hparts
    · have hv' : limit ≤ v := hgreat
      linarith

namespace AtMost

theorem mono (h : AtMost a x) (hab : a ≤ b) : AtMost b x := by
  rcases h with h | ⟨hx, h⟩
  · exact .inl h
  · exact .inr ⟨hx, h.trans hab⟩

theorem add (hx : AtMost a x) (hy : AtMost b y) (hab : 0 ≤ a + b) (hlimit : a + b < limit) :
    AtMost (2 * (a + b) + 1) (x + y) := by
  have hsum : parts (x + y) = UnpackedFloat.unpack .binary64 (UnpackedFloat.pack .binary64
      (UnpackedFloat.add .binary64 (parts x) (parts y))) := rfl
  rcases hx with hx | ⟨hx, hxa⟩
  · left
    rw [hsum, hx]
    rcases hy with hy | ⟨hy, -⟩
    · rw [hy]
      exact unpack_pack_infinity _
    · obtain ⟨t, n, f, hpy, -, -⟩ := exists_parts hy
      rw [hpy, ofParts]
      split <;> exact unpack_pack_infinity _
  · rcases hy with hy | ⟨hy, hyb⟩
    · left
      obtain ⟨s, m, e, hpx, -, -⟩ := exists_parts hx
      rw [hsum, hy, hpx, ofParts]
      split <;> exact unpack_pack_infinity _
    · exact (near_add hx hy).atMost (add_le_add hxa hyb) hab hlimit

/-- Dividing by what is at least one. -/
theorem div (hx : AtMost b x) (hy : y.isFinite = true) (hone : 1 ≤ value y) (hb : 0 ≤ b)
    (hlimit : b < limit) : AtMost (2 * b + 1) (x / y) := by
  have hpos : 0 < value y := by linarith
  rcases hx with hx | ⟨hx, hxb⟩
  · exact .inl (parts_infinity_div hx hy hpos)
  · refine (near_div hx hy hpos.ne').atMost ?_ hb hlimit
    rw [div_le_iff₀ hpos]
    have hmul : b * 1 ≤ b * value y := mul_le_mul_of_nonneg_left hone hb
    linarith

end AtMost

/-- Not below zero; what is no number is not either. -/
def IsNonneg (x : Float) : Prop :=
  parts x = .notANumber ∨ parts x = .infinity .positive ∨ x.isFinite = true ∧ 0 ≤ value x

theorem isNonneg_of_not_lt (h : ¬ x < 0.0) : IsNonneg x := by
  have hzero : parts 0.0 = .zero .positive := rfl
  rw [lt_iff, hzero] at h
  rcases parts_cases x with hx | ⟨s, hx⟩ | ⟨s, m, e, hx, -, -⟩
  · exact .inl hx
  · rw [hx] at h
    cases s
    · exact absurd rfl h
    · exact .inr (.inl hx)
  · refine .inr (.inr ⟨isFinite_of_parts hx, ?_⟩)
    rw [value_of_parts hx]
    rw [hx] at h
    rcases Nat.eq_zero_or_pos m with rfl | hm
    · simp
    rw [ofParts_pos s hm] at h
    cases s
    · exact absurd rfl h
    · have hpos : (0 : ℚ) ≤ m * 2 ^ e := by positivity
      exact hpos

/-- What is near a number that is not negative is not below zero. -/
theorem Near.isNonneg (h : Near v x) (hv : 0 ≤ v) : IsNonneg x := by
  cases h with
  | finite hx _ hnonneg _ => exact .inr (.inr ⟨hx, hnonneg hv⟩)
  | infinite s hparts hgreat =>
    cases s
    · have hlimit : (2 : ℚ) ^ 0 ≤ limit := two_pow_le_limit (by norm_num)
      have hgreat' : limit ≤ -v := hgreat
      norm_num at hlimit
      linarith
    · exact .inr (.inl hparts)

namespace IsNonneg

theorem add (hx : IsNonneg x) (hy : IsNonneg y) : IsNonneg (x + y) := by
  have hsum : parts (x + y) = UnpackedFloat.unpack .binary64 (UnpackedFloat.pack .binary64
      (UnpackedFloat.add .binary64 (parts x) (parts y))) := rfl
  rcases hx with hx | hx | ⟨hx, hxv⟩
  · left
    rw [hsum, hx]
    exact unpack_pack_notANumber
  · rcases hy with hy | hy | ⟨hy, hyv⟩
    · left
      rw [hsum, hx, hy]
      exact unpack_pack_notANumber
    · right; left
      rw [hsum, hx, hy]
      exact unpack_pack_infinity _
    · right; left
      obtain ⟨t, n, f, hpy, -, -⟩ := exists_parts hy
      rw [hsum, hx, hpy, ofParts]
      split <;> exact unpack_pack_infinity _
  · rcases hy with hy | hy | ⟨hy, hyv⟩
    · left
      obtain ⟨s, m, e, hpx, -, -⟩ := exists_parts hx
      rw [hsum, hy, hpx, ofParts]
      split <;> exact unpack_pack_notANumber
    · right; left
      obtain ⟨s, m, e, hpx, -, -⟩ := exists_parts hx
      rw [hsum, hy, hpx, ofParts]
      split <;> exact unpack_pack_infinity _
    · exact (near_add hx hy).isNonneg (add_nonneg hxv hyv)

/-- Multiplying with a positive finite double. -/
theorem mul (hx : IsNonneg x) (hy : y.isFinite = true) (hpos : 0 < value y) :
    IsNonneg (x * y) := by
  have hproduct : parts (x * y) = UnpackedFloat.unpack .binary64 (UnpackedFloat.pack .binary64
      (UnpackedFloat.mul .binary64 (parts x) (parts y))) := rfl
  rcases hx with hx | hx | ⟨hx, hxv⟩
  · left
    rw [hproduct, hx]
    exact unpack_pack_notANumber
  · right; left
    obtain ⟨n, f, hn, hpy⟩ := exists_parts_of_pos hy hpos
    rw [hproduct, hx, hpy]
    exact unpack_pack_infinity _
  · exact (near_mul hx hy).isNonneg (mul_nonneg hxv hpos.le)

/-- Dividing by what is not zero. -/
theorem div (hx : IsNonneg x) (hy : IsNonneg y) (hzero : value y ≠ 0 ∨ y.isFinite = false) :
    IsNonneg (x / y) := by
  rcases hx with hx | hx | ⟨hx, hxv⟩
  · left
    rw [parts_div, hx]
    exact unpack_pack_notANumber
  · rcases hy with hy | hy | ⟨hy, hyv⟩
    · left
      rw [parts_div, hx, hy]
      exact unpack_pack_notANumber
    · left
      rw [parts_div, hx, hy]
      exact unpack_pack_notANumber
    · have hne : value y ≠ 0 := hzero.resolve_right (by simp [hy])
      exact .inr (.inl (parts_infinity_div hx hy (lt_of_le_of_ne hyv hne.symm)))
  · rcases hy with hy | hy | ⟨hy, hyv⟩
    · left
      obtain ⟨s, m, e, hpx, -, -⟩ := exists_parts hx
      rw [parts_div, hy, hpx, ofParts]
      split <;> exact unpack_pack_notANumber
    · obtain ⟨s, m, e, hpx, -, -⟩ := exists_parts hx
      have hquotient : x / y = ofUnpacked (UnpackedFloat.div .binary64 (parts x) (parts y)) := rfl
      rw [hquotient, hy, hpx, ofParts]
      split <;> exact (near_packed_zero _).isNonneg le_rfl
    · have hne : value y ≠ 0 := hzero.resolve_right (by simp [hy])
      exact (near_div hx hy hne).isNonneg (div_nonneg hxv hyv)

end IsNonneg

/-- What does not equal zero is infinite or no number, or stands for another number. -/
theorem value_ne_zero_of_beq (h : ¬ (x == 0.0) = true) : value x ≠ 0 ∨ x.isFinite = false := by
  cases hx : x.isFinite
  · exact .inr rfl
  left
  intro hvalue
  obtain ⟨s, m, e, hparts, -, -⟩ := exists_parts hx
  have hzero : parts 0.0 = .zero .positive := rfl
  rw [value_of_parts hparts] at hvalue
  have hm : (m : ℚ) * 2 ^ e = 0 := by
    have habs := abs_signed s ((m : ℚ) * 2 ^ e)
    rwa [hvalue, abs_zero, eq_comm, abs_eq_zero] at habs
  have hm : (m : ℚ) = 0 := (mul_eq_zero.1 hm).resolve_right (zpow_ne_zero _ (by norm_num))
  obtain rfl : m = 0 := by exact_mod_cast hm
  rw [beq_iff, hzero, hparts] at h
  exact h rfl

/-- A double that is neither below zero nor great is finite. -/
theorem isFinite_of_isNonneg (h : IsNonneg x) (hmost : AtMost b x) : x.isFinite = true := by
  rcases hmost with hx | hx
  · rcases h with h | h | h
    · rw [hx] at h
      cases h
    · rw [hx] at h
      cases h
    · exact h.1
  · exact hx.1

/-- A double greater than zero with an upper bound is finite. -/
theorem within_of_pos (h : 0.0 < x) (hmost : AtMost b x) : Within b x := by
  have hzero : parts 0.0 = .zero .positive := rfl
  rcases hmost with hx | ⟨hx, hxb⟩
  · rw [lt_iff, hzero, hx] at h
    cases h
  · have hvalue := value_lt_of_lt (x := 0.0) rfl hx h
    have hvalue_zero : value 0.0 = 0 := by rw [value, hzero]
    rw [hvalue_zero] at hvalue
    exact ⟨hx, by rwa [abs_of_pos hvalue]⟩

/-- A double less than a finite one has its number as an upper bound. -/
theorem atMost_of_lt (hy : y.isFinite = true) (h : x < y) : AtMost (value y) x := by
  rcases parts_cases x with hx | ⟨s, hx⟩ | ⟨s, m, e, hx, -, -⟩
  · rw [lt_iff, hx] at h
    cases h
  · cases s
    · exact .inl hx
    · obtain ⟨t, n, f, hpy, -, -⟩ := exists_parts hy
      rw [lt_iff, hx, hpy, ofParts] at h
      split at h <;> cases h
  · have hfinite := isFinite_of_parts hx
    exact .inr ⟨hfinite, (value_lt_of_lt hfinite hy h).le⟩

end

end DataQuality.Double
