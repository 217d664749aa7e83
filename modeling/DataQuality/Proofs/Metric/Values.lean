import DataQuality.Metric.Coverage
import DataQuality.Proofs.Decimal.Conversion

/-!
# Values of metrics

What the values of the metrics can be, for any amounts that a document gives. Percentages
are at most a hundred, but one of the lines of a total budget may be minus infinity, so the
mean of these is finite exactly when their sum is. Every other value is finite.
-/
namespace DataQuality.Metric

open Markup Double

/-- A finite double of at most half the size that doubles have. -/
def IsModerate (x : Float) : Prop := x.isFinite = true ∧ 2 * |value x| ≤ limit

theorem isModerate_of_within {x : Float} (h : Within (2 ^ 200) x) : IsModerate x := by
  have hlimit : (2 : ℚ) ^ 1000 ≤ limit := two_pow_le_limit (by norm_num)
  have hpow : (2 : ℚ) ^ 201 ≤ 2 ^ 1000 := pow_le_pow_right₀ (by norm_num) (by norm_num)
  refine ⟨h.1, ?_⟩
  have hvalue := h.2
  generalize (2 : ℚ) ^ 1000 = p at *
  norm_num at hpow hvalue
  linarith

theorem value_zero : value 0.0 = 0 := rfl

theorem value_negative_zero : value (-0.0) = 0 := rfl

theorem value_hundred : value 100.0 = 100 := by
  have hparts : parts 100.0 = .finite .positive 7036874417766400 (-46) (by decide) := rfl
  rw [value, hparts]
  norm_num [signed]

theorem value_four : value 4.0 = 4 := by
  have hparts : parts 4.0 = .finite .positive 4503599627370496 (-50) (by decide) := rfl
  rw [value, hparts]
  norm_num [signed]

theorem value_three : value 3.0 = 3 := by
  have hparts : parts 3.0 = .finite .positive 6755399441055744 (-51) (by decide) := rfl
  rw [value, hparts]
  norm_num [signed]

theorem atMost_hundred : AtMost 100 100.0 := .inr ⟨rfl, value_hundred.le⟩

/-- A percentage is at most a hundred, whatever it is computed from. -/
theorem atMost_capped (x : Float) : AtMost 100 (capped x) := by
  unfold capped
  split
  · next h =>
    have hmost := atMost_of_lt rfl h
    rwa [value_hundred] at hmost
  · exact atMost_hundred

theorem atMost_zero : AtMost 100 0.0 := .inr ⟨rfl, by rw [value_zero]; norm_num⟩

/-- Each further percentage at most quadruples the bound of a sum. -/
theorem atMost_foldl_add {xs : List Float} (h : ∀ x ∈ xs, AtMost 100 x) {a : ℚ} (ha : 101 ≤ a)
    {s : Float} (hs : AtMost a s) (hlimit : 4 ^ xs.length * a ≤ limit) :
    AtMost (4 ^ xs.length * a) (xs.foldl (· + ·) s) := by
  induction xs generalizing a s with
  | nil => simpa using hs
  | cons x xs ih =>
    rw [List.length_cons, pow_succ, mul_assoc] at hlimit ⊢
    have hone : (1 : ℚ) ≤ 4 ^ xs.length := one_le_pow₀ (by norm_num)
    have hle : 4 * a ≤ 4 ^ xs.length * (4 * a) := le_mul_of_one_le_left (by linarith) hone
    have hsum := hs.add (h x (by simp)) (by linarith) (by linarith)
    exact ih (fun y hy => h y (by simp [hy])) (by linarith) (hsum.mono (by linarith)) hlimit

theorem atMost_sumOf {xs : List Float} (h : ∀ x ∈ xs, AtMost 100 x) (hlength : xs.length ≤ 4) :
    AtMost (2 ^ 20) (sumOf xs) := by
  have hlimit : (2 : ℚ) ^ 20 ≤ limit := two_pow_le_limit (by norm_num)
  have hpow : (4 : ℚ) ^ xs.length ≤ 4 ^ 4 := pow_le_pow_right₀ (by norm_num) hlength
  have hzero : AtMost 101 (-0.0) := .inr ⟨rfl, (by norm_num : (0 : ℚ) ≤ 101)⟩
  have hbound : (4 : ℚ) ^ xs.length * 101 ≤ 2 ^ 20 := by
    norm_num at hpow ⊢
    linarith
  exact (atMost_foldl_add h le_rfl hzero (hbound.trans hlimit)).mono hbound

/-- A quarter of a finite double is finite. -/
theorem isModerate_div_four {s : Float} (h : s.isFinite = true) : IsModerate (s / 4.0) := by
  have hnear := near_div h (y := 4.0) rfl (by rw [value_four]; norm_num)
  have habs := abs_value_lt h
  have hlimit : (2 : ℚ) ^ 10 ≤ limit := two_pow_le_limit (by norm_num)
  rw [value_four] at hnear
  have hquarter : |value s / 4| = |value s| / 4 := by
    rw [abs_div, abs_of_pos (by norm_num : (0 : ℚ) < 4)]
  have hfinite := hnear.isFinite (by linarith)
  refine ⟨hfinite, ?_⟩
  have hle := hnear.abs_value_le hfinite
  rw [hquarter] at hle
  norm_num at hle hlimit
  linarith

/-- Minus infinity is its own quarter. -/
theorem isFinite_of_div_four {b : ℚ} {s : Float} (hs : AtMost b s) (h : (s / 4.0).isFinite = true) :
    s.isFinite = true := by
  rcases hs with hs | hs
  · have hparts := parts_infinity_div hs (y := 4.0) rfl (by rw [value_four]; norm_num)
    rw [isFinite_eq, hparts] at h
    cases h
  · exact hs.1

section

variable (now : Instant) (document : Node) (context : Place)

theorem atMost_percentage_add (w : Window) {year : SectorYear} (h : AtMost 100 year.percentage)
    (budget : Node) : AtMost 100 (year.add w budget).percentage := by
  unfold SectorYear.add
  split
  · split
    · exact h
    · dsimp only
      split
      · exact atMost_zero
      · exact atMost_capped _
  · exact h

theorem atMost_percentage_foldl (w : Window) (budgets : List Node) {year : SectorYear}
    (h : AtMost 100 year.percentage) :
    AtMost 100 (budgets.foldl (SectorYear.add w) year).percentage := by
  induction budgets generalizing year with
  | nil => exact h
  | cons budget rest ih => exact ih (atMost_percentage_add w h budget)

theorem atMost_percentage {year : SectorYear} (h : year ∈ sectorYears now document context) :
    AtMost 100 year.percentage := by
  obtain ⟨o, -, rfl⟩ := List.mem_map.1 h
  exact atMost_percentage_foldl _ _ atMost_zero

def lineSum : Float := sumOf ((sectorYears now document context).map (·.percentage))

theorem atMost_lineSum : AtMost (2 ^ 20) (lineSum now document context) := by
  refine atMost_sumOf (fun x hx => ?_) ?_
  · obtain ⟨year, hyear, rfl⟩ := List.mem_map.1 hx
    exact atMost_percentage now document context hyear
  · rw [List.length_map, sectorYears, List.length_map]
    rfl

theorem isFinite_sectorScore_iff :
    (sectorScore (sectorYears now document context)).isFinite = true ↔
      (lineSum now document context).isFinite = true :=
  ⟨isFinite_of_div_four (atMost_lineSum now document context), fun h => (isModerate_div_four h).1⟩

theorem atMost_sharePercentage {countries total x : Float}
    (h : sharePercentage? countries total = some x) : AtMost 100 x := by
  unfold sharePercentage? at h
  dsimp only at h
  split at h
  · cases h
  · obtain rfl := Option.some.inj h
    exact atMost_capped _

theorem exists_of_mem_zipWith {α β γ : Type} {f : α → β → γ} {as : List α} {bs : List β} {c : γ}
    (h : c ∈ as.zipWith f bs) : ∃ a b, c = f a b := by
  rw [← List.map_uncurry_zip_eq_zipWith] at h
  obtain ⟨p, -, rfl⟩ := List.mem_map.1 h
  exact ⟨p.1, p.2, rfl⟩

/-- The mean of the country percentages. -/
theorem atMost_score (totals : List YearBudget) :
    AtMost (2 ^ 22) (countryBudgets now document context totals).score := by
  have hdiv {s : Float} (hs : AtMost (2 ^ 20) s) : AtMost (2 ^ 22) (s / 3.0) := by
    have hlimit : (2 : ℚ) ^ 30 ≤ limit := two_pow_le_limit (by norm_num)
    norm_num at hlimit
    refine (hs.div rfl (by rw [value_three]; norm_num) (by norm_num) ?_).mono (by norm_num)
    norm_num
    linarith
  unfold countryBudgets
  dsimp only
  refine hdiv (atMost_sumOf (fun x hx => ?_) ?_)
  · obtain ⟨offset, countries, rfl⟩ := exists_of_mem_zipWith (List.mem_of_mem_tail hx)
    split
    · next h => exact atMost_sharePercentage h
    · cases hfirst : (firstPositive? totals).bind (sharePercentage? countries) with
      | none => exact atMost_zero
      | some x =>
        obtain ⟨total, -, h⟩ := Option.bind_eq_some_iff.1 hfirst
        exact atMost_sharePercentage h
  · rw [List.length_tail, List.length_zipWith, List.length_map, List.length_map]
    decide

/-- A score greater than zero is finite. -/
theorem isModerate_score {totals : List YearBudget}
    (h : 0.0 < (countryBudgets now document context totals).score) :
    IsModerate (countryBudgets now document context totals).score :=
  isModerate_of_within ((within_of_pos h (atMost_score now document context totals)).mono
    (by norm_num))

end

/-- A count that fits into 64 bits. -/
theorem within_toFloat {n : ℕ} (h : n < 2 ^ 64) :
    Within (2 ^ 65) n.toFloat ∧ (0 < n → 1 / 2 ≤ value n.toFloat) := by
  have hn : (n : ℚ) < 2 ^ 64 := by exact_mod_cast h
  have hnonneg : (0 : ℚ) ≤ n := Nat.cast_nonneg n
  obtain ⟨hfinite, herror⟩ := ofScientific_bounds (m := n) (n := 0)
    (by rw [pow_zero, mul_one]; exact hn.trans_le (two_pow_le_limit (by norm_num)))
  rw [pow_zero, mul_one] at herror
  change |value n.toFloat - n| ≤ _ at herror
  have hbounds := abs_le.1 herror
  norm_num at hbounds
  refine ⟨⟨hfinite, ?_⟩, fun hpos => ?_⟩
  · rw [abs_le]
    norm_num
    constructor <;> linarith
  · have hone : (1 : ℚ) ≤ n := by exact_mod_cast hpos
    linarith

theorem within_hundred : Within (2 ^ 7) 100.0 :=
  ⟨rfl, by rw [value_hundred]; norm_num⟩

/-- A count divided by what is at least a half, as a percentage. -/
theorem within_percentage {n : ℕ} (h : n < 2 ^ 64) {y : Float} (hy : y.isFinite = true)
    (hhalf : 1 / 2 ≤ value y) : Within (2 ^ 80) (n.toFloat / y * 100.0) := by
  have hlimit : (2 : ℚ) ^ 100 ≤ limit := two_pow_le_limit (by norm_num)
  norm_num at hlimit
  have hquotient := (within_toFloat h).1.div hy hhalf (by norm_num; linarith)
  have hproduct := hquotient.mul within_hundred (by norm_num; linarith)
  exact hproduct.mono (by norm_num)

/-- The share of the items of a list that have a property. -/
theorem within_share {α : Type} {xs : List α} (hlength : xs.length < 2 ^ 64)
    (hempty : ¬ xs.isEmpty = true) (p : α → Bool) :
    Within (2 ^ 80) ((xs.countP p).toFloat / xs.length.toFloat * 100.0) := by
  have hpos : 0 < xs.length := by
    rwa [List.length_pos_iff, ne_eq, ← List.isEmpty_iff]
  have hxs := within_toFloat hlength
  exact within_percentage (List.countP_le_length.trans_lt hlength) hxs.1.1 (hxs.2 hpos)

/-- The sectors and the countries that metrics count are not so many that their numbers
need more than 64 bits. -/
structure IsCountable (setting : MetricSetting) (document : Node) (context : Place) : Prop where
  sectors : (sectorNames (sectorYears setting.now document context)).length < 2 ^ 64
  countries : (activeCountries setting.now document context).length < 2 ^ 64

section

variable {setting : MetricSetting} {document : Node} {context : Place}

theorem isModerate_sectorPapers (hcount : IsCountable setting document context) {x : Float}
    (h : sectorPapers setting document context = .ok x) : IsModerate x := by
  unfold sectorPapers at h
  dsimp only at h
  split at h
  · cases h
  · next hempty =>
    obtain rfl := Except.ok.inj h
    exact isModerate_of_within ((within_share hcount.sectors hempty _).mono (by norm_num))

theorem isModerate_countryPapers (hcount : IsCountable setting document context) {x : Float}
    (h : countryPapers setting document context = .ok x) : IsModerate x := by
  unfold countryPapers at h
  dsimp only at h
  split at h
  · exact isModerate_sectorPapers hcount h
  next hempty =>
  split at h
  · obtain rfl := Except.ok.inj h
    have hshare := within_share hcount.countries hempty
    have hlimit : (2 : ℚ) ^ 100 ≤ limit := two_pow_le_limit (by norm_num)
    norm_num at hlimit
    refine isModerate_of_within ((within_hundred.sub (hshare _) ?_).mono (by norm_num))
    norm_num
    linarith
  · exact isModerate_sectorPapers hcount h

theorem isModerate_availableYears : IsModerate (availableYears setting document context) := by
  unfold availableYears
  dsimp only
  have hlength : (totalBudgets setting.now document context).tail.length = 3 := by
    rw [List.length_tail, length_totalBudgets]
  have hle := List.countP_le_length (p := (·.available))
    (l := (totalBudgets setting.now document context).tail)
  have hwithin := within_percentage (n := (totalBudgets setting.now document context).tail.countP
    (·.available)) (by omega) (y := 3.0) rfl (by rw [value_three]; norm_num)
  exact isModerate_of_within (hwithin.mono (by norm_num))

variable (setting document context) in
/-- Whether the value of a metric is the mean percentage of the lines. -/
def RestsOnLines : Metric → Prop
  | totalSectorBudgets => True
  | totalCountryBudgets =>
    ¬ 0.0 < (countryBudgets setting.now document context
      (totalBudgets setting.now document context)).score
  | _ => False

/-- The value of a metric is the mean percentage of the lines, or it is finite. -/
theorem evaluate_cases (hcount : IsCountable setting document context) {m : Metric} {x : Float}
    (h : m.evaluate setting document context = .ok x) :
    RestsOnLines setting document context m ∧
        x = sectorScore (sectorYears setting.now document context) ∨
      ¬ RestsOnLines setting document context m ∧ IsModerate x := by
  cases m with
  | totalCountryBudgets =>
    obtain rfl := Except.ok.inj h
    unfold countryScore RestsOnLines
    dsimp only
    split
    · next hpositive =>
      exact .inr ⟨fun hnot => hnot hpositive, isModerate_score _ _ _ hpositive⟩
    · next hnot => exact .inl ⟨hnot, rfl⟩
  | countryStrategyPapers => exact .inr ⟨id, isModerate_countryPapers hcount h⟩
  | totalBudgetsAvailable =>
    obtain rfl := Except.ok.inj h
    exact .inr ⟨id, isModerate_availableYears⟩
  | totalSectorBudgets => exact .inl ⟨trivial, (Except.ok.inj h).symm⟩
  | sectorStrategyPapers => exact .inr ⟨id, isModerate_sectorPapers hcount h⟩

/-- The value of a metric is finite, unless it is the mean of percentages with an infinite
sum. -/
theorem isFinite_evaluate (hcount : IsCountable setting document context) {m : Metric} {x : Float}
    (h : m.evaluate setting document context = .ok x) :
    x.isFinite = true ↔ (RestsOnLines setting document context m →
      (lineSum setting.now document context).isFinite = true) := by
  rcases evaluate_cases hcount h with ⟨hrests, rfl⟩ | ⟨hnot, hmoderate⟩
  · rw [isFinite_sectorScore_iff]
    exact ⟨fun hsum _ => hsum, fun hsum => hsum hrests⟩
  · exact ⟨fun _ hrests => absurd hrests hnot, fun _ => hmoderate.1⟩

/-- If the value of a metric is finite, it is not among the very greatest doubles. -/
theorem isModerate_evaluate (hcount : IsCountable setting document context) {m : Metric} {x : Float}
    (h : m.evaluate setting document context = .ok x) (hx : x.isFinite = true) : IsModerate x := by
  rcases evaluate_cases hcount h with ⟨-, rfl⟩ | ⟨-, hmoderate⟩
  · rw [isFinite_sectorScore_iff] at hx
    exact isModerate_div_four hx
  · exact hmoderate

variable (document context) in
/-- No total budget, and no line of one, has an amount below zero. -/
def NoneBelowZero : Prop :=
  ∀ budget ∈ elements document context [everyElement "total-budget" []],
    ∀ record ∈ budget :: budget.childrenNamed "budget-line",
      ∀ x, plainAmount? record = some x → ¬ x < 0.0

end

theorem isNonneg_zero : IsNonneg 0.0 := .inr (.inr ⟨rfl, value_zero.ge⟩)

theorem isNonneg_capped {x : Float} (h : IsNonneg x) : IsNonneg (capped x) := by
  unfold capped
  split
  · exact h
  · exact .inr (.inr ⟨rfl, by rw [value_hundred]; norm_num⟩)

/-- Lines without an amount below zero keep the sum of the lines from falling below it. -/
theorem isNonneg_linesTotal (lines : List Node)
    (h : ∀ line ∈ lines, ∀ x, plainAmount? line = some x → ¬ x < 0.0) {year : SectorYear}
    (hyear : IsNonneg year.linesTotal) :
    IsNonneg (lines.foldl SectorYear.addLine year).linesTotal := by
  induction lines generalizing year with
  | nil => exact hyear
  | cons line rest ih =>
    refine ih (fun l hl => h l (by simp [hl])) ?_
    unfold SectorYear.addLine
    split
    · next hvalue => exact hyear.add (isNonneg_of_not_lt (h line (by simp) _ hvalue))
    · exact hyear

theorem total_addLine (lines : List Node) (year : SectorYear) :
    (lines.foldl SectorYear.addLine year).total = year.total := by
  induction lines generalizing year with
  | nil => rfl
  | cons line rest ih =>
    rw [List.foldl_cons, ih, SectorYear.addLine]
    split <;> rfl

/-- What stays not below zero from one total budget to the next. -/
def SectorYear.Nonneg (year : SectorYear) : Prop :=
  IsNonneg year.linesTotal ∧ IsNonneg year.percentage

theorem SectorYear.Nonneg.add (w : Window) {year : SectorYear} (hyear : year.Nonneg) {budget : Node}
    (h : ∀ record ∈ budget :: budget.childrenNamed "budget-line",
      ∀ x, plainAmount? record = some x → ¬ x < 0.0) : (year.add w budget).Nonneg := by
  unfold SectorYear.add
  split
  · split
    · exact hyear
    · next total htotal =>
      have hlines : IsNonneg ((budget.childrenNamed "budget-line").foldl SectorYear.addLine
          { year with total := total }).linesTotal :=
        isNonneg_linesTotal _ (fun line hline => h line (by simp [hline])) hyear.1
      have hsame := total_addLine (budget.childrenNamed "budget-line") { year with total := total }
      refine ⟨hlines, ?_⟩
      dsimp only
      split
      · exact isNonneg_zero
      · next hzero =>
        have hpositive : IsNonneg total := isNonneg_of_not_lt (h budget (by simp) _ htotal)
        rw [hsame] at hzero ⊢
        refine isNonneg_capped ((hlines.div hpositive (value_ne_zero_of_beq hzero)).mul rfl ?_)
        rw [value_hundred]
        norm_num
  · exact hyear

theorem SectorYear.Nonneg.foldl (w : Window) {budgets : List Node}
    (h : ∀ budget ∈ budgets, ∀ record ∈ budget :: budget.childrenNamed "budget-line",
      ∀ x, plainAmount? record = some x → ¬ x < 0.0) {year : SectorYear} (hyear : year.Nonneg) :
    (budgets.foldl (SectorYear.add w) year).Nonneg := by
  induction budgets generalizing year with
  | nil => exact hyear
  | cons budget rest ih =>
    exact ih (fun b hb => h b (by simp [hb])) (hyear.add w (h budget (by simp)))

theorem isNonneg_foldl_add {xs : List Float} (h : ∀ x ∈ xs, IsNonneg x) {s : Float}
    (hs : IsNonneg s) : IsNonneg (xs.foldl (· + ·) s) := by
  induction xs generalizing s with
  | nil => exact hs
  | cons x xs ih => exact ih (fun y hy => h y (by simp [hy])) (hs.add (h x (by simp)))

theorem isNonneg_sumOf {xs : List Float} (h : ∀ x ∈ xs, IsNonneg x) : IsNonneg (sumOf xs) :=
  isNonneg_foldl_add h (.inr (.inr ⟨rfl, value_negative_zero.ge⟩))

theorem isNonneg_percentage (now : Instant) {document : Node} {context : Place}
    (h : NoneBelowZero document context) {year : SectorYear}
    (hyear : year ∈ sectorYears now document context) : IsNonneg year.percentage := by
  have hnone : SectorYear.none.Nonneg := ⟨isNonneg_zero, isNonneg_zero⟩
  obtain ⟨o, -, rfl⟩ := List.mem_map.1 hyear
  have hfold := SectorYear.Nonneg.foldl (.ofOffset now o) h hnone
  exact hfold.2

/-- Without an amount below zero, the sum of the percentages is finite. -/
theorem isFinite_lineSum (now : Instant) {document : Node} {context : Place}
    (h : NoneBelowZero document context) : (lineSum now document context).isFinite = true := by
  have hsum : IsNonneg (lineSum now document context) := by
    unfold lineSum
    refine isNonneg_sumOf fun x hx => ?_
    obtain ⟨year, hyear, rfl⟩ := List.mem_map.1 hx
    exact isNonneg_percentage now h hyear
  exact isFinite_of_isNonneg hsum (atMost_lineSum now document context)

end DataQuality.Metric
