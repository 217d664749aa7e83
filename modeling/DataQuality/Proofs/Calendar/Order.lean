import DataQuality.Calendar.Instant
import DataQuality.Proofs.Decimal.Digits
import Mathlib.Data.List.Lex

/-!
# The order of dates and instants

A later day has a later date, and a later instant is written after an earlier one: the digits of
the year stand first and those of the nanoseconds last, and each number has its fixed number of
digits. So the first of these columns of digits in which two instants differ decides. This holds in
the years that are written with four digits.
-/
namespace DataQuality

namespace Decimal

/-- What stands after two lists of one length does not change their order. -/
theorem lex_append {α : Type*} {r : α → α → Prop} {xs ys : List α} (h : List.Lex r xs ys)
    (hlength : xs.length = ys.length) (us vs : List α) : List.Lex r (xs ++ us) (ys ++ vs) := by
  induction h with
  | nil => simp at hlength
  | rel hab => exact .rel hab
  | cons _ ih => exact .cons (ih (by simpa using hlength))

theorem natDigits_of_lt {n : Nat} (h : n < 10) : natDigits n = [Nat.digitChar n] :=
  Nat.toDigits_of_lt_base h

theorem natDigits_of_le {n : Nat} (h : 10 ≤ n) :
    natDigits n = natDigits (n / 10) ++ [Nat.digitChar (n % 10)] :=
  Nat.toDigits_of_base_le (by decide) h

/-- The last digit stands after those of the other digits. -/
theorem padded_succ (width n : Nat) :
    padded (width + 2) n = padded (width + 1) (n / 10) ++ [Nat.digitChar (n % 10)] := by
  unfold padded
  dsimp only
  by_cases h : n < 10
  · rw [natDigits_of_lt h, Nat.div_eq_of_lt h, Nat.mod_eq_of_lt h, natDigits_zero,
      List.length_singleton, List.length_singleton, Nat.add_sub_cancel, Nat.add_succ_sub_one,
      List.replicate_succ']
  · have hdigits := natDigits_of_le (not_lt.1 h)
    have hlength : width + 2 - (natDigits n).length = width + 1 - (natDigits (n / 10)).length := by
      rw [hdigits, List.length_append, List.length_singleton]
      omega
    rw [hlength, hdigits, List.append_assoc]

theorem length_padded {width n : Nat} (h : n < 10 ^ width) :
    (padded width n).length = max width 1 := by
  induction width generalizing n with
  | zero =>
    obtain rfl : n = 0 := by omega
    rfl
  | succ width ih =>
    cases width with
    | zero =>
      have hn : n < 10 := by omega
      unfold padded
      rw [natDigits_of_lt hn]
      rfl
    | succ width =>
      have hn : n / 10 < 10 ^ (width + 1) := by
        rw [Nat.pow_succ] at h
        omega
      rw [padded_succ, List.length_append, ih hn, List.length_singleton]
      omega

theorem digitChar_lt {a b : Nat} (h : a < b) (hb : b < 10) : Nat.digitChar a < Nat.digitChar b := by
  interval_cases b <;> interval_cases a <;> decide

/-- A smaller number is written before a greater one. -/
theorem padded_lex {width a b : Nat} (h : a < b) (hb : b < 10 ^ width) :
    List.Lex (· < ·) (padded width a) (padded width b) := by
  induction width generalizing a b with
  | zero => omega
  | succ width ih =>
    cases width with
    | zero =>
      have hb' : b < 10 := by omega
      unfold padded
      rw [natDigits_of_lt hb', natDigits_of_lt (by omega)]
      exact .rel (digitChar_lt h hb')
    | succ width =>
      rw [Nat.pow_succ] at hb
      rw [padded_succ, padded_succ]
      by_cases hfront : a / 10 < b / 10
      · have hlength : (padded (width + 1) (a / 10)).length = (padded (width + 1) (b / 10)).length := by
          rw [length_padded (by omega), length_padded (by omega)]
        exact lex_append (ih hfront (by omega)) hlength _ _
      · have hsame : a / 10 = b / 10 := by omega
        rw [hsame]
        exact .append_left _ (.rel (digitChar_lt (by omega) (by omega))) _

theorem isDigit_of_mem_padded {width n : Nat} {c : Char} (h : c ∈ padded width n) :
    isDigit c = true := by
  unfold padded at h
  rcases List.mem_append.1 h with hzero | hdigit
  · obtain rfl := List.eq_of_mem_replicate hzero
    rfl
  · exact isDigit_of_mem_natDigits hdigit

/-- What leaves the digits leaves a padded number. -/
theorem filter_padded {isKept : Char → Bool} (h : ∀ c, isDigit c = true → isKept c = true)
    (width n : Nat) : (padded width n).filter isKept = padded width n :=
  List.filter_eq_self.2 fun c hc => h c (isDigit_of_mem_padded hc)

/-- A column has a number of digits, and the same characters after each number. -/
structure Column where
  width : Nat
  after : List Char

/-- What is written of a row of numbers. -/
def row : List Column → List Nat → List Char
  | c :: columns, n :: ns => padded c.width n ++ c.after ++ row columns ns
  | _, _ => []

/-- The row has a number for each column, and none of them has too many digits. -/
def Fits (columns : List Column) (ns : List Nat) : Prop :=
  List.Forall₂ (fun c n => n < 10 ^ c.width) columns ns

/-- Rows are in the order of what is written of them. -/
theorem row_lex {columns : List Column} {ns ms : List Nat} (hns : Fits columns ns)
    (hms : Fits columns ms) (h : List.Lex (· < ·) ns ms) :
    List.Lex (· < ·) (row columns ns) (row columns ms) := by
  induction hns generalizing ms with
  | nil =>
    cases hms
    cases h
  | cons hn hns ih =>
    cases hms with
    | cons hm hms =>
      cases h with
      | rel hlt =>
        have hlength := (length_padded hn).trans (length_padded hm).symm
        rw [row, row, List.append_assoc, List.append_assoc]
        exact lex_append (padded_lex hlt hm) hlength _ _
      | cons h => exact .append_left _ (ih hms h) _

end Decimal

namespace Date

/-- The era of 400 years in which a day lies. -/
def era (days : Int) : Int := (days + 719468) / 146097

def dayOfEra (days : Int) : Int := days + 719468 - era days * 146097

/-- The year of its era in which a day lies, counted from March. -/
def yearOfEra (days : Int) : Int :=
  (dayOfEra days - dayOfEra days / 1460 + dayOfEra days / 36524 - dayOfEra days / 146096) / 365

/-- The day of the year that begins in March. -/
def dayOfYear (days : Int) : Int :=
  dayOfEra days - (365 * yearOfEra days + yearOfEra days / 4 - yearOfEra days / 100)

/-- The number of a month, counted from March of the year zero. -/
def monthsFromMarch (days : Int) : Int :=
  12 * (400 * era days + yearOfEra days) + (5 * dayOfYear days + 2) / 153

section

variable {a b : Int}

theorem dayOfEra_bounds (a : Int) : 0 ≤ dayOfEra a ∧ dayOfEra a < 146097 := by
  unfold dayOfEra era
  omega

theorem yearOfEra_bounds (a : Int) : 0 ≤ yearOfEra a ∧ yearOfEra a ≤ 399 := by
  have hday := dayOfEra_bounds a
  unfold yearOfEra
  omega

theorem dayOfYear_bounds (a : Int) : 0 ≤ dayOfYear a ∧ dayOfYear a ≤ 366 := by
  have hday := dayOfEra_bounds a
  unfold dayOfYear
  generalize hy : yearOfEra a = y
  unfold yearOfEra at hy
  generalize dayOfEra a = d at hday hy
  -- a fourth of the years have a leap day, but for those at the end of a century
  have hcenturies : 25 * (d / 36524) ≤ d / 1460 := by omega
  have hfourths : 1460 * (y / 4) ≤ d := by omega
  have hcentury : d / 36524 - d / 146096 ≤ y / 100 := by omega
  omega

theorem yearOfEra_mono (hera : era a = era b) (h : a < b) : yearOfEra a ≤ yearOfEra b := by
  have hday := dayOfEra_bounds a
  have hday' := dayOfEra_bounds b
  have hlt : dayOfEra a < dayOfEra b := by
    unfold dayOfEra
    omega
  unfold yearOfEra
  omega

/-- A later day lies in a later year, or later in the same one. -/
theorem year_lex (h : a < b) :
    400 * era a + yearOfEra a < 400 * era b + yearOfEra b ∨
      400 * era a + yearOfEra a = 400 * era b + yearOfEra b ∧ dayOfYear a < dayOfYear b := by
  have hyear := yearOfEra_bounds a
  have hyear' := yearOfEra_bounds b
  by_cases hera : era a = era b
  · have hmono := yearOfEra_mono hera h
    by_cases hsame : yearOfEra a = yearOfEra b
    · right
      unfold dayOfYear dayOfEra
      rw [hera, hsame]
      omega
    · omega
  · have hlt : era a < era b := by
      unfold era at hera ⊢
      omega
    omega

/-- The date of a day is given by its month and the day of the year. -/
theorem ofDays_eq (a : Int) :
    12 * (ofDays a).year + (ofDays a).month = monthsFromMarch a + 3 ∧
      1 ≤ (ofDays a).month ∧ (ofDays a).month ≤ 12 ∧
      ((ofDays a).day : Int) =
        dayOfYear a - (153 * ((5 * dayOfYear a + 2) / 153) + 2) / 5 + 1 ∧
      (ofDays a).day ≤ 31 := by
  have hday := dayOfYear_bounds a
  let monthFromMarch := (5 * dayOfYear a + 2) / 153
  let month := if monthFromMarch < 10 then monthFromMarch + 3 else monthFromMarch - 9
  have hyear : (ofDays a).year = yearOfEra a + era a * 400 + if month ≤ 2 then 1 else 0 := rfl
  have hmonth : (ofDays a).month = month.toNat := rfl
  have hdate : (ofDays a).day =
      (dayOfYear a - (153 * monthFromMarch + 2) / 5 + 1).toNat := rfl
  rw [hyear, hmonth, hdate]
  unfold monthsFromMarch
  by_cases hearly : monthFromMarch < 10
  · have hm : month = monthFromMarch + 3 := if_pos hearly
    rw [if_neg (by omega)]
    omega
  · have hm : month = monthFromMarch - 9 := if_neg hearly
    rw [if_pos (by omega)]
    omega

/-- A later day has a later date. -/
theorem ofDays_lex (h : a < b) :
    (ofDays a).year < (ofDays b).year ∨ (ofDays a).year = (ofDays b).year ∧
      ((ofDays a).month < (ofDays b).month ∨
        (ofDays a).month = (ofDays b).month ∧ (ofDays a).day < (ofDays b).day) := by
  obtain ⟨hmonth, hlow, hhigh, hday, -⟩ := ofDays_eq a
  obtain ⟨hmonth', hlow', hhigh', hday', -⟩ := ofDays_eq b
  have hbounds := dayOfYear_bounds a
  have hbounds' := dayOfYear_bounds b
  have hyear := year_lex h
  unfold monthsFromMarch at hmonth hmonth'
  omega

end

end Date

namespace Instant

/-- The numbers that are written of an instant, from its year to the nanoseconds. -/
def fields (t : Instant) : List Nat :=
  [t.date.year.natAbs, t.date.month, t.date.day, t.secondOfDay / 3600, t.secondOfDay / 60 % 60,
    t.secondOfDay % 60 + t.nanos / second, t.nanos % second]

/-- The columns in which they are written without separators. -/
def columns : List Decimal.Column :=
  [⟨4, []⟩, ⟨2, []⟩, ⟨2, ['T']⟩, ⟨2, []⟩, ⟨2, []⟩, ⟨2, ['.']⟩, ⟨9, []⟩]

/-- An instant that a clock shows in one of the years that are written with four digits. A leap second
is the last of its minute. -/
structure IsShown (t : Instant) : Prop where
  year : 0 ≤ t.date.year ∧ t.date.year ≤ 9999
  nanos : t.nanos < second ∨ t.seconds % 60 = 59 ∧ t.nanos < 2 * second

variable {a b t : Instant}

theorem secondOfDay_eq (t : Instant) :
    (t.secondOfDay : Int) = t.seconds % 86400 ∧ t.secondOfDay < 86400 := by
  unfold secondOfDay day
  omega

/-- What is written of an instant without separators is the row of its numbers. -/
theorem compactChars_eq (h : t.IsShown) : t.compactChars = Decimal.row columns t.fields := by
  have hyear : ¬ t.date.year < 0 ∧ ¬ 9999 < t.date.year := by
    have hyear := h.year
    omega
  have hfraction : t.nanos % second / Nat.pow 10 (9 - 9) = t.nanos % second := Nat.div_one _
  have hdigits (width n : Nat) : (Decimal.padded width n).filter (fun c => c != '-' && c != ':') =
      Decimal.padded width n := by
    refine Decimal.filter_padded (fun c hc => ?_) width n
    have hbounds := Decimal.toNat_of_isDigit hc
    have hne (c' : Char) (hc' : c'.toNat < 48 ∨ 57 < c'.toNat) : c ≠ c' := by
      rintro rfl
      omega
    simp [hne '-' (by decide), hne ':' (by decide)]
  unfold compactChars chars Date.text
  dsimp only
  rw [if_neg hyear.1, if_neg hyear.2, hfraction]
  simp [List.filter_append, hdigits, Decimal.row, columns, fields]

theorem fits_fields (h : t.IsShown) : Decimal.Fits columns t.fields := by
  obtain ⟨-, -, hmonth, -, hday⟩ := Date.ofDays_eq (t.seconds / day)
  have hyear := h.year
  have hnanos := h.nanos
  have hsecond := t.secondOfDay_eq
  unfold date at hyear
  unfold second at hnanos
  unfold Decimal.Fits columns fields date second
  simp only [List.forall₂_cons, List.forall₂_nil_right_iff, and_true]
  omega

/-- The numbers of an instant come before those of a later one. -/
theorem fields_lex (ha : a.IsShown) (hb : b.IsShown) (h : a.before b = true) :
    List.Lex (· < ·) a.fields b.fields := by
  have hlater : a.seconds < b.seconds ∨ a.seconds = b.seconds ∧ a.nanos < b.nanos := by
    simpa [before] using h
  obtain ⟨hsecond, hbound⟩ := a.secondOfDay_eq
  obtain ⟨hsecond', hbound'⟩ := b.secondOfDay_eq
  by_cases hday : a.seconds / day < b.seconds / day
  · have hdate := Date.ofDays_lex hday
    have hyear := ha.year
    have hyear' := hb.year
    unfold date at hyear hyear'
    unfold fields date
    simp only [List.cons_lex_cons_iff, List.not_lex_nil, and_false, or_false]
    omega
  · have hsame : a.seconds / day = b.seconds / day := by
      unfold day at hday ⊢
      omega
    have hnanos := ha.nanos
    have hnanos' := hb.nanos
    unfold fields date
    rw [hsame]
    unfold second at hnanos hnanos' ⊢
    unfold day at hsame
    simp only [List.cons_lex_cons_iff, Nat.lt_irrefl, false_or, true_and, List.not_lex_nil, and_false,
      or_false]
    omega

end Instant

end DataQuality
