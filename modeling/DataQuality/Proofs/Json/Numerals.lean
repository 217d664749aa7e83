import DataQuality.Decimal.Shortest
import DataQuality.Json.Reader
import DataQuality.Proofs.Decimal.Digits

/-!
# Number literals read back

A regular literal is one of the grammar: digits without a needless zero in front,
and a digit after the point if there is a point. It is read from each of its
spellings, of which its written form is one. The literals of integers and of doubles
are regular.
-/
namespace DataQuality

open Decimal (Literal isDigit natDigits natOfDigits)

/-- A literal of the grammar. -/
structure Decimal.Literal.Regular (l : Literal) : Prop where
  whole_ne_nil : l.whole ≠ []
  whole_digits : ∀ c ∈ l.whole, isDigit c = true
  whole_zero : l.whole.head? = some '0' → l.whole = ['0']
  fraction_ne_nil : ∀ f, l.fraction = some f → f ≠ []
  fraction_digits : ∀ f, l.fraction = some f → ∀ c ∈ f, isDigit c = true

namespace Json

/-- No number goes on with these characters. -/
def StopsNumber (rest : List Char) : Prop :=
  ∀ c, rest.head? = some c → isDigit c = false ∧ c ≠ '.' ∧ c ≠ 'e' ∧ c ≠ 'E'

theorem StopsNumber.not_digit {rest : List Char} (h : StopsNumber rest) :
    rest.head?.any isDigit = false := by
  cases hc : rest.head? with
  | none => rfl
  | some c => exact (h c hc).1

theorem readWhole?_append {ds rest : List Char} (hne : ds ≠ []) (hds : ∀ c ∈ ds, isDigit c = true)
    (hzero : ds.head? = some '0' → ds = ['0']) (hrest : rest.head?.any isDigit = false) :
    readWhole? (ds ++ rest) = some (ds, rest) := by
  unfold readWhole?
  rw [Decimal.span_digits hds hrest]
  obtain ⟨d, ds', rfl⟩ := List.exists_cons_of_ne_nil hne
  dsimp only
  split
  · next h => cases h
  · next h =>
    have hlone := hzero (by rw [h]; rfl)
    rw [hlone] at h
    cases h
  · rfl

/-- The characters of an optional fraction. -/
def fractionChars (f : Option (List Char)) : List Char :=
  match f with
  | some f => '.' :: f
  | none => []

theorem readFraction?_append {f : Option (List Char)} {rest : List Char}
    (hne : ∀ ds, f = some ds → ds ≠ []) (hds : ∀ ds, f = some ds → ∀ c ∈ ds, isDigit c = true)
    (hrest : rest.head?.any isDigit = false) (hpoint : rest.head? ≠ some '.') :
    readFraction? (fractionChars f ++ rest) = some (f, rest) := by
  cases f with
  | none =>
    unfold fractionChars readFraction?
    split
    · next h =>
      simp only [List.nil_append] at h
      rw [h] at hpoint
      exact absurd rfl hpoint
    · rfl
  | some ds =>
    have hempty : ds.isEmpty = false := by simpa using hne ds rfl
    simp only [fractionChars, List.cons_append, readFraction?,
      Decimal.span_digits (hds ds rfl) hrest, hempty, Bool.false_eq_true, if_false]

/-- The characters are the sign of an exponent. -/
inductive SpellsSign : List Char → Bool → Prop
  | none : SpellsSign [] false
  | plus : SpellsSign ['+'] false
  | minus : SpellsSign ['-'] true

/-- The characters spell an optional exponent. -/
inductive SpellsExponent : List Char → Option Int → Prop
  | absent : SpellsExponent [] none
  | given {mark : Char} {sign ds : List Char} {negative : Bool} (hmark : mark = 'e' ∨ mark = 'E')
      (hsign : SpellsSign sign negative) (hne : ds ≠ []) (hds : ∀ c ∈ ds, isDigit c = true) :
      SpellsExponent (mark :: (sign ++ ds))
        (some (if negative then -(natOfDigits ds : Int) else natOfDigits ds))

theorem spellsExponent_chars (e : Int) : SpellsExponent (Literal.exponentChars e) (some e) := by
  have hdigits (n : Nat) : ∀ c ∈ natDigits n, isDigit c = true :=
    fun c hc => Decimal.isDigit_of_mem_natDigits hc
  cases e with
  | ofNat n =>
    have h := SpellsExponent.given (.inl rfl) .plus (Decimal.natDigits_ne_nil n) (hdigits n)
    rw [Decimal.natOfDigits_natDigits] at h
    exact h
  | negSucc n =>
    have h := SpellsExponent.given (.inl rfl) .minus (Decimal.natDigits_ne_nil (n + 1))
      (hdigits (n + 1))
    rw [Decimal.natOfDigits_natDigits] at h
    exact h

/-- The digits of an exponent are read with the sign that stands before them. -/
theorem readExponentDigits?_append {sign ds rest : List Char} {negative : Bool}
    (hsign : SpellsSign sign negative) (hne : ds ≠ []) (hds : ∀ c ∈ ds, isDigit c = true)
    (hrest : rest.head?.any isDigit = false) :
    readExponentDigits? (sign ++ ds ++ rest) =
      some (some (if negative then -(natOfDigits ds : Int) else natOfDigits ds), rest) := by
  have hspan := Decimal.span_digits hds hrest
  have hempty : ds.isEmpty = false := by simpa using hne
  cases hsign with
  | none =>
    -- a digit is no sign, so the digits begin at the front
    obtain ⟨d, ds, rfl⟩ := List.exists_cons_of_ne_nil hne
    have hd : isDigit d = true := hds d (by simp)
    rw [List.cons_append] at hspan
    unfold readExponentDigits?
    split
    next hfront =>
      split at hfront
      · next h =>
        obtain rfl : d = '-' := (List.cons.inj h).1
        cases hd
      · next h =>
        obtain rfl : d = '+' := (List.cons.inj h).1
        cases hd
      · obtain ⟨rfl, rfl⟩ := Prod.mk.inj hfront
        simp only [List.nil_append, List.cons_append, hspan, hempty, Bool.false_eq_true, if_false]
  | plus =>
    simp only [List.cons_append, List.nil_append, readExponentDigits?, hspan, hempty,
      Bool.false_eq_true, if_false]
  | minus =>
    simp only [List.cons_append, List.nil_append, readExponentDigits?, hspan, hempty,
      Bool.false_eq_true, if_false, if_true]

theorem readExponent?_append {es : List Char} {e : Option Int} (h : SpellsExponent es e)
    {rest : List Char} (hrest : StopsNumber rest) : readExponent? (es ++ rest) = some (e, rest) := by
  cases h with
  | absent =>
    rw [List.nil_append]
    unfold readExponent?
    split
    · exact absurd rfl (hrest 'e' rfl).2.2.1
    · exact absurd rfl (hrest 'E' rfl).2.2.2
    · rfl
  | given hmark hsign hne hds =>
    have hread := readExponentDigits?_append hsign hne hds hrest.not_digit
    rcases hmark with rfl | rfl
    · exact hread
    · exact hread

/-- After an optional exponent no digit and no point comes next. -/
theorem head?_exponent_append {es : List Char} {e : Option Int} (h : SpellsExponent es e)
    {rest : List Char} (hrest : StopsNumber rest) :
    (es ++ rest).head?.any isDigit = false ∧ (es ++ rest).head? ≠ some '.' := by
  cases h with
  | absent =>
    refine ⟨hrest.not_digit, fun h => ?_⟩
    exact absurd rfl (hrest '.' h).2.1
  | given hmark =>
    rcases hmark with rfl | rfl
    · exact ⟨rfl, by simp⟩
    · exact ⟨rfl, by simp⟩

theorem head?_fractionChars_append (f : Option (List Char)) {rest : List Char}
    (hrest : rest.head?.any isDigit = false) :
    (fractionChars f ++ rest).head?.any isDigit = false := by
  cases f with
  | none => exact hrest
  | some f => rfl

/-- Reads what comes after the sign of a number. -/
def readMagnitude? (negative : Bool) (cs : List Char) : Option (Literal × List Char) := do
  let (whole, afterWhole) ← readWhole? cs
  let (fraction, afterFraction) ← readFraction? afterWhole
  let (exponent, rest) ← readExponent? afterFraction
  pure (⟨negative, whole, fraction, exponent⟩, rest)

theorem readNumber?_minus (cs : List Char) : readNumber? ('-' :: cs) = readMagnitude? true cs := rfl

theorem readNumber?_digit {d : Char} (hd : isDigit d = true) (cs : List Char) :
    readNumber? (d :: cs) = readMagnitude? false (d :: cs) := by
  have hsign : d ≠ '-' := by
    rintro rfl
    exact absurd hd (by decide)
  unfold readNumber?
  split
  next hfront =>
    split at hfront
    · next hminus => exact absurd (List.cons.inj hminus).1 hsign
    · obtain ⟨rfl, rfl⟩ := Prod.mk.inj hfront
      rfl

/-- The characters spell a number literal: a regular one, whose exponent may be spelled in any way. -/
def SpellsNumber (l : Literal) (cs : List Char) : Prop :=
  l.Regular ∧ ∃ es, SpellsExponent es l.exponent ∧
    cs = (if l.negative then ['-'] else []) ++ (l.whole ++ (fractionChars l.fraction ++ es))

/-- What comes after the sign of a number is read. -/
theorem readMagnitude?_append {l : Literal} (hl : l.Regular) {es : List Char}
    (hes : SpellsExponent es l.exponent) {rest : List Char} (hrest : StopsNumber rest) :
    readMagnitude? l.negative (l.whole ++ (fractionChars l.fraction ++ (es ++ rest))) =
      some (l, rest) := by
  have hexponent := head?_exponent_append hes hrest
  have hfraction := head?_fractionChars_append l.fraction hexponent.1
  unfold readMagnitude?
  rw [readWhole?_append hl.whole_ne_nil hl.whole_digits hl.whole_zero hfraction]
  simp only [Option.bind_eq_bind, Option.bind_some]
  rw [readFraction?_append hl.fraction_ne_nil hl.fraction_digits hexponent.1 hexponent.2]
  simp only [Option.bind_some, readExponent?_append hes hrest, Option.pure_def]

/-- A number is read from each of its spellings. -/
theorem SpellsNumber.readNumber?_append {l : Literal} {cs : List Char} (h : SpellsNumber l cs)
    {rest : List Char} (hrest : StopsNumber rest) : readNumber? (cs ++ rest) = some (l, rest) := by
  obtain ⟨hl, es, hes, rfl⟩ := h
  have hmagnitude := readMagnitude?_append hl hes hrest
  simp only [List.append_assoc]
  cases hnegative : l.negative with
  | true =>
    rw [hnegative] at hmagnitude
    rw [if_pos rfl, List.singleton_append, readNumber?_minus, hmagnitude]
  | false =>
    rw [hnegative] at hmagnitude
    obtain ⟨d, ds, hwhole⟩ := List.exists_cons_of_ne_nil hl.whole_ne_nil
    have hd : isDigit d = true := hl.whole_digits d (by simp [hwhole])
    rw [if_neg Bool.false_ne_true, List.nil_append]
    rw [hwhole, List.cons_append] at hmagnitude ⊢
    rw [readNumber?_digit hd, hmagnitude]

/-- A number begins with a minus sign or a digit. -/
theorem SpellsNumber.eq_cons {l : Literal} {cs : List Char} (h : SpellsNumber l cs) :
    ∃ c tail, cs = c :: tail ∧ (c = '-' ∨ isDigit c = true) := by
  obtain ⟨hl, es, -, rfl⟩ := h
  cases l.negative with
  | true => exact ⟨'-', _, rfl, .inl rfl⟩
  | false =>
    obtain ⟨d, ds, hwhole⟩ := List.exists_cons_of_ne_nil hl.whole_ne_nil
    rw [hwhole]
    exact ⟨d, _, rfl, .inr (hl.whole_digits d (by simp [hwhole]))⟩

/-- The written form of a regular literal spells it. -/
theorem spellsNumber_chars {l : Literal} (hl : l.Regular) : SpellsNumber l l.chars := by
  obtain ⟨negative, whole, fraction, exponent⟩ := l
  cases exponent with
  | none => exact ⟨hl, [], .absent, by cases fraction <;> simp [Literal.chars, fractionChars]⟩
  | some e =>
    exact ⟨hl, _, spellsExponent_chars e, by cases fraction <;> simp [Literal.chars, fractionChars]⟩

end Json

namespace Decimal

theorem Literal.regular_ofInt (i : Int) : (Literal.ofInt i).Regular where
  whole_ne_nil := natDigits_ne_nil _
  whole_digits _ hc := isDigit_of_mem_natDigits hc
  whole_zero := natDigits_of_zero_head
  fraction_ne_nil _ h := by cases h
  fraction_digits _ h := by cases h

/-- Either there are digits other than zero, or no places to fill after them. -/
def Digits.Proper (d : Digits) : Prop := d.digits ≠ 0 ∨ d.exponent ≤ 0

/-- The written form of digits is regular. -/
theorem Digits.regular_literal {d : Digits} (hd : d.Proper) (negative : Bool) :
    (d.literal negative).Regular := by
  have hne := natDigits_ne_nil d.digits
  have hdigits : ∀ c ∈ natDigits d.digits, isDigit c = true := fun c => isDigit_of_mem_natDigits
  have hzeros (n : Nat) : ∀ c ∈ List.replicate n '0', isDigit c = true := by
    intro c hc
    rw [List.eq_of_mem_replicate hc]
    rfl
  have hlength : 0 < (natDigits d.digits).length := List.length_pos_of_ne_nil hne
  have hlone (h : (natDigits d.digits).head? = some '0') : natDigits d.digits = ['0'] :=
    natDigits_of_zero_head h
  unfold Digits.literal
  dsimp only
  split
  · -- zeros up to the point
    next hcase =>
    simp only [Bool.and_eq_true, decide_eq_true_eq] at hcase
    refine ⟨?_, ?_, ?_, ?_, ?_⟩
    · simp [hne]
    · intro c hc
      rcases List.mem_append.1 hc with h | h
      · exact hdigits c h
      · exact hzeros _ c h
    · intro h
      rw [List.head?_append_of_ne_nil _ hne] at h
      rcases hd with h0 | h0
      · exact absurd h (head?_natDigits_ne (by omega))
      · have hexponent : d.exponent.toNat = 0 := by omega
        rw [hexponent, hlone h]
        rfl
    · rintro f ⟨⟩
      simp
    · rintro f ⟨⟩ c hc
      rw [List.mem_singleton.1 hc]
      rfl
  split
  · -- the point among the digits
    next hcase hpoint =>
    simp only [Bool.and_eq_true, decide_eq_true_eq] at hcase hpoint
    have htake : (natDigits d.digits).take
        ((natDigits d.digits).length + d.exponent : Int).toNat ≠ [] := by
      rw [ne_eq, List.take_eq_nil_iff]
      rintro (h | h)
      · omega
      · exact hne h
    refine ⟨htake, ?_, ?_, ?_, ?_⟩
    · exact fun c hc => hdigits c (List.mem_of_mem_take hc)
    · intro h
      have hhead : (natDigits d.digits).head? = some '0' := by
        rw [← List.take_append_drop ((natDigits d.digits).length + d.exponent : Int).toNat
          (natDigits d.digits), List.head?_append_of_ne_nil _ htake]
        exact h
      have hone : (natDigits d.digits).length = 1 := by rw [hlone hhead]; rfl
      omega
    · rintro f ⟨⟩
      rw [ne_eq, List.drop_eq_nil_iff]
      omega
    · rintro f ⟨⟩ c hc
      exact hdigits c (List.mem_of_mem_drop hc)
  split
  · -- zeros after the point
    refine ⟨by simp, ?_, fun _ => rfl, ?_, ?_⟩
    · intro c hc
      rw [List.mem_singleton.1 hc]
      rfl
    · rintro f ⟨⟩
      simp [hne]
    · rintro f ⟨⟩ c hc
      rcases List.mem_append.1 hc with h | h
      · exact hzeros _ c h
      · exact hdigits c h
  · -- an exponent
    split
    · exact ⟨hne, hdigits, hlone, fun _ h => (by cases h), fun _ h => (by cases h)⟩
    · next hrest =>
      obtain ⟨c, cs, hcs⟩ := List.exists_cons_of_ne_nil hne
      refine ⟨by simp [hcs], ?_, ?_, ?_, ?_⟩
      · exact fun c hc => hdigits c (List.mem_of_mem_take hc)
      · intro h
        rw [hcs] at h ⊢
        simp only [List.take_succ_cons, List.take_zero, List.head?_cons, Option.some.injEq] at h ⊢
        rw [h]
      · rintro f ⟨⟩
        exact hrest
      · rintro f ⟨⟩ c hc
        exact hdigits c (List.mem_of_mem_tail hc)

/-- A search ends with digits other than zero, or on the finest grid. -/
theorem Binary.search_cases (b : Binary) (steps : Nat) (grid : Int) :
    (b.search steps grid).digits ≠ 0 ∨
      b.search steps grid =
        ⟨(b.scale (grid - steps)).value / (b.scale (grid - steps)).denominator, grid - steps⟩ := by
  induction steps generalizing grid with
  | zero => exact .inr (by simp [search])
  | succ steps ih =>
    have hgrid : grid - 1 - (steps : Int) = grid - ((steps + 1 : Nat) : Int) := by omega
    have ih := ih (grid - 1)
    rw [hgrid] at ih
    rw [search]
    split
    · next n hn =>
      by_cases h0 : n = 0
      · rw [if_pos h0]
        exact ih
      · rw [if_neg h0]
        exact .inl h0
    · exact ih

/-- Powers of ten grow no faster than powers of two whose exponents are ten thirds as
great. -/
theorem ten_pow_le_two_pow {g k : Nat} (h : 10 * g ≤ 3 * k) : 10 ^ g ≤ 2 ^ k := by
  have hten : (10 ^ g) ^ 10 ≤ (2 ^ k) ^ 10 := calc
    (10 ^ g) ^ 10 = 10 ^ (10 * g) := by rw [← pow_mul, mul_comm]
    _ ≤ 10 ^ (3 * k) := Nat.pow_le_pow_right (by omega) h
    _ = (10 ^ 3) ^ k := by rw [pow_mul]
    _ ≤ (2 ^ 10) ^ k := Nat.pow_le_pow_left (by norm_num) k
    _ = (2 ^ k) ^ 10 := by rw [← pow_mul, ← pow_mul, mul_comm]
  exact le_of_pow_le_pow_left₀ (by omega) (Nat.zero_le _) hten

/-- On a grid of positive powers of ten up to its size, a double is at least one. -/
theorem Binary.scale_pos (b : Binary) (hm : b.mantissa ≠ 0) {k g : Nat}
    (hk : (Nat.log2 b.mantissa : Int) + b.exponent = k) (hg : 10 * g ≤ 3 * k) :
    (b.scale g).value / (b.scale g).denominator ≠ 0 := by
  have hlog : 2 ^ Nat.log2 b.mantissa ≤ b.mantissa := Nat.log2_self_le hm
  have hten := ten_pow_le_two_pow hg
  have hgrid : ¬ (g : Int) < 0 := by omega
  have hgrid' : 0 ≤ (g : Int) := by omega
  have hle : (b.scale g).denominator ≤ (b.scale g).value := by
    unfold scale
    simp only [hgrid, hgrid', if_true, if_false, Int.natAbs_natCast, Nat.mul_one]
    by_cases he : 0 ≤ b.exponent
    · have he' : ¬ b.exponent < 0 := by omega
      have hsum : k = Nat.log2 b.mantissa + b.exponent.natAbs := by omega
      simp only [he, he', if_true, if_false, Nat.mul_one]
      rw [hsum, pow_add] at hten
      have hprod := Nat.mul_le_mul_right (2 ^ b.exponent.natAbs) hlog
      calc 4 * 10 ^ g ≤ 4 * (b.mantissa * 2 ^ b.exponent.natAbs) :=
            Nat.mul_le_mul_left 4 (hten.trans hprod)
        _ = 4 * b.mantissa * 2 ^ b.exponent.natAbs := by rw [Nat.mul_assoc]
    · have he' : b.exponent < 0 := by omega
      have hsum : Nat.log2 b.mantissa = k + b.exponent.natAbs := by omega
      simp only [he, he', if_true, if_false, Nat.mul_one]
      rw [hsum, pow_add] at hlog
      have hprod := Nat.mul_le_mul_right (2 ^ b.exponent.natAbs) hten
      calc 4 * 2 ^ b.exponent.natAbs * 10 ^ g = 4 * (10 ^ g * 2 ^ b.exponent.natAbs) := by ring
        _ ≤ 4 * b.mantissa := Nat.mul_le_mul_left 4 (hprod.trans hlog)
  have hpos : 0 < (b.scale g).denominator := by
    unfold scale
    simp only [Nat.pow_eq]
    positivity
  exact (Nat.div_pos hle hpos).ne'

theorem Binary.proper_stripZeros (n : Nat) {d : Digits} (hd : d.Proper) :
    (shortest.stripZeros n d).Proper := by
  induction n generalizing d with
  | zero => exact hd
  | succ n ih =>
    unfold shortest.stripZeros
    split
    · next h =>
      simp only [Bool.and_eq_true, decide_eq_true_eq, bne_iff_ne] at h
      refine ih (.inl ?_)
      show d.digits / 10 ≠ 0
      omega
    · exact hd

theorem Binary.proper_shortest (b : Binary) (hm : b.mantissa ≠ 0)
    (hsize : (Nat.log2 b.mantissa : Int) + b.exponent ≤ 10000) : b.shortest.Proper := by
  refine proper_stripZeros 20 ?_
  rcases b.search_cases 19 (b.magnitude + 1) with h | h
  · exact .inl h
  · rw [h]
    by_cases hgrid : b.magnitude + 1 - ((19 : Nat) : Int) ≤ 0
    · exact .inr hgrid
    · unfold magnitude at hgrid ⊢
      obtain ⟨k, hk⟩ : ∃ k : Nat, (Nat.log2 b.mantissa : Int) + b.exponent = k :=
        ⟨_, (Int.toNat_of_nonneg (by omega)).symm⟩
      obtain ⟨g, hg⟩ : ∃ g : Nat, ((Nat.log2 b.mantissa : Int) + b.exponent) * 30103 / 100000 + 1 +
          1 - ((19 : Nat) : Int) = g := ⟨_, (Int.toNat_of_nonneg (by omega)).symm⟩
      rw [hg]
      exact .inl (b.scale_pos hm hk (by omega))

/-- The literal of a finite double is regular. -/
theorem Literal.regular_ofFiniteFloat (x : Float) : (Literal.ofFiniteFloat x).Regular := by
  unfold Literal.ofFiniteFloat
  dsimp only
  split
  · refine ⟨by simp, ?_, fun _ => rfl, ?_, ?_⟩
    · intro c hc
      rw [List.mem_singleton.1 hc]
      rfl
    · rintro f ⟨⟩
      simp
    · rintro f ⟨⟩ c hc
      rw [List.mem_singleton.1 hc]
      rfl
  · next hm =>
    refine Digits.regular_literal (Binary.proper_shortest _ hm ?_) _
    generalize x.toBits.toNat % Nat.pow 2 63 = bits at hm ⊢
    have hmantissa : (Binary.ofBits bits).mantissa < 2 ^ 53 := by
      unfold Binary.ofBits
      simp only [Nat.pow_eq]
      split <;> simp only <;> omega
    have hexponent : (Binary.ofBits bits).exponent ≤ 2000 := by
      unfold Binary.ofBits
      simp only [Nat.pow_eq]
      split <;> simp only <;> omega
    have hlog : Nat.log2 (Binary.ofBits bits).mantissa < 53 := (Nat.log2_lt hm).2 hmantissa
    omega

end Decimal

end DataQuality
