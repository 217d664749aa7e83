import DataQuality.Decimal.Integer
import Mathlib.Tactic

/-!
# Digits read back

The digits that are written of a number are digits, begin with a zero only for
zero, and are read back as the number. An integer is read exactly where digits, with a
sign in front of them or none, spell it.
-/
namespace DataQuality.Decimal

@[simp] theorem natOfDigits_natDigits (n : Nat) : natOfDigits (natDigits n) = n :=
  Nat.ofDigitChars_ten_toDigits

theorem natDigits_ne_nil (n : Nat) : natDigits n ≠ [] := Nat.toDigits_ne_nil

theorem isDigit_of_mem_natDigits {n : Nat} {c : Char} (h : c ∈ natDigits n) : isDigit c = true := by
  have hdigit : c.isDigit = true := Nat.isDigit_of_mem_toDigits (by omega) (by omega) h
  exact hdigit

theorem natDigits_eq_cons (n : Nat) : ∃ d ds, natDigits n = d :: ds ∧ isDigit d = true := by
  obtain ⟨d, ds, hcons⟩ := List.exists_cons_of_ne_nil (natDigits_ne_nil n)
  exact ⟨d, ds, hcons, isDigit_of_mem_natDigits (hcons ▸ List.mem_cons_self)⟩

theorem toNat_of_isDigit {c : Char} (hc : isDigit c = true) : 48 ≤ c.toNat ∧ c.toNat ≤ 57 := by
  simpa [isDigit, Char.le_def, UInt32.le_iff_toNat_le] using hc

theorem isBlank_of_isDigit {c : Char} (hc : isDigit c = true) : Text.isBlank c = false := by
  obtain ⟨hlow, hhigh⟩ := toNat_of_isDigit hc
  unfold Text.isBlank
  generalize c.toNat = n at hlow hhigh
  interval_cases n <;> rfl

/-- The digits of a positive number do not begin with a zero. -/
theorem head?_natDigits_ne {n : Nat} (h : 0 < n) : (natDigits n).head? ≠ some '0' := by
  induction n using Nat.strong_induction_on with
  | _ n ih =>
    unfold natDigits at ih ⊢
    by_cases hn : n < 10
    · rw [Nat.toDigits_of_lt_base hn]
      interval_cases n <;> decide
    · rw [Nat.toDigits_of_base_le (by omega) (by omega)]
      have hhead := ih (n / 10) (by omega) (by omega)
      rwa [List.head?_append_of_ne_nil _ Nat.toDigits_ne_nil]

theorem natDigits_zero : natDigits 0 = ['0'] := Nat.toDigits_zero 10

/-- A zero in front of the digits of a number is the only one. -/
theorem natDigits_of_zero_head {n : Nat} (h : (natDigits n).head? = some '0') :
    natDigits n = ['0'] := by
  rcases Nat.eq_zero_or_pos n with rfl | hn
  · exact natDigits_zero
  · exact absurd h (head?_natDigits_ne hn)

theorem readNat?_eq_some_iff {cs : List Char} {n : Nat} :
    readNat? cs = some n ↔ cs ≠ [] ∧ (∀ c ∈ cs, isDigit c = true) ∧ natOfDigits cs = n := by
  unfold readNat?
  simp [and_assoc]

/-- Digits, with a sign in front of them or none, spell an integer. -/
inductive SpellsInt : List Char → Int → Prop
  | unsigned {ds : List Char} (hne : ds ≠ []) (h : ∀ c ∈ ds, isDigit c = true) :
      SpellsInt ds (natOfDigits ds)
  | plus {ds : List Char} (hne : ds ≠ []) (h : ∀ c ∈ ds, isDigit c = true) :
      SpellsInt ('+' :: ds) (natOfDigits ds)
  | minus {ds : List Char} (hne : ds ≠ []) (h : ∀ c ∈ ds, isDigit c = true) :
      SpellsInt ('-' :: ds) (-(natOfDigits ds : Int))

theorem SpellsInt.not_blank {cs : List Char} {i : Int} (h : SpellsInt cs i) :
    ∀ c ∈ cs, Text.isBlank c = false := by
  cases h with
  | unsigned _ h => exact fun c hc => isBlank_of_isDigit (h c hc)
  | plus _ h => exact List.forall_mem_cons.2 ⟨rfl, fun c hc => isBlank_of_isDigit (h c hc)⟩
  | minus _ h => exact List.forall_mem_cons.2 ⟨rfl, fun c hc => isBlank_of_isDigit (h c hc)⟩

theorem readInt?_eq_some_iff {cs : List Char} {i : Int} : readInt? cs = some i ↔ SpellsInt cs i := by
  constructor
  · intro h
    unfold readInt? at h
    split at h <;> obtain ⟨_, hsome, rfl⟩ := Option.map_eq_some_iff.1 h <;>
      obtain ⟨n, hn, rfl⟩ := Option.map_eq_some_iff.1 (Option.map_eq_bind.trans hsome) <;>
      obtain ⟨hne, hds, rfl⟩ := readNat?_eq_some_iff.1 hn
    · exact .minus hne hds
    · exact .plus hne hds
    · exact .unsigned hne hds
  · intro h
    cases h with
    | @unsigned ds hne h =>
      have hread := readNat?_eq_some_iff.2 ⟨hne, h, rfl⟩
      -- the first digit is no sign
      unfold readInt?
      split
      · cases h '-' List.mem_cons_self
      · cases h '+' List.mem_cons_self
      · rw [hread]
        rfl
    | plus hne h =>
      simp only [readInt?, readNat?_eq_some_iff.2 ⟨hne, h, rfl⟩]
      rfl
    | minus hne h =>
      simp only [readInt?, readNat?_eq_some_iff.2 ⟨hne, h, rfl⟩]
      rfl

theorem int64?_eq_some_iff {i : Int} {x : Int64} : int64? i = some x ↔ i = x.toInt := by
  constructor
  · intro h
    unfold int64? at h
    split at h
    · next hrange =>
      obtain rfl := Option.some_inj.1 h
      unfold minInt64 maxInt64 at hrange
      exact (Int64.toInt_ofInt_of_le (by omega) (by omega)).symm
    · cases h
  · rintro rfl
    exact int64?_toInt x

theorem readInt64?_eq_some_iff {cs : List Char} {x : Int64} :
    readInt64? cs = some x ↔ SpellsInt cs x.toInt := by
  unfold readInt64?
  simp only [Option.bind_eq_some_iff, int64?_eq_some_iff, exists_eq_right, readInt?_eq_some_iff]

/-- The characters spell a 64-bit integer, with nothing but blanks before and after it. -/
def SpellsInt64 (cs : List Char) (x : Int64) : Prop :=
  ∃ front number back, cs = front ++ (number ++ back) ∧ (∀ c ∈ front, Text.isBlank c = true) ∧
    SpellsInt number x.toInt ∧ ∀ c ∈ back, Text.isBlank c = true

theorem readInt64?_trimChars_eq_some_iff {cs : List Char} {x : Int64} :
    readInt64? (Text.trimChars cs) = some x ↔ SpellsInt64 cs x := by
  rw [readInt64?_eq_some_iff]
  constructor
  · intro h
    obtain ⟨front, back, hcs, hfront, hback⟩ := Text.exists_trimChars cs
    exact ⟨front, _, back, hcs, hfront, h, hback⟩
  · rintro ⟨front, number, back, rfl, hfront, hnumber, hback⟩
    rwa [Text.trimChars_between hfront hback hnumber.not_blank]

theorem spellsInt_intChars (i : Int) : SpellsInt (intChars i) i := by
  cases i with
  | ofNat n =>
    have hdigits : ∀ c ∈ natDigits n, isDigit c = true := fun c hc => isDigit_of_mem_natDigits hc
    have hspelled := SpellsInt.unsigned (natDigits_ne_nil n) hdigits
    rwa [natOfDigits_natDigits] at hspelled
  | negSucc n =>
    have hdigits : ∀ c ∈ natDigits (n + 1), isDigit c = true :=
      fun c hc => isDigit_of_mem_natDigits hc
    have hspelled := SpellsInt.minus (natDigits_ne_nil (n + 1)) hdigits
    rwa [natOfDigits_natDigits] at hspelled

/-- The decimal form of an integer is read back. -/
theorem readInt?_intChars (i : Int) : readInt? (intChars i) = some i :=
  readInt?_eq_some_iff.2 (spellsInt_intChars i)

/-- Nothing in the decimal form of an integer is blank. -/
theorem isBlank_of_mem_intChars {i : Int} {c : Char} (h : c ∈ intChars i) :
    Text.isBlank c = false :=
  (spellsInt_intChars i).not_blank c h

/-- Digits are taken up to the first character that is none. -/
theorem span_digits {ds rest : List Char} (hds : ∀ c ∈ ds, isDigit c = true)
    (hrest : rest.head?.any isDigit = false) : (ds ++ rest).span isDigit = (ds, rest) := by
  rw [List.span_eq_takeWhile_dropWhile]
  induction ds with
  | nil =>
    cases rest with
    | nil => rfl
    | cons c rest =>
      have hc : isDigit c = false := hrest
      simp [hc]
  | cons d ds ih =>
    have hd : isDigit d = true := hds d (by simp)
    have ih := ih fun c hc => hds c (by simp [hc])
    simp only [Prod.mk.injEq] at ih
    simp only [List.cons_append, List.takeWhile_cons, List.dropWhile_cons, hd, if_true, ih.1, ih.2]

theorem digitValue_le {c : Char} (hc : isDigit c = true) : digitValue c ≤ 9 := by
  have hbounds := toNat_of_isDigit hc
  unfold digitValue
  omega

/-- Digits are too few for a number with more of them. -/
theorem natOfDigits_lt {ds : List Char} (h : ∀ c ∈ ds, isDigit c = true) :
    natOfDigits ds < 10 ^ ds.length := by
  induction ds using List.reverseRecOn with
  | nil => simp
  | append_singleton ds c ih =>
    have hlt := ih fun d hd => h d (by simp [hd])
    have hle := digitValue_le (h c (by simp))
    rw [natOfDigits_append_singleton, List.length_append, List.length_singleton, pow_succ]
    omega

end DataQuality.Decimal
