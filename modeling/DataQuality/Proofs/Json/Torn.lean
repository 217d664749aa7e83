import DataQuality.Proofs.Json.Spelling

/-!
# Torn values

A value is torn if its written form breaks off before the end. Where records follow
the break, no reader finds a way through: the first of their quotes closes a string
that was left open, and what comes then separates no items and no fields. So a torn
array with records behind it is not JSON.
-/
namespace DataQuality.Json

open Decimal (isDigit)

/-- The front of a text of which something is missing at the end. -/
def Torn (p whole : List Char) : Prop := ∃ q : List Char, q ≠ [] ∧ p ++ q = whole

theorem not_torn_nil (p : List Char) : ¬ Torn p [] := by
  rintro ⟨q, hq, h⟩
  exact hq (List.append_eq_nil_iff.1 h).2

/-- A text breaks off in its first part, or in what comes after that. -/
theorem Torn.of_append {p a b : List Char} (h : Torn p (a ++ b)) :
    Torn p a ∨ ∃ p', p = a ++ p' ∧ Torn p' b := by
  obtain ⟨q, hq, h⟩ := h
  rcases List.append_eq_append_iff.1 h with ⟨r, rfl, rfl⟩ | ⟨r, rfl, rfl⟩
  · cases r with
    | nil => exact .inr ⟨[], by simp, _, hq, rfl⟩
    | cons c r => exact .inl ⟨c :: r, by simp, rfl⟩
  · exact .inr ⟨r, rfl, q, hq, rfl⟩

theorem Torn.of_cons {p whole : List Char} {c : Char} (h : Torn p (c :: whole)) :
    p = [] ∨ ∃ p', p = c :: p' ∧ Torn p' whole := by
  obtain ⟨q, hq, h⟩ := h
  rcases List.append_eq_cons_iff.1 h with ⟨rfl, -⟩ | ⟨p', rfl, rfl⟩
  · exact .inl rfl
  · exact .inr ⟨p', rfl, q, hq, rfl⟩

/-- A text of one character breaks off before it. -/
theorem Torn.of_singleton {p : List Char} {c : Char} (h : Torn p [c]) : p = [] := by
  rcases h.of_cons with rfl | ⟨p', -, h'⟩
  · rfl
  · exact absurd h' (not_torn_nil p')

/-- What follows does not separate items, fields, or a name from its value, and closes
nothing. -/
def NoSeparator (rest : List Char) : Prop :=
  ∀ c, (skipSpace rest).head? = some c → c ≠ ',' ∧ c ≠ ':' ∧ c ≠ ']' ∧ c ≠ '\x7d'

theorem noSeparator_nil : NoSeparator [] := by
  intro c hc
  cases hc

theorem noSeparator_cons {c : Char} {rest : List Char} (hspace : isSpace c = false)
    (hc : c ≠ ',' ∧ c ≠ ':' ∧ c ≠ ']' ∧ c ≠ '\x7d') : NoSeparator (c :: rest) := by
  intro d hd
  rw [skipSpace_cons hspace] at hd
  obtain rfl := Option.some.inj hd
  exact hc

theorem itemChars_eq_append (j : Json) (rest : List Json) :
    ∃ more, itemChars (j :: rest) = j.chars ++ more := by
  cases rest with
  | nil => exact ⟨[], by simp only [itemChars, List.append_nil]⟩
  | cons k rest =>
    simp only [itemChars]
    exact ⟨_, rfl⟩

theorem fieldChars_eq_append (name : Name) (value : Json) (rest : List (Name × Json)) :
    ∃ more, fieldChars ((name, value) :: rest) =
      stringChars (name.content.getD "") ++ ':' :: more := by
  cases rest with
  | nil =>
    simp only [fieldChars]
    exact ⟨_, rfl⟩
  | cons f rest =>
    simp only [fieldChars]
    exact ⟨_, rfl⟩

/-- The written form of an array of records: after a bracket, a brace and a quote comes
something that separates nothing, and the whole is read as one value. -/
structure IsRecords (next : List Char) : Prop where
  front : ∃ named, next = '[' :: '\x7b' :: '"' :: named ∧ NoSeparator named
  whole : ∀ fuel, 2 * next.length ≤ fuel → ∃ j, readValue fuel next = some (j, [])

/-- An array is one of records if its first item is one whose first name begins with a
character that separates nothing. -/
theorem isRecords_chars {c : Char} {cs : List Char} {value : Json} {fields : List (Name × Json)}
    {items : List Json} (hj : (Json.array (.object ((Name.ofString (String.ofList (c :: cs)), value) ::
      fields) :: items)).Writable) (hc : escapedChar c = [c]) (hspace : isSpace c = false)
    (hseparator : c ≠ ',' ∧ c ≠ ':' ∧ c ≠ ']' ∧ c ≠ '\x7d') :
    IsRecords (Json.array (.object ((Name.ofString (String.ofList (c :: cs)), value) ::
      fields) :: items)).chars where
  front := by
    obtain ⟨more, hitems⟩ := itemChars_eq_append
      (.object ((Name.ofString (String.ofList (c :: cs)), value) :: fields)) items
    obtain ⟨more', hfields⟩ := fieldChars_eq_append (Name.ofString (String.ofList (c :: cs))) value
      fields
    rw [chars, hitems, chars, hfields]
    simp only [Name.ofString, Option.getD_some, stringChars, String.toList_ofList,
      List.flatMap_cons, hc]
    exact ⟨_, rfl, noSeparator_cons hspace hseparator⟩
  whole fuel hfuel := by
    have hread := readValue_spells (spells_chars _ hj) hfuel
      fun d (hd : ([] : List Char).head? = some d) => by cases hd
    rw [List.append_nil] at hread
    exact ⟨_, hread⟩

namespace IsRecords

variable {next : List Char}

theorem eq_cons (h : IsRecords next) : ∃ tail, next = '[' :: tail := by
  obtain ⟨named, rfl, -⟩ := h.front
  exact ⟨_, rfl⟩

theorem skipSpace_eq (h : IsRecords next) : ∃ tail, skipSpace next = '[' :: tail := by
  obtain ⟨tail, rfl⟩ := h.eq_cons
  exact ⟨tail, skipSpace_cons rfl tail⟩

theorem noSeparator (h : IsRecords next) : NoSeparator next := by
  obtain ⟨tail, rfl⟩ := h.eq_cons
  exact noSeparator_cons rfl (by decide)

theorem stopsNumber (h : IsRecords next) : StopsNumber next := by
  obtain ⟨tail, rfl⟩ := h.eq_cons
  rintro _ ⟨⟩
  decide

end IsRecords

/-- If a value is read at all, no list and no record goes on after it. -/
def Stuck (fuel : Nat) (cs : List Char) : Prop :=
  ∀ j rest, readValue fuel cs = some (j, rest) → NoSeparator rest

theorem Stuck.of_none {fuel : Nat} {cs : List Char} (h : readValue fuel cs = none) :
    Stuck fuel cs := by
  intro j rest hread
  rw [h] at hread
  cases hread

theorem Stuck.of_some {fuel : Nat} {cs rest : List Char} {j : Json}
    (h : readValue fuel cs = some (j, rest)) (hrest : NoSeparator rest) : Stuck fuel cs := by
  intro k after hread
  rw [h] at hread
  obtain ⟨-, rfl⟩ := Prod.mk.inj (Option.some.inj hread)
  exact hrest

/-- No items are read from what a reader is stuck in. -/
theorem Stuck.readItems {fuel : Nat} {cs : List Char} (h : Stuck fuel cs) :
    readItems (fuel + 1) cs = none := by
  rw [Json.readItems]
  cases hread : readValue fuel cs with
  | none => rfl
  | some found =>
    obtain ⟨j, rest⟩ := found
    have hrest := h j rest hread
    dsimp only
    split
    · next hskip => exact absurd rfl (hrest ',' (by rw [hskip]; rfl)).1
    · next hskip => exact absurd rfl (hrest ']' (by rw [hskip]; rfl)).2.2.1
    · rfl

/-- No fields are read if a reader is stuck in the value of the first. -/
theorem Stuck.readFields {fuel : Nat} {body : List Char} (h : Stuck fuel body) (s : String) :
    readFields (fuel + 1) (stringChars s ++ ':' :: body) = none := by
  have hname := readString_escaped s (':' :: body)
  simp only [stringChars, List.cons_append, List.append_assoc, List.nil_append, Json.readFields,
    skipSpace_cons (show isSpace '"' = false from rfl), hname,
    skipSpace_cons (show isSpace ':' = false from rfl)]
  cases hread : readValue fuel body with
  | none => rfl
  | some found =>
    obtain ⟨j, rest⟩ := found
    have hrest := h j rest hread
    dsimp only
    split
    · next hskip => exact absurd rfl (hrest ',' (by rw [hskip]; rfl)).1
    · next hskip => exact absurd rfl (hrest '\x7d' (by rw [hskip]; rfl)).2.2.2
    · rfl

section Torn

variable {next : List Char}

/-- A character that is named by number has four digits, not fewer. -/
theorem readHex4?_torn {p rest : List Char} {a b c d : Char} (hp : Torn p [a, b, c, d]) :
    readHex4? (p ++ '[' :: rest) = none := by
  have hbracket : hexValue? '[' = none := rfl
  unfold readHex4?
  rcases hp.of_cons with rfl | ⟨p₁, rfl, h₁⟩
  · rcases rest with _ | ⟨_, _ | ⟨_, _ | _⟩⟩ <;> simp [hbracket]
  rcases h₁.of_cons with rfl | ⟨p₂, rfl, h₂⟩
  · rcases rest with _ | ⟨_, _ | _⟩ <;> simp [hbracket]
  rcases h₂.of_cons with rfl | ⟨p₃, rfl, h₃⟩
  · rcases rest with _ | _ <;> simp [hbracket]
  obtain rfl := h₃.of_singleton
  simp [hbracket]

/-- Of an escape that is torn, nothing is read. -/
theorem readStringFrom_torn_escape (fuel : Nat) (acc : Option (List Char)) {p rest : List Char}
    {c : Char} (hp : Torn p (escapedChar c)) (hne : p ≠ []) :
    readStringFrom fuel acc (p ++ '[' :: rest) = none := by
  cases fuel with
  | zero => rfl
  | succ fuel =>
    have hshort {e : Char} (h : Torn p ['\\', e]) :
        readStringFrom (fuel + 1) acc (p ++ '[' :: rest) = none := by
      rcases h.of_cons with rfl | ⟨p', rfl, h'⟩
      · exact absurd rfl hne
      · obtain rfl := h'.of_singleton
        rfl
    have hlong {a b c d : Char} (h : Torn p ['\\', 'u', a, b, c, d]) :
        readStringFrom (fuel + 1) acc (p ++ '[' :: rest) = none := by
      rcases h.of_cons with rfl | ⟨p₁, rfl, h₁⟩
      · exact absurd rfl hne
      rcases h₁.of_cons with rfl | ⟨p₂, rfl, h₂⟩
      · rfl
      have hnamed : readNamed? (p₂ ++ '[' :: rest) = none := by
        unfold readNamed?
        rw [readHex4?_torn h₂]
      simp only [List.cons_append, readStringFrom, hnamed]
      rfl
    unfold escapedChar at hp
    split_ifs at hp
    · exact hshort hp
    · exact hshort hp
    · exact hshort hp
    · exact hshort hp
    · exact hshort hp
    · exact hshort hp
    · exact hshort hp
    · exact hlong hp
    · exact absurd hp.of_singleton hne

/-- A string that is torn goes on to the first quote of the records that follow. -/
theorem readStringFrom_torn {named : List Char} (cs acc : List Char) {p : List Char}
    (hp : Torn p (cs.flatMap escapedChar ++ ['"'])) {fuel : Nat}
    (hfuel : p.length + 2 < fuel) {content : Option String} {rest : List Char}
    (hread : readStringFrom fuel (some acc) (p ++ '[' :: '\x7b' :: '"' :: named) =
      some (content, rest)) : rest = named := by
  have hnil {acc : List Char} {fuel : Nat} (hfuel : 2 < fuel)
      (hread : readStringFrom fuel (some acc) ('[' :: '\x7b' :: '"' :: named) =
        some (content, rest)) : rest = named := by
    obtain ⟨fuel, rfl⟩ : ∃ n, fuel = n + 3 := ⟨fuel - 3, by omega⟩
    exact (Prod.mk.inj (Option.some.inj hread)).2.symm
  induction cs generalizing acc p fuel with
  | nil =>
    obtain rfl := Torn.of_singleton hp
    exact hnil (by simpa using hfuel) hread
  | cons c cs ih =>
    rw [List.flatMap_cons, List.append_assoc] at hp
    rcases hp.of_append with hescape | ⟨p', rfl, hp'⟩
    · by_cases hne : p = []
      · subst hne
        exact hnil (by simpa using hfuel) hread
      · rw [readStringFrom_torn_escape fuel _ hescape hne] at hread
        cases hread
    · have hlength := List.length_pos_of_ne_nil (escapedChar_ne_nil c)
      rw [List.length_append] at hfuel
      obtain ⟨fuel, rfl⟩ : ∃ n, fuel = n + 1 := ⟨fuel - 1, by omega⟩
      rw [List.append_assoc, readStringFrom_escapedChar] at hread
      exact ih (c :: acc) hp' (by omega) hread

theorem readString_torn (h : IsRecords next) {s : String} {p : List Char}
    (hp : Torn p (s.toList.flatMap escapedChar ++ ['"'])) {content : Option String}
    {rest : List Char} (hread : readString (p ++ next) = some (content, rest)) :
    NoSeparator rest := by
  obtain ⟨named, rfl, hnamed⟩ := h.front
  unfold readString at hread
  have hrest := readStringFrom_torn s.toList [] hp (by simp) hread
  rwa [hrest]

/-- A character of a number literal. -/
def IsNumeral (c : Char) : Prop :=
  isDigit c = true ∨ c = '-' ∨ c = '+' ∨ c = '.' ∨ c = 'e' ∨ c = 'E'

instance : DecidablePred IsNumeral := fun c =>
  inferInstanceAs (Decidable (isDigit c = true ∨ c = '-' ∨ c = '+' ∨ c = '.' ∨ c = 'e' ∨ c = 'E'))

/-- What is read has only characters of number literals. -/
def TakesNumerals {α : Type} (read : List Char → Option (α × List Char)) : Prop :=
  ∀ cs a rest, read cs = some (a, rest) → ∃ used, cs = used ++ rest ∧ ∀ c ∈ used, IsNumeral c

theorem span_isDigit {cs ds rest : List Char} (h : cs.span isDigit = (ds, rest)) :
    cs = ds ++ rest ∧ ∀ c ∈ ds, IsNumeral c := by
  rw [List.span_eq_takeWhile_dropWhile] at h
  obtain ⟨rfl, rfl⟩ := Prod.mk.inj h
  refine ⟨List.takeWhile_append_dropWhile.symm, fun c hc => ?_⟩
  exact .inl (List.all_eq_true.1 List.all_takeWhile c hc)

theorem takesNumerals_readWhole? : TakesNumerals readWhole? := by
  intro cs ds rest hread
  unfold readWhole? at hread
  rcases hspan : cs.span isDigit with ⟨found, after⟩
  rw [hspan] at hread
  dsimp only at hread
  split at hread
  · cases hread
  · cases hread
  · obtain ⟨rfl, rfl⟩ := Prod.mk.inj (Option.some.inj hread)
    exact ⟨_, span_isDigit hspan⟩

theorem takesNumerals_readFraction? : TakesNumerals readFraction? := by
  intro cs f rest hread
  unfold readFraction? at hread
  split at hread
  · next cs =>
    rcases hspan : cs.span isDigit with ⟨found, after⟩
    rw [hspan] at hread
    dsimp only at hread
    split_ifs at hread
    obtain ⟨-, rfl⟩ := Prod.mk.inj (Option.some.inj hread)
    obtain ⟨rfl, hfound⟩ := span_isDigit hspan
    refine ⟨'.' :: found, rfl, ?_⟩
    rintro c (_ | ⟨_, hc⟩)
    · simp [IsNumeral]
    · exact hfound c hc
  · obtain ⟨-, rfl⟩ := Prod.mk.inj (Option.some.inj hread)
    exact ⟨[], rfl, by simp⟩

theorem takesNumerals_readExponentDigits? : TakesNumerals readExponentDigits? := by
  have hdigits (sign : List Char) {cs found after : List Char} (hsign : ∀ c ∈ sign, IsNumeral c)
      (hspan : cs.span isDigit = (found, after)) :
      ∃ used, sign ++ cs = used ++ after ∧ ∀ c ∈ used, IsNumeral c := by
    obtain ⟨rfl, hfound⟩ := span_isDigit hspan
    refine ⟨sign ++ found, by simp, ?_⟩
    intro c hc
    rcases List.mem_append.1 hc with hc | hc
    · exact hsign c hc
    · exact hfound c hc
  intro cs e rest hread
  unfold readExponentDigits? at hread
  split at hread
  next hsigned =>
    rcases hspan : List.span isDigit _ with ⟨found, after⟩
    rw [hspan] at hread
    dsimp only at hread
    obtain ⟨-, hread⟩ := Option.ite_none_left_eq_some.1 hread
    obtain ⟨-, rfl⟩ := Prod.mk.inj (Option.some.inj hread)
    split at hsigned <;> obtain ⟨-, rfl⟩ := Prod.mk.inj hsigned
    · exact hdigits ['-'] (by simp [IsNumeral]) hspan
    · exact hdigits ['+'] (by simp [IsNumeral]) hspan
    · exact hdigits [] (by simp) hspan

theorem takesNumerals_readExponent? : TakesNumerals readExponent? := by
  have hmark {mark : Char} (hm : IsNumeral mark) {cs rest : List Char} {e : Option Int}
      (hread : readExponentDigits? cs = some (e, rest)) :
      ∃ used, mark :: cs = used ++ rest ∧ ∀ c ∈ used, IsNumeral c := by
    obtain ⟨used, rfl, hused⟩ := takesNumerals_readExponentDigits? cs e rest hread
    refine ⟨mark :: used, rfl, ?_⟩
    rintro c (_ | ⟨_, hc⟩)
    · exact hm
    · exact hused c hc
  intro cs e rest hread
  unfold readExponent? at hread
  split at hread
  · exact hmark (by simp [IsNumeral]) hread
  · exact hmark (by simp [IsNumeral]) hread
  · obtain ⟨-, rfl⟩ := Prod.mk.inj (Option.some.inj hread)
    exact ⟨[], rfl, by simp⟩

theorem takesNumerals_readMagnitude? (negative : Bool) : TakesNumerals (readMagnitude? negative) := by
  intro cs l rest hread
  unfold readMagnitude? at hread
  simp only [Option.bind_eq_bind, Option.bind_eq_some_iff, Prod.exists, Option.pure_def,
    Option.some.injEq, Prod.mk.injEq] at hread
  obtain ⟨whole, afterWhole, hwhole, fraction, afterFraction, hfraction, exponent, _, hexponent, -,
    rfl⟩ := hread
  obtain ⟨used₁, rfl, h₁⟩ := takesNumerals_readWhole? _ _ _ hwhole
  obtain ⟨used₂, rfl, h₂⟩ := takesNumerals_readFraction? _ _ _ hfraction
  obtain ⟨used₃, rfl, h₃⟩ := takesNumerals_readExponent? _ _ _ hexponent
  refine ⟨used₁ ++ used₂ ++ used₃, by simp, ?_⟩
  intro c hc
  simp only [List.mem_append] at hc
  rcases hc with (hc | hc) | hc
  · exact h₁ c hc
  · exact h₂ c hc
  · exact h₃ c hc

theorem takesNumerals_readNumber? : TakesNumerals readNumber? := by
  intro cs l rest hread
  by_cases hminus : ∃ tail, cs = '-' :: tail
  · obtain ⟨tail, rfl⟩ := hminus
    rw [readNumber?_minus] at hread
    obtain ⟨used, rfl, hused⟩ := takesNumerals_readMagnitude? true _ _ _ hread
    refine ⟨'-' :: used, rfl, ?_⟩
    rintro c (_ | ⟨_, hc⟩)
    · simp [IsNumeral]
    · exact hused c hc
  · have hplain : readNumber? cs = readMagnitude? false cs := by
      unfold readNumber?
      split
      next hfront =>
        split at hfront
        · exact absurd ⟨_, rfl⟩ hminus
        · obtain ⟨rfl, rfl⟩ := Prod.mk.inj hfront
          rfl
    rw [hplain] at hread
    exact takesNumerals_readMagnitude? false _ _ _ hread

theorem IsNumeral.isSpace_eq {c : Char} (h : IsNumeral c) : isSpace c = false := by
  by_contra hspace
  simp only [isSpace, Bool.not_eq_false, Bool.or_eq_true, beq_iff_eq] at hspace
  rcases hspace with ((rfl | rfl) | rfl) | rfl <;> exact absurd h (by decide)

theorem IsNumeral.noSeparator {c : Char} (h : IsNumeral c) (rest : List Char) :
    NoSeparator (c :: rest) := by
  have hne {d : Char} (hd : ¬ IsNumeral d) : c ≠ d := by
    rintro rfl
    exact hd h
  exact noSeparator_cons h.isSpace_eq
    ⟨hne (by decide), hne (by decide), hne (by decide), hne (by decide)⟩

theorem isNumeral_of_mem_chars {l : Decimal.Literal} (hl : l.Regular) {c : Char}
    (hc : c ∈ l.chars) : IsNumeral c := by
  have hint (i : Int) (hc : c ∈ Decimal.intChars i) : IsNumeral c := by
    cases i with
    | ofNat n => exact .inl (Decimal.isDigit_of_mem_natDigits hc)
    | negSucc n =>
      rcases List.mem_cons.1 hc with rfl | hc
      · decide
      · exact .inl (Decimal.isDigit_of_mem_natDigits hc)
  unfold Decimal.Literal.chars at hc
  simp only [List.mem_append] at hc
  rcases hc with ((hc | hc) | hc) | hc
  · split at hc
    · obtain rfl := List.mem_singleton.1 hc
      decide
    · cases hc
  · exact .inl (hl.whole_digits c hc)
  · cases hf : l.fraction with
    | none => simp [hf] at hc
    | some f =>
      simp only [hf] at hc
      rcases List.mem_cons.1 hc with rfl | hc
      · decide
      · exact .inl (hl.fraction_digits f hf c hc)
  · cases he : l.exponent with
    | none => simp [he] at hc
    | some e =>
      simp only [he, Decimal.Literal.exponentChars] at hc
      rcases List.mem_cons.1 hc with rfl | hc
      · decide
      · split_ifs at hc
        · rcases List.mem_cons.1 hc with rfl | hc
          · decide
          · exact hint e hc
        · exact hint e hc

/-- A number that is torn ends before the records that follow, or where it is no number. -/
theorem readNumber?_torn (h : IsRecords next) {p : List Char} (hp : ∀ c ∈ p, IsNumeral c)
    {l : Decimal.Literal} {rest : List Char} (hread : readNumber? (p ++ next) = some (l, rest)) :
    NoSeparator rest := by
  obtain ⟨used, hused, hnumeral⟩ := takesNumerals_readNumber? _ _ _ hread
  rcases List.append_eq_append_iff.1 hused with ⟨r, rfl, hnext⟩ | ⟨r, rfl, rfl⟩
  · cases r with
    | nil =>
      rw [List.nil_append] at hnext
      rw [← hnext]
      exact h.noSeparator
    | cons c r =>
      obtain ⟨tail, rfl⟩ := h.eq_cons
      obtain ⟨rfl, -⟩ := List.cons.inj hnext
      exact absurd (hnumeral '[' (by simp)) (by decide)
  · cases r with
    | nil => exact h.noSeparator
    | cons c r => exact (hp c (by simp)).noSeparator _

/-- A whole value ends before the records that follow. -/
theorem stuck_whole (h : IsRecords next) {j : Json} (hj : j.Writable) {fuel : Nat}
    (hfuel : 2 * j.chars.length ≤ fuel) : Stuck fuel (j.chars ++ next) :=
  .of_some (readValue_spells (spells_chars j hj) hfuel h.stopsNumber) h.noSeparator

theorem stuck_nil (h : IsRecords next) {fuel : Nat} (hfuel : 2 * next.length ≤ fuel) :
    Stuck fuel next := by
  obtain ⟨j, hread⟩ := h.whole fuel hfuel
  exact .of_some hread noSeparator_nil

/-- A value with something behind it is torn where the reader is stuck, or later. -/
theorem stuck_or_later (h : IsRecords next) {j : Json} (hj : j.Writable) {p rest : List Char}
    {c : Char} (fuel : Nat) (hfuel : 2 * (p.length + next.length) ≤ fuel)
    (htorn : Torn p j.chars → Stuck fuel (p ++ next)) (hp : Torn p (j.chars ++ c :: rest)) :
    Stuck fuel (p ++ next) ∨ ∃ p', p = j.chars ++ c :: p' ∧ Torn p' rest := by
  rcases hp.of_append with hp | ⟨p', rfl, hp'⟩
  · exact .inl (htorn hp)
  · rcases hp'.of_cons with rfl | ⟨p'', rfl, hp''⟩
    · rw [List.append_nil] at hfuel ⊢
      exact .inl (stuck_whole h hj (by omega))
    · exact .inr ⟨p'', rfl, hp''⟩

/-- A word is no value if it is torn. -/
theorem stuck_word (h : IsRecords next) {word : List Char}
    (hword : word = ['n', 'u', 'l', 'l'] ∨ word = ['t', 'r', 'u', 'e'] ∨
      word = ['f', 'a', 'l', 's', 'e']) {p : List Char} (hp : Torn p word) (hne : p ≠ [])
    (fuel : Nat) : Stuck (fuel + 1) (p ++ next) := by
  obtain ⟨tail, rfl⟩ := h.eq_cons
  apply Stuck.of_none
  have hthree {p : List Char} {a b c : Char} (hp : Torn p [a, b, c]) :
      p = [] ∨ p = [a] ∨ p = [a, b] := by
    rcases hp.of_cons with rfl | ⟨p₁, rfl, h₁⟩
    · exact .inl rfl
    rcases h₁.of_cons with rfl | ⟨p₂, rfl, h₂⟩
    · exact .inr (.inl rfl)
    obtain rfl := h₂.of_singleton
    exact .inr (.inr rfl)
  rcases hword with rfl | rfl | rfl <;>
    rcases hp.of_cons with rfl | ⟨p, rfl, hp'⟩
  · exact absurd rfl hne
  · rcases hthree hp' with rfl | rfl | rfl <;> rfl
  · exact absurd rfl hne
  · rcases hthree hp' with rfl | rfl | rfl <;> rfl
  · exact absurd rfl hne
  · rcases hp'.of_cons with rfl | ⟨p', rfl, hp''⟩
    · rfl
    · rcases hthree hp'' with rfl | rfl | rfl <;> rfl

/-- Items begin with something that does not close their array. -/
theorem itemChars_eq_cons {items : List Json} (hne : items ≠ []) (hw : AllWritable items) :
    ∃ c tail, itemChars items = c :: tail ∧ isSpace c = false ∧ c ≠ ']' := by
  obtain ⟨j, rest, rfl⟩ := List.exists_cons_of_ne_nil hne
  obtain ⟨more, hitems⟩ := itemChars_eq_append j rest
  obtain ⟨c, tail, hj, hspace, hc⟩ := (spells_chars j hw.1).eq_cons
  rw [hitems, hj]
  exact ⟨c, _, rfl, hspace, hc⟩

/-- What is left of an array that is torn does not begin by closing it. -/
theorem skipSpace_torn_items (h : IsRecords next) {items : List Json} (hw : AllWritable items)
    {p : List Char} (hp : Torn p (itemChars items ++ [']'])) :
    ∃ c tail, skipSpace (p ++ next) = c :: tail ∧ c ≠ ']' := by
  cases p with
  | nil =>
    obtain ⟨tail, hskip⟩ := h.skipSpace_eq
    exact ⟨'[', tail, hskip, by decide⟩
  | cons d p =>
    by_cases hne : items = []
    · subst hne
      cases Torn.of_singleton hp
    · obtain ⟨c, tail, hitems, hspace, hc⟩ := itemChars_eq_cons hne hw
      rw [hitems] at hp
      rcases hp.of_cons with hnil | ⟨p', heq, -⟩
      · cases hnil
      · obtain ⟨rfl, -⟩ := List.cons.inj heq
        exact ⟨d, p ++ next, skipSpace_cons hspace _, hc⟩

theorem readValue_torn_array (h : IsRecords next) {items : List Json} (hw : AllWritable items)
    {p : List Char} (hp : Torn p (itemChars items ++ [']'])) {fuel : Nat}
    (hread : readItems fuel (p ++ next) = none) : readValue (fuel + 1) ('[' :: p ++ next) = none := by
  obtain ⟨c, tail, hskip, hc⟩ := skipSpace_torn_items h hw hp
  simp only [List.cons_append, readValue, skipSpace_cons (show isSpace '[' = false from rfl),
    hskip, hread]
  split
  · next heq => exact absurd (List.cons.inj heq).1 hc
  · rfl

/-- What is left of an object that is torn does not begin by closing it. -/
theorem skipSpace_torn_fields (h : IsRecords next) {fields : List (Name × Json)} {p : List Char}
    (hp : Torn p (fieldChars fields ++ ['\x7d'])) :
    ∃ c tail, skipSpace (p ++ next) = c :: tail ∧ c ≠ '\x7d' := by
  cases p with
  | nil =>
    obtain ⟨tail, hskip⟩ := h.skipSpace_eq
    exact ⟨'[', tail, hskip, by decide⟩
  | cons d p =>
    cases fields with
    | nil => cases Torn.of_singleton hp
    | cons f rest =>
      obtain ⟨more, hfields⟩ := fieldChars_eq_append f.1 f.2 rest
      rw [hfields, stringChars] at hp
      rcases hp.of_cons with hnil | ⟨p', heq, -⟩
      · cases hnil
      · obtain ⟨rfl, -⟩ := List.cons.inj heq
        exact ⟨'"', p ++ next, skipSpace_cons rfl _, by decide⟩

theorem readFields_nil (h : IsRecords next) (fuel : Nat) : readFields fuel next = none := by
  obtain ⟨tail, rfl⟩ := h.eq_cons
  cases fuel <;> rfl

/-- A field is torn in its name, or in what comes after the name. -/
theorem stuck_field (h : IsRecords next) (fuel : Nat) {s : String} {p rest : List Char}
    (hp : Torn p (stringChars s ++ ':' :: rest)) :
    readFields (fuel + 1) (p ++ next) = none ∨
      ∃ p', p = stringChars s ++ ':' :: p' ∧ Torn p' rest := by
  rcases hp.of_append with hname | ⟨p', rfl, hp'⟩
  · left
    rcases hname.of_cons with rfl | ⟨p', rfl, hp'⟩
    · exact readFields_nil h (fuel + 1)
    simp only [List.cons_append, readFields, skipSpace_cons (show isSpace '"' = false from rfl)]
    cases hread : readString (p' ++ next) with
    | none => rfl
    | some found =>
      obtain ⟨content, after⟩ := found
      have hafter := readString_torn h hp' hread
      dsimp only
      split
      · next hskip => exact absurd rfl (hafter ':' (by rw [hskip]; rfl)).2.1
      · rfl
  · rcases hp'.of_cons with rfl | ⟨p'', rfl, hp''⟩
    · left
      obtain ⟨tail, hskip⟩ := h.skipSpace_eq
      have hread := readString_escaped s next
      simp only [stringChars, List.append_nil, List.cons_append, List.append_assoc,
        List.nil_append, readFields, skipSpace_cons (show isSpace '"' = false from rfl), hread,
        hskip]
      rfl
    · exact .inr ⟨p'', rfl, hp''⟩

mutual

/-- A value that is torn leaves the reader stuck. -/
theorem stuck_torn (h : IsRecords next) (j : Json) (hj : j.Writable) {p : List Char}
    (hp : Torn p j.chars) {fuel : Nat} (hfuel : 2 * (p.length + next.length) ≤ fuel) :
    Stuck fuel (p ++ next) := by
  by_cases hne : p = []
  · subst hne
    exact stuck_nil h (by simpa using hfuel)
  have hpositive := List.length_pos_of_ne_nil hne
  obtain ⟨fuel, rfl⟩ : ∃ n, fuel = n + 1 := ⟨fuel - 1, by omega⟩
  match j with
  | .null =>
    simp only [chars] at hp
    exact stuck_word h (.inl rfl) hp hne fuel
  | .bool true =>
    simp only [chars] at hp
    exact stuck_word h (.inr (.inl rfl)) hp hne fuel
  | .bool false =>
    simp only [chars] at hp
    exact stuck_word h (.inr (.inr rfl)) hp hne fuel
  | .number l =>
    simp only [Writable] at hj
    simp only [chars] at hp
    obtain ⟨c, tail, hchars, hstart⟩ := (spellsNumber_chars hj).eq_cons
    obtain ⟨q, -, hq⟩ := hp
    have hnumeral (d : Char) (hd : d ∈ p) : IsNumeral d :=
      isNumeral_of_mem_chars hj (by rw [← hq]; exact List.mem_append_left q hd)
    obtain ⟨d, p, rfl⟩ := List.exists_cons_of_ne_nil hne
    obtain rfl : d = c := by
      rw [hchars] at hq
      exact (List.cons.inj hq).1
    intro k rest hread
    have hspace : isSpace d = false := (hnumeral d (by simp)).isSpace_eq
    rw [List.cons_append, readValue_number fuel _ hstart hspace] at hread
    obtain ⟨⟨l', after⟩, hnumber, heq⟩ := Option.map_eq_some_iff.1 hread
    obtain ⟨-, rfl⟩ := Prod.mk.inj heq
    exact readNumber?_torn h hnumeral hnumber
  | .string s =>
    simp only [chars, stringChars] at hp
    rcases hp.of_cons with rfl | ⟨p', rfl, hp'⟩
    · exact absurd rfl hne
    intro k rest hread
    simp only [List.cons_append, readValue, skipSpace_cons (show isSpace '"' = false from rfl),
      Option.map_eq_some_iff] at hread
    obtain ⟨⟨content, after⟩, hstring, heq⟩ := hread
    obtain ⟨-, rfl⟩ := Prod.mk.inj heq
    exact readString_torn h hp' hstring
  | .array items =>
    simp only [Writable] at hj
    simp only [chars] at hp
    rcases hp.of_cons with rfl | ⟨p', rfl, hp'⟩
    · exact absurd rfl hne
    simp only [List.length_cons] at hfuel
    have hread : readItems fuel (p' ++ next) = none := readItems_torn h items hj hp' (by omega)
    exact .of_none (readValue_torn_array h hj hp' hread)
  | .object fields =>
    simp only [Writable] at hj
    simp only [chars] at hp
    rcases hp.of_cons with rfl | ⟨p', rfl, hp'⟩
    · exact absurd rfl hne
    simp only [List.length_cons] at hfuel
    have hread : readFields fuel (p' ++ next) = none := readFields_torn h fields hj hp' (by omega)
    obtain ⟨c, tail, hskip, hc⟩ := skipSpace_torn_fields h hp'
    apply Stuck.of_none
    simp only [List.cons_append, readValue, skipSpace_cons (show isSpace '\x7b' = false from rfl),
      hskip, hread]
    split
    · next heq => exact absurd (List.cons.inj heq).1 hc
    · rfl

/-- Of items that are torn, none are read. -/
theorem readItems_torn (h : IsRecords next) (items : List Json) (hw : AllWritable items)
    {p : List Char} (hp : Torn p (itemChars items ++ [']'])) {fuel : Nat}
    (hfuel : 2 * (p.length + next.length) + 1 ≤ fuel) : readItems fuel (p ++ next) = none := by
  obtain ⟨fuel, rfl⟩ : ∃ n, fuel = n + 1 := ⟨fuel - 1, by omega⟩
  match items with
  | [] =>
    obtain rfl := Torn.of_singleton hp
    exact (stuck_nil h (by simpa using hfuel)).readItems
  | [j] =>
    simp only [itemChars] at hp
    rcases stuck_or_later h hw.1 fuel (by omega)
        (fun hp => stuck_torn h j hw.1 hp (by omega)) hp with
      hstuck | ⟨p', rfl, hp'⟩
    · exact hstuck.readItems
    · exact absurd hp' (not_torn_nil p')
  | j :: k :: items =>
    simp only [itemChars, List.append_assoc, List.cons_append] at hp
    rcases stuck_or_later h hw.1 fuel (by omega)
        (fun hp => stuck_torn h j hw.1 hp (by omega)) hp with
      hstuck | ⟨p', rfl, hp'⟩
    · exact hstuck.readItems
    · simp only [List.length_append, List.length_cons] at hfuel
      have hread : readValue fuel (j.chars ++ ',' :: (p' ++ next)) = _ :=
        readValue_spells (spells_chars j hw.1) (by omega) (stopsNumber_cons (.inl rfl) _)
      have hitems : readItems fuel (p' ++ next) = none :=
        readItems_torn h (k :: items) hw.2 hp' (by omega)
      simp only [List.append_assoc, List.cons_append, readItems, hread,
        skipSpace_cons (show isSpace ',' = false from rfl), hitems, Option.map_none]

/-- Of fields that are torn, none are read. -/
theorem readFields_torn (h : IsRecords next) (fields : List (Name × Json))
    (hw : FieldsWritable fields) {p : List Char} (hp : Torn p (fieldChars fields ++ ['\x7d']))
    {fuel : Nat} (hfuel : 2 * (p.length + next.length) + 1 ≤ fuel) :
    readFields fuel (p ++ next) = none := by
  obtain ⟨fuel, rfl⟩ : ∃ n, fuel = n + 1 := ⟨fuel - 1, by omega⟩
  match fields with
  | [] =>
    obtain rfl := Torn.of_singleton hp
    exact readFields_nil h (fuel + 1)
  | [(name, value)] =>
    obtain ⟨⟨s, rfl, -⟩, hvalue, -⟩ := hw
    simp only [fieldChars, Name.ofString, Option.getD_some, List.append_assoc,
      List.cons_append] at hp
    rcases stuck_field h fuel hp with hnone | ⟨p', rfl, hp'⟩
    · exact hnone
    simp only [List.length_append, List.length_cons] at hfuel
    rcases stuck_or_later h hvalue fuel (by omega)
        (fun hp => stuck_torn h value hvalue hp (by omega)) hp' with hstuck | ⟨p'', rfl, hp''⟩
    · rw [List.append_assoc, List.cons_append]
      exact hstuck.readFields s
    · exact absurd hp'' (not_torn_nil p'')
  | (name, value) :: f :: fields =>
    obtain ⟨⟨s, rfl, -⟩, hvalue, hfields⟩ := hw
    simp only [fieldChars, Name.ofString, Option.getD_some, List.append_assoc,
      List.cons_append] at hp
    rcases stuck_field h fuel hp with hnone | ⟨p', rfl, hp'⟩
    · exact hnone
    simp only [List.length_append, List.length_cons] at hfuel
    rcases stuck_or_later h hvalue fuel (by omega)
        (fun hp => stuck_torn h value hvalue hp (by omega)) hp' with hstuck | ⟨p'', rfl, hp''⟩
    · rw [List.append_assoc, List.cons_append]
      exact hstuck.readFields s
    · simp only [List.length_append, List.length_cons] at hfuel
      have hread : readValue fuel (value.chars ++ ',' :: (p'' ++ next)) = _ :=
        readValue_spells (spells_chars value hvalue) (by omega) (stopsNumber_cons (.inl rfl) _)
      have hmore : readFields fuel (p'' ++ next) = none :=
        readFields_torn h (f :: fields) hfields hp'' (by omega)
      have hname := readString_escaped s (':' :: (value.chars ++ ',' :: (p'' ++ next)))
      simp only [stringChars, List.append_assoc, List.cons_append, List.nil_append, readFields,
        skipSpace_cons (show isSpace '"' = false from rfl), hname,
        skipSpace_cons (show isSpace ':' = false from rfl), hread,
        skipSpace_cons (show isSpace ',' = false from rfl), hmore, Option.map_none]

end

/-- An array with records behind it is not JSON, whether it is torn or whole. -/
theorem parse_torn (h : IsRecords next) {items : List Json} (hw : AllWritable items) {p : List Char}
    (hne : p ≠ []) (hp : p <+: (Json.array items).chars) {s : String} (hs : s.toList = p ++ next) :
    parse s = none := by
  obtain ⟨q, hq⟩ := hp
  have hlength : s.length = p.length + next.length := by
    rw [← String.length_toList, hs, List.length_append]
  unfold parse
  rw [hs]
  by_cases hwhole : q = []
  · subst hwhole
    rw [List.append_nil] at hq
    have hread : readValue (2 * s.length + 2) (p ++ next) = some (.array items, next) :=
      readValue_spells (by rw [hq]; exact spells_chars _ hw) (by omega) h.stopsNumber
    obtain ⟨tail, hskip⟩ := h.skipSpace_eq
    simp only [hread, hskip, List.isEmpty_cons, Bool.false_eq_true, if_false]
  · have htorn : Torn p (Json.array items).chars := ⟨q, hwhole, hq⟩
    simp only [chars] at htorn
    rcases htorn.of_cons with rfl | ⟨p', rfl, hp'⟩
    · exact absurd rfl hne
    rw [List.length_cons] at hlength
    have hitems : readItems (2 * s.length + 1) (p' ++ next) = none :=
      readItems_torn h items hw hp' (by omega)
    have hread : readValue (2 * s.length + 2) ('[' :: p' ++ next) = none :=
      readValue_torn_array h hw hp' hitems
    simp only [hread]

end Torn

end DataQuality.Json
