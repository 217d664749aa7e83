import DataQuality.Json.Reader
import DataQuality.Proofs.Json.Numerals
import Mathlib.Tactic

/-!
# The grammar of JSON

Which texts spell a value, said without the reader: space may stand between any two
tokens, a character of a string may be written as itself or by an escape, and an
exponent has either mark and any sign. A value is read from each of its spellings. The
reader needs at most two steps for each character of the text.
-/
namespace DataQuality.Json

open Decimal (isDigit)

/-- Nothing but space. -/
def IsGap (cs : List Char) : Prop := ∀ c ∈ cs, isSpace c = true

theorem isGap_nil : IsGap [] := by
  intro c hc
  cases hc

theorem skipSpace_append {gap : List Char} (h : IsGap gap) (cs : List Char) :
    skipSpace (gap ++ cs) = skipSpace cs := List.dropWhile_append_of_pos h

theorem skipSpace_cons {c : Char} (h : isSpace c = false) (cs : List Char) :
    skipSpace (c :: cs) = c :: cs := by
  unfold skipSpace
  rw [List.dropWhile_cons, h]
  rfl

/-- What stops a number may stand behind a gap. -/
theorem stopsNumber_gap {gap : List Char} (h : IsGap gap) {rest : List Char}
    (hrest : StopsNumber rest) : StopsNumber (gap ++ rest) := by
  cases gap with
  | nil => exact hrest
  | cons g gap =>
    rintro _ ⟨⟩
    have hg : isSpace g = true := h g (by simp)
    simp only [isSpace, Bool.or_eq_true, beq_iff_eq] at hg
    rcases hg with ((rfl | rfl) | rfl) | rfl <;> decide

theorem stopsNumber_cons {c : Char} (hc : c = ',' ∨ c = ']' ∨ c = '\x7d') (cs : List Char) :
    StopsNumber (c :: cs) := by
  rintro _ ⟨⟩
  rcases hc with rfl | rfl | rfl <;> decide

section Strings

/-- A hexadecimal digit, in either case. -/
def IsHexDigit (c : Char) (v : Nat) : Prop :=
  v < 16 ∧ (c = Nat.digitChar v ∨ c = (Nat.digitChar v).toUpper)

theorem IsHexDigit.hexValue?_eq {c : Char} {v : Nat} (h : IsHexDigit c v) : hexValue? c = some v := by
  obtain ⟨hv, rfl | rfl⟩ := h <;> interval_cases v <;> rfl

/-- Four hexadecimal digits that write a number. -/
inductive IsHex4 : List Char → Nat → Prop
  | mk {a b c d : Char} {w x y z : Nat} (ha : IsHexDigit a w) (hb : IsHexDigit b x)
      (hc : IsHexDigit c y) (hd : IsHexDigit d z) :
      IsHex4 [a, b, c, d] (((w * 16 + x) * 16 + y) * 16 + z)

theorem IsHex4.readHex4?_append {ds : List Char} {n : Nat} (h : IsHex4 ds n) (rest : List Char) :
    readHex4? (ds ++ rest) = some (n, rest) := by
  obtain ⟨ha, hb, hc, hd⟩ := h
  simp [readHex4?, ha.hexValue?_eq, hb.hexValue?_eq, hc.hexValue?_eq, hd.hexValue?_eq]

/-- The letters that stand for a character after a backslash. -/
def shortEscapes : List (Char × Char) :=
  [('"', '"'), ('\\', '\\'), ('/', '/'), ('b', '\x08'), ('f', '\x0c'), ('n', '\n'), ('r', '\r'),
    ('t', '\t')]

/-- The text between the quotes of a string and the characters that it stands for, none if it names
half of a surrogate pair. Two halves of which the second comes right after the first are no halves
but a pair. -/
inductive SpellsString : List Char → Option (List Char) → Prop
  | nil : SpellsString [] (some [])
  | plain {c : Char} {cs : List Char} {s : Option (List Char)} (hcontrol : ¬ c.toNat < 32)
      (hquote : c ≠ '"') (hbackslash : c ≠ '\\') (h : SpellsString cs s) :
      SpellsString (c :: cs) (s.map (c :: ·))
  | short {e c : Char} {cs : List Char} {s : Option (List Char)} (he : (e, c) ∈ shortEscapes)
      (h : SpellsString cs s) : SpellsString ('\\' :: e :: cs) (s.map (c :: ·))
  | named {ds cs : List Char} {n : Nat} {s : Option (List Char)} (hds : IsHex4 ds n)
      (hhigh : isHighSurrogate n = false) (hlow : isLowSurrogate n = false)
      (h : SpellsString cs s) :
      SpellsString ('\\' :: 'u' :: (ds ++ cs)) (s.map (Char.ofNat n :: ·))
  | pair {ds es cs : List Char} {n m : Nat} {s : Option (List Char)} (hds : IsHex4 ds n)
      (hhigh : isHighSurrogate n = true) (hes : IsHex4 es m) (hlow : isLowSurrogate m = true)
      (h : SpellsString cs s) :
      SpellsString ('\\' :: 'u' :: (ds ++ '\\' :: 'u' :: (es ++ cs)))
        (s.map (Char.ofNat (0x10000 + (n - 0xD800) * 0x400 + (m - 0xDC00)) :: ·))
  | second {ds cs : List Char} {n : Nat} {s : Option (List Char)} (hds : IsHex4 ds n)
      (hlow : isLowSurrogate n = true) (h : SpellsString cs s) :
      SpellsString ('\\' :: 'u' :: (ds ++ cs)) none
  | first {ds cs : List Char} {n : Nat} {s : Option (List Char)} (hds : IsHex4 ds n)
      (hhigh : isHighSurrogate n = true)
      (hlone : ∀ es m, IsHex4 es m → '\\' :: 'u' :: es <+: cs → isLowSurrogate m = false)
      (h : SpellsString cs s) : SpellsString ('\\' :: 'u' :: (ds ++ cs)) none

/-- After a backslash and the letter `u` come four digits. -/
theorem SpellsString.exists_hex4 {tail : List Char} {s : Option (List Char)}
    (h : SpellsString ('\\' :: 'u' :: tail) s) : ∃ es m cs, IsHex4 es m ∧ tail = es ++ cs := by
  cases h with
  | plain _ _ hbackslash _ => exact absurd rfl hbackslash
  | short he _ => simp [shortEscapes] at he
  | named hds _ _ _ => exact ⟨_, _, _, hds, rfl⟩
  | pair hds _ _ _ _ => exact ⟨_, _, _, hds, rfl⟩
  | second hds _ _ => exact ⟨_, _, _, hds, rfl⟩
  | first hds _ _ _ => exact ⟨_, _, _, hds, rfl⟩

theorem readNamed?_named {ds : List Char} {n : Nat} (hds : IsHex4 ds n)
    (hhigh : isHighSurrogate n = false) (hlow : isLowSurrogate n = false) (rest : List Char) :
    readNamed? (ds ++ rest) = some (some (Char.ofNat n), rest) := by
  simp [readNamed?, hds.readHex4?_append, hhigh, hlow]

theorem readNamed?_pair {ds es : List Char} {n m : Nat} (hds : IsHex4 ds n)
    (hhigh : isHighSurrogate n = true) (hes : IsHex4 es m) (hlow : isLowSurrogate m = true)
    (rest : List Char) :
    readNamed? (ds ++ '\\' :: 'u' :: (es ++ rest)) =
      some (some (Char.ofNat (0x10000 + (n - 0xD800) * 0x400 + (m - 0xDC00))), rest) := by
  simp [readNamed?, hds.readHex4?_append, hes.readHex4?_append, hhigh, hlow]

theorem isHighSurrogate_of_isLowSurrogate {n : Nat} (h : isLowSurrogate n = true) :
    isHighSurrogate n = false := by
  simp only [isLowSurrogate, isHighSurrogate, Bool.and_eq_true, decide_eq_true_eq,
    Bool.and_eq_false_iff, decide_eq_false_iff_not] at h ⊢
  omega

theorem readNamed?_second {ds : List Char} {n : Nat} (hds : IsHex4 ds n)
    (hlow : isLowSurrogate n = true) (rest : List Char) :
    readNamed? (ds ++ rest) = some (none, rest) := by
  have hhigh := isHighSurrogate_of_isLowSurrogate hlow
  simp [readNamed?, hds.readHex4?_append, hlow, hhigh]

/-- A first half is read as one if the string does not go on with a second half. -/
theorem readNamed?_first {ds cs : List Char} {n : Nat} {s : Option (List Char)} (hds : IsHex4 ds n)
    (hhigh : isHighSurrogate n = true)
    (hlone : ∀ es m, IsHex4 es m → '\\' :: 'u' :: es <+: cs → isLowSurrogate m = false)
    (h : SpellsString cs s) (rest : List Char) :
    readNamed? (ds ++ (cs ++ '"' :: rest)) = some (none, cs ++ '"' :: rest) := by
  unfold readNamed?
  rw [hds.readHex4?_append]
  simp only [hhigh, if_true]
  split
  · next tail htail =>
    obtain ⟨tail', rfl⟩ : ∃ tail', cs = '\\' :: 'u' :: tail' := by
      match cs, htail with
      | [], htail => cases htail
      | [c], htail => cases htail
      | c :: d :: tail', htail =>
        simp only [List.cons_append, List.cons.injEq] at htail
        exact ⟨tail', by rw [htail.1, htail.2.1]⟩
    obtain ⟨es, m, cs, hes, rfl⟩ := h.exists_hex4
    have hm := hlone es m hes ⟨cs, rfl⟩
    simp only [List.cons_append, List.append_assoc, List.cons.injEq, true_and] at htail
    rw [← htail, hes.readHex4?_append]
    simp [hm]
  · rfl

theorem readStringFrom_short (fuel : Nat) (acc : Option (List Char)) {e c : Char}
    (he : (e, c) ∈ shortEscapes) (tail : List Char) :
    readStringFrom (fuel + 1) acc ('\\' :: e :: tail) =
      readStringFrom fuel (acc.map (c :: ·)) tail := by
  simp only [shortEscapes, List.mem_cons, Prod.mk.injEq, List.not_mem_nil, or_false] at he
  rcases he with ⟨rfl, rfl⟩ | ⟨rfl, rfl⟩ | ⟨rfl, rfl⟩ | ⟨rfl, rfl⟩ | ⟨rfl, rfl⟩ | ⟨rfl, rfl⟩ |
    ⟨rfl, rfl⟩ | ⟨rfl, rfl⟩ <;> rfl

theorem readStringFrom_named (fuel : Nat) (acc : Option (List Char)) {tail after : List Char}
    {c : Option Char} (h : readNamed? tail = some (c, after)) :
    readStringFrom (fuel + 1) acc ('\\' :: 'u' :: tail) =
      readStringFrom fuel (acc.bind fun cs => c.map (· :: cs)) after := by
  rw [readStringFrom]
  simp only [Char.reduceEq, if_false, if_true, h]

/-- What was read so far, nearest first, and what comes after it. -/
def joined (acc s : Option (List Char)) : Option String :=
  acc.bind fun a => s.map fun s => String.ofList (a.reverse ++ s)

theorem joined_map (acc s : Option (List Char)) (c : Char) :
    joined (acc.map (c :: ·)) s = joined acc (s.map (c :: ·)) := by
  cases acc with
  | none => rfl
  | some a =>
    cases s with
    | none => rfl
    | some s =>
      simp only [joined, Option.map_some, Option.bind_some, List.reverse_cons, List.append_assoc,
        List.singleton_append]

/-- A string is read to its closing quote. -/
theorem SpellsString.readStringFrom_append {cs : List Char} {s : Option (List Char)}
    (h : SpellsString cs s) (acc : Option (List Char)) (rest : List Char) {fuel : Nat}
    (hfuel : cs.length < fuel) :
    readStringFrom fuel acc (cs ++ '"' :: rest) = some (joined acc s, rest) := by
  obtain ⟨fuel, rfl⟩ : ∃ n, fuel = n + 1 := ⟨fuel - 1, by omega⟩
  induction h generalizing acc fuel with
  | nil => cases acc <;> simp [readStringFrom, joined]
  | plain hcontrol hquote hbackslash h ih =>
    simp only [List.length_cons] at hfuel
    obtain ⟨fuel, rfl⟩ : ∃ n, fuel = n + 1 := ⟨fuel - 1, by omega⟩
    simp only [List.cons_append, readStringFrom, hquote, hbackslash, hcontrol, if_false]
    rw [ih _ fuel (by omega), joined_map]
  | short he h ih =>
    simp only [List.length_cons] at hfuel
    obtain ⟨fuel, rfl⟩ : ∃ n, fuel = n + 1 := ⟨fuel - 1, by omega⟩
    rw [List.cons_append, List.cons_append, readStringFrom_short _ _ he, ih _ fuel (by omega),
      joined_map]
  | named hds hhigh hlow h ih =>
    simp only [List.length_cons, List.length_append] at hfuel
    obtain ⟨fuel, rfl⟩ : ∃ n, fuel = n + 1 := ⟨fuel - 1, by omega⟩
    simp only [List.cons_append, List.append_assoc]
    rw [readStringFrom_named _ _ (readNamed?_named hds hhigh hlow _), ih _ fuel (by omega),
      ← joined_map, Option.map_eq_bind]
    rfl
  | pair hds hhigh hes hlow h ih =>
    simp only [List.length_cons, List.length_append] at hfuel
    obtain ⟨fuel, rfl⟩ : ∃ n, fuel = n + 1 := ⟨fuel - 1, by omega⟩
    simp only [List.cons_append, List.append_assoc]
    rw [readStringFrom_named _ _ (readNamed?_pair hds hhigh hes hlow _), ih _ fuel (by omega),
      ← joined_map, Option.map_eq_bind]
    rfl
  | second hds hlow h ih =>
    simp only [List.length_cons, List.length_append] at hfuel
    obtain ⟨fuel, rfl⟩ : ∃ n, fuel = n + 1 := ⟨fuel - 1, by omega⟩
    simp only [List.cons_append, List.append_assoc]
    rw [readStringFrom_named _ _ (readNamed?_second hds hlow _), ih _ fuel (by omega)]
    cases acc <;> rfl
  | first hds hhigh hlone h ih =>
    simp only [List.length_cons, List.length_append] at hfuel
    obtain ⟨fuel, rfl⟩ : ∃ n, fuel = n + 1 := ⟨fuel - 1, by omega⟩
    simp only [List.cons_append, List.append_assoc]
    rw [readStringFrom_named _ _ (readNamed?_first hds hhigh hlone h _), ih _ fuel (by omega)]
    cases acc <;> rfl

theorem SpellsString.readString_append {cs : List Char} {s : Option (List Char)}
    (h : SpellsString cs s) (rest : List Char) :
    readString (cs ++ '"' :: rest) = some (s.map String.ofList, rest) := by
  have hfuel : cs.length < (cs ++ '"' :: rest).length + 1 := by
    rw [List.length_append]
    omega
  exact h.readStringFrom_append (some []) rest hfuel

/-- The reader notices that a string is written without a backslash. -/
theorem SpellsString.isPlain_append {cs : List Char} {s : Option (List Char)}
    (h : SpellsString cs s) (rest : List Char) :
    isPlain (cs ++ '"' :: rest) = decide ('\\' ∉ cs) := by
  induction h with
  | nil => rfl
  | plain hcontrol hquote hbackslash h ih =>
    unfold isPlain at ih ⊢
    rw [List.cons_append, List.dropWhile_cons_of_pos (by simp [hquote, hbackslash]), ih]
    simp [Ne.symm hbackslash]
  | short => simp [isPlain]
  | named => simp [isPlain]
  | pair => simp [isPlain]
  | second => simp [isPlain]
  | first => simp [isPlain]

end Strings

/-- What a piece of a text may be: a value, a value with the space around it, the items between the
brackets of an array, a field, or the fields between the braces of an object. -/
inductive Phrase
  | value (j : Json)
  | element (j : Json)
  | items (items : List Json)
  | member (name : Name) (j : Json)
  | members (fields : List (Name × Json))

/-- The characters spell the phrase. -/
inductive Spells : Phrase → List Char → Prop
  | null : Spells (.value .null) ['n', 'u', 'l', 'l']
  | trueValue : Spells (.value (.bool true)) ['t', 'r', 'u', 'e']
  | falseValue : Spells (.value (.bool false)) ['f', 'a', 'l', 's', 'e']
  | number {l : Decimal.Literal} {cs : List Char} (h : SpellsNumber l cs) :
      Spells (.value (.number l)) cs
  | string {cs : List Char} {s : Option (List Char)} (h : SpellsString cs s) :
      Spells (.value (.string (s.map String.ofList))) ('"' :: (cs ++ ['"']))
  | emptyArray {gap : List Char} (h : IsGap gap) : Spells (.value (.array [])) ('[' :: (gap ++ [']']))
  | array {items : List Json} {cs : List Char} (h : Spells (.items items) cs) :
      Spells (.value (.array items)) ('[' :: (cs ++ [']']))
  | emptyObject {gap : List Char} (h : IsGap gap) :
      Spells (.value (.object [])) ('\x7b' :: (gap ++ ['\x7d']))
  | object {fields : List (Name × Json)} {cs : List Char} (h : Spells (.members fields) cs) :
      Spells (.value (.object fields)) ('\x7b' :: (cs ++ ['\x7d']))
  | element {j : Json} {before cs after : List Char} (hbefore : IsGap before)
      (h : Spells (.value j) cs) (hafter : IsGap after) :
      Spells (.element j) (before ++ (cs ++ after))
  | lastItem {j : Json} {cs : List Char} (h : Spells (.element j) cs) : Spells (.items [j]) cs
  | item {j : Json} {items : List Json} {cs more : List Char} (h : Spells (.element j) cs)
      (hmore : Spells (.items items) more) : Spells (.items (j :: items)) (cs ++ ',' :: more)
  | member {j : Json} {before cs after body : List Char} {s : Option (List Char)}
      (hbefore : IsGap before) (hname : SpellsString cs s) (hafter : IsGap after)
      (h : Spells (.element j) body) :
      Spells (.member ⟨s.map String.ofList, decide ('\\' ∉ cs)⟩ j)
        (before ++ '"' :: (cs ++ '"' :: (after ++ ':' :: body)))
  | lastMember {name : Name} {j : Json} {cs : List Char} (h : Spells (.member name j) cs) :
      Spells (.members [(name, j)]) cs
  | members {name : Name} {j : Json} {fields : List (Name × Json)} {cs more : List Char}
      (h : Spells (.member name j) cs) (hmore : Spells (.members fields) more) :
      Spells (.members ((name, j) :: fields)) (cs ++ ',' :: more)

/-- A value begins with neither space nor a closing bracket. -/
theorem Spells.eq_cons {j : Json} {cs : List Char} (h : Spells (.value j) cs) :
    ∃ c tail, cs = c :: tail ∧ isSpace c = false ∧ c ≠ ']' := by
  cases h with
  | number h =>
    obtain ⟨c, tail, rfl, hstart⟩ := h.eq_cons
    refine ⟨c, tail, rfl, ?_⟩
    rcases hstart with rfl | hdigit
    · exact ⟨rfl, by decide⟩
    · constructor
      · by_contra hspace
        simp only [isSpace, Bool.not_eq_false, Bool.or_eq_true, beq_iff_eq] at hspace
        rcases hspace with ((rfl | rfl) | rfl) | rfl <;> exact absurd hdigit (by decide)
      · rintro rfl
        exact absurd hdigit (by decide)
  | null => exact ⟨_, _, rfl, rfl, by decide⟩
  | trueValue => exact ⟨_, _, rfl, rfl, by decide⟩
  | falseValue => exact ⟨_, _, rfl, rfl, by decide⟩
  | string => exact ⟨_, _, rfl, rfl, by decide⟩
  | emptyArray => exact ⟨_, _, rfl, rfl, by decide⟩
  | array => exact ⟨_, _, rfl, rfl, by decide⟩
  | emptyObject => exact ⟨_, _, rfl, rfl, by decide⟩
  | object => exact ⟨_, _, rfl, rfl, by decide⟩

theorem Spells.skipSpace_element {j : Json} {cs : List Char} (h : Spells (.element j) cs)
    (rest : List Char) : ∃ c tail, skipSpace (cs ++ rest) = c :: tail ∧ c ≠ ']' := by
  cases h with
  | @element _ before _ after hbefore h =>
    obtain ⟨c, tail, rfl, hspace, hbracket⟩ := h.eq_cons
    refine ⟨c, tail ++ after ++ rest, ?_, hbracket⟩
    rw [List.append_assoc, skipSpace_append hbefore, List.cons_append, List.cons_append,
      skipSpace_cons hspace]

/-- Items begin with something other than a closing bracket. -/
theorem Spells.skipSpace_items {items : List Json} {cs : List Char} (h : Spells (.items items) cs)
    (rest : List Char) : ∃ c tail, skipSpace (cs ++ rest) = c :: tail ∧ c ≠ ']' := by
  cases h with
  | lastItem h => exact h.skipSpace_element rest
  | item h =>
    rw [List.append_assoc]
    exact h.skipSpace_element _

theorem Spells.skipSpace_member {name : Name} {j : Json} {cs : List Char}
    (h : Spells (.member name j) cs) (rest : List Char) :
    ∃ tail, skipSpace (cs ++ rest) = '"' :: tail := by
  cases h with
  | member hbefore =>
    rw [List.append_assoc, skipSpace_append hbefore]
    exact ⟨_, skipSpace_cons rfl _⟩

/-- Fields begin with a quote. -/
theorem Spells.skipSpace_members {fields : List (Name × Json)} {cs : List Char}
    (h : Spells (.members fields) cs) (rest : List Char) :
    ∃ tail, skipSpace (cs ++ rest) = '"' :: tail := by
  cases h with
  | lastMember h => exact h.skipSpace_member rest
  | members h =>
    rw [List.append_assoc]
    exact h.skipSpace_member _

/-- What follows a gap is read as if it stood at the front. -/
theorem readValue_gap (fuel : Nat) {gap : List Char} (h : IsGap gap) (cs : List Char) :
    readValue fuel (gap ++ cs) = readValue fuel cs := by
  cases fuel with
  | zero => rfl
  | succ fuel => simp only [readValue, skipSpace_append h]

/-- A value that begins like a number is read as a number. -/
theorem readValue_number (fuel : Nat) {c : Char} (cs : List Char) (hc : c = '-' ∨ isDigit c = true)
    (hspace : isSpace c = false) :
    readValue (fuel + 1) (c :: cs) =
      (readNumber? (c :: cs)).map fun (n, after) => (.number n, after) := by
  have hne (d : Char) (hd : d ≠ '-' ∧ isDigit d = false) : c ≠ d := by
    rintro rfl
    rcases hc with h | h
    · exact hd.1 h
    · rw [hd.2] at h
      cases h
  simp only [readValue, skipSpace_cons hspace]
  split
  · next h => exact absurd (List.cons.inj h).1 (hne 'n' (by decide))
  · next h => exact absurd (List.cons.inj h).1 (hne 't' (by decide))
  · next h => exact absurd (List.cons.inj h).1 (hne 'f' (by decide))
  · next h => exact absurd (List.cons.inj h).1 (hne '"' (by decide))
  · next h => exact absurd (List.cons.inj h).1 (hne '[' (by decide))
  · next h => exact absurd (List.cons.inj h).1 (hne '\x7b' (by decide))
  · rfl

/-- How the reader takes a phrase off the front of a text. After an element or a field it may leave
space behind. -/
def Phrase.IsRead : Phrase → List Char → Prop
  | .value j, cs => ∀ fuel rest, 2 * cs.length ≤ fuel → StopsNumber rest →
      readValue fuel (cs ++ rest) = some (j, rest)
  | .element j, cs => ∀ fuel rest, 2 * cs.length ≤ fuel → StopsNumber rest →
      ∃ after, readValue fuel (cs ++ rest) = some (j, after) ∧ skipSpace after = skipSpace rest
  | .items js, cs => ∀ fuel rest, 2 * cs.length + 1 ≤ fuel →
      readItems fuel (cs ++ ']' :: rest) = some (js, rest)
  | .member name j, cs => ∀ fuel rest, 2 * cs.length ≤ fuel → StopsNumber rest →
      ∃ start afterName body after, skipSpace (cs ++ rest) = '"' :: start ∧
        readString start = some (name.content, afterName) ∧ isPlain start = name.isPlain ∧
        skipSpace afterName = ':' :: body ∧ readValue fuel body = some (j, after) ∧
        skipSpace after = skipSpace rest
  | .members fields, cs => ∀ fuel rest, 2 * cs.length + 1 ≤ fuel →
      readFields fuel (cs ++ '\x7d' :: rest) = some (fields, rest)

/-- Every phrase is read from each of its spellings. -/
theorem Spells.isRead {p : Phrase} {cs : List Char} (h : Spells p cs) : p.IsRead cs := by
  induction h with
  | null =>
    rintro (_ | fuel) rest hfuel -
    · simp at hfuel
    · rfl
  | trueValue =>
    rintro (_ | fuel) rest hfuel -
    · simp at hfuel
    · rfl
  | falseValue =>
    rintro (_ | fuel) rest hfuel -
    · simp at hfuel
    · rfl
  | @number l cs h =>
    intro fuel rest hfuel hrest
    obtain ⟨c, tail, rfl, hspace, -⟩ := (Spells.number h).eq_cons
    obtain ⟨c', tail', heq, hstart⟩ := h.eq_cons
    obtain ⟨rfl, rfl⟩ := List.cons.inj heq
    have hread := h.readNumber?_append hrest
    simp only [List.length_cons] at hfuel
    obtain ⟨fuel, rfl⟩ : ∃ n, fuel = n + 1 := ⟨fuel - 1, by omega⟩
    rw [List.cons_append] at hread ⊢
    rw [readValue_number fuel _ hstart hspace, hread]
    rfl
  | @string cs s h =>
    intro fuel rest hfuel hrest
    simp only [List.length_cons] at hfuel
    obtain ⟨fuel, rfl⟩ : ∃ n, fuel = n + 1 := ⟨fuel - 1, by omega⟩
    have hread := h.readString_append rest
    simp only [List.cons_append, List.append_assoc, List.nil_append, readValue,
      skipSpace_cons (show isSpace '"' = false from rfl), hread, Option.map_some]
  | @emptyArray gap h =>
    intro fuel rest hfuel hrest
    simp only [List.length_cons] at hfuel
    obtain ⟨fuel, rfl⟩ : ∃ n, fuel = n + 1 := ⟨fuel - 1, by omega⟩
    simp only [List.cons_append, List.append_assoc, List.nil_append, readValue,
      skipSpace_cons (show isSpace '[' = false from rfl), skipSpace_append h,
      skipSpace_cons (show isSpace ']' = false from rfl)]
  | @array items cs h ih =>
    intro fuel rest hfuel hrest
    simp only [List.length_cons, List.length_append, List.length_nil] at hfuel
    obtain ⟨fuel, rfl⟩ : ∃ n, fuel = n + 1 := ⟨fuel - 1, by omega⟩
    have hread := ih fuel rest (by omega)
    obtain ⟨c, tail, hskip, hbracket⟩ := h.skipSpace_items (']' :: rest)
    simp only [List.cons_append, List.append_assoc, List.nil_append, readValue,
      skipSpace_cons (show isSpace '[' = false from rfl), hskip, hread]
    split
    · next heq => exact absurd (List.cons.inj heq).1 hbracket
    · rfl
  | @emptyObject gap h =>
    intro fuel rest hfuel hrest
    simp only [List.length_cons] at hfuel
    obtain ⟨fuel, rfl⟩ : ∃ n, fuel = n + 1 := ⟨fuel - 1, by omega⟩
    simp only [List.cons_append, List.append_assoc, List.nil_append, readValue,
      skipSpace_cons (show isSpace '\x7b' = false from rfl), skipSpace_append h,
      skipSpace_cons (show isSpace '\x7d' = false from rfl)]
  | @object fields cs h ih =>
    intro fuel rest hfuel hrest
    simp only [List.length_cons, List.length_append, List.length_nil] at hfuel
    obtain ⟨fuel, rfl⟩ : ∃ n, fuel = n + 1 := ⟨fuel - 1, by omega⟩
    have hread := ih fuel rest (by omega)
    obtain ⟨tail, hskip⟩ := h.skipSpace_members ('\x7d' :: rest)
    simp only [List.cons_append, List.append_assoc, List.nil_append, readValue,
      skipSpace_cons (show isSpace '\x7b' = false from rfl), hskip, hread]
    rfl
  | @element j before cs after hbefore h hafter ih =>
    intro fuel rest hfuel hrest
    simp only [List.length_append] at hfuel
    refine ⟨after ++ rest, ?_, skipSpace_append hafter rest⟩
    rw [List.append_assoc, readValue_gap fuel hbefore, List.append_assoc]
    exact ih fuel (after ++ rest) (by omega) (stopsNumber_gap hafter hrest)
  | @lastItem j cs h ih =>
    intro fuel rest hfuel
    obtain ⟨fuel, rfl⟩ : ∃ n, fuel = n + 1 := ⟨fuel - 1, by omega⟩
    obtain ⟨after, hread, hskip⟩ := ih fuel (']' :: rest) (by omega)
      (stopsNumber_cons (.inr (.inl rfl)) rest)
    simp only [readItems, hread, hskip, skipSpace_cons (show isSpace ']' = false from rfl)]
  | @item j items cs more h hmore ih ihmore =>
    intro fuel rest hfuel
    simp only [List.length_append, List.length_cons] at hfuel
    obtain ⟨fuel, rfl⟩ : ∃ n, fuel = n + 1 := ⟨fuel - 1, by omega⟩
    obtain ⟨after, hread, hskip⟩ := ih fuel (',' :: (more ++ ']' :: rest)) (by omega)
      (stopsNumber_cons (.inl rfl) _)
    have hitems := ihmore fuel rest (by omega)
    simp only [List.append_assoc, List.cons_append, readItems, hread, hskip,
      skipSpace_cons (show isSpace ',' = false from rfl), hitems, Option.map_some]
  | @member j before cs after body s hbefore hname hafter h ih =>
    intro fuel rest hfuel hrest
    simp only [List.length_append, List.length_cons] at hfuel
    obtain ⟨left, hread, hskip⟩ := ih fuel rest (by omega) hrest
    refine ⟨cs ++ '"' :: (after ++ ':' :: (body ++ rest)), after ++ ':' :: (body ++ rest),
      body ++ rest, left, ?_, ?_, ?_, ?_, hread, hskip⟩
    · simp only [List.append_assoc, List.cons_append, skipSpace_append hbefore,
        skipSpace_cons (show isSpace '"' = false from rfl)]
    · exact hname.readString_append _
    · exact hname.isPlain_append _
    · rw [skipSpace_append hafter, skipSpace_cons rfl]
  | @lastMember name j cs h ih =>
    intro fuel rest hfuel
    obtain ⟨fuel, rfl⟩ : ∃ n, fuel = n + 1 := ⟨fuel - 1, by omega⟩
    obtain ⟨start, afterName, body, after, hstart, hname, hplain, hcolon, hread, hskip⟩ :=
      ih fuel ('\x7d' :: rest) (by omega) (stopsNumber_cons (.inr (.inr rfl)) rest)
    simp only [readFields, hstart, hname, hplain, hcolon, hread, hskip,
      skipSpace_cons (show isSpace '\x7d' = false from rfl)]
  | @members name j fields cs more h hmore ih ihmore =>
    intro fuel rest hfuel
    simp only [List.length_append, List.length_cons] at hfuel
    obtain ⟨fuel, rfl⟩ : ∃ n, fuel = n + 1 := ⟨fuel - 1, by omega⟩
    obtain ⟨start, afterName, body, after, hstart, hname, hplain, hcolon, hread, hskip⟩ :=
      ih fuel (',' :: (more ++ '\x7d' :: rest)) (by omega) (stopsNumber_cons (.inl rfl) _)
    have hfields := ihmore fuel rest (by omega)
    simp only [List.append_assoc, List.cons_append, readFields, hstart, hname, hplain, hcolon,
      hread, hskip, skipSpace_cons (show isSpace ',' = false from rfl), hfields, Option.map_some]

/-- A value is read from each of its spellings. -/
theorem readValue_spells {j : Json} {cs : List Char} (h : Spells (.value j) cs) {fuel : Nat}
    (hfuel : 2 * cs.length ≤ fuel) {rest : List Char} (hrest : StopsNumber rest) :
    readValue fuel (cs ++ rest) = some (j, rest) := h.isRead fuel rest hfuel hrest

/-- A text that spells a value, with space around it or without, is parsed as the value. -/
theorem parse_of_spells {j : Json} {s : String} (h : Spells (.element j) s.toList) :
    parse s = some j := by
  have hfuel : 2 * s.toList.length ≤ 2 * s.length + 2 := by
    rw [String.length_toList]
    omega
  obtain ⟨after, hread, hskip⟩ := h.isRead _ [] hfuel fun c hc => by cases hc
  rw [List.append_nil] at hread
  unfold parse
  rw [hread]
  simp only [hskip, skipSpace_nil, List.isEmpty_nil, if_true]

end DataQuality.Json
