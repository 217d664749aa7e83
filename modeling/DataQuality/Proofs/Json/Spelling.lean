import DataQuality.Json.Writer
import DataQuality.Proofs.Json.Grammar

/-!
# Values read back

Both written forms of a value spell it, so each is read back as the value. Each
character of a string is written so that reading takes it as one step.
-/
namespace DataQuality.Json

/-- A control character named by number is read as that character. -/
theorem readNamed?_control {n : Nat} (hn : n < 32) (tail : List Char) :
    readNamed? ('0' :: '0' :: Text.hexDigit (n / 16) :: Text.hexDigit (n % 16) :: tail) =
      some (some (Char.ofNat n), tail) := by
  interval_cases n <;> rfl

/-- One step reads what is written for one character. -/
theorem readStringFrom_escapedChar (fuel : Nat) (acc : List Char) (c : Char) (tail : List Char) :
    readStringFrom (fuel + 1) (some acc) (escapedChar c ++ tail) =
      readStringFrom fuel (some (c :: acc)) tail := by
  unfold escapedChar
  split_ifs with h₁ h₂ h₃ h₄ h₅ h₆ h₇ h₈
  · subst h₁; rfl
  · subst h₂; rfl
  · subst h₃; rfl
  · subst h₄; rfl
  · subst h₅; rfl
  · subst h₆; rfl
  · subst h₇; rfl
  · have hread := readNamed?_control h₈ tail
    simp only [List.cons_append, List.nil_append]
    rw [readStringFrom]
    simp only [Char.reduceEq, if_false, if_true, hread, Option.bind_some,
      Option.map_some, Char.ofNat_toNat]
  · simp only [List.cons_append, List.nil_append]
    simp only [readStringFrom, h₁, h₂, h₈, if_false, Option.map_some]

theorem escapedChar_ne_nil (c : Char) : escapedChar c ≠ [] := by
  unfold escapedChar
  split_ifs <;> simp

theorem isHexDigit_hexDigit {v : Nat} (hv : v < 16) : IsHexDigit (Text.hexDigit v) v := by
  refine ⟨hv, .inl ?_⟩
  interval_cases v <;> rfl

/-- What is written for a character spells it. -/
theorem SpellsString.escapedChar {cs : List Char} {s : Option (List Char)} (c : Char)
    (h : SpellsString cs s) : SpellsString (escapedChar c ++ cs) (s.map (c :: ·)) := by
  unfold Json.escapedChar
  split_ifs with h₁ h₂ h₃ h₄ h₅ h₆ h₇ h₈
  · exact .short (by simp [shortEscapes, h₁]) h
  · exact .short (by simp [shortEscapes, h₂]) h
  · exact .short (by simp [shortEscapes, h₃]) h
  · exact .short (by simp [shortEscapes, h₄]) h
  · exact .short (by simp [shortEscapes, h₅]) h
  · exact .short (by simp [shortEscapes, h₆]) h
  · exact .short (by simp [shortEscapes, h₇]) h
  · have hzero : IsHexDigit '0' 0 := ⟨by omega, .inl rfl⟩
    have hds := IsHex4.mk hzero hzero (isHexDigit_hexDigit (v := c.toNat / 16) (by omega))
      (isHexDigit_hexDigit (v := c.toNat % 16) (by omega))
    have hvalue : ((0 * 16 + 0) * 16 + c.toNat / 16) * 16 + c.toNat % 16 = c.toNat := by omega
    rw [hvalue] at hds
    have hnamed := SpellsString.named hds (by simp [isHighSurrogate]; omega)
      (by simp [isLowSurrogate]; omega) h
    rw [Char.ofNat_toNat] at hnamed
    exact hnamed
  · exact .plain h₈ h₁ h₂ h

theorem spellsString_escaped (cs : List Char) :
    SpellsString (cs.flatMap Json.escapedChar) (some cs) := by
  induction cs with
  | nil => exact .nil
  | cons c cs ih =>
    rw [List.flatMap_cons]
    exact ih.escapedChar c

/-- A string is read back after its opening quote. -/
theorem readString_escaped (s : String) (rest : List Char) :
    readString (s.toList.flatMap escapedChar ++ '"' :: rest) = some (some s, rest) := by
  have hread := (spellsString_escaped s.toList).readString_append rest
  rwa [Option.map_some, String.ofList_toList] at hread

/-- No character of a text is written by an escape. -/
def IsPlain (s : String) : Prop := ∀ c ∈ s.toList, escapedChar c = [c]

theorem IsPlain.flatMap_escapedChar {s : String} (h : IsPlain s) :
    s.toList.flatMap escapedChar = s.toList := by
  have hsingle : s.toList.flatMap escapedChar = s.toList.flatMap fun c => [c] :=
    List.flatMap_congr h
  rw [hsingle, List.flatMap_singleton']

theorem IsPlain.not_mem_backslash {s : String} (h : IsPlain s) :
    '\\' ∉ s.toList.flatMap escapedChar := by
  rw [h.flatMap_escapedChar]
  intro hc
  cases h _ hc

mutual

/-- Every part of the value can be told from its written form. -/
def Writable : Json → Prop
  | .null => True
  | .bool _ => True
  | .number l => l.Regular
  | .string s => s.isSome
  | .array items => AllWritable items
  | .object fields => FieldsWritable fields

/-- Every item can be told from its written form. -/
def AllWritable : List Json → Prop
  | [] => True
  | j :: rest => Writable j ∧ AllWritable rest

/-- Every field can be told from its written form, and its name needs no escapes. -/
def FieldsWritable : List (Name × Json) → Prop
  | [] => True
  | (name, value) :: rest =>
    (∃ s, name = Name.ofString s ∧ IsPlain s) ∧ Writable value ∧ FieldsWritable rest

end

theorem isGap_newLine (depth : Nat) : IsGap (newLine depth) := by
  intro c hc
  rcases List.mem_cons.1 hc with rfl | hc
  · rfl
  · rw [List.eq_of_mem_replicate hc]
    rfl

theorem Spells.toElement {j : Json} {cs : List Char} (h : Spells (.value j) cs) :
    Spells (.element j) cs := by
  have helement := Spells.element isGap_nil h isGap_nil
  rwa [List.nil_append, List.append_nil] at helement

/-- A field under a plain name, with a gap before the name. -/
theorem spells_member {s : String} (hs : IsPlain s) {j : Json} {before body : List Char}
    (hbefore : IsGap before) (h : Spells (.element j) body) :
    Spells (.member (Name.ofString s) j) (before ++ (stringChars s ++ ':' :: body)) := by
  have hmember := Spells.member hbefore (spellsString_escaped s.toList) isGap_nil h
  simp only [Option.map_some, String.ofList_toList, hs.not_mem_backslash, not_false_eq_true,
    decide_true, List.nil_append] at hmember
  simpa only [stringChars, Name.ofString, List.cons_append, List.append_assoc, List.nil_append]
    using hmember

mutual

/-- The form without space is a spelling. -/
theorem spells_chars (j : Json) (hj : j.Writable) : Spells (.value j) j.chars := by
  match j with
  | .null =>
    simp only [chars]
    exact .null
  | .bool true =>
    simp only [chars]
    exact .trueValue
  | .bool false =>
    simp only [chars]
    exact .falseValue
  | .number l =>
    simp only [chars]
    exact .number (spellsNumber_chars hj)
  | .string s =>
    simp only [Writable] at hj
    obtain ⟨t, rfl⟩ := Option.isSome_iff_exists.1 hj
    have h := Spells.string (spellsString_escaped t.toList)
    rw [Option.map_some, String.ofList_toList] at h
    simp only [chars, Option.getD_some, stringChars]
    exact h
  | .array [] =>
    simp only [chars, itemChars]
    exact .emptyArray isGap_nil
  | .array (k :: items) =>
    simp only [Writable] at hj
    simp only [chars]
    exact .array (spells_itemChars (k :: items) (by simp) hj)
  | .object [] =>
    simp only [chars, fieldChars]
    exact .emptyObject isGap_nil
  | .object (f :: fields) =>
    simp only [Writable] at hj
    simp only [chars]
    exact .object (spells_fieldChars (f :: fields) (by simp) hj)

theorem spells_itemChars (items : List Json) (hne : items ≠ []) (hw : AllWritable items) :
    Spells (.items items) (itemChars items) := by
  match items with
  | [] => exact absurd rfl hne
  | [j] =>
    simp only [itemChars]
    exact .lastItem (spells_chars j hw.1).toElement
  | j :: k :: rest =>
    simp only [itemChars]
    exact .item (spells_chars j hw.1).toElement (spells_itemChars (k :: rest) (by simp) hw.2)

theorem spells_fieldChars (fields : List (Name × Json)) (hne : fields ≠ [])
    (hw : FieldsWritable fields) : Spells (.members fields) (fieldChars fields) := by
  match fields with
  | [] => exact absurd rfl hne
  | [(name, value)] =>
    obtain ⟨⟨s, rfl, hs⟩, hvalue, -⟩ := hw
    simp only [fieldChars, Name.ofString, Option.getD_some]
    exact .lastMember (spells_member hs isGap_nil (spells_chars value hvalue).toElement)
  | (name, value) :: f :: rest =>
    obtain ⟨⟨s, rfl, hs⟩, hvalue, hrest⟩ := hw
    have hfirst := spells_member hs isGap_nil (spells_chars value hvalue).toElement
    have hmembers := Spells.members hfirst (spells_fieldChars (f :: rest) (by simp) hrest)
    simpa only [fieldChars, Name.ofString, Option.getD_some, List.nil_append, List.append_assoc,
      List.cons_append] using hmembers

end

mutual

/-- The form with every item on a line of its own is a spelling. -/
theorem spells_prettyChars (depth : Nat) (j : Json) (hj : j.Writable) :
    Spells (.value j) (prettyChars depth j) := by
  match j with
  | .null =>
    simp only [prettyChars]
    exact .null
  | .bool true =>
    simp only [prettyChars]
    exact .trueValue
  | .bool false =>
    simp only [prettyChars]
    exact .falseValue
  | .number l =>
    simp only [prettyChars]
    exact .number (spellsNumber_chars hj)
  | .string s =>
    have h := spells_chars (.string s) hj
    simp only [chars] at h
    simp only [prettyChars]
    exact h
  | .array [] =>
    simp only [prettyChars]
    exact .emptyArray isGap_nil
  | .array (j :: rest) =>
    simp only [Writable] at hj
    simp only [prettyChars]
    exact .array (spells_prettyItems (depth + 1) (j :: rest) (by simp) hj (isGap_newLine depth))
  | .object [] =>
    simp only [prettyChars]
    exact .emptyObject isGap_nil
  | .object (f :: rest) =>
    simp only [Writable] at hj
    simp only [prettyChars]
    exact .object (spells_prettyFields (depth + 1) (f :: rest) (by simp) hj (isGap_newLine depth))

theorem spells_prettyItems (depth : Nat) (items : List Json) (hne : items ≠ [])
    (hw : AllWritable items) {after : List Char} (h : IsGap after) :
    Spells (.items items) (prettyItems depth items ++ after) := by
  match items with
  | [] => exact absurd rfl hne
  | [j] =>
    simp only [prettyItems, List.append_assoc]
    exact .lastItem (.element (isGap_newLine depth) (spells_prettyChars depth j hw.1) h)
  | j :: k :: rest =>
    have hfirst := Spells.element (isGap_newLine depth) (spells_prettyChars depth j hw.1) isGap_nil
    have hitems := Spells.item hfirst (spells_prettyItems depth (k :: rest) (by simp) hw.2 h)
    simpa only [prettyItems, List.append_assoc, List.cons_append, List.append_nil] using hitems

theorem spells_prettyFields (depth : Nat) (fields : List (Name × Json)) (hne : fields ≠ [])
    (hw : FieldsWritable fields) {after : List Char} (h : IsGap after) :
    Spells (.members fields) (prettyFields depth fields ++ after) := by
  have hgap : IsGap [' '] := fun c hc => by rw [List.mem_singleton.1 hc]; rfl
  match fields with
  | [] => exact absurd rfl hne
  | [(name, value)] =>
    obtain ⟨⟨s, rfl, hs⟩, hvalue, -⟩ := hw
    have hmember := spells_member hs (isGap_newLine depth)
      (.element hgap (spells_prettyChars depth value hvalue) h)
    have hmembers := Spells.lastMember hmember
    simpa only [prettyFields, Name.ofString, Option.getD_some, List.append_assoc, List.cons_append,
      List.nil_append] using hmembers
  | (name, value) :: g :: rest =>
    obtain ⟨⟨s, rfl, hs⟩, hvalue, hrest⟩ := hw
    have hmember := spells_member hs (isGap_newLine depth)
      (.element hgap (spells_prettyChars depth value hvalue) isGap_nil)
    have hmembers := Spells.members hmember (spells_prettyFields depth (g :: rest) (by simp) hrest h)
    simpa only [prettyFields, Name.ofString, Option.getD_some, List.append_assoc, List.cons_append,
      List.nil_append, List.append_nil] using hmembers

end

theorem parse_render {j : Json} (hj : j.Writable) : parse j.render = some j :=
  parse_of_spells (by rw [render, String.toList_ofList]; exact (spells_chars j hj).toElement)

theorem parse_pretty {j : Json} (hj : j.Writable) : parse j.pretty = some j :=
  parse_of_spells (by rw [pretty, String.toList_ofList]; exact (spells_prettyChars 0 j hj).toElement)

/-- Number literals are on one line. -/
theorem newline_not_mem_literal {l : Decimal.Literal} (hl : l.Regular) : '\n' ∉ l.chars := by
  have hdigits {ds : List Char} (h : ∀ c ∈ ds, Decimal.isDigit c = true) : '\n' ∉ ds :=
    fun hc => absurd (h _ hc) (by decide)
  have hnat (n : Nat) : '\n' ∉ Decimal.natDigits n :=
    hdigits fun c hc => Decimal.isDigit_of_mem_natDigits hc
  have hint (i : Int) : '\n' ∉ Decimal.intChars i := by
    cases i with
    | ofNat n => exact hnat n
    | negSucc n => simp [Decimal.intChars, hnat]
  have hwhole := hdigits hl.whole_digits
  unfold Decimal.Literal.chars
  simp only [List.mem_append, not_or]
  refine ⟨⟨⟨?_, hwhole⟩, ?_⟩, ?_⟩
  · split <;> simp
  · cases hf : l.fraction with
    | none => simp
    | some f => simp [hdigits (hl.fraction_digits f hf)]
  · cases l.exponent with
    | none => simp
    | some e =>
      have he : '\n' ∉ Decimal.Literal.exponentChars e := by
        unfold Decimal.Literal.exponentChars
        split_ifs <;> simp [hint]
      exact he

theorem newline_not_mem_string (s : String) : '\n' ∉ stringChars s := by
  have hchar (c : Char) : '\n' ∉ escapedChar c := by
    unfold escapedChar
    split_ifs with h₁ h₂ h₃ h₄ h₅ h₆ h₇ h₈
    · simp
    · simp
    · simp
    · simp
    · simp
    · simp
    · simp
    · have hc : c.toNat < 32 := h₈
      interval_cases c.toNat <;> decide
    · simpa using Ne.symm h₅
  unfold stringChars
  simp [hchar]

mutual

/-- The form without space is on one line. -/
theorem newline_not_mem_chars (j : Json) (hj : j.Writable) : '\n' ∉ j.chars := by
  match j with
  | .null => simp [chars]
  | .bool true => simp [chars]
  | .bool false => simp [chars]
  | .number l =>
    simp only [Writable] at hj
    simp only [chars]
    exact newline_not_mem_literal hj
  | .string s =>
    simp only [chars]
    exact newline_not_mem_string _
  | .array items =>
    simp only [Writable] at hj
    have hitems := newline_not_mem_itemChars items hj
    simp [chars, hitems]
  | .object fields =>
    simp only [Writable] at hj
    have hfields := newline_not_mem_fieldChars fields hj
    simp [chars, hfields]

theorem newline_not_mem_itemChars (items : List Json) (hw : AllWritable items) :
    '\n' ∉ itemChars items := by
  match items with
  | [] => simp [itemChars]
  | [j] =>
    simp only [itemChars]
    exact newline_not_mem_chars j hw.1
  | j :: k :: rest =>
    have hj := newline_not_mem_chars j hw.1
    have hrest := newline_not_mem_itemChars (k :: rest) hw.2
    simp only [itemChars, List.mem_append, List.mem_cons, not_or]
    exact ⟨hj, by decide, hrest⟩

theorem newline_not_mem_fieldChars (fields : List (Name × Json)) (hw : FieldsWritable fields) :
    '\n' ∉ fieldChars fields := by
  match fields with
  | [] => simp [fieldChars]
  | [(name, value)] =>
    have hname := newline_not_mem_string (name.content.getD "")
    have hvalue := newline_not_mem_chars value hw.2.1
    simp only [fieldChars, List.mem_append, List.mem_cons, not_or]
    exact ⟨hname, by decide, hvalue⟩
  | (name, value) :: f :: rest =>
    have hname := newline_not_mem_string (name.content.getD "")
    have hvalue := newline_not_mem_chars value hw.2.1
    have hrest := newline_not_mem_fieldChars (f :: rest) hw.2.2
    simp only [fieldChars, List.mem_append, List.mem_cons, not_or]
    exact ⟨hname, by decide, hvalue, by decide, hrest⟩

end

end DataQuality.Json
