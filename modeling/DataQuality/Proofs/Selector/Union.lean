import DataQuality.Proofs.Selector.RoundTrip

/-!
# Unions

The text of two selectors with a bar between them is read as the branches of the first and then those
of the second. For this every reader that succeeds stops before the bar where it stopped before the
end, whatever it has been reading, and one that has more fuel than it needs reads the same. So it is
with a slash, except that a path goes on there.
-/
namespace DataQuality.Selector

/-- What may stand after a branch: nothing, or the bar before the next one. -/
inductive EndsBranch : List Char → Prop
  | nothing : EndsBranch []
  | bar (more : List Char) : EndsBranch ('|' :: more)

/-- What may stand after a part of a branch: what may stand after a branch, or the slash before the
next step. -/
inductive EndsPart : List Char → Prop
  | branch {more : List Char} (h : EndsBranch more) : EndsPart more
  | slash (more : List Char) : EndsPart ('/' :: more)

/-- A reader of some characters that succeeds leaves an end of them over. With more to read it
succeeds, too, and leaves that over in addition, if it may end there in case it read to the end. -/
def GoesOn {α : Type} (ends : Prop) (more cs : List Char)
    (result result' : Except Fault (α × List Char)) : Prop :=
  ∀ x rest, result = .ok (x, rest) →
    rest <:+ cs ∧ ((rest = [] → ends) → result' = .ok (x, rest ++ more))

section GoesOn

variable {α β : Type} {ends ends' : Prop} {more cs : List Char}

theorem goesOn_pure (x : α) (rest : List Char) :
    GoesOn ends more rest (pure (x, rest)) (pure (x, rest ++ more)) := by
  intro y rest' h
  cases h
  exact ⟨List.suffix_rfl, fun _ => rfl⟩

theorem goesOn_error (fault : Fault) (result : Except Fault (α × List Char)) :
    GoesOn ends more cs (.error fault) result :=
  fun _ _ h => by cases h

theorem GoesOn.of_suffix {ds : List Char} {result result' : Except Fault (α × List Char)}
    (h : GoesOn ends more ds result result') (hds : ds <:+ cs) :
    GoesOn ends more cs result result' :=
  fun x rest hx => ⟨(h x rest hx).1.trans hds, (h x rest hx).2⟩

theorem GoesOn.mono {result result' : Except Fault (α × List Char)}
    (h : GoesOn ends more cs result result') (hends : ends' → ends) :
    GoesOn ends' more cs result result' :=
  fun x rest hx => ⟨(h x rest hx).1, fun hnil => (h x rest hx).2 fun hrest => hends (hnil hrest)⟩

/-- What is left over at last is an end of what is left over first. So if that is nothing, then both
are, unless the second reader fails there. -/
theorem GoesOn.bind_of {result result' : Except Fault (α × List Char)}
    (h : GoesOn ends more cs result result')
    {next next' : α × List Char → Except Fault (β × List Char)}
    (hends : ∀ x found, next (x, []) = .ok found → ends' → ends)
    (hnext : ∀ x rest, GoesOn ends' more rest (next (x, rest)) (next' (x, rest ++ more))) :
    GoesOn ends' more cs (result >>= next) (result' >>= next') := by
  intro y rest hy
  cases result with
  | error fault => cases hy
  | ok found =>
    obtain ⟨x, first⟩ := found
    have hlast : next (x, first) = .ok (y, rest) := hy
    obtain ⟨hfound, heq⟩ := h x first rfl
    obtain ⟨hrest, hgo⟩ := hnext x first y rest hlast
    refine ⟨hrest.trans hfound, fun hnil => ?_⟩
    have hfirst : first = [] → ends := by
      rintro rfl
      exact hends x _ hlast (hnil (List.suffix_nil.1 hrest))
    rw [heq hfirst]
    exact hgo hnil

theorem GoesOn.bind {result result' : Except Fault (α × List Char)}
    (h : GoesOn ends more cs result result')
    {next next' : α × List Char → Except Fault (β × List Char)}
    (hnext : ∀ x rest, GoesOn ends more rest (next (x, rest)) (next' (x, rest ++ more))) :
    GoesOn ends more cs (result >>= next) (result' >>= next') :=
  h.bind_of (fun _ _ _ hends => hends) hnext

theorem GoesOn.map {result result' : Except Fault (α × List Char)}
    (h : GoesOn ends more cs result result') (f : α → β) :
    GoesOn ends more cs (result.map fun found => (f found.1, found.2))
      (result'.map fun found => (f found.1, found.2)) := by
  intro y rest hy
  cases result with
  | error fault => cases hy
  | ok found =>
    obtain ⟨hfound, heq⟩ := h found.1 found.2 rfl
    cases hy
    exact ⟨hfound, fun hnil => by rw [heq hnil]; rfl⟩

end GoesOn

section Parts

variable {ends : Prop} {more : List Char}

/-- What neither a bar nor a slash satisfies is asked of the characters before it. -/
theorem EndsPart.head?_any (h : EndsPart more) {p : Char → Bool} (hbar : p '|' = false)
    (hslash : p '/' = false) (cs : List Char) : (cs ++ more).head?.any p = cs.head?.any p := by
  cases cs with
  | cons c cs => rfl
  | nil =>
    obtain (_ | _) | _ := h
    · rfl
    · exact hbar
    · exact hslash

theorem append_ne_cons {c : Char} {cs : List Char} (hmore : cs = [] → ∀ rest, more ≠ c :: rest)
    (hcs : ∀ rest, cs ≠ c :: rest) (rest : List Char) : cs ++ more ≠ c :: rest := by
  cases cs with
  | nil => exact hmore rfl rest
  | cons d ds =>
    intro heq
    exact hcs ds (by rw [(List.cons_eq_cons.1 heq).1])

theorem EndsBranch.ne_slash (h : EndsBranch more) (rest : List Char) : more ≠ '/' :: rest := by
  cases h <;> simp

theorem EndsPart.ne_cons (h : EndsPart more) {c : Char} (hbar : c ≠ '|') (hslash : c ≠ '/')
    {cs : List Char} (hcs : ∀ rest, cs ≠ c :: rest) (rest : List Char) : cs ++ more ≠ c :: rest := by
  refine append_ne_cons (fun _ rest => ?_) hcs rest
  obtain (_ | _) | _ := h
  · exact (List.cons_ne_nil _ _).symm
  · exact fun heq => hbar (List.cons_eq_cons.1 heq).1.symm
  · exact fun heq => hslash (List.cons_eq_cons.1 heq).1.symm

theorem EndsPart.ne_cons_cons (h : EndsPart more) {c d : Char} (hc : c ≠ '|') (hc' : c ≠ '/')
    (hd : d ≠ '|') (hd' : d ≠ '/') {cs : List Char} (hcs : ∀ rest, cs ≠ c :: d :: rest)
    (rest : List Char) : cs ++ more ≠ c :: d :: rest := by
  cases cs with
  | nil => exact h.ne_cons hc hc' (fun _ => List.cons_ne_nil _ _ |>.symm) _
  | cons e es =>
    intro heq
    obtain ⟨rfl, htail⟩ := List.cons_eq_cons.1 heq
    exact h.ne_cons hd hd' (fun rest (hes : es = d :: rest) => hcs rest (by rw [hes])) rest htail

theorem EndsPart.dropWhile_self (h : EndsPart more) {p : Char → Bool} (hbar : p '|' = false)
    (hslash : p '/' = false) : more.dropWhile p = more := by
  obtain (_ | _) | _ := h
  · rfl
  · exact List.dropWhile_cons_of_neg (by simp [hbar])
  · exact List.dropWhile_cons_of_neg (by simp [hslash])

theorem EndsPart.dropWhile (h : EndsPart more) {p : Char → Bool} (hbar : p '|' = false)
    (hslash : p '/' = false) (cs : List Char) :
    (cs ++ more).dropWhile p = cs.dropWhile p ++ more := by
  rw [List.dropWhile_append]
  split
  · next hnil => rw [List.isEmpty_iff.1 hnil, h.dropWhile_self hbar hslash, List.nil_append]
  · rfl

theorem EndsPart.takeWhile (h : EndsPart more) {p : Char → Bool} (hbar : p '|' = false)
    (hslash : p '/' = false) (cs : List Char) : (cs ++ more).takeWhile p = cs.takeWhile p := by
  have hmore : more.takeWhile p = [] := by
    have hsplit := List.takeWhile_append_dropWhile (p := p) (l := more)
    rwa [h.dropWhile_self hbar hslash, List.append_left_eq_self] at hsplit
  rw [List.takeWhile_append, hmore]
  split
  · next hall => rw [List.append_nil, (List.takeWhile_prefix p).eq_of_length hall]
  · rfl

theorem EndsPart.skipBlank (h : EndsPart more) (cs : List Char) :
    skipBlank (cs ++ more) = skipBlank cs ++ more :=
  h.dropWhile rfl rfl cs

theorem EndsPart.nameTail (h : EndsPart more) (colonSeen : Bool) (cs : List Char) :
    nameTail colonSeen (cs ++ more) = nameTail colonSeen cs := by
  induction cs generalizing colonSeen with
  | nil =>
    obtain (_ | _) | _ := h
    · rfl
    · simp [Selector.nameTail, isLetterOrNumber_of_ascii]
    · simp [Selector.nameTail, isLetterOrNumber_of_ascii]
  | cons c cs ih =>
    have hcolon : ((cs ++ more).head? == some ':') = (cs.head? == some ':') := by
      cases cs with
      | cons d ds => rfl
      | nil => obtain (_ | _) | _ := h <;> rfl
    rw [List.cons_append, Selector.nameTail, Selector.nameTail, hcolon, ih, ih]

theorem length_nameTail_le (colonSeen : Bool) (cs : List Char) :
    (Selector.nameTail colonSeen cs).length ≤ cs.length := by
  induction cs generalizing colonSeen with
  | nil => exact le_rfl
  | cons c cs ih =>
    have htrue := ih true
    have hseen := ih colonSeen
    rw [Selector.nameTail]
    split_ifs <;> simp only [List.length_nil, List.length_cons] <;> omega

theorem EndsPart.readName? (h : EndsPart more) (cs : List Char) :
    readName? (cs ++ more) = (readName? cs).map fun found => (found.1, found.2 ++ more) := by
  cases cs with
  | nil =>
    obtain (_ | _) | _ := h
    · rfl
    · simp [Selector.readName?, isLetter_of_ascii]
    · simp [Selector.readName?, isLetter_of_ascii]
  | cons c cs =>
    rw [List.cons_append, Selector.readName?, Selector.readName?, h.nameTail]
    dsimp only
    rw [List.drop_append_of_le_length (length_nameTail_le false cs)]
    split <;> rfl

theorem suffix_of_readName? {name cs rest : List Char} (h : readName? cs = some (name, rest)) :
    rest <:+ cs := by
  cases cs with
  | nil => cases h
  | cons c cs =>
    rw [Selector.readName?] at h
    split at h
    · obtain ⟨-, rfl⟩ := Prod.mk.inj (Option.some.inj h)
      exact (List.drop_suffix _ _).trans (List.suffix_cons c cs)
    · cases h

/-- The colons after an axis stand before a bar or a slash. -/
theorem EndsPart.readAxis (h : EndsPart more) (cs : List Char) :
    GoesOn ends more cs (readAxis cs) (readAxis (cs ++ more)) := by
  unfold Selector.readAxis
  rw [h.readName?]
  cases hname : Selector.readName? cs with
  | none => exact goesOn_pure _ _
  | some found =>
    obtain ⟨name, after⟩ := found
    by_cases hcolons : ∃ rest, after = ':' :: ':' :: rest
    · obtain ⟨rest, rfl⟩ := hcolons
      have hsuffix : rest <:+ cs := ((List.suffix_cons _ _).trans (List.suffix_cons _ _)).trans
        (suffix_of_readName? hname)
      simp only [Option.map_some, List.cons_append]
      split
      · exact (goesOn_pure _ _).of_suffix hsuffix
      · exact goesOn_error _ _
    · have hafter : ∀ rest, after ≠ ':' :: ':' :: rest := fun rest hrest => hcolons ⟨rest, hrest⟩
      have hmore := h.ne_cons_cons (by decide) (by decide) (by decide) (by decide) hafter
      rw [Option.map_some]
      split
      · next heq => exact absurd (Prod.mk.inj (Option.some.inj heq)).2 (hafter _)
      · split
        · next heq => exact absurd (Prod.mk.inj (Option.some.inj heq)).2 (hmore _)
        · exact goesOn_pure _ _

theorem EndsPart.numberChars (h : EndsPart more) (cs : List Char) :
    numberChars (cs ++ more) = numberChars cs ∧ (numberChars cs).length ≤ cs.length := by
  have htake (cs : List Char) := h.takeWhile (p := fun c => Decimal.isDigit c || c == '.') rfl rfl cs
  by_cases hminus : ∃ ds, cs = '-' :: ds
  · obtain ⟨ds, rfl⟩ := hminus
    rw [List.cons_append, Selector.numberChars, Selector.numberChars, htake]
    exact ⟨rfl, Nat.succ_le_succ (List.takeWhile_prefix _).length_le⟩
  · have hcs : ∀ rest, cs ≠ '-' :: rest := fun rest hcs => hminus ⟨rest, hcs⟩
    have hmore := h.ne_cons (by decide) (by decide) hcs
    rw [Selector.numberChars.eq_2 cs hcs, Selector.numberChars.eq_2 _ hmore, htake]
    exact ⟨rfl, (List.takeWhile_prefix _).length_le⟩

theorem EndsPart.readNumber (h : EndsPart more) (cs : List Char) :
    GoesOn ends more cs (readNumber cs) (readNumber (cs ++ more)) := by
  obtain ⟨hchars, hlength⟩ := h.numberChars cs
  unfold Selector.readNumber
  dsimp only
  rw [hchars, List.drop_append_of_le_length hlength]
  split
  · exact (goesOn_pure _ _).of_suffix (List.drop_suffix _ _)
  · exact goesOn_error _ _

/-- A text that ends does so at a quote before the bar or the slash. -/
theorem EndsPart.readLiteral (h : EndsPart more) (cs : List Char) :
    GoesOn ends more cs (readLiteral cs) (readLiteral (cs ++ more)) := by
  cases cs with
  | nil => exact goesOn_error _ _
  | cons c cs =>
    rw [List.cons_append, Selector.readLiteral, Selector.readLiteral]
    split_ifs with hquote hdigit
    · rw [List.span_eq_takeWhile_dropWhile, List.span_eq_takeWhile_dropWhile]
      cases hafter : cs.dropWhile (· != c) with
      | nil => exact goesOn_error _ _
      | cons quote after =>
        have hdrop : (cs ++ more).dropWhile (· != c) = quote :: (after ++ more) := by
          rw [List.dropWhile_append, hafter]
          rfl
        have htake : (cs ++ more).takeWhile (· != c) = cs.takeWhile (· != c) := by
          have hsplit := List.takeWhile_append_dropWhile (p := (· != c)) (l := cs)
          have hlength := congrArg List.length hsplit
          rw [hafter, List.length_append, List.length_cons] at hlength
          rw [List.takeWhile_append, if_neg (by omega)]
        have hsuffix : after <:+ c :: cs := (List.suffix_cons quote after).trans
          ((hafter ▸ List.dropWhile_suffix _).trans (List.suffix_cons c cs))
        rw [hdrop, htake]
        exact (goesOn_pure _ _).of_suffix hsuffix
    · exact (h.readNumber (c :: cs)).map Literal.number
    · exact goesOn_error _ _

theorem EndsPart.readTest (h : EndsPart more) (axis : Axis) (cs : List Char) :
    GoesOn ends more cs (readTest axis cs) (readTest axis (cs ++ more)) := by
  by_cases hstar : ∃ ds, cs = '*' :: ds
  · obtain ⟨ds, rfl⟩ := hstar
    exact (goesOn_pure _ _).of_suffix (List.suffix_cons _ _)
  · have hcs : ∀ rest, cs ≠ '*' :: rest := fun rest hcs => hstar ⟨rest, hcs⟩
    have hmore := h.ne_cons (by decide) (by decide) hcs
    rw [Selector.readTest.eq_2 axis cs hcs, Selector.readTest.eq_2 axis _ hmore, h.readName?]
    cases hname : Selector.readName? cs with
    | none => exact goesOn_error _ _
    | some found =>
      obtain ⟨name, after⟩ := found
      have hsuffix := suffix_of_readName? hname
      by_cases hcall : ∃ rest, after = '(' :: ')' :: rest
      · obtain ⟨rest, rfl⟩ := hcall
        have hrest : rest <:+ cs :=
          ((List.suffix_cons _ _).trans (List.suffix_cons _ _)).trans hsuffix
        simp only [Option.map_some, List.cons_append]
        split_ifs
        · exact (goesOn_pure _ _).of_suffix hrest
        · exact (goesOn_pure _ _).of_suffix hrest
        · exact (goesOn_pure _ _).of_suffix hsuffix
      · have hafter : ∀ rest, after ≠ '(' :: ')' :: rest := fun rest hrest => hcall ⟨rest, hrest⟩
        have hmore := h.ne_cons_cons (by decide) (by decide) (by decide) (by decide) hafter
        simp only [Option.map_some]
        exact (goesOn_pure _ _).of_suffix hsuffix

end Parts

/-- The readers of paths and of their parts go on with more to read, and with more fuel. Those of
paths, which would read on at a slash, do so if they leave something over or there is no slash. -/
structure ReadOn (more : List Char) (fuel fuel' : Nat) : Prop where
  path (cs : List Char) :
    GoesOn (EndsBranch more) more cs (readPath fuel cs) (readPath fuel' (cs ++ more))
  steps (cs : List Char) :
    GoesOn (EndsBranch more) more cs (readSteps fuel cs) (readSteps fuel' (cs ++ more))
  step (cs : List Char) : GoesOn True more cs (readStep fuel cs) (readStep fuel' (cs ++ more))
  conditions (cs : List Char) :
    GoesOn True more cs (readConditions fuel cs) (readConditions fuel' (cs ++ more))
  condition (cs : List Char) :
    GoesOn (EndsBranch more) more cs (readCondition fuel cs) (readCondition fuel' (cs ++ more))

section Recursion

variable {more : List Char} {fuel fuel' : Nat}

/-- Some characters begin with a character twice, or once, or not at all. -/
theorem begins_cases (c : Char) (cs : List Char) :
    (∃ ds, cs = c :: c :: ds) ∨ (∃ ds, cs = c :: ds ∧ ∀ es, ds ≠ c :: es) ∨ ∀ ds, cs ≠ c :: ds := by
  by_cases hone : ∃ ds, cs = c :: ds
  · obtain ⟨ds, rfl⟩ := hone
    by_cases htwo : ∃ es, ds = c :: es
    · obtain ⟨es, rfl⟩ := htwo
      exact .inl ⟨es, rfl⟩
    · exact .inr (.inl ⟨ds, rfl, fun es hes => htwo ⟨es, hes⟩⟩)
  · exact .inr (.inr fun ds hds => hone ⟨ds, hds⟩)

/-- No steps are read where nothing is left. -/
theorem readSteps_nil (fuel : Nat) : ∃ fault, readSteps fuel [] = .error fault := by
  rcases fuel with _ | _ | fuel
  · exact ⟨_, by rw [readSteps]⟩
  · exact ⟨_, by rw [readSteps, readStep]; rfl⟩
  · refine ⟨⟨[], .noName⟩, ?_⟩
    rw [readSteps, readStep]
    · rfl
    all_goals simp

theorem ReadOn.readPath_succ (ih : ReadOn more fuel fuel') (h : EndsPart more) (cs : List Char) :
    GoesOn (EndsBranch more) more cs (readPath (fuel + 1) cs)
      (readPath (fuel' + 1) (cs ++ more)) := by
  rcases begins_cases '/' cs with ⟨ds, rfl⟩ | ⟨ds, rfl, hds⟩ | hcs
  · refine GoesOn.of_suffix ?_ ((List.suffix_cons '/' ds).trans (List.suffix_cons _ _))
    exact (ih.steps ds).bind fun steps rest => goesOn_pure _ _
  · refine GoesOn.of_suffix ?_ (List.suffix_cons '/' ds)
    have hhead := h.head?_any (p := startsStep) (by simp [startsStep, isLetter_of_ascii])
      (by simp [startsStep, isLetter_of_ascii]) ds
    rw [List.cons_append, readPath]
    · by_cases hstep : ds.head?.any startsStep = true
      · have hmore : ∀ es, ds ++ more ≠ '/' :: es :=
          append_ne_cons (fun hnil => by simp [hnil] at hstep) hds
        rw [readPath, hhead, if_pos hstep, if_pos hstep]
        · exact (ih.steps ds).bind fun steps rest => goesOn_pure _ _
        · exact hmore
      · rw [if_neg hstep]
        intro x rest hx
        cases hx
        refine ⟨List.suffix_rfl, fun hends => ?_⟩
        have hmore := append_ne_cons (fun hnil => (hends hnil).ne_slash) hds
        rw [readPath, hhead, if_neg hstep]
        · rfl
        · exact hmore
    · exact hds
  · by_cases hnil : cs = []
    · obtain ⟨fault, hfault⟩ := readSteps_nil fuel
      rw [hnil, readPath, hfault]
      · exact goesOn_error _ _
      all_goals simp
    · have hmore : ∀ es, cs ++ more ≠ '/' :: es := append_ne_cons (fun h => absurd h hnil) hcs
      rw [readPath, readPath]
      · exact (ih.steps cs).bind fun steps rest => goesOn_pure _ _
      · exact fun ds => hmore ('/' :: ds)
      · exact hmore
      · exact fun ds => hcs ('/' :: ds)
      · exact hcs

theorem ReadOn.readSteps_succ (ih : ReadOn more fuel fuel') (cs : List Char) :
    GoesOn (EndsBranch more) more cs (readSteps (fuel + 1) cs)
      (readSteps (fuel' + 1) (cs ++ more)) := by
  rw [readSteps, readSteps]
  refine ((ih.step cs).mono fun _ => trivial).bind fun step rest => ?_
  rcases begins_cases '/' rest with ⟨ds, rfl⟩ | ⟨ds, rfl, hds⟩ | hrest
  · refine GoesOn.of_suffix ?_ ((List.suffix_cons '/' ds).trans (List.suffix_cons _ _))
    exact (ih.steps ds).bind fun steps rest => goesOn_pure _ _
  · by_cases hnil : ds = []
    · obtain ⟨fault, hfault⟩ := readSteps_nil fuel
      rw [hnil]
      simp only [hfault]
      exact goesOn_error _ _
    · have hmore : ∀ es, ds ++ more ≠ '/' :: es := append_ne_cons (fun h => absurd h hnil) hds
      simp only [List.cons_append]
      refine GoesOn.of_suffix ?_ (List.suffix_cons '/' ds)
      exact (ih.steps ds).bind fun steps rest => goesOn_pure _ _
  · dsimp only
    split
    · exact absurd rfl (hrest _)
    · exact absurd rfl (hrest _)
    · intro x left hx
      cases hx
      refine ⟨List.suffix_rfl, fun hends => ?_⟩
      have hmore := append_ne_cons (fun hnil => (hends hnil).ne_slash) hrest
      split
      · next heq => exact absurd heq (hmore _)
      · next heq => exact absurd heq (hmore _)
      · rfl

theorem ReadOn.readStep_succ (ih : ReadOn more fuel fuel') (h : EndsPart more) (cs : List Char) :
    GoesOn True more cs (readStep (fuel + 1) cs) (readStep (fuel' + 1) (cs ++ more)) := by
  rcases begins_cases '.' cs with ⟨ds, rfl⟩ | ⟨ds, rfl, hds⟩ | hcs
  · exact (goesOn_pure _ _).of_suffix ((List.suffix_cons _ _).trans (List.suffix_cons _ _))
  · rw [List.cons_append, readStep, readStep]
    · exact (goesOn_pure _ _).of_suffix (List.suffix_cons _ _)
    · exact h.ne_cons (by decide) (by decide) hds
    · exact hds
  by_cases hattribute : ∃ ds, cs = '@' :: ds
  · obtain ⟨ds, rfl⟩ := hattribute
    refine GoesOn.of_suffix ?_ (List.suffix_cons '@' ds)
    refine (h.readTest .attributes ds).bind fun test rest => ?_
    exact (ih.conditions rest).bind fun conditions rest => goesOn_pure _ _
  · have hother : ∀ ds, cs ≠ '@' :: ds := fun ds hds => hattribute ⟨ds, hds⟩
    have hmore := h.ne_cons (by decide) (by decide) hcs
    rw [readStep, readStep]
    · refine (h.readAxis cs).bind fun axis rest => ?_
      refine (h.readTest _ rest).bind fun test rest => ?_
      exact (ih.conditions rest).bind fun conditions rest => goesOn_pure _ _
    · exact fun ds => hmore ('.' :: ds)
    · exact hmore
    · exact h.ne_cons (by decide) (by decide) hother
    · exact fun ds => hcs ('.' :: ds)
    · exact hcs
    · exact hother

theorem skipBlank_suffix (cs : List Char) : skipBlank cs <:+ cs := List.dropWhile_suffix _

theorem suffix_of_skipBlank_eq {c : Char} {cs rest : List Char} (h : skipBlank cs = c :: rest) :
    rest <:+ cs :=
  (List.suffix_cons c rest).trans (h ▸ skipBlank_suffix cs)

theorem ReadOn.readConditions_succ (ih : ReadOn more fuel fuel') (h : EndsPart more)
    (cs : List Char) :
    GoesOn True more cs (readConditions (fuel + 1) cs)
      (readConditions (fuel' + 1) (cs ++ more)) := by
  rw [readConditions, readConditions, h.skipBlank]
  by_cases hopen : ∃ ds, skipBlank cs = '[' :: ds
  · obtain ⟨ds, hds⟩ := hopen
    rw [hds]
    refine GoesOn.of_suffix ((ih.condition ds).bind_of (fun condition found hfound => ?_)
      fun condition rest => ?_) (suffix_of_skipBlank_eq hds)
    · cases hfound
    dsimp only
    rw [h.skipBlank]
    by_cases hclose : ∃ es, skipBlank rest = ']' :: es
    · obtain ⟨es, hes⟩ := hclose
      rw [hes]
      refine GoesOn.of_suffix ?_ (suffix_of_skipBlank_eq hes)
      exact (ih.conditions es).bind fun conditions rest => goesOn_pure _ _
    · split
      · next es heq => exact absurd ⟨es, heq⟩ hclose
      · exact goesOn_error _ _
  · have hmore := h.ne_cons (c := '[') (by decide) (by decide) fun ds hds => hopen ⟨ds, hds⟩
    split
    · next ds heq => exact absurd ⟨ds, heq⟩ hopen
    · exact (goesOn_pure _ _).of_suffix (skipBlank_suffix cs)

theorem ReadOn.readCondition_succ (ih : ReadOn more fuel fuel') (h : EndsPart more)
    (cs : List Char) :
    GoesOn (EndsBranch more) more cs (readCondition (fuel + 1) cs)
      (readCondition (fuel' + 1) (cs ++ more)) := by
  rw [readCondition, readCondition, h.skipBlank]
  dsimp only
  rw [h.head?_any rfl rfl]
  refine GoesOn.of_suffix ?_ (skipBlank_suffix cs)
  split
  · refine (h.readNumber _).bind fun x rest => ?_
    dsimp only
    split
    · exact goesOn_pure _ _
    · exact goesOn_error _ _
  · refine (ih.path _).bind fun path rest => ?_
    dsimp only
    rw [h.skipBlank]
    refine GoesOn.of_suffix ?_ (skipBlank_suffix rest)
    split
    · next after heq =>
      rw [heq]
      simp only [List.cons_append]
      rw [h.skipBlank]
      refine GoesOn.of_suffix ?_ ((skipBlank_suffix after).trans
        ((List.suffix_cons _ _).trans (List.suffix_cons _ _)))
      exact (h.readLiteral _).bind fun literal rest => goesOn_pure _ _
    · next after heq =>
      rw [heq]
      simp only [List.cons_append]
      rw [h.skipBlank]
      refine GoesOn.of_suffix ?_ ((skipBlank_suffix after).trans (List.suffix_cons _ _))
      exact (h.readLiteral _).bind fun literal rest => goesOn_pure _ _
    · next hdiffer hequal =>
      have hmore := h.ne_cons_cons (by decide) (by decide) (by decide) (by decide) hdiffer
      have hmore' := h.ne_cons (by decide) (by decide) hequal
      split
      · next heq => exact absurd heq (hmore _)
      · next heq => exact absurd heq (hmore' _)
      · exact goesOn_pure _ _

/-- The induction is on the fuel: each reader hands one step less to the others. -/
theorem readOn (h : EndsPart more) {fuel fuel' : Nat} (hle : fuel ≤ fuel') :
    ReadOn more fuel fuel' := by
  induction fuel generalizing fuel' with
  | zero =>
    constructor
    all_goals
      intro cs
      first | rw [readPath] | rw [readSteps] | rw [readStep] | rw [readConditions] | rw [readCondition]
      exact goesOn_error _ _
  | succ fuel ih =>
    obtain ⟨fuel', rfl⟩ : ∃ n, fuel' = n + 1 := ⟨fuel' - 1, by omega⟩
    have hread := ih (Nat.le_of_succ_le_succ hle)
    exact ⟨hread.readPath_succ h, hread.readSteps_succ, hread.readStep_succ h,
      hread.readConditions_succ h, hread.readCondition_succ h⟩

end Recursion

/-- What may stand after some branches, and which branches that is read as with this fuel or more. -/
inductive Follows (fuel : Nat) : List Char → List Path → Prop
  | nothing : Follows fuel [] []
  | bar {cs : List Char} {paths : List Path}
      (h : ∀ fuel' ≥ fuel, readBranches fuel' (skipBlank cs) = .ok paths) : Follows fuel ('|' :: cs) paths

section Branches

variable {fuel fuel' : Nat} {cs more : List Char} {paths others : List Path}

theorem Follows.endsBranch (h : Follows fuel more others) : EndsBranch more := by
  cases h with
  | nothing => exact .nothing
  | bar => exact .bar _

/-- Branches are a path at the end, or a path and a bar with branches after it. -/
theorem exists_of_readBranches (h : readBranches (fuel + 1) cs = .ok paths) :
    ∃ path rest, readPath fuel cs = .ok (path, rest) ∧ rest <:+ cs ∧
      (skipBlank rest = [] ∧ paths = [path] ∨
        ∃ ds last, skipBlank rest = '|' :: ds ∧ readBranches fuel (skipBlank ds) = .ok last ∧
          paths = path :: last) := by
  rw [readBranches] at h
  cases hpath : readPath fuel cs with
  | error fault =>
    rw [hpath] at h
    cases h
  | ok found =>
    obtain ⟨path, rest⟩ := found
    have hsuffix := ((readOn (.branch .nothing) le_rfl).path cs path rest hpath).1
    refine ⟨path, rest, rfl, hsuffix, ?_⟩
    rw [hpath, ok_bind] at h
    dsimp only at h
    split at h
    · next hend =>
      cases h
      exact .inl ⟨hend, rfl⟩
    · next ds hbar =>
      cases hlast : readBranches fuel (skipBlank ds) with
      | error fault =>
        rw [hlast] at h
        cases h
      | ok last =>
        rw [hlast] at h
        cases h
        exact .inr ⟨ds, last, hbar, hlast, rfl⟩
    · cases h

/-- Each branch but the first has a bar before it. -/
theorem length_le_of_readBranches (h : readBranches fuel cs = .ok paths) :
    paths.length ≤ cs.length + 1 := by
  induction fuel generalizing cs paths with
  | zero => cases h
  | succ fuel ih =>
    obtain ⟨path, rest, -, hrest, ⟨-, rfl⟩ | ⟨ds, last, hbar, hlast, rfl⟩⟩ := exists_of_readBranches h
    · simp
    · have hds : ds.length < (skipBlank rest).length := by simp [hbar]
      have hskip := (skipBlank_suffix rest).length_le
      have hskip' := (skipBlank_suffix ds).length_le
      have hlength := hrest.length_le
      have hmore := ih hlast
      rw [List.length_cons]
      omega

/-- Branches are read up to what follows, and then that is. -/
theorem readBranches_append (hfollows : Follows fuel' more others)
    (h : readBranches fuel cs = .ok paths) {total : Nat} (htotal : fuel ≤ total)
    (hmore : fuel' + paths.length ≤ total) :
    readBranches total (cs ++ more) = .ok (paths ++ others) := by
  have hends := hfollows.endsBranch
  have hpart : EndsPart more := .branch hends
  induction fuel generalizing cs paths total with
  | zero => cases h
  | succ fuel ih =>
    obtain ⟨total, rfl⟩ : ∃ n, total = n + 1 := ⟨total - 1, by omega⟩
    obtain ⟨path, rest, hpath, -, hpaths⟩ := exists_of_readBranches h
    have hread := ((readOn hpart (Nat.le_of_succ_le_succ htotal)).path cs path rest hpath).2
      fun _ => hends
    rw [readBranches, hread, ok_bind]
    dsimp only
    rw [hpart.skipBlank]
    rcases hpaths with ⟨hend, rfl⟩ | ⟨ds, last, hbar, hlast, rfl⟩
    · rw [hend, List.nil_append]
      cases hfollows with
      | nothing => rfl
      | @bar ds _ hothers =>
        rw [List.length_singleton] at hmore
        change (do
          let last ← readBranches total (skipBlank ds)
          pure (path :: last)) = _
        rw [hothers total (by omega)]
        rfl
    · rw [List.length_cons] at hmore
      rw [hbar, List.cons_append]
      change (do
        let last ← readBranches total (skipBlank (ds ++ more))
        pure (path :: last)) = _
      rw [hpart.skipBlank, ih hlast (by omega) (by omega)]
      rfl

theorem readBranches_mono (h : readBranches fuel cs = .ok paths) {total : Nat} (hle : fuel ≤ total)
    (hlength : paths.length ≤ total) : readBranches total cs = .ok paths := by
  have hnothing : Follows 0 [] [] := .nothing
  have hread := readBranches_append hnothing h hle (by omega)
  rwa [List.append_nil, List.append_nil] at hread

end Branches

/-- What is read of a selector, blank characters in front aside. -/
theorem readBranches_of_parse {s : String} {p : Selector} (h : Selector.parse s = .ok p) :
    readBranches (fuelFor s.toList.length) (skipBlank s.toList) = .ok p.branches := by
  unfold Selector.parse readAll at h
  split at h
  · next branches hread =>
    cases h
    split at hread
    · cases hread
    · exact hread
  · cases h

/-- Two selectors with a bar between them are one that has the branches of both. -/
theorem parse_union {a b : String} {p q : Selector} (ha : Selector.parse a = .ok p)
    (hb : Selector.parse b = .ok q) :
    Selector.parse (a ++ "|" ++ b) = .ok ⟨a ++ "|" ++ b, p.branches ++ q.branches⟩ := by
  have hread := readBranches_of_parse ha
  have hread' := readBranches_of_parse hb
  have htext : (a ++ "|" ++ b).toList = a.toList ++ '|' :: b.toList := by simp
  have hlength := length_le_of_readBranches hread
  have hlength' := length_le_of_readBranches hread'
  have hskip := (skipBlank_suffix a.toList).length_le
  have hskip' := (skipBlank_suffix b.toList).length_le
  have hfollows : Follows (fuelFor b.toList.length) ('|' :: b.toList) q.branches := by
    refine .bar fun fuel hfuel => readBranches_mono hread' hfuel ?_
    unfold fuelFor at hfuel
    omega
  have hunion : readAll (a ++ "|" ++ b).toList = .ok (p.branches ++ q.branches) := by
    have hskip : skipBlank (a.toList ++ '|' :: b.toList) = skipBlank a.toList ++ '|' :: b.toList :=
      EndsPart.skipBlank (.branch hfollows.endsBranch) _
    have hne : skipBlank a.toList ++ '|' :: b.toList ≠ [] := by simp
    unfold readAll
    rw [htext, hskip]
    split
    · next hnil => exact absurd hnil hne
    · refine readBranches_append hfollows hread ?_ ?_
      · unfold fuelFor
        rw [List.length_append, List.length_cons]
        omega
      · unfold fuelFor
        rw [List.length_append, List.length_cons]
        omega
  unfold Selector.parse
  rw [hunion]

end DataQuality.Selector
