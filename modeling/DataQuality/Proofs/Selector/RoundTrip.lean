import DataQuality.Decimal.Shortest
import DataQuality.Selector.Reader
import Mathlib.Tactic
import DataQuality.Proofs.Decimal.WholeNumbers

/-!
# Selectors written out and read back

A selector is written without abbreviations: each step with its axis, a double colon, its test and
its conditions in brackets, slashes between steps, and bars between paths. What is written of a
selector is read as that selector, whatever is nested in it. Every reader stops where the text of
what it reads ends, given what may stand there.

What is writable is said here too. Names have no colon, texts lack a kind of quote, and positions
are so small that each is a double. Attributes are no texts, and a relative path has a step.
-/
namespace DataQuality.Selector

section Writing

/-- The quote that a text is written between. -/
def quoteFor (content : String) : Char := if '\'' ∈ content.toList then '"' else '\''

/-- A test as it is written. -/
def NodeTest.chars : NodeTest → List Char
  | .name wanted => wanted.toList
  | .anyName => ['*']
  | .text => ['t', 'e', 'x', 't', '(', ')']
  | .anyNode => ['n', 'o', 'd', 'e', '(', ')']

/-- A literal as it is written. -/
def Literal.chars : Literal → List Char
  | .text content => quoteFor content :: (content.toList ++ [quoteFor content])
  | .number x => (Decimal.Literal.ofFiniteFloat x).chars

/-- The sign of a comparison. -/
def comparison (equal : Bool) : List Char := if equal then ['='] else ['!', '=']

mutual

/-- A path as it is written. -/
def Path.chars : Path → List Char
  | .mk absolute steps => (if absolute then ['/'] else []) ++ Steps.chars steps

/-- Steps as they are written, with slashes between them. -/
def Steps.chars : List Step → List Char
  | [] => []
  | step :: rest => step.chars ++ if rest.isEmpty then [] else '/' :: Steps.chars rest

/-- A step as it is written. -/
def Step.chars : Step → List Char
  | .mk axis test conditions =>
    axis.name.toList ++ ':' :: ':' :: (test.chars ++ Conditions.chars conditions)

/-- Conditions as they are written, each in brackets. -/
def Conditions.chars : List Condition → List Char
  | [] => []
  | condition :: rest => '[' :: (condition.chars ++ ']' :: Conditions.chars rest)

/-- A condition as it is written between the brackets. -/
def Condition.chars : Condition → List Char
  | .position n => Decimal.natDigits n
  | .present path => path.chars
  | .compares path equal literal => path.chars ++ (comparison equal ++ literal.chars)

end

/-- Paths as they are written, with bars between them. -/
def Branches.chars : List Path → List Char
  | [] => []
  | path :: rest =>
    path.chars ++ if rest.isEmpty then [] else ' ' :: '|' :: ' ' :: Branches.chars rest

/-- The selector of these paths, written out. -/
def ofBranches (branches : List Path) : Selector :=
  ⟨String.ofList (Branches.chars branches), branches⟩

/-- Paths with every axis, every test and every kind of condition. -/
def specimen : List Path := [
  .mk true [
    .mk .child (.name "ReturnSubmission") [],
    .mk .descendant (.name "text") [
      .compares (.mk false [.mk .attributes (.name "id") []]) true (.text "it's"),
      .present (.mk true [.mk .descendantOrSelf .anyNode [.position 9007199254740991]])]],
  .mk false [
    .mk .self .anyName [.compares (.mk true []) false (.text "\"")],
    .mk .parent .text [.position 1]],
  .mk true []]

example : (ofBranches specimen).text =
    "/child::ReturnSubmission/descendant::text[attribute::id=\"it's\"]" ++
    "[/descendant-or-self::node()[9007199254740991]]" ++
    " | self::*[/!='\"']/parent::text()[1] | /" := by
  cbv

end Writing

section Writable

/-- A character of a name after its first. -/
def isNamePart (c : Char) : Bool := Text.isLetterOrNumber c || c == '-' || c == '_' || c == '.'

/-- A name without a colon. -/
def IsName : List Char → Prop
  | [] => False
  | c :: rest => (Text.isLetter c || c == '_') = true ∧ ∀ d ∈ rest, isNamePart d = true

def NodeTest.IsWritable (axis : Axis) : NodeTest → Prop
  | .name wanted => IsName wanted.toList
  | .text => axis ≠ .attributes
  | .anyName => True
  | .anyNode => True

/-- A text that lacks a kind of quote. -/
def Literal.IsWritable : Literal → Prop
  | .text content => '\'' ∉ content.toList ∨ '"' ∉ content.toList
  | .number _ => False

mutual

/-- A path that is read back. -/
def Path.IsWritable : Path → Prop
  | .mk absolute steps => (absolute = true ∨ steps ≠ []) ∧ Steps.IsWritable steps

/-- Steps that are read back. -/
def Steps.IsWritable : List Step → Prop
  | [] => True
  | step :: rest => step.IsWritable ∧ Steps.IsWritable rest

/-- A step that is read back. -/
def Step.IsWritable : Step → Prop
  | .mk axis test conditions => test.IsWritable axis ∧ Conditions.IsWritable conditions

/-- Conditions that are read back. -/
def Conditions.IsWritable : List Condition → Prop
  | [] => True
  | condition :: rest => condition.IsWritable ∧ Conditions.IsWritable rest

/-- A condition that is read back. -/
def Condition.IsWritable : Condition → Prop
  | .position n => 0 < n ∧ n < 2 ^ 53
  | .present path => path.IsWritable
  | .compares path _ literal => path.IsWritable ∧ literal.IsWritable

end

end Writable

theorem isLetter_of_ascii {c : Char} (hc : c.toNat < 128) : Text.isLetter c = c.isAlpha := if_pos hc

theorem isLetterOrNumber_of_ascii {c : Char} (hc : c.toNat < 128) :
    Text.isLetterOrNumber c = c.isAlphanum := if_pos hc

section Following

/-- What may stand after a path: nothing, the bar before the next path, the bracket that closes a
condition, or a comparison. -/
inductive EndsPath : List Char → Prop
  | nothing : EndsPath []
  | bar (more : List Char) : EndsPath (' ' :: '|' :: more)
  | bracket (more : List Char) : EndsPath (']' :: more)
  | equal (more : List Char) : EndsPath ('=' :: more)
  | differ (more : List Char) : EndsPath ('!' :: more)

/-- What may stand after a step: what may stand after a path, or the next step. -/
inductive EndsStep : List Char → Prop
  | path {rest : List Char} (h : EndsPath rest) : EndsStep rest
  | slash (more : List Char) : EndsStep ('/' :: more)

/-- What may stand after a test: no character of a name, and no parenthesis. -/
structure EndsTest (rest : List Char) : Prop where
  name : nameTail false rest = []
  parenthesis : rest.head? ≠ some '('

variable {rest : List Char}

@[simp] theorem skipBlank_skipBlank (cs : List Char) : skipBlank (skipBlank cs) = skipBlank cs :=
  List.dropWhile_idempotent Text.isBlank cs

theorem skipBlank_cons {c : Char} (hc : Text.isBlank c = false) (cs : List Char) :
    skipBlank (c :: cs) = c :: cs := by
  unfold skipBlank
  rw [List.dropWhile_cons_of_neg (by simp [hc])]

/-- Characters that end a name are no part of one. -/
theorem not_isNamePart : ∀ c ∈ [':', '(', '[', '/', ' ', ']', '=', '!'], isNamePart c = false := by
  simp [isNamePart, isLetterOrNumber_of_ascii]

theorem EndsTest.cons {c : Char} (hc : c ∈ ['[', '/', ' ', ']', '=', '!']) (more : List Char) :
    EndsTest (c :: more) where
  name := by
    have hpart : isNamePart c = false := not_isNamePart c (by simp at hc ⊢; tauto)
    have hcolon : c ≠ ':' := by rintro rfl; simp at hc
    unfold isNamePart at hpart
    rw [nameTail, if_neg hcolon, hpart]
    rfl
  parenthesis := by
    intro h
    cases h
    simp at hc

theorem EndsStep.endsTest (h : EndsStep rest) : EndsTest rest := by
  cases h with
  | slash more => exact .cons (by simp) more
  | path h =>
    cases h with
    | nothing => exact ⟨rfl, by simp⟩
    | bar more => exact .cons (by simp) _
    | bracket more => exact .cons (by simp) more
    | equal more => exact .cons (by simp) more
    | differ more => exact .cons (by simp) more

theorem endsPath_comparison (equal : Bool) (more : List Char) :
    EndsPath (comparison equal ++ more) ∧
      skipBlank (comparison equal ++ more) = comparison equal ++ more := by
  cases equal with
  | true => exact ⟨.equal more, skipBlank_cons rfl _⟩
  | false => exact ⟨.differ ('=' :: more), skipBlank_cons rfl _⟩

/-- After a path there is no further step. -/
theorem EndsPath.skipBlank_ne_slash (h : EndsPath rest) (more : List Char) :
    skipBlank rest ≠ '/' :: more := by
  cases h <;> simp [skipBlank, Text.isBlank]

/-- After a path there is no further condition. -/
theorem EndsPath.skipBlank_ne_bracket (h : EndsPath rest) (more : List Char) :
    skipBlank rest ≠ '[' :: more := by
  cases h <;> simp [skipBlank, Text.isBlank]

theorem EndsStep.skipBlank_ne_bracket (h : EndsStep rest) (more : List Char) :
    skipBlank rest ≠ '[' :: more := by
  cases h with
  | path h => exact h.skipBlank_ne_bracket more
  | slash after => simp [skipBlank, Text.isBlank]

/-- What stands after a path does not begin a step. -/
theorem EndsPath.head (h : EndsPath rest) :
    rest.head?.any startsStep = false ∧ rest.head? ≠ some '/' := by
  cases h <;> simp [startsStep, isLetter_of_ascii]

end Following

section Reading

variable {rest : List Char}

theorem nameTail_append {name : List Char} (hname : ∀ c ∈ name, isNamePart c = true)
    (hrest : nameTail false rest = []) : nameTail false (name ++ rest) = name := by
  induction name with
  | nil => exact hrest
  | cons c cs ih =>
    rw [List.forall_mem_cons] at hname
    have hcolon : c ≠ ':' := by
      rintro rfl
      exact absurd hname.1 (by simp [not_isNamePart])
    have hpart : (Text.isLetterOrNumber c || c == '-' || c == '_' || c == '.') = true := hname.1
    rw [List.cons_append, nameTail, if_neg hcolon, if_pos hpart, ih hname.2]

/-- A name is read up to what is no part of it. -/
theorem readName?_append {name : List Char} (hname : IsName name)
    (hrest : nameTail false rest = []) : readName? (name ++ rest) = some (name, rest) := by
  cases name with
  | nil => exact hname.elim
  | cons c cs =>
    rw [List.cons_append, readName?, if_pos hname.1]
    simp [nameTail_append hname.2 hrest]

theorem IsName.not_mem_colon {name : List Char} (hname : IsName name) : ':' ∉ name := by
  cases name with
  | nil => exact hname.elim
  | cons c cs =>
    obtain ⟨hfirst, hrest⟩ := hname
    intro hmem
    rcases List.mem_cons.1 hmem with rfl | hmem
    · exact absurd hfirst (by simp [isLetter_of_ascii])
    · exact absurd (hrest ':' hmem) (by simp [not_isNamePart])

theorem localPart_of_isName {name : List Char} (hname : IsName name) : localPart name = name := by
  have hall : ∀ c ∈ name.reverse, (c != ':') = true := by
    intro c hc
    rw [bne_iff_ne]
    rintro rfl
    exact hname.not_mem_colon (List.mem_reverse.1 hc)
  unfold localPart
  rw [List.takeWhile_eq_self_iff.2 hall, List.reverse_reverse]

theorem isName_axis (axis : Axis) : IsName axis.name.toList := by
  cases axis <;> simp [Axis.name, IsName, isNamePart, isLetter_of_ascii, isLetterOrNumber_of_ascii]

/-- The axis in front of a test is read. -/
theorem readAxis_append (axis : Axis) (cs : List Char) :
    readAxis (axis.name.toList ++ ':' :: ':' :: cs) = .ok (some axis, cs) := by
  have hend : nameTail false (':' :: ':' :: cs) = [] := by simp [nameTail]
  unfold readAxis
  rw [readName?_append (isName_axis axis) hend]
  simp

theorem IsName.append_ne_star {name : List Char} (hname : IsName name) (rest more : List Char) :
    name ++ rest ≠ '*' :: more := by
  intro h
  cases name with
  | nil => exact hname
  | cons c cs =>
    obtain ⟨rfl, -⟩ := List.cons_eq_cons.1 h
    exact absurd hname.1 (by simp [isLetter_of_ascii])

/-- A name with parentheses after it is a test of its own kind, or is read without them. -/
theorem readTest_call (axis : Axis) {name : List Char} (hname : IsName name) (rest : List Char) :
    readTest axis (name ++ '(' :: ')' :: rest) =
      if axis ≠ .attributes ∧ name = ['t', 'e', 'x', 't'] then .ok (.text, rest)
      else if name = ['n', 'o', 'd', 'e'] then .ok (.anyNode, rest)
      else .ok (.name (String.ofList name), '(' :: ')' :: rest) := by
  have hend : nameTail false ('(' :: ')' :: rest) = [] := by
    simp [nameTail, isLetterOrNumber_of_ascii]
  rw [readTest]
  · simp only [readName?_append hname hend, localPart_of_isName hname]
  · exact hname.append_ne_star _

/-- A test is read up to what stands after it. -/
theorem readTest_append {axis : Axis} {test : NodeTest} (htest : test.IsWritable axis)
    (hrest : EndsTest rest) : readTest axis (test.chars ++ rest) = .ok (test, rest) := by
  cases test with
  | anyName => rfl
  | text =>
    have haxis : axis ≠ .attributes := htest
    have hname : IsName ['t', 'e', 'x', 't'] := by
      simp [IsName, isNamePart, isLetter_of_ascii, isLetterOrNumber_of_ascii]
    exact (readTest_call axis hname rest).trans (by simp [haxis])
  | anyNode =>
    have hname : IsName ['n', 'o', 'd', 'e'] := by
      simp [IsName, isNamePart, isLetter_of_ascii, isLetterOrNumber_of_ascii]
    exact (readTest_call axis hname rest).trans (by simp)
  | name wanted =>
    have hname : IsName wanted.toList := htest
    rw [NodeTest.chars, readTest]
    · simp only [readName?_append hname hrest.name, localPart_of_isName hname, String.ofList_toList]
      split
      · exact absurd rfl hrest.parenthesis
      · rfl
    · exact hname.append_ne_star _

theorem quoteFor_not_mem {content : String} (h : (Literal.text content).IsWritable) :
    quoteFor content ∉ content.toList := by
  unfold quoteFor
  split
  · next hmem => exact h.resolve_left (not_not_intro hmem)
  · next hmem => exact hmem

theorem quoteFor_eq (content : String) : quoteFor content = '\'' ∨ quoteFor content = '"' := by
  unfold quoteFor
  split <;> simp

theorem literal_not_blank {literal : Literal} (h : literal.IsWritable) (rest : List Char) :
    skipBlank (literal.chars ++ rest) = literal.chars ++ rest := by
  cases literal with
  | number x => exact h.elim
  | text content =>
    refine skipBlank_cons ?_ _
    obtain hquote | hquote := quoteFor_eq content
    · rw [hquote]
      rfl
    · rw [hquote]
      rfl

/-- A literal is read up to its closing quote. -/
theorem readLiteral_append {literal : Literal} (h : literal.IsWritable) (rest : List Char) :
    readLiteral (literal.chars ++ rest) = .ok (literal, rest) := by
  cases literal with
  | number x => exact h.elim
  | text content =>
    have hcontent : ∀ c ∈ content.toList, (c != quoteFor content) = true := by
      intro c hc
      rw [bne_iff_ne]
      rintro rfl
      exact quoteFor_not_mem h hc
    rw [Literal.chars, List.cons_append, List.append_assoc, readLiteral,
      if_pos (quoteFor_eq content), List.span_eq_takeWhile_dropWhile,
      List.takeWhile_append_of_pos hcontent, List.dropWhile_append_of_pos hcontent]
    simp

/-- A whole number stands for a position. -/
theorem positionOf?_of_isWhole {n : ℕ} (hpos : 0 < n) (hlt : n < 2 ^ 53) {x : Float}
    (hx : Double.IsWhole n x) : positionOf? x = some n := by
  have hone : ¬ x < 1.0 := Double.not_lt_one hpos hlt hx Double.parts_one
  have hnat : x.toUInt64.toNat = n := Double.toNat_toUInt64 hpos hlt hx
  have hback : isWhole x = true := by
    have huint : x.toUInt64 = n.toUInt64 := UInt64.toNat_inj.1
      (hnat.trans (UInt64.toNat_ofNat_of_lt' (hlt.trans (by decide))).symm)
    unfold isWhole
    rw [huint, Double.beq_of_isWhole hpos hlt (Double.isWhole_toFloat hpos hlt) hx]
    rfl
  unfold positionOf?
  rw [if_neg (by simp [hone, hback]), hnat]

/-- The number of a position is read up to the bracket. -/
theorem readNumber_natDigits {n : ℕ} (hpos : 0 < n) (hlt : n < 2 ^ 53) (rest : List Char) :
    ∃ x, readNumber (Decimal.natDigits n ++ ']' :: rest) = .ok (x, ']' :: rest) ∧
      positionOf? x = some n := by
  obtain ⟨x, hread, hwhole⟩ := Decimal.readFloat?_natDigits hpos hlt
  have hchars : numberChars (Decimal.natDigits n ++ ']' :: rest) = Decimal.natDigits n := by
    have htake : (Decimal.natDigits n ++ ']' :: rest).takeWhile
        (fun c => Decimal.isDigit c || c == '.') = Decimal.natDigits n := by
      rw [List.takeWhile_append_of_pos fun c hc => by
        rw [Decimal.isDigit_of_mem_natDigits hc, Bool.true_or]]
      simp [Decimal.isDigit]
    obtain ⟨d, ds, hcons, hd⟩ := Decimal.natDigits_eq_cons n
    unfold numberChars
    split
    · next cs hminus =>
      rw [hcons, List.cons_append] at hminus
      obtain ⟨rfl, -⟩ := List.cons_eq_cons.1 hminus
      cases hd
    · exact htake
  refine ⟨x, ?_, positionOf?_of_isWhole hpos hlt hwhole⟩
  unfold readNumber
  simp only [hchars, hread, List.drop_left]

/-- With which characters the name of an axis begins. -/
theorem axis_eq_cons (axis : Axis) :
    ∃ c cs, axis.name.toList = c :: cs ∧ c ∈ ['c', 'd', 'a', 's', 'p'] := by
  cases axis <;> simp [Axis.name]

/-- What such a character is, and what it is not. -/
structure Starts (c : Char) : Prop where
  step : startsStep c = true
  blank : Text.isBlank c = false
  digit : Decimal.isDigit c = false
  slash : c ≠ '/'

theorem starts_of_mem {c : Char} (hc : c ∈ ['c', 'd', 'a', 's', 'p']) : Starts c := by
  have hall : ∀ c ∈ ['c', 'd', 'a', 's', 'p'], startsStep c = true ∧ Text.isBlank c = false ∧
      Decimal.isDigit c = false ∧ c ≠ '/' := by
    simp [startsStep, isLetter_of_ascii, Text.isBlank, Decimal.isDigit]
  obtain ⟨hstep, hblank, hdigit, hslash⟩ := hall c hc
  exact ⟨hstep, hblank, hdigit, hslash⟩

theorem steps_eq_cons {steps : List Step} (hne : steps ≠ []) :
    ∃ c cs, Steps.chars steps = c :: cs ∧ Starts c := by
  match steps, hne with
  | .mk axis test conditions :: rest, _ =>
    obtain ⟨c, cs, hcons, hc⟩ := axis_eq_cons axis
    exact ⟨c, _, by rw [Steps.chars, Step.chars, hcons]; rfl, starts_of_mem hc⟩

/-- A path begins with a slash or with a step. -/
theorem path_eq_cons {path : Path} (h : path.IsWritable) :
    ∃ c cs, path.chars = c :: cs ∧ (c = '/' ∨ Starts c) := by
  match path, h with
  | .mk true steps, _ => exact ⟨'/', Steps.chars steps, rfl, .inl rfl⟩
  | .mk false steps, h =>
    obtain ⟨c, cs, hcons, hc⟩ := steps_eq_cons (h.1.resolve_left Bool.false_ne_true)
    exact ⟨c, cs, hcons, .inr hc⟩

theorem path_not_blank {path : Path} (h : path.IsWritable) (rest : List Char) :
    skipBlank (path.chars ++ rest) = path.chars ++ rest ∧
      (path.chars ++ rest).head?.any Decimal.isDigit = false := by
  obtain ⟨c, cs, hcons, hc⟩ := path_eq_cons h
  rw [hcons]
  obtain rfl | hc := hc
  · exact ⟨skipBlank_cons rfl _, rfl⟩
  · exact ⟨skipBlank_cons hc.blank _, hc.digit⟩

section Rules

variable {fuel : ℕ} {cs after more : List Char}

theorem ok_bind {α β : Type} (a : α) (next : α → Except Fault β) :
    Except.ok a >>= next = next a := rfl

/-- A path that begins with a step. -/
theorem readPath_starts {c : Char} (hc : c ≠ '/') {steps : List Step}
    (hsteps : readSteps fuel (c :: cs) = .ok (steps, after)) :
    readPath (fuel + 1) (c :: cs) = .ok (.mk false steps, after) := by
  rw [readPath, hsteps]
  · rfl
  · exact fun _ h => hc (List.cons_eq_cons.1 h).1
  · exact fun _ h => hc (List.cons_eq_cons.1 h).1

/-- A path that begins with a slash and a step. -/
theorem readPath_slash {c : Char} (hstep : startsStep c = true) (hc : c ≠ '/') {steps : List Step}
    (hsteps : readSteps fuel (c :: cs) = .ok (steps, after)) :
    readPath (fuel + 1) ('/' :: c :: cs) = .ok (.mk true steps, after) := by
  rw [readPath, hsteps]
  · simp only [List.head?_cons, Option.any_some, hstep, if_true]
    rfl
  · exact fun _ h => hc (List.cons_eq_cons.1 h).1

/-- A path that is a slash alone. -/
theorem readPath_top (hrest : EndsPath rest) :
    readPath (fuel + 1) ('/' :: rest) = .ok (.mk true [], rest) := by
  obtain ⟨hstep, hslash⟩ := hrest.head
  rw [readPath, hstep]
  · rfl
  · rintro more rfl
    exact hslash rfl

theorem readSteps_last {step : Step} (hstep : readStep fuel cs = .ok (step, after))
    (hafter : ∀ more, after ≠ '/' :: more) : readSteps (fuel + 1) cs = .ok ([step], after) := by
  simp only [readSteps, hstep, ok_bind]
  split
  · exact absurd rfl (hafter _)
  · exact absurd rfl (hafter _)
  · rfl

theorem readSteps_slash {c : Char} (hc : c ≠ '/') {step : Step} {steps : List Step}
    (hstep : readStep fuel cs = .ok (step, '/' :: c :: more))
    (hsteps : readSteps fuel (c :: more) = .ok (steps, after)) :
    readSteps (fuel + 1) cs = .ok (step :: steps, after) := by
  simp only [readSteps, hstep, ok_bind]
  split
  · next heq => exact absurd (List.cons_eq_cons.1 (List.cons_eq_cons.1 heq).2).1 hc
  · next heq =>
    rw [← (List.cons_eq_cons.1 heq).2, hsteps]
    rfl
  · next hother => exact absurd rfl (hother _)

theorem readStep_axis {axis : Axis} {test : NodeTest} {conditions : List Condition}
    (htest : readTest axis cs = .ok (test, more))
    (hconditions : readConditions fuel more = .ok (conditions, after)) :
    readStep (fuel + 1) (axis.name.toList ++ ':' :: ':' :: cs) =
      .ok (.mk axis test conditions, after) := by
  have hstep : readStep (fuel + 1) (axis.name.toList ++ ':' :: ':' :: cs) = (do
      let named ← readAxis (axis.name.toList ++ ':' :: ':' :: cs)
      let tested ← readTest (named.1.getD .child) named.2
      let filtered ← readConditions fuel tested.2
      pure (.mk (named.1.getD .child) tested.1 filtered.1, filtered.2)) := by
    cases axis <;> rfl
  simp only [hstep, readAxis_append, ok_bind, Option.getD_some, htest, hconditions]
  rfl

theorem readConditions_nil (hcs : ∀ more, skipBlank cs ≠ '[' :: more) :
    readConditions (fuel + 1) cs = .ok ([], skipBlank cs) := by
  rw [readConditions]
  split
  · next more heq => exact absurd heq (hcs more)
  · rfl

theorem readConditions_cons {condition : Condition} {conditions : List Condition}
    (hcondition : readCondition fuel cs = .ok (condition, ']' :: more))
    (hconditions : readConditions fuel more = .ok (conditions, after)) :
    readConditions (fuel + 1) ('[' :: cs) = .ok (condition :: conditions, after) := by
  simp only [readConditions, skipBlank_cons (c := '[') rfl, skipBlank_cons (c := ']') rfl,
    hcondition, hconditions, ok_bind]
  rfl

theorem readCondition_position {n : ℕ} {x : Float}
    (hcs : (skipBlank cs).head?.any Decimal.isDigit = true)
    (hnumber : readNumber (skipBlank cs) = .ok (x, after)) (hx : positionOf? x = some n) :
    readCondition (fuel + 1) cs = .ok (.position n, after) := by
  simp only [readCondition, hcs, hnumber, hx, if_true, ok_bind]
  rfl

theorem readCondition_present {path : Path} (hcs : (skipBlank cs).head?.any Decimal.isDigit = false)
    (hpath : readPath fuel (skipBlank cs) = .ok (path, after))
    (hafter : skipBlank after = ']' :: more) :
    readCondition (fuel + 1) cs = .ok (.present path, ']' :: more) := by
  simp only [readCondition, hcs, hpath, hafter, ok_bind]
  rfl

theorem readCondition_compares {path : Path} {equal : Bool} {literal : Literal} {tail : List Char}
    (hcs : (skipBlank cs).head?.any Decimal.isDigit = false)
    (hpath : readPath fuel (skipBlank cs) = .ok (path, after))
    (hafter : skipBlank after = comparison equal ++ more)
    (hliteral : readLiteral (skipBlank more) = .ok (literal, tail)) :
    readCondition (fuel + 1) cs = .ok (.compares path equal literal, tail) := by
  simp only [readCondition, hcs, hpath, ok_bind, hafter]
  cases equal with
  | true => simp [comparison, hliteral]
  | false => simp [comparison, hliteral]

end Rules

-- The induction is on what is written. Each reader hands on one step less than it has been given, and
-- five steps for each character cover the longest way from one character to the next: from conditions
-- to a condition, a path, its steps and a step.
mutual

/-- A path is read up to what stands after it, or after the blank characters there. -/
theorem readPath_append (path : Path) (h : path.IsWritable) {rest : List Char}
    (hrest : EndsPath rest) (fuel : ℕ) (hfuel : 5 * path.chars.length + 2 ≤ fuel) :
    ∃ after, readPath fuel (path.chars ++ rest) = .ok (path, after) ∧
      skipBlank after = skipBlank rest := by
  match path, fuel with
  | _, 0 => omega
  | .mk true [], fuel + 1 => exact ⟨rest, readPath_top hrest, rfl⟩
  | .mk true (step :: more), fuel + 1 =>
    have hne : step :: more ≠ [] := List.cons_ne_nil step more
    obtain ⟨c, cs, hcons, hc⟩ := steps_eq_cons hne
    have hlength : (Path.chars (.mk true (step :: more))).length =
        (Steps.chars (step :: more)).length + 1 := rfl
    have hsteps := readSteps_append (step :: more) hne h.2 hrest fuel (by omega)
    refine ⟨skipBlank rest, ?_, skipBlank_skipBlank rest⟩
    change readPath (fuel + 1) ('/' :: (Steps.chars (step :: more) ++ rest)) = _
    rw [hcons, List.cons_append] at hsteps ⊢
    exact readPath_slash hc.step hc.slash hsteps
  | .mk false steps, fuel + 1 =>
    have hne : steps ≠ [] := h.1.resolve_left Bool.false_ne_true
    obtain ⟨c, cs, hcons, hc⟩ := steps_eq_cons hne
    have hchars : Path.chars (.mk false steps) = Steps.chars steps := rfl
    rw [hchars] at hfuel ⊢
    have hsteps := readSteps_append steps hne h.2 hrest fuel (by omega)
    refine ⟨skipBlank rest, ?_, skipBlank_skipBlank rest⟩
    rw [hcons, List.cons_append] at hsteps ⊢
    exact readPath_starts hc.slash hsteps

/-- Steps are read up to what stands after them and is not blank. -/
theorem readSteps_append (steps : List Step) (hne : steps ≠ []) (h : Steps.IsWritable steps)
    {rest : List Char} (hrest : EndsPath rest) (fuel : ℕ)
    (hfuel : 5 * (Steps.chars steps).length + 1 ≤ fuel) :
    readSteps fuel (Steps.chars steps ++ rest) = .ok (steps, skipBlank rest) := by
  match steps, fuel with
  | _, 0 => omega
  | [], _ => exact absurd rfl hne
  | [step], fuel + 1 =>
    have hchars : Steps.chars [step] = step.chars := List.append_nil step.chars
    rw [hchars] at hfuel ⊢
    have hstep := readStep_append step h.1 (.path hrest) fuel (by omega)
    exact readSteps_last hstep hrest.skipBlank_ne_slash
  | step :: next :: more, fuel + 1 =>
    have hchars : Steps.chars (step :: next :: more) =
        step.chars ++ '/' :: Steps.chars (next :: more) := rfl
    rw [hchars, List.length_append, List.length_cons] at hfuel
    have hne : next :: more ≠ [] := List.cons_ne_nil next more
    obtain ⟨c, cs, hcons, hc⟩ := steps_eq_cons hne
    have hmore := readSteps_append (next :: more) hne h.2 hrest fuel (by omega)
    have hstep := readStep_append step h.1 (.slash (Steps.chars (next :: more) ++ rest))
      fuel (by omega)
    rw [skipBlank_cons rfl] at hstep
    rw [hchars, List.append_assoc, List.cons_append]
    rw [hcons, List.cons_append] at hmore hstep ⊢
    exact readSteps_slash hc.slash hstep hmore

/-- A step is read up to what stands after it and is not blank. -/
theorem readStep_append (step : Step) (h : step.IsWritable) {rest : List Char}
    (hrest : EndsStep rest) (fuel : ℕ) (hfuel : 5 * step.chars.length ≤ fuel) :
    readStep fuel (step.chars ++ rest) = .ok (step, skipBlank rest) := by
  match step, fuel with
  | .mk axis test conditions, 0 =>
    rw [Step.chars, List.length_append, List.length_cons] at hfuel
    omega
  | .mk axis test conditions, fuel + 1 =>
    simp only [Step.chars, List.length_append, List.length_cons] at hfuel
    simp only [Step.chars, List.append_assoc, List.cons_append]
    have hend : EndsTest (Conditions.chars conditions ++ rest) := by
      cases conditions with
      | nil => exact hrest.endsTest
      | cons condition more => exact .cons (by simp) _
    exact readStep_axis (readTest_append h.1 hend)
      (readConditions_append conditions h.2 hrest fuel (by omega))

/-- Conditions are read up to what stands after them and is not blank. -/
theorem readConditions_append (conditions : List Condition) (h : Conditions.IsWritable conditions)
    {rest : List Char} (hrest : EndsStep rest) (fuel : ℕ)
    (hfuel : 5 * (Conditions.chars conditions).length + 2 ≤ fuel) :
    readConditions fuel (Conditions.chars conditions ++ rest) =
      .ok (conditions, skipBlank rest) := by
  match conditions, fuel with
  | _, 0 => omega
  | [], fuel + 1 => exact readConditions_nil hrest.skipBlank_ne_bracket
  | condition :: more, fuel + 1 =>
    simp only [Conditions.chars, List.length_append, List.length_cons] at hfuel
    simp only [Conditions.chars, List.append_assoc, List.cons_append]
    exact readConditions_cons (readCondition_append condition h.1 _ fuel (by omega))
      (readConditions_append more h.2 hrest fuel (by omega))

/-- A condition is read up to its bracket. -/
theorem readCondition_append (condition : Condition) (h : condition.IsWritable) (rest : List Char)
    (fuel : ℕ) (hfuel : 5 * condition.chars.length + 3 ≤ fuel) :
    readCondition fuel (condition.chars ++ ']' :: rest) = .ok (condition, ']' :: rest) := by
  match condition, fuel with
  | _, 0 => omega
  | .position n, fuel + 1 =>
    obtain ⟨hpos, hlt⟩ := h
    obtain ⟨x, hnumber, hx⟩ := readNumber_natDigits hpos hlt rest
    obtain ⟨d, ds, hcons, hd⟩ := Decimal.natDigits_eq_cons n
    rw [Condition.chars]
    rw [hcons, List.cons_append] at hnumber ⊢
    have hblank := skipBlank_cons (Decimal.isBlank_of_isDigit hd) (ds ++ ']' :: rest)
    exact readCondition_position (by rw [hblank]; exact hd) (by rw [hblank]; exact hnumber) hx
  | .present path, fuel + 1 =>
    rw [Condition.chars] at hfuel ⊢
    obtain ⟨hblank, hdigit⟩ := path_not_blank h (']' :: rest)
    obtain ⟨after, hpath, hafter⟩ := readPath_append path h (.bracket rest) fuel (by omega)
    rw [skipBlank_cons rfl] at hafter
    rw [← hblank] at hpath hdigit
    exact readCondition_present hdigit hpath hafter
  | .compares path equal literal, fuel + 1 =>
    obtain ⟨hwritable, hliteral⟩ := h
    simp only [Condition.chars, List.length_append] at hfuel
    simp only [Condition.chars, List.append_assoc]
    obtain ⟨hends, hsign⟩ := endsPath_comparison equal (literal.chars ++ ']' :: rest)
    obtain ⟨after, hpath, hafter⟩ := readPath_append path hwritable hends fuel (by omega)
    obtain ⟨hblank, hdigit⟩ := path_not_blank hwritable
      (comparison equal ++ (literal.chars ++ ']' :: rest))
    rw [hsign] at hafter
    rw [← hblank] at hpath hdigit
    exact readCondition_compares hdigit hpath hafter (by
      rw [literal_not_blank hliteral]
      exact readLiteral_append hliteral _)

end

theorem branches_eq_cons {branches : List Path} (hne : branches ≠ [])
    (h : ∀ path ∈ branches, path.IsWritable) :
    ∃ c cs, Branches.chars branches = c :: cs ∧ Text.isBlank c = false := by
  match branches, hne with
  | path :: more, _ =>
    obtain ⟨c, cs, hcons, hc⟩ := path_eq_cons (h path List.mem_cons_self)
    refine ⟨c, _, by rw [Branches.chars, hcons]; rfl, ?_⟩
    obtain rfl | hc := hc
    · rfl
    · exact hc.blank

/-- Paths with bars between them are read to the end. -/
theorem readBranches_chars (branches : List Path) (hne : branches ≠ [])
    (h : ∀ path ∈ branches, path.IsWritable) (fuel : ℕ)
    (hfuel : 5 * (Branches.chars branches).length + 3 ≤ fuel) :
    readBranches fuel (Branches.chars branches) = .ok branches := by
  match branches, fuel with
  | _, 0 => omega
  | [], _ => exact absurd rfl hne
  | [path], fuel + 1 =>
    have hchars : Branches.chars [path] = path.chars ++ [] := rfl
    rw [hchars, List.length_append] at hfuel
    obtain ⟨after, hpath, hafter⟩ := readPath_append path (h path List.mem_cons_self) .nothing
      fuel (by omega)
    have hempty : skipBlank [] = [] := rfl
    simp only [hchars, readBranches, hpath, ok_bind, hafter, hempty]
    rfl
  | path :: next :: more, fuel + 1 =>
    have hchars : Branches.chars (path :: next :: more) =
        path.chars ++ ' ' :: '|' :: ' ' :: Branches.chars (next :: more) := rfl
    rw [hchars, List.length_append, List.length_cons, List.length_cons, List.length_cons] at hfuel
    obtain ⟨after, hpath, hafter⟩ := readPath_append path (h path List.mem_cons_self)
      (.bar (' ' :: Branches.chars (next :: more))) fuel (by omega)
    have hne : next :: more ≠ [] := List.cons_ne_nil next more
    have hwritable : ∀ path ∈ next :: more, path.IsWritable :=
      fun path hpath => h path (List.mem_cons_of_mem _ hpath)
    have hmore := readBranches_chars (next :: more) hne hwritable fuel (by omega)
    have hbar : skipBlank (' ' :: '|' :: ' ' :: Branches.chars (next :: more)) =
        '|' :: ' ' :: Branches.chars (next :: more) := rfl
    have hblank : skipBlank (' ' :: Branches.chars (next :: more)) =
        Branches.chars (next :: more) := by
      obtain ⟨c, cs, hcons, hc⟩ := branches_eq_cons hne hwritable
      rw [hcons]
      exact skipBlank_cons hc cs
    simp only [hchars, readBranches, hpath, ok_bind, hafter, hbar, hblank, hmore]
    rfl

/-- What is written of paths is read as these paths. -/
theorem parse_ofBranches {branches : List Path} (hne : branches ≠ [])
    (h : ∀ path ∈ branches, path.IsWritable) :
    Selector.parse (ofBranches branches).text = .ok (ofBranches branches) := by
  obtain ⟨c, cs, hcons, hc⟩ := branches_eq_cons hne h
  have hread : readAll (Branches.chars branches) = .ok branches := by
    have hblank : skipBlank (Branches.chars branches) = c :: cs := by
      rw [hcons]
      exact skipBlank_cons hc cs
    unfold readAll
    rw [hblank]
    dsimp only
    rw [← hcons]
    exact readBranches_chars branches hne h _ (by unfold fuelFor; omega)
  unfold Selector.parse ofBranches
  simp only [String.toList_ofList, hread]

theorem parse_ofBranches_specimen :
    Selector.parse (ofBranches specimen).text = .ok (ofBranches specimen) :=
  parse_ofBranches (by simp [specimen]) (by
    simp [specimen, Path.IsWritable, Steps.IsWritable, Step.IsWritable, Conditions.IsWritable,
      Condition.IsWritable, NodeTest.IsWritable, Literal.IsWritable, IsName, isNamePart,
      isLetter_of_ascii, isLetterOrNumber_of_ascii])

end Reading

end DataQuality.Selector
