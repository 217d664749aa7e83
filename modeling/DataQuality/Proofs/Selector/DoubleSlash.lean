import DataQuality.Proofs.Selector.Descendants
import DataQuality.Proofs.Selector.Union

/-!
# Double slashes

After a path, a double slash with a node test is read as two steps, and a slash with the axis of the
descendants and the same test as one. If no condition on the test asks for a position, both select
the same from any place of a document, in the scope of the document as in that of a unit. A position
does make a difference: it is one among the children of each place in the first case, and one among
all descendants in the second.
-/
namespace DataQuality.Selector

open Markup

section Reading

variable {fuel fuel' total : Nat} {cs more : List Char} {steps others : List Step}

theorem readPath_nil (fuel : Nat) : ∃ fault, readPath fuel [] = .error fault := by
  cases fuel with
  | zero => exact ⟨_, by rw [readPath]⟩
  | succ fuel =>
    obtain ⟨fault, hfault⟩ := readSteps_nil fuel
    refine ⟨fault, ?_⟩
    rw [readPath, hfault]
    · rfl
    all_goals simp

theorem exists_of_bind {α β : Type} {result : Except Fault α} {next : α → Except Fault β} {y : β}
    (h : result >>= next = .ok y) : ∃ x, result = .ok x ∧ next x = .ok y := by
  cases result with
  | error fault => cases h
  | ok x => exact ⟨x, rfl, h⟩

/-- Steps that are read to the end are one last step, or a step with slashes and more steps after
it. -/
theorem exists_of_readSteps (h : readSteps (fuel + 1) cs = .ok (steps, [])) :
    ∃ step rest, readStep fuel cs = .ok (step, rest) ∧
      (rest = [] ∧ steps = [step] ∨
        (∃ ds last, rest = '/' :: '/' :: ds ∧ readSteps fuel ds = .ok (last, []) ∧
          steps = step :: .everywhere :: last) ∨
        ∃ c ds last, c ≠ '/' ∧ rest = '/' :: c :: ds ∧ readSteps fuel (c :: ds) = .ok (last, []) ∧
          steps = step :: last) := by
  rw [readSteps] at h
  obtain ⟨⟨step, rest⟩, hstep, h⟩ := exists_of_bind h
  refine ⟨step, rest, hstep, ?_⟩
  dsimp only at h
  split at h
  · next ds =>
    obtain ⟨⟨last, left⟩, hlast, h⟩ := exists_of_bind h
    cases h
    exact .inr (.inl ⟨ds, last, rfl, hlast, rfl⟩)
  · next ds hds =>
    obtain ⟨⟨last, left⟩, hlast, h⟩ := exists_of_bind h
    cases h
    cases ds with
    | nil =>
      obtain ⟨fault, hfault⟩ := readSteps_nil fuel
      rw [hfault] at hlast
      cases hlast
    | cons c ds =>
      have hc : c ≠ '/' := fun hc => hds ds (hc ▸ rfl)
      exact .inr (.inr ⟨c, ds, last, hc, rfl, hlast, rfl⟩)
  · cases h
    exact .inl ⟨rfl, rfl⟩

theorem ne_nil_of_readSteps (h : readSteps fuel cs = .ok (steps, [])) : steps ≠ [] := by
  cases fuel with
  | zero =>
    rw [readSteps] at h
    cases h
  | succ fuel =>
    obtain ⟨step, rest, -, ⟨-, rfl⟩ | ⟨ds, last, -, -, rfl⟩ | ⟨c, ds, last, -, -, -, rfl⟩⟩ :=
      exists_of_readSteps h <;> exact List.cons_ne_nil _ _

theorem readSteps_double {step : Step} (hstep : readStep fuel cs = .ok (step, '/' :: '/' :: more))
    (hsteps : readSteps fuel more = .ok (steps, [])) :
    readSteps (fuel + 1) cs = .ok (step :: .everywhere :: steps, []) := by
  simp only [readSteps, hstep, ok_bind, hsteps]
  rfl

/-- What may follow steps: a slash with more steps, and which steps that is read as with this fuel
or more. -/
inductive FollowsSteps (fuel : Nat) : List Char → List Step → Prop
  | slash {c : Char} {cs : List Char} {steps : List Step} (hc : startsStep c = true)
      (h : ∀ fuel' ≥ fuel, readSteps fuel' (c :: cs) = .ok (steps, [])) :
      FollowsSteps fuel ('/' :: c :: cs) steps
  | double {cs : List Char} {steps : List Step}
      (h : ∀ fuel' ≥ fuel, readSteps fuel' cs = .ok (steps, [])) :
      FollowsSteps fuel ('/' :: '/' :: cs) (.everywhere :: steps)

theorem FollowsSteps.endsPart (h : FollowsSteps fuel more others) : EndsPart more := by
  cases h with
  | slash => exact .slash _
  | double => exact .slash _

theorem ne_slash_of_startsStep {c : Char} (hc : startsStep c = true) : c ≠ '/' := by
  rintro rfl
  simp [startsStep, isLetter_of_ascii] at hc

theorem FollowsSteps.pos (h : FollowsSteps fuel more others) : 0 < fuel := by
  refine Nat.pos_of_ne_zero ?_
  rintro rfl
  cases h with
  | slash _ h =>
    have hread := h 0 le_rfl
    rw [readSteps] at hread
    cases hread
  | double h =>
    have hread := h 0 le_rfl
    rw [readSteps] at hread
    cases hread

/-- Steps are read up to the slash that follows, and then those after it. -/
theorem readSteps_follows (hfollows : FollowsSteps fuel' more others)
    (h : readSteps fuel cs = .ok (steps, [])) (htotal : fuel + fuel' ≤ total + 1) :
    readSteps total (cs ++ more) = .ok (steps ++ others, []) := by
  induction fuel generalizing cs steps total with
  | zero =>
    rw [readSteps] at h
    cases h
  | succ fuel ih =>
    obtain ⟨step, rest, hstep, hrest⟩ := exists_of_readSteps h
    have hpos := hfollows.pos
    have hfuel : fuel ≠ 0 := by
      rintro rfl
      rw [readStep] at hstep
      cases hstep
    obtain ⟨total, rfl⟩ : ∃ n, total = n + 1 := ⟨total - 1, by omega⟩
    have hread := ((readOn hfollows.endsPart (by omega : fuel ≤ total)).step cs step rest hstep).2
      fun _ => trivial
    rcases hrest with ⟨rfl, rfl⟩ | ⟨ds, last, rfl, hlast, rfl⟩ | ⟨c, ds, last, hc, rfl, hlast, rfl⟩
    · cases hfollows with
      | slash hc hothers =>
        exact readSteps_slash (ne_slash_of_startsStep hc) hread (hothers total (by omega))
      | double hothers => exact readSteps_double hread (hothers total (by omega))
    · exact readSteps_double hread (ih hlast (by omega))
    · exact readSteps_slash hc hread (ih hlast (by omega))

/-- A path with steps is read up to the slash that follows, and then the steps after it. -/
theorem readPath_follows (hfollows : FollowsSteps fuel' more others) {absolute : Bool}
    (h : readPath (fuel + 1) cs = .ok (.mk absolute steps, [])) (hsteps : steps ≠ [])
    (htotal : fuel + fuel' ≤ total + 1) :
    readPath (total + 1) (cs ++ more) = .ok (.mk absolute (steps ++ others), []) := by
  rcases begins_cases '/' cs with ⟨ds, rfl⟩ | ⟨ds, rfl, hds⟩ | hcs
  · rw [readPath] at h
    obtain ⟨⟨last, left⟩, hlast, h⟩ := exists_of_bind h
    cases h
    change readPath (total + 1) ('/' :: '/' :: (ds ++ more)) = _
    rw [readPath, readSteps_follows hfollows hlast htotal]
    rfl
  · rw [readPath] at h
    · split at h
      · next hstep =>
        obtain ⟨⟨last, left⟩, hlast, h⟩ := exists_of_bind h
        cases h
        have hread := readSteps_follows hfollows hlast htotal
        cases ds with
        | nil => cases hstep
        | cons c es => exact readPath_slash hstep (ne_slash_of_startsStep hstep) hread
      · cases h
        exact absurd rfl hsteps
    · exact hds
  · rw [readPath] at h
    · obtain ⟨⟨last, left⟩, hlast, h⟩ := exists_of_bind h
      cases h
      have hread := readSteps_follows hfollows hlast htotal
      cases cs with
      | nil =>
        obtain ⟨fault, hfault⟩ := readSteps_nil fuel
        rw [hfault] at hlast
        cases hlast
      | cons c es => exact readPath_starts (fun hc => hcs es (hc ▸ rfl)) hread
    · exact fun ds => hcs ('/' :: ds)
    · exact hcs

/-- What follows steps makes an absolute path of its own. -/
theorem FollowsSteps.readPath (h : FollowsSteps fuel more others) (hle : fuel ≤ total) :
    readPath (total + 1) more = .ok (.mk true others, []) := by
  cases h with
  | slash hc h => exact readPath_slash hc (ne_slash_of_startsStep hc) (h total hle)
  | double h =>
    rw [Selector.readPath, h total hle]
    rfl

/-- More fuel reads the same steps. -/
theorem readSteps_mono (h : readSteps fuel cs = .ok (steps, [])) (hle : fuel ≤ fuel') :
    readSteps fuel' cs = .ok (steps, []) := by
  have hread := ((readOn (.branch .nothing) hle).steps cs steps [] h).2 fun _ => .nothing
  rwa [List.append_nil] at hread

variable {test : NodeTest} {conditions : List Condition}

/-- Axes other than that of the attributes have the same tests. -/
theorem readTest_congr {axis axis' : Axis} (h : axis ≠ .attributes) (h' : axis' ≠ .attributes)
    (cs : List Char) : readTest axis cs = readTest axis' cs := by
  unfold readTest
  simp only [h, h', ne_eq, not_false_eq_true, true_and]

/-- A step to the children that names no axis is a test with conditions. -/
theorem exists_of_readStep_child (haxis : readAxis cs = .ok (none, cs)) {rest : List Char}
    (h : readStep (fuel + 1) cs = .ok (.mk .child test conditions, rest)) :
    ∃ after, readTest .child cs = .ok (test, after) ∧
      readConditions fuel after = .ok (conditions, rest) := by
  rcases begins_cases '.' cs with ⟨ds, rfl⟩ | ⟨ds, rfl, hds⟩ | hcs
  · cases h
  · rw [readStep] at h
    · cases h
    · exact hds
  by_cases hattribute : ∃ ds, cs = '@' :: ds
  · obtain ⟨ds, rfl⟩ := hattribute
    rw [readStep] at h
    obtain ⟨⟨found, after⟩, -, h⟩ := exists_of_bind h
    obtain ⟨⟨kept, left⟩, -, h⟩ := exists_of_bind h
    cases h
  · rw [readStep, haxis, ok_bind] at h
    · obtain ⟨⟨found, after⟩, htest, h⟩ := exists_of_bind h
      obtain ⟨⟨kept, left⟩, hconditions, h⟩ := exists_of_bind h
      cases h
      exact ⟨after, htest, hconditions⟩
    · exact fun ds => hcs ('.' :: ds)
    · exact hcs
    · exact fun ds hds => hattribute ⟨ds, hds⟩

/-- A test with conditions that is read as a step to the children is read as one to the descendants
after the name of their axis. -/
theorem readSteps_descendant (haxis : readAxis cs = .ok (none, cs))
    (h : readSteps fuel cs = .ok ([.mk .child test conditions], [])) :
    readSteps fuel (Axis.descendant.name.toList ++ ':' :: ':' :: cs) =
      .ok ([.mk .descendant test conditions], []) := by
  cases fuel with
  | zero =>
    rw [readSteps] at h
    cases h
  | succ fuel =>
    obtain ⟨step, rest, hstep, hrest⟩ := exists_of_readSteps h
    rcases hrest with ⟨rfl, heq⟩ | ⟨ds, last, -, -, heq⟩ | ⟨c, ds, last, -, -, hlast, heq⟩
    · cases heq
      cases fuel with
      | zero =>
        rw [readStep] at hstep
        cases hstep
      | succ fuel =>
        obtain ⟨after, htest, hconditions⟩ := exists_of_readStep_child haxis hstep
        rw [readTest_congr Axis.noConfusion (Axis.noConfusion : Axis.descendant ≠ _)] at htest
        exact readSteps_last (readStep_axis htest hconditions) fun _ => (List.cons_ne_nil _ _).symm
    · cases heq
    · cases heq
      exact absurd rfl (ne_nil_of_readSteps hlast)

end Reading

/-- What stands before a double slash: blank characters alone, if it is at the start of an absolute
path, or a path with steps, which is read to its end. -/
inductive IsFront : String → Bool → List Step → Prop
  | start {text : String} (h : skipBlank text.toList = []) : IsFront text true []
  | path {text : String} {absolute : Bool} {steps : List Step}
      (h : readPath (fuelFor text.toList.length) (skipBlank text.toList) =
        .ok (.mk absolute steps, []))
      (hsteps : steps ≠ []) : IsFront text absolute steps

/-- A node test with conditions: it names no axis, and is read to its end as a step to the
children. -/
structure IsTest (text : String) (test : NodeTest) (conditions : List Condition) : Prop where
  axis : readAxis text.toList = .ok (none, text.toList)
  steps : readSteps (fuelFor text.toList.length) text.toList =
    .ok ([.mk .child test conditions], [])

section Parsing

variable {a b : String} {absolute : Bool} {front : List Step} {test : NodeTest}
  {conditions : List Condition}

/-- A text that is read to its end as a path is read as the selector of that path. -/
theorem parse_of_readPath {text : String} {path : Path} {fuel : Nat}
    (hfuel : fuelFor text.toList.length = fuel + 1)
    (h : readPath fuel (skipBlank text.toList) = .ok (path, [])) :
    Selector.parse text = .ok ⟨text, [path]⟩ := by
  have hbranches : readBranches (fuel + 1) (skipBlank text.toList) = .ok [path] := by
    rw [readBranches, h]
    rfl
  have hread : readAll text.toList = .ok [path] := by
    unfold readAll
    split
    · next hnil =>
      rw [hnil] at h
      obtain ⟨fault, hfault⟩ := readPath_nil fuel
      rw [hfault] at h
      cases h
    · rw [hfuel, hbranches]
  unfold Selector.parse
  rw [hread]

/-- Steps that are read after a slash and what stands before it make a path. -/
theorem parse_front (ha : IsFront a absolute front) {fuel : Nat} {steps : List Step}
    (hfollows : FollowsSteps fuel b.toList steps) (hfuel : fuel ≤ 5 * b.toList.length) :
    Selector.parse (a ++ b) = .ok ⟨a ++ b, [.mk absolute (front ++ steps)]⟩ := by
  let total := 5 * (a.toList.length + b.toList.length) + 8
  have htotal : fuelFor (a ++ b).toList.length = total + 2 := by
    rw [String.toList_append, List.length_append, fuelFor]
  have hread : readPath (total + 1) (skipBlank (a ++ b).toList) =
      .ok (.mk absolute (front ++ steps), []) := by
    rw [String.toList_append, hfollows.endsPart.skipBlank]
    cases ha with
    | start h =>
      rw [h]
      exact hfollows.readPath (by omega)
    | path h hsteps => exact readPath_follows hfollows h hsteps (by omega)
  exact parse_of_readPath htotal hread

theorem parse_doubleSlash (ha : IsFront a absolute front) (hb : IsTest b test conditions) :
    Selector.parse (a ++ "//" ++ b) =
      .ok ⟨a ++ "//" ++ b, [.doubleSlash absolute front test conditions]⟩ := by
  have hfollows : FollowsSteps (fuelFor b.toList.length) ("//" ++ b).toList
      [.everywhere, .mk .child test conditions] := by
    rw [String.toList_append]
    exact .double fun fuel' hfuel => readSteps_mono hb.steps hfuel
  rw [String.append_assoc]
  refine parse_front ha hfollows ?_
  simp only [fuelFor, String.toList_append, List.length_append]
  exact (by omega : 5 * b.toList.length + 10 ≤ 5 * (2 + b.toList.length))

theorem parse_descendant (ha : IsFront a absolute front) (hb : IsTest b test conditions) :
    Selector.parse (a ++ "/descendant::" ++ b) =
      .ok ⟨a ++ "/descendant::" ++ b, [.descendant absolute front test conditions]⟩ := by
  have hfollows : FollowsSteps (fuelFor b.toList.length) ("/descendant::" ++ b).toList
      [.mk .descendant test conditions] := by
    have hd : startsStep 'd' = true := by simp [startsStep, isLetter_of_ascii]
    rw [String.toList_append]
    exact .slash hd fun fuel' hfuel =>
      readSteps_descendant hb.axis (readSteps_mono hb.steps hfuel)
  rw [String.append_assoc]
  refine parse_front ha hfollows ?_
  simp only [fuelFor, String.toList_append, List.length_append]
  exact (by omega : 5 * b.toList.length + 10 ≤ 5 * (13 + b.toList.length))

end Parsing

/-- A double slash means the descendants: after any steps, from any place of a document, and in the
scope of the document as in that of a unit, it selects with a test and conditions what the axis of
the descendants selects with them, unless a condition asks for a position. Texts are read as such
paths, whether the slashes stand at the start or after an absolute or a relative path. -/
theorem select_doubleSlash {conditions : List Condition}
    (hfree : ∀ c ∈ conditions, c.isPosition = false) (absolute : Bool) (front : List Step)
    (test : NodeTest) :
    (∀ (text text' : String) (document : Node) (context : Place), context.LiesIn document →
      let long : Selector := ⟨text, [.doubleSlash absolute front test conditions]⟩
      let short : Selector := ⟨text', [.descendant absolute front test conditions]⟩
      long.select document context = short.select document context ∧
        long.selectUnit document context = short.selectUnit document context) ∧
    ∀ a b, IsFront a absolute front → IsTest b test conditions →
      Selector.parse (a ++ "//" ++ b) =
        .ok ⟨a ++ "//" ++ b, [.doubleSlash absolute front test conditions]⟩ ∧
      Selector.parse (a ++ "/descendant::" ++ b) =
        .ok ⟨a ++ "/descendant::" ++ b, [.descendant absolute front test conditions]⟩ := by
  refine ⟨fun text text' document context hcontext => ⟨?_, ?_⟩, fun a b ha hb =>
    ⟨parse_doubleSlash ha hb, parse_descendant ha hb⟩⟩
  · exact (Scope.proper_ofDocument document).selectAll_descendant (within_ofDocument document)
      hcontext (Scope.covers_ofDocument document context) absolute front test hfree
  · exact (Scope.proper_ofUnit document context).selectAll_descendant (within_ofUnit hcontext)
      hcontext (Scope.covers_ofUnit document context) absolute front test hfree

/-- `..//a[../@k]`, from a group and in its scope. -/
theorem select_doubleSlash_nested :
    let group : Place := ⟨[0, 1], nestedGroup⟩
    let up : Step := .mk .parent .anyNode []
    let keyed : Condition := .present (.mk false [up, .mk .attributes (.name "k") []])
    let long : Selector := ⟨"..//a[../@k]",
      [.mk false [up, .everywhere, .mk .child (.name "a") [keyed]]]⟩
    let short : Selector := ⟨"../descendant::a[../@k]",
      [.mk false [up, .mk .descendant (.name "a") [keyed]]]⟩
    group.LiesIn nestedDocument ∧
      long.select nestedDocument group = short.select nestedDocument group ∧
      long.selectUnit nestedDocument group = short.selectUnit nestedDocument group ∧
      Selector.parse "..//a[../@k]" = .ok long ∧
      Selector.parse "../descendant::a[../@k]" = .ok short := by
  intro group up keyed long short
  have hfree : ∀ c ∈ [keyed], c.isPosition = false := by
    intro c hc
    obtain rfl := List.mem_singleton.1 hc
    rfl
  have hfront : IsFront ".." false [up] := .path rfl (List.cons_ne_nil _ _)
  have htest : IsTest "a[../@k]" (.name "a") [keyed] := ⟨by rfl, by cbv⟩
  obtain ⟨hselect, hparse⟩ := select_doubleSlash hfree false [up] (.name "a")
  obtain ⟨hdocument, hunit⟩ := hselect long.text short.text nestedDocument group rfl
  obtain ⟨hlong, hshort⟩ := hparse ".." "a[../@k]" hfront htest
  exact ⟨rfl, hdocument, hunit, hlong, hshort⟩

/-- The first elements of a name among the children of each place are more than the first one of all
below the root. -/
example :
    let first : List Condition := [.position 1]
    (Selector.select ⟨"//a[1]", [.doubleSlash true [] (.name "a") first]⟩ nestedDocument
        (.top nestedDocument)).length = 2 ∧
      (Selector.select ⟨"/descendant::a[1]", [.descendant true [] (.name "a") first]⟩ nestedDocument
        (.top nestedDocument)).length = 1 := by
  cbv

end DataQuality.Selector
