import DataQuality.Proofs.Selector.Descendants
import Mathlib

/-!
# Attributes at the end of a path

A path that has come to an attribute is at its end: every step goes on from nodes only. So neither
the step up to the owner of an attribute nor the step that stays there finds anything, although the
owners themselves are found by asking for the attribute in a condition. Going up again finds what
the condition finds only where there is no attribute to go up from.
-/
namespace DataQuality.Selector

open Markup

/-- The step to the attributes of a name, `@name`. -/
def Step.attribute (name : String) : Step := .mk .attributes (.name name) []

/-- The step to the node above, `..`. -/
def Step.up : Step := .mk .parent .anyNode []

/-- The step that stays where it is, `.`. -/
def Step.stay : Step := .mk .self .anyNode []

/-- The same step with the condition that there is an attribute of a name, `[@name]`. -/
def Step.bearing (name : String) : Step → Step
  | .mk axis test conditions =>
    .mk axis test (conditions ++ [.present (.mk false [.attribute name])])

/-- What paths find that have a step in common and go on from it to its attributes of a name. They
are given by their last steps. -/
structure StopsAtAttributes (found : List Step → List Item) (last : Step) (name : String) :
    Prop where
  /-- From the attributes no step leads up. -/
  up : found [last, .attribute name, .up] = []
  /-- No step stays at the attributes either. -/
  stay : found [last, .attribute name, .stay] = []
  /-- The condition leaves over the nodes whose attributes are found. -/
  bearing (x : Item) : x ∈ found [last.bearing name] ↔
    ∃ q slot a, x = .node q ∧ .attr q slot a ∈ found [last, .attribute name]
  /-- Going up again is the same as the condition only if there is no attribute. -/
  up_eq_iff : found [last, .attribute name, .up] = found [last.bearing name] ↔
    found [last, .attribute name] = []
  /-- Staying is the same as stopping only if there is no attribute. -/
  stay_eq_iff : found [last, .attribute name, .stay] = found [last, .attribute name] ↔
    found [last, .attribute name] = []

section Chains

variable {scope : Scope} {name : String}

/-- The axis of the attributes leads to attributes of the node it starts from. -/
theorem exists_of_chain_attribute {p : Place} {x : Item}
    (h : Chain scope [.attribute name] (.node p) x) : ∃ slot a, x = .attr p slot a := by
  cases h with
  | step hy hz =>
    cases hz
    obtain ⟨-, slot, a, -, -, rfl⟩ := Scope.mem_candidates_attributes.1 hy
    exact ⟨slot, a, rfl⟩

/-- A chain does not go on from an attribute. -/
theorem not_chain_after_attribute {last step : Step} {front : List Step} {x z : Item} :
    ¬ Chain scope (front ++ [last, .attribute name, step]) x z := by
  intro h
  have hsplit : front ++ [last, .attribute name, step] =
      (front ++ [last]) ++ ([.attribute name] ++ [step]) := by
    simp
  rw [hsplit] at h
  obtain ⟨y, -, hy⟩ := chain_append.1 h
  obtain ⟨w, hattribute, hw⟩ := chain_append.1 hy
  cases y with
  | attr owner slot a => cases hattribute
  | node p =>
    obtain ⟨slot, a, rfl⟩ := exists_of_chain_attribute hattribute
    cases hw

/-- Asking for an attribute leaves over the nodes from which a chain goes on to one. -/
theorem Scope.Within.chain_bearing {document : Node} (hs : scope.Within document) {last : Step}
    {x : Item} (hx : x.LiesIn document) {z : Item} :
    Chain scope [last.bearing name] x z ↔
      ∃ q slot a, z = .node q ∧ Chain scope [last, .attribute name] x (.attr q slot a) := by
  obtain ⟨axis, test, conditions⟩ := last
  cases x with
  | attr owner slot a =>
    refine iff_of_false (fun h => nomatch h) ?_
    rintro ⟨q, slot', a', -, h⟩
    cases h
  | node p =>
    have hlies {y : Item} (hy : y ∈ conditions.foldl
        (fun left condition => condition.filter scope left) (scope.candidates axis test p)) :
        y.LiesIn document := by
      rw [← filter_eq_foldl] at hy
      exact hs.liesIn_of_mem_candidates hx ((filter_sublist scope conditions _).subset hy)
    have hpresent {q : Place} (hq : q.LiesIn document) :
        (!(Path.select scope (.mk false [.attribute name]) q).isEmpty) = true ↔
          ∃ slot a, Chain scope [.attribute name] (.node q) (.attr q slot a) := by
      rw [Bool.not_eq_true', List.isEmpty_eq_false_iff_exists_mem]
      simp only [hs.mem_select_path hq]
      constructor
      · rintro ⟨y, hy⟩
        obtain ⟨slot, a, rfl⟩ := exists_of_chain_attribute hy
        exact ⟨slot, a, hy⟩
      · rintro ⟨slot, a, hy⟩
        exact ⟨_, hy⟩
    constructor
    · intro h
      cases h with
      | step hy hz =>
        cases hz
        rw [List.foldl_append, List.foldl_cons, List.foldl_nil, Condition.filter,
          List.mem_filter] at hy
        obtain ⟨hy, hkept⟩ := hy
        cases z with
        | attr owner slot a => cases hkept
        | node q =>
          obtain ⟨slot, a, hchain⟩ := (hpresent (hlies hy)).1 hkept
          exact ⟨q, slot, a, rfl, .step hy hchain⟩
    · rintro ⟨q, slot, a, rfl, h⟩
      cases h with
      | @step _ _ _ _ _ y _ hy hz =>
        -- the attribute belongs to the node that the step has come to
        have howner : y = .node q := by
          cases y with
          | attr owner slot' a' => cases hz
          | node m =>
            obtain ⟨slot', a', heq⟩ := exists_of_chain_attribute hz
            cases heq
            rfl
        subst howner
        refine .step ?_ (.done _)
        rw [List.foldl_append, List.foldl_cons, List.foldl_nil, Condition.filter, List.mem_filter]
        exact ⟨hy, (hpresent (hlies hy)).2 ⟨slot, a, hz⟩⟩

end Chains

/-- In any scope, paths stop at attributes. -/
theorem Scope.Within.stopsAtAttributes {document : Node} {scope : Scope}
    (hs : scope.Within document) {context : Place} (hcontext : context.LiesIn document)
    (absolute : Bool) (front : List Step) (last : Step) (name : String) :
    StopsAtAttributes (fun steps => selectAll scope [.mk absolute (front ++ steps)] context)
      last name := by
  have hmem (steps : List Step) (x : Item) :
      x ∈ selectAll scope [.mk absolute (front ++ steps)] context ↔
        Chain scope (front ++ steps) (.node (if absolute then scope.top else context)) x := by
    have hdenotes := hs.denotes_selectAll hcontext [.mk absolute (front ++ steps)]
    rw [hdenotes.mem_iff]
    simp only [List.mem_singleton, exists_eq_left, Path.Reaches]
  have hend (step : Step) :
      selectAll scope [.mk absolute (front ++ [last, .attribute name, step])] context = [] :=
    List.eq_nil_iff_forall_not_mem.2 fun x hx => not_chain_after_attribute ((hmem _ x).1 hx)
  have hattr {x : Item}
      (hx : x ∈ selectAll scope [.mk absolute (front ++ [last, .attribute name])] context) :
      ∃ q slot a, x = .attr q slot a := by
    rw [hmem, List.append_cons] at hx
    obtain ⟨y, -, hy⟩ := chain_append.1 hx
    cases y with
    | attr owner slot a => cases hy
    | node p => exact ⟨p, exists_of_chain_attribute hy⟩
  have hbearing (x : Item) :
      x ∈ selectAll scope [.mk absolute (front ++ [last.bearing name])] context ↔
        ∃ q slot a, x = .node q ∧
          .attr q slot a ∈ selectAll scope [.mk absolute (front ++ [last, .attribute name])]
            context := by
    simp only [hmem, chain_append]
    have hstart := hs.start hcontext absolute
    constructor
    · rintro ⟨y, hfront, hy⟩
      have hlies := hs.liesIn_of_chain (x := .node _) hstart hfront
      obtain ⟨q, slot, a, hx, hchain⟩ := (hs.chain_bearing hlies).1 hy
      exact ⟨q, slot, a, hx, y, hfront, hchain⟩
    · rintro ⟨q, slot, a, hx, y, hfront, hchain⟩
      have hlies := hs.liesIn_of_chain (x := .node _) hstart hfront
      exact ⟨y, hfront, (hs.chain_bearing hlies).2 ⟨q, slot, a, hx, hchain⟩⟩
  constructor
  case up => exact hend .up
  case stay => exact hend .stay
  case bearing => exact hbearing
  case stay_eq_iff => rw [hend, eq_comm]
  case up_eq_iff =>
    rw [hend, eq_comm, List.eq_nil_iff_forall_not_mem, List.eq_nil_iff_forall_not_mem]
    constructor
    · intro h x hx
      obtain ⟨q, slot, a, rfl⟩ := hattr hx
      exact h _ ((hbearing _).2 ⟨q, slot, a, rfl, hx⟩)
    · intro h x hx
      obtain ⟨q, slot, a, -, hx⟩ := (hbearing x).1 hx
      exact h _ hx

/-- Paths stop at attributes, after any steps, from any place of a document, and in the document as
in the scope of a unit. -/
theorem stopsAtAttributes_select_and_selectUnit (text : String) {document : Node} {context : Place}
    (hcontext : context.LiesIn document) (absolute : Bool) (front : List Step) (last : Step)
    (name : String) :
    StopsAtAttributes
        (fun steps => Selector.select ⟨text, [.mk absolute (front ++ steps)]⟩ document context)
        last name ∧
      StopsAtAttributes
        (fun steps => Selector.selectUnit ⟨text, [.mk absolute (front ++ steps)]⟩ document context)
        last name :=
  ⟨(within_ofDocument document).stopsAtAttributes hcontext absolute front last name,
    (within_ofUnit hcontext).stopsAtAttributes hcontext absolute front last name⟩

/-- `//r/@k` and what goes on from it, from a group and in its scope. -/
theorem stopsAtAttributes_select_and_selectUnit_nested :
    let group : Place := ⟨[0, 1], nestedGroup⟩
    let found (steps : List Step) : Selector := ⟨"", [.mk true ([.everywhere] ++ steps)]⟩
    let last : Step := .mk .child (.name "r") []
    group.LiesIn nestedDocument ∧
      StopsAtAttributes (fun steps => (found steps).select nestedDocument group) last "k" ∧
      StopsAtAttributes (fun steps => (found steps).selectUnit nestedDocument group) last "k" := by
  intro group found last
  have hgroup : group.LiesIn nestedDocument := rfl
  exact ⟨hgroup, stopsAtAttributes_select_and_selectUnit "" hgroup true [.everywhere] last "k"⟩

/-- The element with the attribute is found by the condition and not by going up from the attribute,
and the attribute is lost by staying there. -/
theorem not_up_from_attribute :
    let found (s : String) : Option (List String) :=
      (Selector.parse s).toOption.map (·.selectStrings nestedDocument (.top nestedDocument))
    found "//r[@k]" = some [""] ∧ found "//r/@k/.." = some [] ∧
      found "//r/@k" = some ["1"] ∧ found "//r/@k/." = some [] := by
  cbv

end DataQuality.Selector
