import DataQuality.Proofs.Selector.Twins
import DataQuality.RuleSet

/-!
# What rules see of a document

A rule sees of a document the unit, and of the rest the name and the string-value
of the parent of the unit. Nothing else decides the outcome, and both of these do.
-/
namespace DataQuality

open Markup Selector

variable {d d₁ d₂ : Node} {u u₁ u₂ a a₁ a₂ : Place}

theorem Truth.ofBool_injective {b c : Bool} (h : Truth.ofBool b = Truth.ofBool c) : b = c := by
  cases b <;> cases c <;> first | rfl | cases h

namespace Selector.LookAlike

/-- The string-values found in units that look the same are the same. -/
theorem found_strings (h : LookAlike d₁ d₂ u₁ u₂ a₁ a₂) (s : Selector) :
    (s.selectUnit d₁ u₁).map Item.stringValue = (s.selectUnit d₂ u₂).map Item.stringValue := by
  refine List.forall₂_eq_eq_eq ▸ ?_
  rw [List.forall₂_map_left_iff, List.forall₂_map_right_iff]
  exact (h.selectUnit s).imp fun _ _ hxy => h.stringValue hxy

theorem countPresent (h : LookAlike d₁ d₂ u₁ u₂ a₁ a₂) (s : RuleSelector) :
    Predicate.countPresent d₁ u₁ s = Predicate.countPresent d₂ u₂ s := by
  cases s with
  | error e => rfl
  | ok s =>
    have hcount : ∀ x y, ItemTwin u₁ u₂ a₁ a₂ x y → (!x.isBlank) = !y.isBlank :=
      fun x y hxy => by rw [h.isBlank hxy]
    exact congrArg Except.ok (countP_eq_of_forall₂ hcount (h.selectUnit s))

theorem findsAny (h : LookAlike d₁ d₂ u₁ u₂ a₁ a₂) (s : RuleSelector) :
    Predicate.findsAny d₁ u₁ s = Predicate.findsAny d₂ u₂ s := by
  unfold Predicate.findsAny
  rw [h.countPresent s]

/-- What is made of the string-values of what a selector finds is the same. -/
theorem found_bind {β : Type} (h : LookAlike d₁ d₂ u₁ u₂ a₁ a₂) (s : RuleSelector)
    (f : List String → Except EvalError β) :
    (Predicate.found d₁ u₁ s >>= fun items => f (items.map Item.stringValue)) =
      Predicate.found d₂ u₂ s >>= fun items => f (items.map Item.stringValue) := by
  cases s with
  | error e => rfl
  | ok s => exact congrArg f (h.found_strings s)

/-- Rules have the same outcome on units that look the same. -/
theorem evaluate (h : LookAlike d₁ d₂ u₁ u₂ a₁ a₂) (p : Predicate) :
    p.evaluate d₁ u₁ = p.evaluate d₂ u₂ := by
  cases p with
  | isPresent s => simp only [Predicate.evaluate, h.findsAny]
  | eitherPresent s t => simp only [Predicate.evaluate, h.findsAny]
  | exactlyOnePresent s t => simp only [Predicate.evaluate, h.findsAny]
  | presentTimes s times => simp only [Predicate.evaluate, h.countPresent]
  | presentMoreThan s times => simp only [Predicate.evaluate, h.countPresent]
  | longerThan s length =>
    have hfound (limit : Int) := h.found_bind s fun values =>
      pure (Truth.ofBool (values.any fun v => limit < (v.length : Int)))
    simp only [List.any_map] at hfound
    exact congrArg (Predicate.count length >>= ·) (funext hfound)
  | sumsTo s total =>
    simp only [Predicate.evaluate]
    cases Decimal.readTrimmed? total with
    | none => rfl
    | some expected =>
      exact h.found_bind s fun values => do
        let sum ← Predicate.sumFrom 0.0 values
        pure (Truth.ofBool (sum == expected))
  | isInteger s =>
    have hfound := h.found_bind s fun values =>
      pure (Truth.ofBool (!values.isEmpty && values.all Predicate.isWhole))
    simp only [List.isEmpty_map, List.all_map] at hfound
    exact hfound
  | isIsoDate s => rfl
  | isOther s kind => rfl

end Selector.LookAlike

section Parent

/-- The selector, written so, of the parent of a unit, if it passes a test and
conditions. -/
def parentSelector (text : String) (test : NodeTest) (conditions : List Condition) : Selector :=
  ⟨text, [.mk false [.mk .parent test conditions]]⟩

/-- The rule that the parent of the unit is an element of a name. -/
def parentNamed (wanted : String) : Predicate :=
  .isPresent (.ok (parentSelector ("parent::" ++ wanted) (.name wanted) []))

/-- The rule that the parent of the unit has a string-value. -/
def parentReads (content : String) : Predicate :=
  .isPresent (.ok (parentSelector ("parent::node()[.='" ++ content ++ "']") .anyNode
    [.compares (.mk false [.mk .self .anyNode []]) true (.text content)]))

theorem inOrder_nil : Selector.inOrder [] = [] := by
  unfold Selector.inOrder
  simp

theorem inOrder_singleton (x : Item) : Selector.inOrder [x] = [x] := by
  unfold Selector.inOrder
  rw [List.mergeSort_singleton, dropRepeated]

/-- Going up from a unit leads to its parent. -/
theorem candidates_parent (ha : u.parent? d = some a) (test : NodeTest) :
    (Scope.ofUnit d u).candidates .parent test u =
      if test.admits a.node then [.node a] else [] := by
  have hbelow : (Scope.ofUnit d u).unitBelow? u = none := by
    have hinside : (Scope.ofUnit d u).unitBelow? ⟨u.location ++ [], u.node⟩ = none :=
      unitBelow?_inside ha
    rwa [List.append_nil] at hinside
  have hplaces : (Scope.ofUnit d u).places .parent u = [a] := by
    unfold Scope.places
    rw [hbelow, ofUnit_eq ha, ha]
    rfl
  change admitted test ((Scope.ofUnit d u).places .parent u) = _
  rw [hplaces]
  by_cases h : test.admits a.node = true <;> simp [admitted, h]

/-- What is found of the parent of a unit. -/
theorem selectUnit_parentSelector (ha : u.parent? d = some a) (text : String) (test : NodeTest)
    (conditions : List Condition) :
    (parentSelector text test conditions).selectUnit d u =
      Selector.inOrder (Selector.inOrder (Conditions.filter (.ofUnit d u) conditions
        (if test.admits a.node then [.node a] else []))) := by
  unfold parentSelector Selector.selectUnit selectAll
  simp only [List.flatMap_cons, List.flatMap_nil, List.append_nil, Path.select, Steps.select,
    Step.select, Bool.false_eq_true, if_false, candidates_parent ha]

/-- From above a unit, the step to the node itself stays there. -/
theorem select_self (ha : u.parent? d = some a) :
    Path.select (.ofUnit d u) (.mk false [.mk .self .anyNode []]) a = [.node a] := by
  have hplaces : (Scope.ofUnit d u).places .self a = [a] := by
    unfold Scope.places
    rw [unitBelow?_above ha]
  have hself : (Scope.ofUnit d u).candidates .self .anyNode a = [.node a] := by
    change admitted .anyNode ((Scope.ofUnit d u).places .self a) = _
    rw [hplaces]
    rfl
  simp only [Path.select, Steps.select, Step.select, Conditions.filter, List.flatMap_cons,
    List.flatMap_nil, List.append_nil, Bool.false_eq_true, if_false, hself]
  exact inOrder_singleton _

/-- A rule about the presence of the parent holds if the parent passes. -/
theorem evaluate_isPresent_parent (hu : u.LiesIn d) (ha : u.parent? d = some a) (s : Selector)
    (b : Bool) (hs : s.selectUnit d u = if b then [.node a] else []) :
    Predicate.evaluate d u (.isPresent (.ok s)) = .ok (.ofBool b) := by
  have hblank : (Item.node a).isBlank = false :=
    LookAlike.isBlank_of_not_isText (not_isText_of_parent hu ha)
  have hcount : Predicate.countPresent d u (.ok s) = .ok (if b then 1 else 0) := by
    change Except.ok ((s.selectUnit d u).countP fun i => !i.isBlank) = _
    rw [hs]
    cases b <;> simp [hblank]
  simp only [Predicate.evaluate, Predicate.findsAny, hcount]
  cases b <;> rfl

theorem evaluate_parentNamed (hu : u.LiesIn d) (ha : u.parent? d = some a) (wanted : String) :
    (parentNamed wanted).evaluate d u = .ok (.ofBool (a.node.isNamed wanted)) := by
  refine evaluate_isPresent_parent hu ha _ _ ?_
  rw [selectUnit_parentSelector ha]
  simp only [Conditions.filter, NodeTest.admits]
  by_cases h : a.node.isNamed wanted = true <;> simp [h, inOrder_nil, inOrder_singleton]

theorem evaluate_parentReads (hu : u.LiesIn d) (ha : u.parent? d = some a) (content : String) :
    (parentReads content).evaluate d u = .ok (.ofBool (a.node.stringValue == content)) := by
  refine evaluate_isPresent_parent hu ha _ _ ?_
  rw [selectUnit_parentSelector ha]
  have hfilter : Conditions.filter (.ofUnit d u)
      [.compares (.mk false [.mk .self .anyNode []]) true (.text content)] [.node a] =
      if a.node.stringValue == content then [.node a] else [] := by
    simp only [Conditions.filter, Condition.filter, List.filter_cons, List.filter_nil,
      select_self ha, List.any_cons, List.any_nil, Literal.equals, Item.stringValue, Bool.or_false,
      beq_true]
  simp only [NodeTest.admits, if_true, hfilter]
  by_cases h : (a.node.stringValue == content) = true <;>
    simp only [h, if_true, Bool.false_eq_true, if_false, inOrder_nil, inOrder_singleton]

end Parent

/-- Rules cannot tell two units with the same node apart exactly if the parents have
the same element name, or both none, and the same string-value. -/
theorem evaluate_eq_iff_parents (hu₁ : u₁.LiesIn d₁) (ha₁ : u₁.parent? d₁ = some a₁)
    (hu₂ : u₂.LiesIn d₂) (ha₂ : u₂.parent? d₂ = some a₂) (hnode : u₁.node = u₂.node) :
    (∀ p : Predicate, p.evaluate d₁ u₁ = p.evaluate d₂ u₂) ↔
      a₁.node.elementName? = a₂.node.elementName? ∧
        a₁.node.stringValue = a₂.node.stringValue := by
  constructor
  · intro hall
    have hnamed (wanted : String) : a₁.node.isNamed wanted = a₂.node.isNamed wanted := by
      have h := hall (parentNamed wanted)
      rw [evaluate_parentNamed hu₁ ha₁, evaluate_parentNamed hu₂ ha₂] at h
      exact Truth.ofBool_injective (Except.ok.inj h)
    have hreads (content : String) :
        (a₁.node.stringValue == content) = (a₂.node.stringValue == content) := by
      have h := hall (parentReads content)
      rw [evaluate_parentReads hu₁ ha₁, evaluate_parentReads hu₂ ha₂] at h
      exact Truth.ofBool_injective (Except.ok.inj h)
    constructor
    · cases h₁ : a₁.node.elementName? with
      | some wanted =>
        have h := hnamed wanted
        simp only [Node.isNamed, h₁, beq_self_eq_true] at h
        exact (eq_of_beq h.symm).symm
      | none =>
        cases h₂ : a₂.node.elementName? with
        | none => rfl
        | some wanted =>
          have h := hnamed wanted
          simp only [Node.isNamed, h₁, h₂, beq_self_eq_true] at h
          cases h
    · have h := hreads a₂.node.stringValue
      rw [beq_self_eq_true] at h
      exact eq_of_beq h
  · rintro ⟨hname, htext⟩ p
    exact LookAlike.evaluate ⟨hnode, hu₁, hu₂, ha₁, ha₂, hname, htext⟩ p

def sampleUnit : Node := .element "a" [] [.text "x"]

/-- A group that holds nothing but the unit. -/
def sampleGroup : Node := .element "g" [] [sampleUnit]

def longerGroup : Node := .element "h" [] [.text "long text", sampleUnit]

def sampleDocument : Node := .root [.element "r" [] [sampleGroup, longerGroup]]

/-- The two units of the document. -/
theorem evaluate_eq_iff_parents_sample :
    (∀ p : Predicate, p.evaluate sampleDocument ⟨[0, 0, 0], sampleUnit⟩ =
        p.evaluate sampleDocument ⟨[0, 1, 1], sampleUnit⟩) ↔
      sampleGroup.elementName? = longerGroup.elementName? ∧
        sampleGroup.stringValue = longerGroup.stringValue := by
  have ha₁ : Place.parent? sampleDocument ⟨[0, 0, 0], sampleUnit⟩ = some ⟨[0, 0], sampleGroup⟩ := rfl
  have ha₂ : Place.parent? sampleDocument ⟨[0, 1, 1], sampleUnit⟩ = some ⟨[0, 1], longerGroup⟩ := rfl
  have hu₁ : Place.LiesIn sampleDocument ⟨[0, 0, 0], sampleUnit⟩ := rfl
  have hu₂ : Place.LiesIn sampleDocument ⟨[0, 1, 1], sampleUnit⟩ := rfl
  exact evaluate_eq_iff_parents hu₁ ha₁ hu₂ ha₂ rfl

/-- How a rule on the length of what the parent reads is evaluated. -/
theorem evaluate_longerThan_parent (ha : u.parent? d = some a) (text length : String) (limit : Int)
    (hlimit : Predicate.count length = .ok limit) :
    Predicate.evaluate d u (.longerThan (.ok (parentSelector text .anyNode [])) length) =
      .ok (.ofBool (limit < (a.node.stringValue.length : Int))) := by
  have hfound : (parentSelector text .anyNode []).selectUnit d u = [.node a] := by
    rw [selectUnit_parentSelector ha]
    simp only [NodeTest.admits, if_true, Conditions.filter, inOrder_singleton]
  simp only [Predicate.evaluate, hlimit, Predicate.found, hfound]
  simp only [bind, Except.bind, pure, Except.pure, List.any_cons, List.any_nil, Bool.or_false,
    Item.stringValue]
  rfl

/-- Units with the same node can be told apart by a rule that looks at the text around
them. -/
theorem not_evaluate_eq_of_same_node :
    ¬ ∀ (sentence : String) (p : Predicate) (d₁ d₂ : Node) (u₁ u₂ : Place),
      RuleSet.compileSentence ⟨1⟩ sentence = .ok p → u₁.LiesIn d₁ → u₂.LiesIn d₂ →
        u₁.node.isElement → u₁.node = u₂.node → p.evaluate d₁ u₁ = p.evaluate d₂ u₂ := by
  intro hall
  have h := hall ".. has more than 3 characters?" _ sampleDocument sampleDocument
    ⟨[0, 0, 0], sampleUnit⟩ ⟨[0, 1, 1], sampleUnit⟩ rfl rfl rfl rfl rfl
  have ha₁ : Place.parent? sampleDocument ⟨[0, 0, 0], sampleUnit⟩ = some ⟨[0, 0], sampleGroup⟩ := rfl
  have ha₂ : Place.parent? sampleDocument ⟨[0, 1, 1], sampleUnit⟩ = some ⟨[0, 1], longerGroup⟩ := rfl
  have h₁ := evaluate_longerThan_parent ha₁ ".." "3" 3 rfl
  have h₂ := evaluate_longerThan_parent ha₂ ".." "3" 3 rfl
  have hsame := h₁.symm.trans (h.trans h₂)
  exact absurd hsame (by decide)

end DataQuality
