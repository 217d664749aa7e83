import DataQuality.Proofs.Selector.Denotation

/-!
# Descendants

A step to everything at and below a place and then one to the children leads where a single step to
the descendants does. In the scope of a unit the top stands in for a root, and this holds there too:
a path never leaves what is below the top, so below any other place it comes to, the top does not
occur again. Conditions leave items over one by one, unless they ask for a position.
-/
namespace DataQuality.Selector

open Markup

/-- The condition asks for a position among the items found. -/
def Condition.isPosition : Condition → Bool
  | .position _ => true
  | .present _ => false
  | .compares _ _ _ => false

/-- Conditions that ask for no position look at each item alone. -/
theorem exists_keep (scope : Scope) {conditions : List Condition}
    (hfree : ∀ c ∈ conditions, c.isPosition = false) :
    ∃ keep : Item → Bool, ∀ items,
      conditions.foldl (fun left condition => condition.filter scope left) items =
        items.filter keep := by
  induction conditions with
  | nil => exact ⟨fun _ => true, fun items => (List.filter_true items).symm⟩
  | cons condition rest ih =>
    obtain ⟨keep, hkeep⟩ := ih fun c hc => hfree c (List.mem_cons_of_mem _ hc)
    have hone : ∃ first : Item → Bool,
        ∀ items, condition.filter scope items = items.filter first := by
      cases condition with
      | position n => exact absurd (hfree _ List.mem_cons_self) (by simp [Condition.isPosition])
      | present path => exact ⟨_, fun items => by rw [Condition.filter]⟩
      | compares path equal literal => exact ⟨_, fun items => by rw [Condition.filter]⟩
    obtain ⟨first, hfirst⟩ := hone
    exact ⟨fun x => keep x && first x, fun items => by
      rw [List.foldl_cons, hfirst, hkeep, List.filter_filter]⟩

namespace Scope

/-- The top of a scope is the root of the document, or it stands right above the unit. -/
structure Proper (scope : Scope) : Prop where
  root : scope.unit = none → scope.top.location = []
  unit : ∀ u, scope.unit = some u → ∃ i, u.location = scope.top.location ++ [i]

theorem proper_ofDocument (document : Node) : (ofDocument document).Proper :=
  ⟨fun _ => rfl, fun _ h => nomatch h⟩

theorem proper_ofUnit (document : Node) (u : Place) : (ofUnit document u).Proper := by
  unfold ofUnit
  split
  · next above habove =>
    refine ⟨fun h => (nomatch h), fun v hv => ?_⟩
    obtain rfl : u = v := Option.some_inj.1 hv
    exact (Place.parent?_eq_some habove).2
  · exact proper_ofDocument document

/-- The top of the scope is at or above the place. -/
def Covers (scope : Scope) (p : Place) : Prop := scope.top.location <+: p.location

variable {scope : Scope} {p q : Place}

theorem Covers.below (hp : scope.Covers p) (hq : q ∈ p.descendantsOrSelf) : scope.Covers q := by
  obtain ⟨path, -, hlocation⟩ := Place.mem_below.1 hq
  exact hp.trans (hlocation ▸ List.prefix_append _ _)

theorem Covers.child (hp : scope.Covers p) (hq : q ∈ p.children) : scope.Covers q := by
  obtain ⟨i, -, hlocation⟩ := Place.mem_children.1 hq
  exact hp.trans (hlocation ▸ List.prefix_append _ _)

namespace Proper

variable (hscope : scope.Proper)
include hscope

theorem covers_unit {u : Place} (hu : scope.unit = some u) : scope.Covers u := by
  obtain ⟨i, hlocation⟩ := hscope.unit u hu
  exact ⟨[i], hlocation.symm⟩

/-- A path does not leave what is below the top. -/
theorem covers_of_mem_places (hp : scope.Covers p) {axis : Axis} (hq : q ∈ scope.places axis p) :
    scope.Covers q := by
  cases hbelow : scope.unitBelow? p with
  | some u =>
    have hunit := hscope.covers_unit (unit_of_unitBelow? hbelow)
    rw [places_of_some hbelow] at hq
    cases axis with
    | child => exact List.mem_singleton.1 hq ▸ hunit
    | descendant => exact hunit.below hq
    | descendantOrSelf =>
      rcases List.mem_cons.1 hq with rfl | hq
      · exact hp
      · exact hunit.below hq
    | attributes => cases hq
    | self => exact List.mem_singleton.1 hq ▸ hp
    | parent => cases hq
  | none =>
    rw [places_of_none hbelow] at hq
    cases axis with
    | child => exact hp.child hq
    | descendant => exact hp.below (List.mem_of_mem_tail hq)
    | descendantOrSelf => exact hp.below hq
    | attributes => cases hq
    | self => exact List.mem_singleton.1 hq ▸ hp
    | parent =>
      -- the top has no parent in the scope of a unit, and none at all otherwise
      obtain ⟨i, hlocation⟩ := (Place.parent?_eq_some (Option.mem_toList.1 hq)).2
      rcases List.prefix_concat_iff.1 (hlocation ▸ hp : scope.top.location <+: q.location ++ [i])
        with htop | hprefix
      · unfold unitBelow? at hbelow
        rw [if_pos (hlocation.trans htop.symm)] at hbelow
        rw [hscope.root hbelow] at htop
        simp at htop
      · exact hprefix

omit hscope in
/-- Below a place other than the top, the top does not occur. -/
theorem unitBelow?_of_below (hp : scope.Covers p) (hne : p.location ≠ scope.top.location)
    (hq : q ∈ p.descendantsOrSelf) : scope.unitBelow? q = none := by
  obtain ⟨path, -, hlocation⟩ := Place.mem_below.1 hq
  refine if_neg fun htop => ?_
  have hback : p.location <+: scope.top.location := htop ▸ hlocation ▸ List.prefix_append _ _
  exact hne (hback.eq_of_length_le hp.length_le)

/-- What is below the place of a path, as the scope sees it, are the children of everything at or
below it. -/
theorem mem_places_descendant (hp : scope.Covers p) :
    q ∈ scope.places .descendant p ↔
      ∃ m ∈ scope.places .descendantOrSelf p, q ∈ scope.places .child m := by
  cases hbelow : scope.unitBelow? p with
  | some u =>
    have hu := unit_of_unitBelow? hbelow
    have hne : u.location ≠ scope.top.location := by
      obtain ⟨i, hlocation⟩ := hscope.unit u hu
      rw [hlocation]
      simp
    simp only [places_of_some hbelow, List.mem_cons, exists_eq_or_imp, List.not_mem_nil, or_false]
    rw [Place.mem_descendantsOrSelf_iff, Place.mem_descendants]
    refine or_congr_right (exists_congr fun m => and_congr_right fun hm => ?_)
    rw [places_of_none (unitBelow?_of_below (hscope.covers_unit hu) hne hm)]
  | none =>
    have hinside {m : Place} (hm : m ∈ p.descendantsOrSelf) : scope.unitBelow? m = none := by
      by_cases htop : p.location = scope.top.location
      · unfold unitBelow? at hbelow ⊢
        rw [if_pos htop] at hbelow
        rw [hbelow, ite_self]
      · exact unitBelow?_of_below hp htop hm
    simp only [places_of_none hbelow]
    rw [Place.mem_descendants]
    refine exists_congr fun m => and_congr_right fun hm => ?_
    rw [places_of_none (hinside hm)]

end Proper

end Scope

/-- What a step without positions leads to from a place: what the axis leads to, as far as the test
admits it and the conditions keep it. -/
theorem chain_step {scope : Scope} {axis : Axis} (haxis : axis ≠ .attributes) {test : NodeTest}
    {conditions : List Condition} {keep : Item → Bool}
    (hkeep : ∀ items, conditions.foldl (fun left condition => condition.filter scope left) items =
      items.filter keep) {rest : List Step} {p : Place} {z : Item} :
    Chain scope (.mk axis test conditions :: rest) (.node p) z ↔
      ∃ q ∈ scope.places axis p, (test.admits q.node = true ∧ keep (.node q) = true) ∧
        Chain scope rest (.node q) z := by
  have hfound (y : Item) :
      y ∈ (scope.candidates axis test p).filter keep ↔
        ∃ q ∈ scope.places axis p, (test.admits q.node = true ∧ keep (.node q) = true) ∧
          .node q = y := by
    rw [Scope.candidates_of_ne haxis, List.mem_filter]
    unfold admitted
    simp only [List.mem_map, List.mem_filter]
    constructor
    · rintro ⟨⟨q, ⟨hq, hadmits⟩, rfl⟩, hkept⟩
      exact ⟨q, hq, ⟨hadmits, hkept⟩, rfl⟩
    · rintro ⟨q, hq, ⟨hadmits, hkept⟩, rfl⟩
      exact ⟨⟨q, ⟨hq, hadmits⟩, rfl⟩, hkept⟩
  constructor
  · intro h
    cases h with
    | step hy hz =>
      rw [hkeep] at hy
      obtain ⟨q, hq, hpasses, rfl⟩ := (hfound _).1 hy
      exact ⟨q, hq, hpasses, hz⟩
  · rintro ⟨q, hq, hpasses, hz⟩
    exact .step (hkeep _ ▸ (hfound _).2 ⟨q, hq, hpasses, rfl⟩) hz

section Chains

variable {scope : Scope} {test : NodeTest} {conditions : List Condition} {rest : List Step}

/-- From a place of a path, the two steps that a double slash makes lead where the step to the
descendants does. -/
theorem Scope.Proper.chain_descendant (hscope : scope.Proper)
    (hfree : ∀ c ∈ conditions, c.isPosition = false) {p : Place} (hp : scope.Covers p) {z : Item} :
    Chain scope (.everywhere :: .mk .child test conditions :: rest) (.node p) z ↔
      Chain scope (.mk .descendant test conditions :: rest) (.node p) z := by
  obtain ⟨keep, hkeep⟩ := exists_keep scope hfree
  have heverywhere : ∀ items, ([] : List Condition).foldl
      (fun left condition => condition.filter scope left) items = items.filter fun _ => true :=
    fun items => (List.filter_true items).symm
  rw [Step.everywhere, chain_step Axis.noConfusion heverywhere, chain_step Axis.noConfusion hkeep]
  simp only [hscope.mem_places_descendant hp]
  constructor
  · rintro ⟨m, hm, -, hchain⟩
    obtain ⟨q, hq, hz⟩ := (chain_step Axis.noConfusion hkeep).1 hchain
    exact ⟨q, ⟨m, hm, hq⟩, hz⟩
  · rintro ⟨q, ⟨m, hm, hq⟩, hz⟩
    exact ⟨m, hm, ⟨rfl, trivial⟩, (chain_step Axis.noConfusion hkeep).2 ⟨q, hq, hz⟩⟩

/-- Steps one after the other, part by part. -/
theorem chain_append {front : List Step} {x z : Item} :
    Chain scope (front ++ rest) x z ↔ ∃ y, Chain scope front x y ∧ Chain scope rest y z := by
  constructor
  · intro h
    induction front generalizing x with
    | nil => exact ⟨x, .done x, h⟩
    | cons step front ih =>
      cases h with
      | step hy hz =>
        obtain ⟨w, hfront, hrest⟩ := ih hz
        exact ⟨w, .step hy hfront, hrest⟩
  · rintro ⟨y, hfront, hrest⟩
    induction hfront with
    | done => exact hrest
    | step hy _ ih => exact .step hy (ih hrest)

/-- The nodes that an axis and a test find are places that the axis leads to. -/
theorem mem_places_of_mem_candidates {axis : Axis} {p q : Place}
    (h : .node q ∈ scope.candidates axis test p) : q ∈ scope.places axis p := by
  by_cases haxis : axis = .attributes
  · subst haxis
    obtain ⟨-, slot, a, -, -, hq⟩ := Scope.mem_candidates_attributes.1 h
    cases hq
  · rw [Scope.candidates_of_ne haxis] at h
    obtain ⟨m, hm, heq⟩ := List.mem_map.1 h
    cases heq
    exact List.mem_of_mem_filter hm

/-- A chain from a place of a path comes to places of a path only. -/
theorem Scope.Proper.covers_of_chain (hscope : scope.Proper) {steps : List Step} {p q : Place}
    (hp : scope.Covers p) (h : Chain scope steps (.node p) (.node q)) : scope.Covers q := by
  induction steps generalizing p with
  | nil =>
    cases h
    exact hp
  | cons step rest ih =>
    cases h with
    | @step _ _ _ _ _ y _ hy hz =>
      rw [← filter_eq_foldl] at hy
      cases y with
      | attr owner slot a => cases hz
      | node m =>
        have hm := mem_places_of_mem_candidates ((filter_sublist scope _ _).subset hy)
        exact ih (hscope.covers_of_mem_places hp hm) hz

/-- After any steps before them, the two steps lead where the one does. -/
theorem Scope.Proper.chain_append_descendant (hscope : scope.Proper)
    (hfree : ∀ c ∈ conditions, c.isPosition = false) (front : List Step) {p : Place}
    (hp : scope.Covers p) {z : Item} :
    Chain scope (front ++ [.everywhere, .mk .child test conditions]) (.node p) z ↔
      Chain scope (front ++ [.mk .descendant test conditions]) (.node p) z := by
  rw [chain_append, chain_append]
  refine exists_congr fun y => and_congr_right fun hy => ?_
  cases y with
  | node q => exact hscope.chain_descendant hfree (hscope.covers_of_chain hp hy)
  | attr owner slot a => exact iff_of_false (fun h => nomatch h) fun h => nomatch h

end Chains

/-- The path of these steps with a double slash, a test and conditions after them. -/
def Path.doubleSlash (absolute : Bool) (front : List Step) (test : NodeTest)
    (conditions : List Condition) : Path :=
  .mk absolute (front ++ [.everywhere, .mk .child test conditions])

/-- The path of these steps and one to the descendants, with a test and conditions. -/
def Path.descendant (absolute : Bool) (front : List Step) (test : NodeTest)
    (conditions : List Condition) : Path :=
  .mk absolute (front ++ [.mk .descendant test conditions])

/-- In any scope that the place is covered by, a double slash finds what a step to the descendants
finds. -/
theorem Scope.Proper.selectAll_descendant {document : Node} {scope : Scope} (hscope : scope.Proper)
    (hwithin : scope.Within document) {context : Place} (hcontext : context.LiesIn document)
    (hcovers : scope.Covers context) (absolute : Bool) (front : List Step) (test : NodeTest)
    {conditions : List Condition} (hfree : ∀ c ∈ conditions, c.isPosition = false) :
    selectAll scope [.doubleSlash absolute front test conditions] context =
      selectAll scope [.descendant absolute front test conditions] context := by
  have hstart : scope.Covers (if absolute then scope.top else context) := by
    cases absolute with
    | true => exact List.prefix_refl _
    | false => exact hcovers
  have hlies : ∀ x ∈ [Path.doubleSlash absolute front test conditions].flatMap
      (·.select scope context), x.LiesIn document := by
    intro x hx
    rw [List.flatMap_singleton] at hx
    exact hwithin.liesIn_of_mem_path hcontext hx
  refine inOrder_eq_of_mem_iff hlies fun x => ?_
  rw [List.flatMap_singleton, List.flatMap_singleton, hwithin.mem_select_path hcontext,
    hwithin.mem_select_path hcontext]
  exact hscope.chain_append_descendant hfree front hstart

theorem Scope.covers_ofDocument (document : Node) (p : Place) : (ofDocument document).Covers p :=
  List.nil_prefix

theorem Scope.covers_ofUnit (document : Node) (u : Place) : (ofUnit document u).Covers u := by
  unfold ofUnit
  split
  · next above habove =>
    obtain ⟨i, hlocation⟩ := (Place.parent?_eq_some habove).2
    exact ⟨[i], hlocation.symm⟩
  · exact covers_ofDocument document u

end DataQuality.Selector
