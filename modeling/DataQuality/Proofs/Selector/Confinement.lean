import DataQuality.Proofs.Selector.Descendants

/-!
# Confinement to a unit

In the scope of a unit, whatever a selector comes to belongs to the unit as a document of its own:
it is the unit, something below it, an attribute of these, or the node above the unit, which stands
in for a root. This is so for what is selected, and for all that is looked at on the way, between the
steps and inside conditions. The result and what is come to are produced together: the evaluation
is repeated with a record of all that the axes lead to, and gives the same result. A set of items
that contains the top and is closed under the axes contains all that is recorded, so it remains to
follow the axes.
-/
namespace DataQuality

namespace Markup.Place

variable {document : Node} {p q r : Place}

theorem eq_top_of_parent?_eq_none (hp : p.LiesIn document) (h : p.parent? document = none) :
    p = top document := by
  obtain ⟨location, n⟩ := p
  rcases List.eq_nil_or_concat' location with rfl | ⟨way, i, rfl⟩
  · obtain rfl : document = n := Option.some_inj.1 hp
    rfl
  · have hat : document.at? (way ++ [i]) = some n := hp
    obtain ⟨m, hm, -⟩ := Option.bind_eq_some_iff.1 ((at?_append document way [i]).symm.trans hat)
    rw [parent?_concat, hm] at h
    cases h

theorem descendantsOrSelf_trans (hq : q ∈ p.descendantsOrSelf) (hr : r ∈ q.descendantsOrSelf) :
    r ∈ p.descendantsOrSelf := by
  obtain ⟨way, hway, hqlocation⟩ := mem_below.1 hq
  obtain ⟨path, hpath, hrlocation⟩ := mem_below.1 hr
  refine mem_below.2 ⟨way ++ path, ?_, ?_⟩
  · rw [at?_append, hway, Option.bind_some, hpath]
  · rw [hrlocation, hqlocation, List.append_assoc]

/-- Of what is at and below a place, only the place itself does not stand deeper. -/
theorem eq_of_mem_descendantsOrSelf (hq : q ∈ p.descendantsOrSelf)
    (hlength : q.location.length ≤ p.location.length) : q = p := by
  rcases mem_descendantsOrSelf_iff.1 hq with heq | hbelow
  · exact heq
  · obtain ⟨path, hne, -, hlocation⟩ := mem_descendants_iff.1 hbelow
    rw [hlocation, List.length_append] at hlength
    exact absurd (List.length_eq_zero_iff.1 (by omega)) hne

/-- What is above something at or below a place is at or below the place, or above it. -/
theorem parent?_of_mem_descendantsOrSelf (hp : p.LiesIn document) (hq : q ∈ p.descendantsOrSelf)
    (hr : q.parent? document = some r) : p.parent? document = some r ∨ r ∈ p.descendantsOrSelf := by
  obtain ⟨path, -, hlocation⟩ := mem_below.1 hq
  rcases List.eq_nil_or_concat' path with rfl | ⟨way, i, rfl⟩
  · rw [List.append_nil] at hlocation
    rw [eq_of_mem_descendantsOrSelf hq (by rw [hlocation])] at hr
    exact .inl hr
  · obtain ⟨location, n⟩ := q
    obtain rfl : location = p.location ++ (way ++ [i]) := hlocation
    rw [← List.append_assoc, parent?_concat, at?_append, hp, Option.bind_some] at hr
    obtain ⟨m, hm, rfl⟩ := Option.map_eq_some_iff.1 hr
    exact .inr (mem_below.2 ⟨way, hm, rfl⟩)

end Markup.Place

namespace Selector

open Markup

/-- A result, and the items that were come to on the way, in the order of the evaluation. -/
structure Traced (α : Type) where
  result : α
  reached : List Item

namespace Traced

variable {α β : Type}

instance : Monad Traced where
  pure a := ⟨a, []⟩
  bind m f := ⟨(f m.result).result, m.reached ++ (f m.result).reached⟩

/-- Comes to some items, and goes on with them. -/
def arrive (items : List Item) : Traced (List Item) := ⟨items, items⟩

/-- What is found from each of some inputs, one after the other. -/
def flatMap (find : α → Traced (List β)) : List α → Traced (List β)
  | [] => pure []
  | x :: rest => do
    let found ← find x
    let more ← flatMap find rest
    pure (found ++ more)

/-- The inputs that pass a test. -/
def filter (test : α → Traced Bool) : List α → Traced (List α)
  | [] => pure []
  | x :: rest => do
    let passes ← test x
    let more ← filter test rest
    pure (if passes then x :: more else more)

/-- Asks something of the node that an item is; there is one answer for all attributes. -/
def atNode (ask : Place → Traced α) (otherwise : α) : Item → Traced α
  | .node p => ask p
  | .attr _ _ _ => pure otherwise

@[simp] theorem result_pure (a : α) : (pure a : Traced α).result = a := rfl

@[simp] theorem reached_pure (a : α) : (pure a : Traced α).reached = [] := rfl

@[simp] theorem result_bind (m : Traced α) (f : α → Traced β) :
    (m >>= f).result = (f m.result).result := rfl

@[simp] theorem reached_bind (m : Traced α) (f : α → Traced β) :
    (m >>= f).reached = m.reached ++ (f m.result).reached := rfl

@[simp] theorem result_flatMap (find : α → Traced (List β)) (xs : List α) :
    (flatMap find xs).result = xs.flatMap fun x => (find x).result := by
  induction xs with
  | nil => rfl
  | cons x rest ih => simp [flatMap, ih]

theorem mem_reached_flatMap {find : α → Traced (List β)} {xs : List α} {y : Item} :
    y ∈ (flatMap find xs).reached ↔ ∃ x ∈ xs, y ∈ (find x).reached := by
  induction xs with
  | nil => simp [flatMap]
  | cons x rest ih => simp [flatMap, ih]

@[simp] theorem result_filter (test : α → Traced Bool) (xs : List α) :
    (filter test xs).result = xs.filter fun x => (test x).result := by
  induction xs with
  | nil => rfl
  | cons x rest ih => simp [filter, ih, List.filter_cons]

theorem mem_reached_filter {test : α → Traced Bool} {xs : List α} {y : Item} :
    y ∈ (filter test xs).reached ↔ ∃ x ∈ xs, y ∈ (test x).reached := by
  induction xs with
  | nil => simp [filter]
  | cons x rest ih => simp [filter, ih]

/-- What is found from the nodes among some items. -/
def fromNodes (find : Place → Traced (List Item)) (items : List Item) : Traced (List Item) :=
  flatMap (atNode find []) items

/-- The nodes among some items that pass a test. -/
def filterNodes (test : Place → Traced Bool) (items : List Item) : Traced (List Item) :=
  filter (atNode test false) items

theorem mem_reached_atNode {ask : Place → Traced α} {otherwise : α} {x y : Item} :
    y ∈ (atNode ask otherwise x).reached ↔ ∃ p, x = .node p ∧ y ∈ (ask p).reached := by
  cases x <;> simp [atNode]

theorem result_fromNodes (find : Place → Traced (List Item)) (items : List Item) :
    (fromNodes find items).result = Selector.fromNodes (fun p => (find p).result) items := by
  unfold fromNodes Selector.fromNodes
  rw [result_flatMap]
  refine congrArg (items.flatMap ·) (funext fun x => ?_)
  cases x <;> rfl

theorem mem_reached_fromNodes {find : Place → Traced (List Item)} {items : List Item} {y : Item} :
    y ∈ (fromNodes find items).reached ↔ ∃ p, .node p ∈ items ∧ y ∈ (find p).reached := by
  simp [fromNodes, mem_reached_flatMap, mem_reached_atNode]

theorem mem_reached_filterNodes {test : Place → Traced Bool} {items : List Item} {y : Item} :
    y ∈ (filterNodes test items).reached ↔ ∃ p, .node p ∈ items ∧ y ∈ (test p).reached := by
  simp [filterNodes, mem_reached_filter, mem_reached_atNode]

end Traced

mutual

def Path.trace (scope : Scope) : Path → Place → Traced (List Item)
  | .mk absolute steps, p => do
    let start ← Traced.arrive [.node (if absolute then scope.top else p)]
    Steps.trace scope steps start

/-- Evaluates some steps from these items, one step after the other. -/
def Steps.trace (scope : Scope) : List Step → List Item → Traced (List Item)
  | [], items => pure items
  | step :: rest, items => do
    let found ← Traced.fromNodes (fun p => Step.trace scope step p) items
    Steps.trace scope rest (inOrder found)

def Step.trace (scope : Scope) : Step → Place → Traced (List Item)
  | .mk axis test conditions, p => do
    let found ← Traced.arrive (scope.candidates axis test p)
    Conditions.trace scope conditions found

/-- Asks each condition in turn of some items. -/
def Conditions.trace (scope : Scope) : List Condition → List Item → Traced (List Item)
  | [], items => pure items
  | condition :: rest, items => do
    let left ← Condition.trace scope condition items
    Conditions.trace scope rest left

def Condition.trace (scope : Scope) : Condition → List Item → Traced (List Item)
  | .position n, items => pure ((items.drop (n - 1)).take 1)
  | .present path, items =>
    let passes (p : Place) : Traced Bool := do
      let found ← Path.trace scope path p
      pure !found.isEmpty
    Traced.filterNodes passes items
  | .compares path equal literal, items =>
    let passes (p : Place) : Traced Bool := do
      let found ← Path.trace scope path p
      pure (found.any fun x => literal.equals x.stringValue == equal)
    Traced.filterNodes passes items

end

/-- Evaluates a selector in the scope of a unit. -/
def traceUnit (s : Selector) (document : Node) (unit : Place) : Traced (List Item) := do
  let found ← Traced.flatMap (fun path => path.trace (Scope.ofUnit document unit) unit) s.branches
  pure (inOrder found)

section Result

variable (scope : Scope)

mutual

/-- A path finds the same whether what it comes to is recorded or not. -/
theorem Path.result_trace (path : Path) (p : Place) :
    (path.trace scope p).result = path.select scope p := by
  match path with
  | .mk absolute steps =>
    rw [Path.trace, Path.select]
    exact Steps.result_trace steps _

theorem Steps.result_trace (steps : List Step) (items : List Item) :
    (Steps.trace scope steps items).result = Steps.select scope steps items := by
  match steps with
  | [] =>
    rw [Steps.trace, Steps.select]
    rfl
  | step :: rest =>
    rw [Steps.trace, select_steps_cons, Traced.result_bind, Steps.result_trace rest,
      Traced.result_fromNodes]
    simp only [Step.result_trace step]

theorem Step.result_trace (step : Step) (p : Place) :
    (step.trace scope p).result = step.select scope p := by
  match step with
  | .mk axis test conditions =>
    rw [Step.trace, Step.select]
    exact Conditions.result_trace conditions _

theorem Conditions.result_trace (conditions : List Condition) (items : List Item) :
    (Conditions.trace scope conditions items).result =
      Conditions.filter scope conditions items := by
  match conditions with
  | [] =>
    rw [Conditions.trace, Conditions.filter]
    rfl
  | condition :: rest =>
    rw [Conditions.trace, Conditions.filter, Traced.result_bind, Conditions.result_trace rest,
      Condition.result_trace condition]

theorem Condition.result_trace (condition : Condition) (items : List Item) :
    (condition.trace scope items).result = condition.filter scope items := by
  match condition with
  | .position n =>
    rw [Condition.trace, Condition.filter]
    rfl
  | .present path =>
    rw [Condition.trace, Condition.filter, Traced.filterNodes, Traced.result_filter]
    refine List.filter_congr fun item _ => ?_
    cases item with
    | node p => exact congrArg (!·.isEmpty) (Path.result_trace path p)
    | attr => rfl
  | .compares path equal literal =>
    rw [Condition.trace, Condition.filter, Traced.filterNodes, Traced.result_filter]
    refine List.filter_congr fun item _ => ?_
    cases item with
    | node p => exact congrArg (List.any · _) (Path.result_trace path p)
    | attr => rfl

end

end Result

/-- A selector finds the same in the scope of a unit whether what it comes to is recorded or not. -/
theorem result_traceUnit (s : Selector) (document : Node) (unit : Place) :
    (s.traceUnit document unit).result = s.selectUnit document unit := by
  unfold traceUnit selectUnit selectAll
  rw [Traced.result_bind, Traced.result_pure, Traced.result_flatMap]
  simp only [Path.result_trace]

section Reached

variable {scope : Scope} {items : List Item} {x : Item}

theorem mem_reached_of_mem_select_step {step : Step} {p : Place} (h : x ∈ step.select scope p) :
    x ∈ (step.trace scope p).reached := by
  obtain ⟨axis, test, conditions⟩ := step
  rw [Step.select] at h
  rw [Step.trace, Traced.reached_bind]
  exact List.mem_append_left _ ((filter_sublist scope conditions _).subset h)

theorem result_fromNodes_trace (scope : Scope) (step : Step) (items : List Item) :
    (Traced.fromNodes (step.trace scope) items).result = fromNodes (step.select scope) items := by
  rw [Traced.result_fromNodes]
  simp only [Step.result_trace]

/-- What steps find is among the items that they start from, or is come to. -/
theorem mem_reached_of_mem_select_steps {steps : List Step} (h : x ∈ Steps.select scope steps items) :
    x ∈ items ∨ x ∈ (Steps.trace scope steps items).reached := by
  induction steps generalizing items with
  | nil =>
    rw [Steps.select] at h
    exact .inl h
  | cons step rest ih =>
    rw [select_steps_cons] at h
    rw [Steps.trace, Traced.reached_bind, result_fromNodes_trace, List.mem_append]
    refine .inr ((ih h).imp_left fun hx => ?_)
    obtain ⟨p, hp, hx⟩ := mem_fromNodes.1 (mem_of_mem_inOrder hx)
    exact Traced.mem_reached_fromNodes.2 ⟨p, hp, mem_reached_of_mem_select_step hx⟩

theorem mem_reached_of_mem_select_path {path : Path} {p : Place} (h : x ∈ path.select scope p) :
    x ∈ (path.trace scope p).reached := by
  obtain ⟨absolute, steps⟩ := path
  rw [Path.select] at h
  rw [Path.trace, Traced.reached_bind, List.mem_append]
  exact mem_reached_of_mem_select_steps h

theorem mem_reached_traceUnit {s : Selector} {document : Node} {unit : Place} :
    x ∈ (s.traceUnit document unit).reached ↔
      ∃ path ∈ s.branches, x ∈ (path.trace (Scope.ofUnit document unit) unit).reached := by
  simp [traceUnit, Traced.mem_reached_flatMap]

/-- What is selected is come to. -/
theorem selectUnit_subset_reached (s : Selector) (document : Node) (unit : Place) :
    s.selectUnit document unit ⊆ (s.traceUnit document unit).reached := by
  intro x hx
  obtain ⟨path, hpath, hx⟩ := List.mem_flatMap.1 (mem_of_mem_inOrder hx)
  exact mem_reached_traceUnit.2 ⟨path, hpath, mem_reached_of_mem_select_path hx⟩

end Reached

/-- A set of items contains the top of the scope and is closed under the axes. -/
structure Scope.Keeps (scope : Scope) (kept : Item → Prop) : Prop where
  top : kept (.node scope.top)
  step {p : Place} (hp : kept (.node p)) {axis : Axis} {test : NodeTest} {x : Item}
    (hx : x ∈ scope.candidates axis test p) : kept x

section Closed

variable {scope : Scope} {kept : Item → Prop} {items : List Item}

/-- What steps go on with is in the set. -/
theorem Scope.Keeps.mem_fromNodes (h : scope.Keeps kept) (step : Step)
    (hitems : ∀ x ∈ items, kept x) : ∀ x ∈ fromNodes (step.select scope) items, kept x := by
  intro x hx
  obtain ⟨p, hp, hx⟩ := Selector.mem_fromNodes.1 hx
  obtain ⟨axis, test, conditions⟩ := step
  rw [Step.select] at hx
  exact h.step (hitems _ hp) ((filter_sublist scope conditions _).subset hx)

mutual

/-- All that a path comes to from a place of the set is in the set. -/
theorem Scope.Keeps.reached_path (h : scope.Keeps kept) (path : Path) {p : Place}
    (hp : kept (.node p)) : ∀ x ∈ (path.trace scope p).reached, kept x := by
  match path with
  | .mk absolute steps =>
    have hstart : ∀ x ∈ [Item.node (if absolute then scope.top else p)], kept x := by
      intro x hx
      obtain rfl := List.mem_singleton.1 hx
      cases absolute with
      | true => exact h.top
      | false => exact hp
    rw [Path.trace, Traced.reached_bind, List.forall_mem_append]
    exact ⟨hstart, h.reached_steps steps hstart⟩

theorem Scope.Keeps.reached_steps (h : scope.Keeps kept) (steps : List Step) {items : List Item}
    (hitems : ∀ x ∈ items, kept x) : ∀ x ∈ (Steps.trace scope steps items).reached, kept x := by
  match steps with
  | [] =>
    rw [Steps.trace]
    exact List.forall_mem_nil _
  | step :: rest =>
    rw [Steps.trace, Traced.reached_bind, result_fromNodes_trace, List.forall_mem_append]
    constructor
    · intro x hx
      obtain ⟨p, hp, hx⟩ := Traced.mem_reached_fromNodes.1 hx
      exact h.reached_step step (hitems _ hp) x hx
    · have hfound := h.mem_fromNodes step hitems
      exact h.reached_steps rest fun x hx => hfound x (mem_of_mem_inOrder hx)

theorem Scope.Keeps.reached_step (h : scope.Keeps kept) (step : Step) {p : Place}
    (hp : kept (.node p)) : ∀ x ∈ (step.trace scope p).reached, kept x := by
  match step with
  | .mk axis test conditions =>
    have hfound : ∀ x ∈ scope.candidates axis test p, kept x := fun x hx => h.step hp hx
    rw [Step.trace, Traced.reached_bind, List.forall_mem_append]
    exact ⟨hfound, h.reached_conditions conditions hfound⟩

theorem Scope.Keeps.reached_conditions (h : scope.Keeps kept) (conditions : List Condition)
    {items : List Item} (hitems : ∀ x ∈ items, kept x) :
    ∀ x ∈ (Conditions.trace scope conditions items).reached, kept x := by
  match conditions with
  | [] =>
    rw [Conditions.trace]
    exact List.forall_mem_nil _
  | condition :: rest =>
    rw [Conditions.trace, Traced.reached_bind, Condition.result_trace, List.forall_mem_append]
    refine ⟨h.reached_condition condition hitems, h.reached_conditions rest fun x hx => hitems x ?_⟩
    exact (sublist_filter scope condition items).subset hx

theorem Scope.Keeps.reached_condition (h : scope.Keeps kept) (condition : Condition)
    {items : List Item} (hitems : ∀ x ∈ items, kept x) :
    ∀ x ∈ (condition.trace scope items).reached, kept x := by
  match condition with
  | .position n =>
    rw [Condition.trace]
    exact List.forall_mem_nil _
  | .present path =>
    rw [Condition.trace]
    intro x hx
    obtain ⟨p, hp, hx⟩ := Traced.mem_reached_filterNodes.1 hx
    rw [Traced.reached_bind, Traced.reached_pure, List.append_nil] at hx
    exact h.reached_path path (hitems _ hp) x hx
  | .compares path equal literal =>
    rw [Condition.trace]
    intro x hx
    obtain ⟨p, hp, hx⟩ := Traced.mem_reached_filterNodes.1 hx
    rw [Traced.reached_bind, Traced.reached_pure, List.append_nil] at hx
    exact h.reached_path path (hitems _ hp) x hx

end

end Closed

/-- The item belongs to the unit as a document of its own: it is the node above, which stands in for
a root, the unit or something below it, or an attribute of the unit or of something below it. -/
def Item.Confined (document : Node) (unit : Place) : Item → Prop
  | .node p => unit.parent? document = some p ∨ p ∈ unit.descendantsOrSelf
  | .attr owner slot a =>
    owner ∈ unit.descendantsOrSelf ∧ owner.node.attributes[slot]? = some a

section Unit

variable {document : Node} {unit above : Place}

/-- In the scope of a unit the axes stay inside. -/
theorem confined_of_mem_places (hunit : unit.LiesIn document)
    (habove : unit.parent? document = some above) {p : Place}
    (hp : Item.Confined document unit (.node p)) {axis : Axis} {q : Place}
    (hq : q ∈ (Scope.ofUnit document unit).places axis p) :
    Item.Confined document unit (.node q) := by
  have hself : unit ∈ unit.descendantsOrSelf := Place.mem_descendantsOrSelf_iff.2 (.inl rfl)
  rcases hp with hp | hp
  · -- the node above has nothing but the unit below it
    obtain rfl : above = p := Option.some_inj.1 (habove.symm.trans hp)
    rw [Scope.places_of_some (unitBelow?_above habove)] at hq
    cases axis with
    | child => exact .inr (List.mem_singleton.1 hq ▸ hself)
    | descendant => exact .inr hq
    | descendantOrSelf =>
      rcases List.mem_cons.1 hq with rfl | hq
      · exact .inl hp
      · exact .inr hq
    | attributes => cases hq
    | self => exact .inl (List.mem_singleton.1 hq ▸ hp)
    | parent => cases hq
  · have hnone : (Scope.ofUnit document unit).unitBelow? p = none := by
      obtain ⟨path, -, hlocation⟩ := Place.mem_below.1 hp
      have hinside :
          (Scope.ofUnit document unit).unitBelow? ⟨unit.location ++ path, p.node⟩ = none :=
        unitBelow?_inside habove
      rwa [← hlocation] at hinside
    have hroot : (Scope.ofUnit document unit).document = document := by rw [ofUnit_eq habove]
    rw [Scope.places_of_none hnone, hroot] at hq
    cases axis with
    | child =>
      have hbelow := Place.mem_descendantsOrSelf_iff.2 (.inr (Place.mem_descendants.2 ⟨p, hp, hq⟩))
      exact .inr hbelow
    | descendant => exact .inr (Place.descendantsOrSelf_trans hp (List.mem_of_mem_tail hq))
    | descendantOrSelf => exact .inr (Place.descendantsOrSelf_trans hp hq)
    | attributes => cases hq
    | self => exact .inr (List.mem_singleton.1 hq ▸ hp)
    | parent => exact Place.parent?_of_mem_descendantsOrSelf hunit hp (Option.mem_toList.1 hq)

/-- What belongs to a unit is closed under the axes in its scope. -/
theorem keeps_confined (hunit : unit.LiesIn document) :
    (Scope.ofUnit document unit).Keeps (Item.Confined document unit) := by
  cases habove : unit.parent? document with
  | none =>
    -- a root is a document of its own, to which everything belongs
    obtain rfl := Place.eq_top_of_parent?_eq_none hunit habove
    have hscope : Scope.ofUnit document (.top document) = .ofDocument document := by
      unfold Scope.ofUnit
      rw [habove]
    have hiff (x : Item) : x.Confined document (.top document) ↔ x.LiesIn document := by
      cases x with
      | node p =>
        refine Iff.trans (or_iff_right ?_) Place.mem_descendantsOrSelf_top
        rw [habove]
        exact fun h => nomatch h
      | attr owner slot a => exact and_congr_left' Place.mem_descendantsOrSelf_top
    rw [hscope]
    have hwithin := within_ofDocument document
    constructor
    case top => exact (hiff _).2 hwithin.top
    case step =>
      intro p hp axis test x hx
      exact (hiff x).2 (hwithin.liesIn_of_mem_candidates ((hiff _).1 hp) hx)
  | some above =>
    constructor
    case top =>
      rw [ofUnit_eq habove]
      exact .inl habove
    case step =>
      intro p hp axis test x hx
      by_cases haxis : axis = .attributes
      · subst haxis
        obtain ⟨hnone, slot, a, ha, -, rfl⟩ := Scope.mem_candidates_attributes.1 hx
        rcases hp with hp | hp
        · obtain rfl : above = p := Option.some_inj.1 (habove.symm.trans hp)
          rw [unitBelow?_above habove] at hnone
          cases hnone
        · exact ⟨hp, ha⟩
      · rw [Scope.candidates_of_ne haxis] at hx
        obtain ⟨q, hq, rfl⟩ := List.mem_map.1 hx
        exact confined_of_mem_places hunit habove hp (List.mem_of_mem_filter hq)

end Unit

/-- Some items stay inside a unit. -/
structure StaysInside (document : Node) (unit : Place) (items : List Item) : Prop where
  /-- They belong to the unit as a document of its own. -/
  confined : ∀ x ∈ items, x.Confined document unit
  /-- None is a sibling of the unit. -/
  siblings : ∀ above, unit.parent? document = some above → ∀ q ∈ above.children,
    .node q ∈ items → q = unit
  /-- None is an ancestor of the unit, but for the node right above. -/
  ancestors : ∀ q, .node q ∈ items → q.location <+: unit.location →
    q = unit ∨ unit.parent? document = some q
  /-- None is an attribute of the node above. -/
  attributes : ∀ above, unit.parent? document = some above → ∀ slot a, .attr above slot a ∉ items

theorem staysInside_of_confined {document : Node} {unit : Place} {items : List Item}
    (h : ∀ x ∈ items, x.Confined document unit) : StaysInside document unit items := by
  constructor
  case confined => exact h
  case siblings =>
    intro above habove q hq hitem
    obtain ⟨i, hi⟩ := (Place.parent?_eq_some habove).2
    obtain ⟨j, -, hj⟩ := Place.mem_children.1 hq
    rcases h _ hitem with hparent | hbelow
    · obtain rfl : above = q := Option.some_inj.1 (habove.symm.trans hparent)
      exact absurd (congrArg List.length hj) (by simp)
    · exact Place.eq_of_mem_descendantsOrSelf hbelow (by rw [hi, hj]; simp)
  case ancestors =>
    intro q hitem hprefix
    rcases h _ hitem with hparent | hbelow
    · exact .inr hparent
    · exact .inl (Place.eq_of_mem_descendantsOrSelf hbelow hprefix.length_le)
  case attributes =>
    intro above habove slot a hitem
    obtain ⟨i, hi⟩ := (Place.parent?_eq_some habove).2
    obtain ⟨hbelow, -⟩ := h _ hitem
    obtain ⟨path, -, hlocation⟩ := Place.mem_below.1 hbelow
    have hlength := congrArg List.length hlocation
    rw [hi] at hlength
    simp only [List.length_append, List.length_singleton] at hlength
    omega

/-- The scope of a unit is confined: all that a selector comes to there, at its end, on the way and
inside conditions, stays inside the unit. It finds what it does when nothing is recorded. -/
theorem staysInside_traceUnit (s : Selector) {document : Node} {unit : Place}
    (hunit : unit.LiesIn document) :
    let run := s.traceUnit document unit
    run.result = s.selectUnit document unit ∧ run.result ⊆ run.reached ∧
      StaysInside document unit run.reached ∧ StaysInside document unit run.result := by
  intro run
  have hresult : run.result = s.selectUnit document unit := s.result_traceUnit document unit
  have hsubset : run.result ⊆ run.reached := by
    rw [hresult]
    exact s.selectUnit_subset_reached document unit
  have hconfined : ∀ x ∈ run.reached, x.Confined document unit := by
    intro x hx
    have hself : unit ∈ unit.descendantsOrSelf := Place.mem_descendantsOrSelf_iff.2 (.inl rfl)
    obtain ⟨path, -, hx⟩ := mem_reached_traceUnit.1 hx
    exact (keeps_confined hunit).reached_path path (.inr hself) x hx
  exact ⟨hresult, hsubset, staysInside_of_confined hconfined,
    staysInside_of_confined fun x hx => hconfined x (hsubset hx)⟩

/-- `a[../../a]|../@k`: a condition that goes up and down again, and a way up to an attribute. -/
def climbingSelector : Selector :=
  ⟨"a[../../a]|../@k",
    [.mk false [.mk .child (.name "a") [.present (.mk false
        [.mk .parent .anyNode [], .mk .parent .anyNode [], .mk .child (.name "a") []])]],
      .mk false [.mk .parent .anyNode [], .mk .attributes (.name "k") []]]⟩

/-- In the document the condition comes to the sibling of the group, and the attribute is found. In
the scope of the group both paths come to the element above the group and find nothing there. -/
theorem staysInside_traceUnit_climbing :
    let group : Place := ⟨[0, 1], nestedGroup⟩
    let run := climbingSelector.traceUnit nestedDocument group
    group.LiesIn nestedDocument ∧
      (climbingSelector.select nestedDocument group).length = 2 ∧ run.result = [] ∧
      run.reached.map Item.key =
        [([0, 1], 0), ([0, 1, 0], 0), ([0, 1, 0], 0), ([0, 1], 0), ([0], 0), ([0, 1], 0), ([0], 0)] ∧
      StaysInside nestedDocument group run.reached := by
  intro group run
  obtain ⟨hresult, -, hinside, -⟩ :=
    staysInside_traceUnit climbingSelector (rfl : group.LiesIn nestedDocument)
  exact ⟨rfl, by cbv, by cbv, by cbv, hinside⟩

end Selector

end DataQuality
