import DataQuality.Proofs.Selector.DocumentOrder

/-!
# What a selector denotes

A path reaches an item by a chain of steps: from a node, each step goes to one of its
own candidates that the conditions leave over. What a union selects is everything that
one of its branches reaches, listed in document order. The order and the repetition of
branches do not matter, and neither does it matter that items are brought in order
between the steps: a walk that never does so reaches the same items.
-/
namespace DataQuality.Selector

open Markup

/-- The nodes that the scope names are places of the document. -/
structure Scope.Within (document : Node) (scope : Scope) : Prop where
  root : scope.document = document
  top : scope.top.LiesIn document
  unit : ∀ u, scope.unit = some u → u.LiesIn document

theorem within_ofDocument (document : Node) : (Scope.ofDocument document).Within document :=
  ⟨rfl, rfl, fun _ h => nomatch h⟩

theorem within_ofUnit {document : Node} {u : Place} (hu : u.LiesIn document) :
    (Scope.ofUnit document u).Within document := by
  unfold Scope.ofUnit
  split
  · rename_i above habove
    refine ⟨rfl, (Place.parent?_eq_some habove).1, ?_⟩
    intro v hv
    obtain rfl : u = v := Option.some_inj.1 hv
    exact hu
  · exact within_ofDocument document

section Candidates

variable {document : Node} {scope : Scope} {p : Place}

theorem Scope.unit_of_unitBelow? {u : Place} (h : scope.unitBelow? p = some u) :
    scope.unit = some u := by
  unfold Scope.unitBelow? at h
  split at h
  · exact h
  · cases h

/-- Where the axes lead from the top of the scope of a unit. -/
theorem Scope.places_of_some {u : Place} (h : scope.unitBelow? p = some u) (axis : Axis) :
    scope.places axis p =
      match axis with
      | .child => [u]
      | .descendant => u.descendantsOrSelf
      | .descendantOrSelf => p :: u.descendantsOrSelf
      | .self => [p]
      | .parent => []
      | .attributes => [] := by
  unfold Scope.places
  rw [h]
  cases axis <;> rfl

/-- Where the axes lead from any other place. -/
theorem Scope.places_of_none (h : scope.unitBelow? p = none) (axis : Axis) :
    scope.places axis p =
      match axis with
      | .child => p.children
      | .descendant => p.descendants
      | .descendantOrSelf => p.descendantsOrSelf
      | .self => [p]
      | .parent => (p.parent? scope.document).toList
      | .attributes => [] := by
  unfold Scope.places
  rw [h]
  cases axis <;> rfl

/-- Every axis stays in the document. -/
theorem Scope.Within.liesIn_of_mem_places (hs : scope.Within document) (hp : p.LiesIn document)
    {axis : Axis} {q : Place} (hq : q ∈ scope.places axis p) : q.LiesIn document := by
  have hunit {u : Place} (hu : scope.unitBelow? p = some u) : u.LiesIn document :=
    hs.unit u (Scope.unit_of_unitBelow? hu)
  cases hbelow : scope.unitBelow? p with
  | some u =>
    rw [Scope.places_of_some hbelow] at hq
    cases axis with
    | child =>
      obtain rfl := List.mem_singleton.1 hq
      exact hunit hbelow
    | descendant => exact Place.liesIn_of_mem_descendantsOrSelf (hunit hbelow) hq
    | descendantOrSelf =>
      rcases List.mem_cons.1 hq with rfl | hq
      · exact hp
      · exact Place.liesIn_of_mem_descendantsOrSelf (hunit hbelow) hq
    | attributes => cases hq
    | self =>
      obtain rfl := List.mem_singleton.1 hq
      exact hp
    | parent => cases hq
  | none =>
    rw [Scope.places_of_none hbelow] at hq
    cases axis with
    | child => exact Place.liesIn_of_mem_children hp hq
    | descendant => exact Place.liesIn_of_mem_descendantsOrSelf hp (List.mem_of_mem_tail hq)
    | descendantOrSelf => exact Place.liesIn_of_mem_descendantsOrSelf hp hq
    | attributes => cases hq
    | self =>
      obtain rfl := List.mem_singleton.1 hq
      exact hp
    | parent =>
      simp only [hs.root] at hq
      exact (Place.parent?_eq_some (Option.mem_toList.1 hq)).1

theorem liesIn_of_mem_admitted {test : NodeTest} {places : List Place}
    (hplaces : ∀ q ∈ places, q.LiesIn document) {x : Item} (hx : x ∈ admitted test places) :
    x.LiesIn document := by
  obtain ⟨q, hq, rfl⟩ := List.mem_map.1 hx
  exact hplaces q (List.mem_of_mem_filter hq)

theorem mem_admittedAttributes {test : NodeTest} {slot : Nat} {attributes : List Attribute}
    {x : Item} : x ∈ admittedAttributes test p slot attributes ↔
      ∃ j a, attributes[j]? = some a ∧ test.admitsAttribute a = true ∧ x = .attr p (slot + j) a := by
  induction attributes generalizing slot with
  | nil => simp [admittedAttributes]
  | cons a rest ih =>
    have hfirst : x ∈ admittedAttributes test p slot (a :: rest) ↔
        test.admitsAttribute a = true ∧ x = .attr p slot a ∨
          x ∈ admittedAttributes test p (slot + 1) rest := by
      rw [admittedAttributes]
      by_cases ha : test.admitsAttribute a = true <;> simp [ha]
    rw [hfirst, ih]
    constructor
    · rintro (⟨ha, rfl⟩ | ⟨j, b, hb, hadmits, rfl⟩)
      · exact ⟨0, a, rfl, ha, rfl⟩
      · exact ⟨j + 1, b, hb, hadmits, by rw [Nat.add_right_comm, Nat.add_assoc]⟩
    · rintro ⟨j, b, hb, hadmits, rfl⟩
      cases j with
      | zero =>
        obtain rfl : a = b := Option.some_inj.1 hb
        exact .inl ⟨hadmits, rfl⟩
      | succ j => exact .inr ⟨j, b, hb, hadmits, by rw [Nat.add_right_comm, Nat.add_assoc]⟩

/-- The axis of the attributes leads to those of the place, and to none from the top of the scope of
a unit. -/
theorem Scope.mem_candidates_attributes {test : NodeTest} {x : Item} :
    x ∈ scope.candidates .attributes test p ↔ scope.unitBelow? p = none ∧
      ∃ slot a, p.node.attributes[slot]? = some a ∧ test.admitsAttribute a = true ∧
        x = .attr p slot a := by
  unfold Scope.candidates
  dsimp only
  cases scope.unitBelow? p with
  | some u => exact iff_of_false List.not_mem_nil fun h => nomatch h.1
  | none =>
    rw [Option.isSome_none, if_neg Bool.false_ne_true, mem_admittedAttributes]
    simp only [Nat.zero_add, true_and]

/-- Axes other than that of the attributes lead to places. -/
theorem Scope.candidates_of_ne {axis : Axis} (haxis : axis ≠ .attributes) (test : NodeTest) :
    scope.candidates axis test p = admitted test (scope.places axis p) := by
  cases axis with
  | attributes => exact absurd rfl haxis
  | _ => rfl

/-- What an axis and a test find is in the document. -/
theorem Scope.Within.liesIn_of_mem_candidates (hs : scope.Within document) (hp : p.LiesIn document)
    {axis : Axis} {test : NodeTest} {x : Item} (hx : x ∈ scope.candidates axis test p) :
    x.LiesIn document := by
  by_cases haxis : axis = .attributes
  · subst haxis
    obtain ⟨-, slot, a, ha, -, rfl⟩ := Scope.mem_candidates_attributes.1 hx
    exact ⟨hp, ha⟩
  · rw [Scope.candidates_of_ne haxis] at hx
    exact liesIn_of_mem_admitted (fun q hq => hs.liesIn_of_mem_places hp hq) hx

end Candidates

/-- Conditions only leave items out. -/
theorem sublist_filter (scope : Scope) (condition : Condition) (items : List Item) :
    (condition.filter scope items).Sublist items := by
  cases condition with
  | position n =>
    simp only [Condition.filter]
    exact (List.take_sublist 1 _).trans (List.drop_sublist (n - 1) items)
  | present path =>
    simp only [Condition.filter]
    exact List.filter_sublist
  | compares path equal literal =>
    simp only [Condition.filter]
    exact List.filter_sublist

theorem filter_eq_foldl (scope : Scope) (conditions : List Condition) (items : List Item) :
    Conditions.filter scope conditions items =
      conditions.foldl (fun left condition => condition.filter scope left) items := by
  induction conditions generalizing items with
  | nil => simp only [Conditions.filter, List.foldl_nil]
  | cons condition rest ih => simp only [Conditions.filter, List.foldl_cons, ih]

theorem filter_sublist (scope : Scope) (conditions : List Condition) (items : List Item) :
    (Conditions.filter scope conditions items).Sublist items := by
  induction conditions generalizing items with
  | nil =>
    simp only [Conditions.filter]
    exact List.Sublist.refl items
  | cons condition rest ih =>
    simp only [Conditions.filter]
    exact (ih _).trans (sublist_filter scope condition items)

/-- Steps that lead from an item to another: each goes from a node to one of its
candidates that the conditions, one after the other, leave over. -/
inductive Chain (scope : Scope) : List Step → Item → Item → Prop
  | done (x : Item) : Chain scope [] x x
  | step {axis : Axis} {test : NodeTest} {conditions : List Condition} {rest : List Step}
    {p : Place} {y z : Item}
    (hy : y ∈ conditions.foldl (fun left condition => condition.filter scope left)
      (scope.candidates axis test p))
    (hz : Chain scope rest y z) : Chain scope (.mk axis test conditions :: rest) (.node p) z

/-- The path leads from the place, or from the top if it is absolute, to the item. -/
def Path.Reaches (scope : Scope) : Path → Place → Item → Prop
  | .mk absolute steps, context, x =>
    Chain scope steps (.node (if absolute then scope.top else context)) x

mutual

/-- What a path finds from a place, in the order and as often as it gets there. -/
def Path.walk (scope : Scope) : Path → Place → List Item
  | .mk absolute steps, p => Steps.walk scope steps [.node (if absolute then scope.top else p)]

/-- What some steps find from these items, one step after the other. -/
def Steps.walk (scope : Scope) : List Step → List Item → List Item
  | [], items => items
  | step :: rest, items =>
    Steps.walk scope rest
      (items.flatMap fun item =>
        match item with
        | .node p => Step.walk scope step p
        | .attr _ _ _ => [])

def Step.walk (scope : Scope) : Step → Place → List Item
  | .mk axis test conditions, p =>
    Conditions.keep scope conditions (scope.candidates axis test p)

/-- What is left of some items after each condition in turn. -/
def Conditions.keep (scope : Scope) : List Condition → List Item → List Item
  | [], items => items
  | condition :: rest, items => Conditions.keep scope rest (Condition.keep scope condition items)

def Condition.keep (scope : Scope) : Condition → List Item → List Item
  | .position n, items => (items.drop (n - 1)).take 1
  | .present path, items =>
    items.filter fun item =>
      match item with
      | .node p => !(Path.walk scope path p).isEmpty
      | .attr _ _ _ => false
  | .compares path equal literal, items =>
    items.filter fun item =>
      match item with
      | .node p => (Path.walk scope path p).any fun found =>
          literal.equals found.stringValue == equal
      | .attr _ _ _ => false

end

/-- What is found from the nodes among some items. -/
def fromNodes (find : Place → List Item) (items : List Item) : List Item :=
  items.flatMap fun item =>
    match item with
    | .node p => find p
    | .attr _ _ _ => []

theorem mem_fromNodes {find : Place → List Item} {items : List Item} {y : Item} :
    y ∈ fromNodes find items ↔ ∃ p, .node p ∈ items ∧ y ∈ find p := by
  unfold fromNodes
  rw [List.mem_flatMap]
  constructor
  · rintro ⟨x, hx, hy⟩
    cases x with
    | node p => exact ⟨p, hx, hy⟩
    | attr p slot a => cases hy
  · rintro ⟨p, hp, hy⟩
    exact ⟨.node p, hp, hy⟩

theorem select_steps_cons (scope : Scope) (step : Step) (rest : List Step) (items : List Item) :
    Steps.select scope (step :: rest) items =
      Steps.select scope rest (inOrder (fromNodes (step.select scope) items)) := by
  rw [Steps.select]
  rfl

theorem walk_steps_cons (scope : Scope) (step : Step) (rest : List Step) (items : List Item) :
    Steps.walk scope (step :: rest) items =
      Steps.walk scope rest (fromNodes (step.walk scope) items) := by
  rw [Steps.walk]
  rfl

section Denotation

variable {document : Node} {scope : Scope}

theorem Scope.Within.liesIn_of_mem_fromNodes (hs : scope.Within document) {items : List Item}
    (hitems : ∀ x ∈ items, x.LiesIn document) (step : Step) :
    ∀ y ∈ fromNodes (step.select scope) items, y.LiesIn document := by
  intro y hy
  obtain ⟨p, hp, hy⟩ := mem_fromNodes.1 hy
  obtain ⟨axis, test, conditions⟩ := step
  rw [Step.select] at hy
  exact hs.liesIn_of_mem_candidates (hitems _ hp) ((filter_sublist scope conditions _).subset hy)

/-- Steps find what a chain leads to from one of the items. -/
theorem Scope.Within.mem_select_steps (hs : scope.Within document) (steps : List Step)
    {items : List Item} (hitems : ∀ x ∈ items, x.LiesIn document) {z : Item} :
    z ∈ Steps.select scope steps items ↔ ∃ x ∈ items, Chain scope steps x z := by
  induction steps generalizing items with
  | nil =>
    rw [Steps.select]
    constructor
    · intro hz
      exact ⟨z, hz, .done z⟩
    · rintro ⟨x, hx, hchain⟩
      cases hchain with
      | done => exact hx
  | cons step rest ih =>
    obtain ⟨axis, test, conditions⟩ := step
    have hstep := hs.liesIn_of_mem_fromNodes hitems (.mk axis test conditions)
    rw [select_steps_cons, ih fun x hx => hstep x ((mem_inOrder hstep).1 hx)]
    constructor
    · rintro ⟨y, hy, hchain⟩
      obtain ⟨p, hp, hy⟩ := mem_fromNodes.1 ((mem_inOrder hstep).1 hy)
      rw [Step.select, filter_eq_foldl] at hy
      exact ⟨.node p, hp, .step hy hchain⟩
    · rintro ⟨x, hx, hchain⟩
      cases hchain with
      | step hy hz =>
        rename_i p y
        refine ⟨y, (mem_inOrder hstep).2 (mem_fromNodes.2 ⟨p, hx, ?_⟩), hz⟩
        rwa [Step.select, filter_eq_foldl]

theorem Scope.Within.liesIn_of_chain (hs : scope.Within document) {steps : List Step} {x z : Item}
    (hx : x.LiesIn document) (h : Chain scope steps x z) : z.LiesIn document := by
  induction h with
  | done => exact hx
  | step hy hz ih =>
    rw [← filter_eq_foldl] at hy
    exact ih (hs.liesIn_of_mem_candidates hx ((filter_sublist scope _ _).subset hy))

theorem Scope.Within.start (hs : scope.Within document) {context : Place}
    (hcontext : context.LiesIn document) (absolute : Bool) :
    (if absolute then scope.top else context).LiesIn document := by
  cases absolute with
  | true => exact hs.top
  | false => exact hcontext

/-- A path finds what it reaches. -/
theorem Scope.Within.mem_select_path (hs : scope.Within document) {context : Place}
    (hcontext : context.LiesIn document) (path : Path) {x : Item} :
    x ∈ path.select scope context ↔ path.Reaches scope context x := by
  obtain ⟨absolute, steps⟩ := path
  rw [Path.select, hs.mem_select_steps steps]
  · simp only [List.mem_singleton, exists_eq_left, Path.Reaches]
  · intro y hy
    obtain rfl := List.mem_singleton.1 hy
    exact hs.start hcontext absolute

/-- What a path reaches from a place of the document is in the document. -/
theorem Scope.Within.liesIn_of_mem_path (hs : scope.Within document) {context : Place}
    (hcontext : context.LiesIn document) {path : Path} {x : Item}
    (hx : x ∈ path.select scope context) : x.LiesIn document := by
  have hreaches := (hs.mem_select_path hcontext path).1 hx
  obtain ⟨absolute, steps⟩ := path
  exact hs.liesIn_of_chain (x := .node _) (hs.start hcontext absolute) hreaches

mutual

/-- A walk gets to what the path finds. -/
theorem Scope.Within.mem_walk_path (hs : scope.Within document) (path : Path) {p : Place}
    (hp : p.LiesIn document) {z : Item} : z ∈ path.walk scope p ↔ z ∈ path.select scope p := by
  match path with
  | .mk absolute steps =>
    rw [Path.walk, Path.select]
    refine hs.mem_walk_steps steps ?_ (fun x => Iff.rfl)
    intro x hx
    obtain rfl := List.mem_singleton.1 hx
    exact hs.start hp absolute

theorem Scope.Within.mem_walk_steps (hs : scope.Within document) (steps : List Step)
    {xs ys : List Item} (hxs : ∀ x ∈ xs, x.LiesIn document) (hxy : ∀ x, x ∈ xs ↔ x ∈ ys)
    {z : Item} : z ∈ Steps.walk scope steps xs ↔ z ∈ Steps.select scope steps ys := by
  match steps with
  | [] =>
    rw [Steps.walk, Steps.select]
    exact hxy z
  | step :: rest =>
    have hstep := hs.liesIn_of_mem_fromNodes (fun x hx => hxs x ((hxy x).2 hx)) step
    have hwalk (y : Item) :
        y ∈ fromNodes (step.walk scope) xs ↔ y ∈ fromNodes (step.select scope) ys := by
      rw [mem_fromNodes, mem_fromNodes]
      refine exists_congr fun p => ?_
      rw [← hxy]
      refine and_congr_right fun hp => ?_
      rw [hs.walk_step step (hxs _ hp)]
    rw [walk_steps_cons, select_steps_cons]
    refine hs.mem_walk_steps rest (fun y hy => hstep y ((hwalk y).1 hy)) fun y => ?_
    rw [hwalk, mem_inOrder hstep]

theorem Scope.Within.walk_step (hs : scope.Within document) (step : Step) {p : Place}
    (hp : p.LiesIn document) : step.walk scope p = step.select scope p := by
  match step with
  | .mk axis test conditions =>
    rw [Step.walk, Step.select]
    exact hs.keep_conditions conditions fun x hx => hs.liesIn_of_mem_candidates hp hx

theorem Scope.Within.keep_conditions (hs : scope.Within document) (conditions : List Condition)
    {items : List Item} (hitems : ∀ x ∈ items, x.LiesIn document) :
    Conditions.keep scope conditions items = Conditions.filter scope conditions items := by
  match conditions with
  | [] => rw [Conditions.keep, Conditions.filter]
  | condition :: rest =>
    rw [Conditions.keep, Conditions.filter, hs.keep_condition condition hitems]
    refine hs.keep_conditions rest fun x hx => hitems x ?_
    exact (sublist_filter scope condition items).subset hx

theorem Scope.Within.keep_condition (hs : scope.Within document) (condition : Condition)
    {items : List Item} (hitems : ∀ x ∈ items, x.LiesIn document) :
    condition.keep scope items = condition.filter scope items := by
  match condition with
  | .position n => rw [Condition.keep, Condition.filter]
  | .present path =>
    rw [Condition.keep, Condition.filter]
    refine List.filter_congr fun x hx => ?_
    cases x with
    | attr p slot a => rfl
    | node p =>
      have hmem {z : Item} := hs.mem_walk_path path (hitems _ hx) (z := z)
      simp only [Bool.not_eq_eq_eq_not, Bool.not_not]
      rw [Bool.eq_iff_iff, List.isEmpty_iff, List.isEmpty_iff, List.eq_nil_iff_forall_not_mem,
        List.eq_nil_iff_forall_not_mem]
      exact forall_congr' fun z => not_congr hmem
  | .compares path equal literal =>
    rw [Condition.keep, Condition.filter]
    refine List.filter_congr fun x hx => ?_
    cases x with
    | attr p slot a => rfl
    | node p =>
      have hmem {z : Item} := hs.mem_walk_path path (hitems _ hx) (z := z)
      simp only
      rw [Bool.eq_iff_iff, List.any_eq_true, List.any_eq_true]
      exact exists_congr fun z => and_congr_left' hmem

end

/-- A list is what the paths of a union select from a place of a document. -/
structure Denotes (document : Node) (scope : Scope) (branches : List Path) (context : Place)
    (found : List Item) : Prop where
  /-- It goes strictly up in document order. -/
  increasing : found.Pairwise Item.Before
  /-- It is a part of the listing of the document, from the root down. -/
  listed : found.Sublist (everything document)
  /-- It holds exactly what a branch reaches. -/
  mem_iff (x : Item) : x ∈ found ↔ ∃ path ∈ branches, path.Reaches scope context x
  /-- The order and the repetition of the branches do not matter. -/
  union (others : List Path) (h : ∀ path, path ∈ others ↔ path ∈ branches) :
    selectAll scope others context = found
  /-- Bringing items in order between the steps does not matter. -/
  unsorted : inOrder (branches.flatMap fun path => path.walk scope context) = found

/-- A union selects what its paths reach. -/
theorem Scope.Within.denotes_selectAll (hs : scope.Within document) {context : Place}
    (hcontext : context.LiesIn document) (branches : List Path) :
    Denotes document scope branches context (selectAll scope branches context) := by
  have hlies (paths : List Path) : ∀ x ∈ paths.flatMap fun path => path.select scope context,
      x.LiesIn document := by
    intro x hx
    obtain ⟨path, -, hx⟩ := List.mem_flatMap.1 hx
    exact hs.liesIn_of_mem_path hcontext hx
  have hmem (x : Item) : x ∈ selectAll scope branches context ↔
      ∃ path ∈ branches, path.Reaches scope context x := by
    rw [selectAll, mem_inOrder (hlies branches), List.mem_flatMap]
    simp only [hs.mem_select_path hcontext]
  constructor
  case increasing => exact pairwise_inOrder _
  case listed =>
    refine sublist_everything (pairwise_inOrder _) fun x hx => ?_
    exact hlies branches x ((mem_inOrder (hlies branches)).1 hx)
  case mem_iff => exact hmem
  case union =>
    intro others h
    refine inOrder_eq_of_mem_iff (hlies others) fun x => ?_
    simp only [List.mem_flatMap, h]
  case unsorted =>
    refine (inOrder_eq_of_mem_iff (hlies branches) fun x => ?_).symm
    simp only [List.mem_flatMap, hs.mem_walk_path _ hcontext]

end Denotation

/-- In a document as in the scope of a unit, a selector finds what its branches reach. -/
theorem denotes_select_and_selectUnit (s : Selector) {document : Node} {context : Place}
    (hcontext : context.LiesIn document) :
    Denotes document (.ofDocument document) s.branches context (s.select document context) ∧
      Denotes document (.ofUnit document context) s.branches context
        (s.selectUnit document context) := by
  constructor
  · exact (within_ofDocument document).denotes_selectAll hcontext s.branches
  · exact (within_ofUnit hcontext).denotes_selectAll hcontext s.branches

/-- The nodes of a document, from the root down, are its places. -/
theorem places_everything (document : Node) :
    (everything document).filterMap Item.place? = (Place.top document).descendantsOrSelf := by
  have hitems (p : Place) : (itemsAt p).filterMap Item.place? = [p] := by
    have hattributes : (p.node.attributes.mapIdx (Item.attr p)).filterMap Item.place? = [] := by
      rw [List.filterMap_eq_nil_iff]
      intro x hx
      obtain ⟨slot, hslot, rfl⟩ := List.mem_mapIdx.1 hx
      rfl
    unfold itemsAt
    rw [List.filterMap_cons, hattributes]
    rfl
  unfold everything
  rw [List.filterMap_flatMap]
  simp only [hitems, List.flatMap_singleton']

/-- The nodes that a selector finds come in document order. -/
theorem selectPlaces_sublist (s : Selector) {document : Node} {context : Place}
    (hcontext : context.LiesIn document) :
    (s.selectPlaces document context).Sublist (Place.top document).descendantsOrSelf := by
  have hfound := (within_ofDocument document).denotes_selectAll hcontext s.branches
  rw [← places_everything]
  exact hfound.listed.filterMap Item.place?

/-- An element with an attribute, and elements of one name at two depths below it. -/
def nestedGroup : Node := .element "b" [] [.element "a" [] []]

def nestedDocument : Node :=
  .root [.element "r" [⟨none, "k", "1"⟩] [.element "a" [] [], nestedGroup]]

/-- `//a[1]|../@k`: a union with a position, a way up and an attribute. -/
def nestedSelector : Selector :=
  ⟨"//a[1]|../@k",
    [.mk true [.everywhere, .mk .child (.name "a") [.position 1]],
      .mk false [.mk .parent .anyNode [], .mk .attributes (.name "k") []]]⟩

/-- What the union finds from the group, in the document and in the scope of the group. -/
theorem denotes_select_and_selectUnit_nested :
    Place.LiesIn nestedDocument ⟨[0, 1], nestedGroup⟩ ∧
      Denotes nestedDocument (.ofDocument nestedDocument) nestedSelector.branches
        ⟨[0, 1], nestedGroup⟩ (nestedSelector.select nestedDocument ⟨[0, 1], nestedGroup⟩) ∧
      Denotes nestedDocument (.ofUnit nestedDocument ⟨[0, 1], nestedGroup⟩) nestedSelector.branches
        ⟨[0, 1], nestedGroup⟩ (nestedSelector.selectUnit nestedDocument ⟨[0, 1], nestedGroup⟩) :=
  ⟨rfl, denotes_select_and_selectUnit nestedSelector rfl⟩

end DataQuality.Selector
