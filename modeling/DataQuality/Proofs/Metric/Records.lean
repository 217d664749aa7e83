import DataQuality.Metric.Coverage
import DataQuality.Proofs.Selector.Denotation

/-!
# The records of a document

The paths of the metrics lead from the root of a document to everything of some name, and
leave over what has a date or belongs to a category. So they find the nodes below the root
that have the name, in document order and each once, and what is left of them depends on
each node alone. The place at which a metric is computed matters only to the titles of
category `B12`.
-/
namespace DataQuality

namespace Markup

namespace Node

mutual

/-- The nodes inside a node, in document order. -/
def inside : Node → List Node
  | root cs => insideAll cs
  | element _ _ cs => insideAll cs
  | text _ => []
  | comment _ => []
  | instruction _ _ => []

/-- These nodes and those inside them, in document order. -/
def insideAll : List Node → List Node
  | [] => []
  | n :: rest => n :: (n.inside ++ insideAll rest)

end

theorem inside_eq (n : Node) : n.inside = insideAll n.children := by
  cases n <;> simp [inside, insideAll, children]

/-- The elements of a name among some nodes. -/
def named (name : String) (nodes : List Node) : List Node := nodes.filter (·.isNamed name)

/-- Whether a child element of some name has an attribute of some name whose value passes. -/
def hasAttributeBelow (n : Node) (name key : String) (passes : String → Bool) : Bool :=
  n.children.any fun c =>
    c.isNamed name && c.attributes.any fun a => a.name == key && passes a.value

/-- Whether the node has a child with an end of a period. -/
def hasEndDate (n : Node) : Bool := n.hasAttributeBelow "period-end" "iso-date" fun _ => true

def isInCategory (category : String) (n : Node) : Bool :=
  n.hasAttributeBelow "category" "code" (· == category)

/-- The texts of the titles of a document link. -/
def titles (link : Node) : List String :=
  (link.childrenNamed "title").flatMap fun t =>
    (t.childrenNamed "narrative").flatMap fun n => (n.children.filter isText).map stringValue

end Node

namespace Place

theorem map_node_enumerate (location : List Nat) (i : Nat) (cs : List Node) :
    (enumerate location i cs).map (·.node) = cs := by
  induction cs generalizing i with
  | nil => rfl
  | cons c rest ih => rw [enumerate, List.map_cons, ih]

theorem map_node_children (p : Place) : p.children.map (·.node) = p.node.children :=
  map_node_enumerate _ _ _

mutual

theorem map_node_below (location : List Nat) (n : Node) :
    (below location n).map (·.node) = n :: n.inside := by
  rw [below_eq, List.map_cons, map_node_belowAll, Node.inside_eq]
  termination_by (sizeOf n, 1)
  decreasing_by
    have := sizeOf_children_le n
    grind

theorem map_node_belowAll (location : List Nat) (i : Nat) (cs : List Node) :
    (belowAll location i cs).map (·.node) = Node.insideAll cs := by
  match cs with
  | [] => rfl
  | c :: rest =>
    rw [belowAll, List.map_append, map_node_below, map_node_belowAll, Node.insideAll,
      List.cons_append]
  termination_by (sizeOf cs, 0)

end

theorem map_node_descendants_top (document : Node) :
    (top document).descendants.map (·.node) = document.inside := by
  rw [descendants, List.map_tail, descendantsOrSelf]
  exact congrArg List.tail (map_node_below [] document)

theorem mem_descendants_top {document : Node} {r : Place} :
    r ∈ (top document).descendants ↔ r.LiesIn document ∧ r.location ≠ [] := by
  rw [mem_descendants_iff]
  constructor
  · rintro ⟨path, hne, hat, hlocation⟩
    obtain rfl : r.location = path := hlocation
    exact ⟨hat, hne⟩
  · rintro ⟨hr, hne⟩
    exact ⟨r.location, hne, hr, rfl⟩

theorem pairwise_all (document : Node) :
    (all document).Pairwise fun p q => p.location < q.location :=
  (pairwise_below [] document).tail

/-- Of places in document order, the last one of a kind comes after all others of the kind. -/
theorem exists_last_iff {places : List Place}
    (horder : places.Pairwise fun p q => p.location < q.location) (kind : Place → Prop) {p : Place}
    (hp : kind p) :
    (∃ front rest, places = front ++ p :: rest ∧ ∀ q ∈ rest, ¬ kind q) ↔
      p ∈ places ∧ ∀ q ∈ places, kind q →
        q = p ∨ Selector.locationBefore q.location p.location = true := by
  constructor
  · rintro ⟨front, rest, rfl, hrest⟩
    rw [List.pairwise_append] at horder
    refine ⟨List.mem_append_right _ List.mem_cons_self, fun q hq hkind => ?_⟩
    rcases List.mem_append.1 hq with hq | hq
    · exact .inr ((locationBefore_iff _ _).2 (horder.2.2 q hq p List.mem_cons_self))
    · rcases List.mem_cons.1 hq with rfl | hq
      · exact .inl rfl
      · exact absurd hkind (hrest q hq)
  · rintro ⟨hmem, hlast⟩
    obtain ⟨front, rest, rfl⟩ := List.append_of_mem hmem
    rw [List.pairwise_append, List.pairwise_cons] at horder
    refine ⟨front, rest, rfl, fun q hq hkind => ?_⟩
    have hafter : p.location < q.location := horder.2.1.1 q hq
    rcases hlast q (List.mem_append_right _ (List.mem_cons_of_mem _ hq)) hkind with rfl | hbefore
    · exact lt_irrefl _ hafter
    · exact lt_asymm hafter ((locationBefore_iff _ _).1 hbefore)

/-- What is below the root is a child of something in the document. -/
theorem exists_parent_iff {document : Node} {r : Place} :
    r ∈ (top document).descendants ↔ ∃ q : Place, q.LiesIn document ∧ r ∈ q.children := by
  simp only [mem_descendants, mem_descendantsOrSelf_top]

end Place

end Markup

namespace Selector

open Markup

section Chains

variable {document : Node} {p : Place} {rest : List Step} {z : Item}

theorem places_ofDocument (axis : Axis) :
    (Scope.ofDocument document).places axis p =
      match axis with
      | .child => p.children
      | .descendant => p.descendants
      | .descendantOrSelf => p.descendantsOrSelf
      | .parent => (p.parent? document).toList
      | .self => [p]
      | .attributes => [] := by
  have hnone : (Scope.ofDocument document).unitBelow? p = none := by
    unfold Scope.unitBelow?
    split <;> rfl
  rw [Scope.places_of_none hnone]
  cases axis <;> rfl

/-- The conditions leave a node over by what it is. -/
def Decides (document : Node) (conditions : List Condition) (keep : Node → Bool) : Prop :=
  ∀ places : List Place, (∀ q ∈ places, q.LiesIn document) →
    conditions.foldl (fun left condition => condition.filter (Scope.ofDocument document) left)
        (places.map .node) =
      (places.filter fun q => keep q.node).map .node

theorem decides_nil (document : Node) : Decides document [] fun _ => true := by
  intro places _
  rw [List.filter_true]
  rfl

theorem chain_everywhere :
    Chain (.ofDocument document) (.everywhere :: rest) (.node p) z ↔
      ∃ q ∈ p.descendantsOrSelf, Chain (.ofDocument document) rest (.node q) z := by
  have hcandidates : (Scope.ofDocument document).candidates .descendantOrSelf .anyNode p =
      p.descendantsOrSelf.map .node := by
    unfold Scope.candidates admitted
    rw [places_ofDocument]
    simp [NodeTest.admits]
  constructor
  · intro h
    cases h with
    | step hy hz =>
      rw [hcandidates] at hy
      obtain ⟨q, hq, rfl⟩ := List.mem_map.1 hy
      exact ⟨q, hq, hz⟩
  · rintro ⟨q, hq, hz⟩
    exact .step (hcandidates ▸ List.mem_map_of_mem hq) hz

/-- A step to the children, with conditions on what they are. -/
theorem chain_child {test : NodeTest} {conditions : List Condition} {keep : Node → Bool}
    (hkeep : Decides document conditions keep) (hp : p.LiesIn document) :
    Chain (.ofDocument document) (.mk .child test conditions :: rest) (.node p) z ↔
      ∃ q ∈ p.children, (test.admits q.node && keep q.node) = true ∧
        Chain (.ofDocument document) rest (.node q) z := by
  have hleft : conditions.foldl
      (fun left condition => condition.filter (Scope.ofDocument document) left)
      ((Scope.ofDocument document).candidates .child test p) =
        (p.children.filter fun q => test.admits q.node && keep q.node).map .node := by
    unfold Scope.candidates admitted
    rw [places_ofDocument]
    dsimp only
    rw [hkeep, List.filter_filter]
    · simp only [Bool.and_comm]
    · exact fun q hq => Place.liesIn_of_mem_children hp (List.mem_filter.1 hq).1
  constructor
  · intro h
    cases h with
    | step hy hz =>
      rw [hleft] at hy
      obtain ⟨q, hq, rfl⟩ := List.mem_map.1 hy
      exact ⟨q, (List.mem_filter.1 hq).1, (List.mem_filter.1 hq).2, hz⟩
  · rintro ⟨q, hq, hadmits, hz⟩
    exact .step (hleft ▸ List.mem_map_of_mem (List.mem_filter.2 ⟨hq, hadmits⟩)) hz

/-- What the attributes of the children are, seen through a path. -/
theorem any_select_attributes (hp : p.LiesIn document) (name key : String)
    (passes : String → Bool) :
    ((Path.mk false [.mk .child (.name name) [], .mk .attributes (.name key) []]).select
        (.ofDocument document) p).any (fun x => passes x.stringValue) =
      p.node.hasAttributeBelow name key passes := by
  have hwithin := within_ofDocument document
  have hattributes (q : Place) (x : Item) :
      Chain (.ofDocument document) [.mk .attributes (.name key) []] (.node q) x ↔
        ∃ j a, q.node.attributes[j]? = some a ∧ (a.name == key) = true ∧ x = .attr q j a := by
    have hnone : (Scope.ofDocument document).unitBelow? q = none := ite_self none
    constructor
    · intro h
      cases h with
      | step hy hz =>
        cases hz
        exact (Scope.mem_candidates_attributes.1 hy).2
    · intro h
      exact .step (Scope.mem_candidates_attributes.2 ⟨hnone, h⟩) (.done _)
  rw [Bool.eq_iff_iff, List.any_eq_true]
  simp only [hwithin.mem_select_path hp, Path.Reaches, Bool.false_eq_true, if_false,
    chain_child (decides_nil document) hp, hattributes]
  unfold Node.hasAttributeBelow
  rw [← Place.map_node_children, List.any_map, List.any_eq_true]
  constructor
  · rintro ⟨x, ⟨q, hq, hadmits, j, a, ha, hname, rfl⟩, hpasses⟩
    rw [Bool.and_true] at hadmits
    refine ⟨q, hq, Bool.and_eq_true_iff.2 ⟨hadmits, List.any_eq_true.2 ?_⟩⟩
    exact ⟨a, List.mem_of_getElem? ha, Bool.and_eq_true_iff.2 ⟨hname, hpasses⟩⟩
  · rintro ⟨q, hq, h⟩
    obtain ⟨hnamed, hattribute⟩ := Bool.and_eq_true_iff.1 h
    obtain ⟨a, ha, hpasses⟩ := List.any_eq_true.1 hattribute
    obtain ⟨j, hj⟩ := List.mem_iff_getElem?.1 ha
    obtain ⟨hname, hpasses⟩ := Bool.and_eq_true_iff.1 hpasses
    exact ⟨.attr q j a, ⟨q, hq, (Bool.and_true _).trans hnamed, j, a, hj, hname, rfl⟩, hpasses⟩

theorem decides_present (document : Node) (name key : String) :
    Decides document [.present (.mk false [.mk .child (.name name) [],
      .mk .attributes (.name key) []])] fun n => n.hasAttributeBelow name key fun _ => true := by
  intro places hlies
  rw [List.foldl_cons, List.foldl_nil, Condition.filter, List.filter_map]
  congr 1
  refine List.filter_congr fun q hq => ?_
  refine Eq.trans ?_ (any_select_attributes (hlies q hq) name key _)
  change (!List.isEmpty _) = _
  cases Path.select _ _ q <;> rfl

theorem decides_compares (document : Node) (name key value : String) :
    Decides document [.compares (.mk false [.mk .child (.name name) [],
      .mk .attributes (.name key) []]) true (.text value)]
      fun n => n.hasAttributeBelow name key (· == value) := by
  intro places hlies
  rw [List.foldl_cons, List.foldl_nil, Condition.filter, List.filter_map]
  congr 1
  refine List.filter_congr fun q hq => ?_
  refine Eq.trans ?_ (any_select_attributes (hlies q hq) name key _)
  exact List.any_congr rfl fun x => beq_true _

theorem chain_nil {scope : Scope} {x : Item} : Chain scope [] x z ↔ x = z := by
  constructor
  · intro h
    cases h
    rfl
  · rintro rfl
    exact .done x

/-- A path to everything of a name goes from the root to each node below it with that name. -/
theorem chain_every {name : String} {conditions : List Condition} {keep : Node → Bool}
    (hkeep : Decides document conditions keep) :
    Chain (.ofDocument document) (.everywhere :: .mk .child (.name name) conditions :: rest)
        (.node (Place.top document)) z ↔
      ∃ r ∈ (Place.top document).descendants, (r.node.isNamed name && keep r.node) = true ∧
        Chain (.ofDocument document) rest (.node r) z := by
  simp only [chain_everywhere, Place.exists_parent_iff, Place.mem_descendantsOrSelf_top]
  constructor
  · rintro ⟨q, hq, h⟩
    obtain ⟨r, hr, hnamed, hz⟩ := (chain_child hkeep hq).1 h
    exact ⟨r, ⟨q, hq, hr⟩, hnamed, hz⟩
  · rintro ⟨r, ⟨q, hq, hr⟩, hnamed, hz⟩
    exact ⟨q, hq, (chain_child hkeep hq).2 ⟨r, hr, hnamed, hz⟩⟩

/-- The texts of titles are reached from a document link, and nothing else. -/
theorem exists_chain_titles (hp : p.LiesIn document) (passes : String → Bool) :
    (∃ x, Chain (.ofDocument document) Metric.titleSteps (.node p) x ∧
        passes x.stringValue = true) ↔
      p.node.titles.any passes = true := by
  have hchild {q : Place} (hq : q.LiesIn document) {test : NodeTest} {rest : List Step} {x : Item} :
      Chain (.ofDocument document) (.mk .child test [] :: rest) (.node q) x ↔
        ∃ r ∈ q.children, test.admits r.node = true ∧ Chain (.ofDocument document) rest (.node r) x := by
    rw [chain_child (decides_nil document) hq]
    simp only [Bool.and_true]
  have hnodes {q : Place} {n : Node} : n ∈ q.node.children ↔ ∃ r ∈ q.children, r.node = n := by
    rw [← Place.map_node_children, List.mem_map]
  simp only [Node.titles, Node.childrenNamed, List.any_flatMap, List.any_map, List.any_filter,
    List.any_eq_true, Bool.and_eq_true]
  unfold Metric.titleSteps
  constructor
  · rintro ⟨x, h, hpasses⟩
    obtain ⟨t, ht, htitle, h⟩ := (hchild hp).1 h
    have htlies := Place.liesIn_of_mem_children hp ht
    obtain ⟨n, hn, hnarrative, h⟩ := (hchild htlies).1 h
    obtain ⟨y, hy, htext, h⟩ := (hchild (Place.liesIn_of_mem_children htlies hn)).1 h
    obtain rfl := chain_nil.1 h
    exact ⟨t.node, hnodes.2 ⟨t, ht, rfl⟩, htitle, n.node, hnodes.2 ⟨n, hn, rfl⟩, hnarrative,
      y.node, hnodes.2 ⟨y, hy, rfl⟩, htext, hpasses⟩
  · rintro ⟨_, htchild, htitle, _, hnchild, hnarrative, _, hychild, htext, hpasses⟩
    obtain ⟨t, ht, rfl⟩ := hnodes.1 htchild
    obtain ⟨n, hn, rfl⟩ := hnodes.1 hnchild
    obtain ⟨y, hy, rfl⟩ := hnodes.1 hychild
    have htlies := Place.liesIn_of_mem_children hp ht
    have hnlies := Place.liesIn_of_mem_children htlies hn
    exact ⟨.node y, (hchild hp).2 ⟨t, ht, htitle, (hchild htlies).2 ⟨n, hn, hnarrative,
      (hchild hnlies).2 ⟨y, hy, htext, .done _⟩⟩⟩, hpasses⟩

/-- So are the texts of the titles of several links. -/
theorem exists_chain_titles_of {places : List Place} (hlies : ∀ r ∈ places, r.LiesIn document)
    (keep : Node → Bool) (passes : String → Bool) :
    (∃ x, (∃ r ∈ places, keep r.node = true ∧
        Chain (.ofDocument document) Metric.titleSteps (.node r) x) ∧ passes x.stringValue = true) ↔
      ((places.map (·.node)).filter keep).any (fun link => link.titles.any passes) = true := by
  rw [List.filter_map, List.any_map, List.any_eq_true]
  simp only [List.mem_filter, Function.comp_apply]
  constructor
  · rintro ⟨x, ⟨r, hr, hkeep, h⟩, hpasses⟩
    exact ⟨r, ⟨hr, hkeep⟩, (exists_chain_titles (hlies r hr) passes).1 ⟨x, h, hpasses⟩⟩
  · rintro ⟨r, ⟨hr, hkeep⟩, h⟩
    obtain ⟨x, hx, hpasses⟩ := (exists_chain_titles (hlies r hr) passes).2 h
    exact ⟨x, ⟨r, hr, hkeep, hx⟩, hpasses⟩

end Chains

end Selector

namespace Metric

open Markup Selector

variable {document : Node} {context : Place}

/-- What the metrics find of a name are the nodes below the root, in document order. -/
theorem elements_every {name : String} {conditions : List Condition} {keep : Node → Bool}
    (hkeep : Decides document conditions keep) (hcontext : context.LiesIn document) :
    elements document context [everyElement name conditions] =
      (Node.named name document.inside).filter keep := by
  have hfound := (within_ofDocument document).denotes_selectAll hcontext
    [everyElement name conditions]
  have hselected : selectAll (.ofDocument document) [everyElement name conditions] context =
      ((Place.top document).descendants.filter fun r => r.node.isNamed name && keep r.node).map
        .node := by
    refine List.Pairwise.eq_of_mem_iff hfound.increasing ?_ fun x => ?_
    · refine List.pairwise_map.2 (((Place.pairwise_all document).filter _).imp ?_)
      exact fun hrs => before_of_location_lt List.mem_cons_self List.mem_cons_self hrs
    · rw [hfound.mem_iff, List.mem_map]
      simp only [List.mem_singleton, exists_eq_left, everyElement, Path.Reaches, if_true,
        List.mem_filter, and_assoc]
      refine (chain_every hkeep).trans (exists_congr fun r => ?_)
      rw [chain_nil]
  unfold elements Node.named
  rw [hselected, ← Place.map_node_descendants_top, List.filter_filter, List.filter_map,
    List.filterMap_map, ← List.filterMap_eq_map]
  simp only [Bool.and_comm, Function.comp_def, Item.place?, Option.map_some]

def linksIn (category : String) (nodes : List Node) : List Node :=
  (Node.named "document-link" nodes).filter (Node.isInCategory category)

/-- The titles of the sector strategy papers are those of all links of one category, and those of
links of another one directly below the context. -/
theorem any_sectorTitles (hcontext : context.LiesIn document) (passes : String → Bool) :
    ((selectAll (.ofDocument document) sectorTitlePaths context).map Item.stringValue).any passes =
      ((linksIn "B11" document.inside).any (fun link => link.titles.any passes) ||
        (linksIn "B12" context.node.children).any fun link => link.titles.any passes) := by
  have hfound := (within_ofDocument document).denotes_selectAll hcontext sectorTitlePaths
  have hcategory (category : String) := decides_compares document "category" "code" category
  have hbelow : ∀ r ∈ (Place.top document).descendants, r.LiesIn document :=
    fun r hr => (Place.mem_descendants_top.1 hr).1
  have hchildren : ∀ r ∈ context.children, r.LiesIn document :=
    fun r hr => Place.liesIn_of_mem_children hcontext hr
  have hlinks (category : String) (nodes : List Node) : linksIn category nodes =
      nodes.filter fun n => n.isNamed "document-link" && n.isInCategory category := by
    unfold linksIn Node.named
    rw [List.filter_filter]
    simp only [Bool.and_comm]
  have hreaches (x : Item) :
      x ∈ selectAll (.ofDocument document) sectorTitlePaths context ↔
        (∃ r ∈ (Place.top document).descendants,
          (r.node.isNamed "document-link" && r.node.isInCategory "B11") = true ∧
            Chain (.ofDocument document) titleSteps (.node r) x) ∨
        ∃ r ∈ context.children,
          (r.node.isNamed "document-link" && r.node.isInCategory "B12") = true ∧
            Chain (.ofDocument document) titleSteps (.node r) x := by
    rw [hfound.mem_iff]
    simp only [sectorTitlePaths, List.mem_cons, List.not_mem_nil, or_false, exists_eq_or_imp,
      exists_eq_left, Path.Reaches, if_true, Bool.false_eq_true, if_false]
    exact or_congr (chain_every (hcategory "B11")) (chain_child (hcategory "B12") hcontext)
  rw [Bool.eq_iff_iff, List.any_map, List.any_eq_true, Bool.or_eq_true,
    ← Place.map_node_descendants_top, ← Place.map_node_children]
  rw [hlinks, hlinks, ← exists_chain_titles_of hbelow, ← exists_chain_titles_of hchildren]
  simp only [hreaches, or_and_right, exists_or]
  rfl

end Metric

end DataQuality
