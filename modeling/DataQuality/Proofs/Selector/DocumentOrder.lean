import DataQuality.Proofs.Selector.Twins
import Mathlib.Data.List.Lex
import Mathlib.Data.List.Sort
import Mathlib.Data.Prod.Lex

/-!
# Document order

The locations of a document are ordered as words are, and items by their location and
then by their rank among the node and its attributes. A document, read from its root
down, lists its items in that order: each node before its attributes, these in the
order of their slots, and both before what is below the node. An item of a document is
determined by its key, so bringing items in order neither loses nor confuses any.
-/
namespace DataQuality

namespace Markup.Place

theorem sizeOf_children_le (n : Node) : sizeOf n.children ≤ sizeOf n := by
  cases n <;> simp [Node.children]
  omega

/-- A node comes first, and what is below it follows. -/
theorem below_eq (location : List Nat) (n : Node) :
    below location n = ⟨location, n⟩ :: belowAll location 0 n.children := by
  cases n <;> simp [below, belowAll, Node.children]

mutual

/-- What is at and below a node stands at the end of a way down from it. -/
theorem mem_below {location : List Nat} {n : Node} {p : Place} :
    p ∈ below location n ↔ ∃ path, n.at? path = some p.node ∧ p.location = location ++ path := by
  rw [below_eq, List.mem_cons, mem_belowAll]
  constructor
  · rintro (rfl | ⟨j, c, path, hc, hp, hlocation⟩)
    · exact ⟨[], rfl, (List.append_nil location).symm⟩
    · refine ⟨j :: path, ?_, ?_⟩
      · rw [Node.at?, hc, Option.bind_some, hp]
      · rw [hlocation, Nat.zero_add]
  · rintro ⟨path, hp, hlocation⟩
    cases path with
    | nil =>
      obtain ⟨way, m⟩ := p
      left
      rw [Node.at?_nil, Option.some_inj] at hp
      rw [List.append_nil] at hlocation
      rw [hp, show way = location from hlocation]
    | cons j path =>
      right
      obtain ⟨c, hc, hp⟩ := Option.bind_eq_some_iff.1 hp
      exact ⟨j, c, path, hc, hp, by rw [hlocation, Nat.zero_add]⟩
  termination_by (sizeOf n, 1)
  decreasing_by
    have := sizeOf_children_le n
    grind

theorem mem_belowAll {location : List Nat} {i : Nat} {cs : List Node} {p : Place} :
    p ∈ belowAll location i cs ↔ ∃ j c path, cs[j]? = some c ∧ c.at? path = some p.node ∧
      p.location = location ++ (i + j) :: path := by
  match cs with
  | [] => simp [belowAll]
  | c :: rest =>
    rw [belowAll, List.mem_append, mem_below, mem_belowAll]
    constructor
    · rintro (⟨path, hp, hlocation⟩ | ⟨j, d, path, hd, hp, hlocation⟩)
      · exact ⟨0, c, path, rfl, hp, by simp [hlocation]⟩
      · refine ⟨j + 1, d, path, hd, hp, ?_⟩
        rw [hlocation, Nat.add_right_comm, Nat.add_assoc]
    · rintro ⟨j, d, path, hd, hp, hlocation⟩
      cases j with
      | zero =>
        obtain rfl : c = d := Option.some_inj.1 hd
        exact .inl ⟨path, hp, by simp [hlocation]⟩
      | succ j =>
        refine .inr ⟨j, d, path, hd, hp, ?_⟩
        rw [hlocation, Nat.add_right_comm, Nat.add_assoc]
  termination_by (sizeOf cs, 0)

end

/-- The places at and below a place of a document are places of the document. -/
theorem liesIn_of_mem_descendantsOrSelf {document : Node} {p q : Place} (hp : p.LiesIn document)
    (hq : q ∈ p.descendantsOrSelf) : q.LiesIn document := by
  obtain ⟨path, hat, hlocation⟩ := mem_below.1 hq
  unfold LiesIn
  rw [hlocation, at?_append, hp, Option.bind_some, hat]

theorem mem_descendantsOrSelf_top {document : Node} {p : Place} :
    p ∈ (top document).descendantsOrSelf ↔ p.LiesIn document := by
  constructor
  · exact liesIn_of_mem_descendantsOrSelf rfl
  · intro hp
    exact mem_below.2 ⟨p.location, hp, rfl⟩

theorem mem_enumerate {location : List Nat} {i : Nat} {cs : List Node} {p : Place} :
    p ∈ enumerate location i cs ↔ ∃ j, cs[j]? = some p.node ∧ p.location = location ++ [i + j] := by
  induction cs generalizing i with
  | nil => simp [enumerate]
  | cons c rest ih =>
    rw [enumerate, List.mem_cons, ih]
    constructor
    · rintro (rfl | ⟨j, hj, hlocation⟩)
      · exact ⟨0, rfl, rfl⟩
      · exact ⟨j + 1, hj, by rw [hlocation, Nat.add_right_comm, Nat.add_assoc]⟩
    · rintro ⟨j, hj, hlocation⟩
      cases j with
      | zero =>
        obtain rfl : c = p.node := Option.some_inj.1 hj
        exact .inl (by rw [← Nat.add_zero i, ← hlocation])
      | succ j => exact .inr ⟨j, hj, by rw [hlocation, Nat.add_right_comm, Nat.add_assoc]⟩

theorem mem_children {p q : Place} :
    q ∈ p.children ↔ ∃ i, p.node.children[i]? = some q.node ∧ q.location = p.location ++ [i] := by
  rw [children, mem_enumerate]
  simp only [Nat.zero_add]

theorem liesIn_of_mem_children {document : Node} {p q : Place} (hp : p.LiesIn document)
    (hq : q ∈ p.children) : q.LiesIn document := by
  obtain ⟨i, hi, hlocation⟩ := mem_children.1 hq
  unfold LiesIn
  rw [hlocation, at?_append, hp, Option.bind_some, Node.at?, hi]
  rfl

/-- What is below a place stands at the end of a way down from it that has a step. -/
theorem mem_descendants_iff {p q : Place} :
    q ∈ p.descendants ↔
      ∃ path, path ≠ [] ∧ p.node.at? path = some q.node ∧ q.location = p.location ++ path := by
  have htail : p.descendants = belowAll p.location 0 p.node.children := by
    rw [descendants, descendantsOrSelf, below_eq]
    rfl
  rw [htail, mem_belowAll]
  constructor
  · rintro ⟨j, c, path, hc, hat, hlocation⟩
    refine ⟨j :: path, List.cons_ne_nil j path, ?_, by rw [hlocation, Nat.zero_add]⟩
    rw [Node.at?, hc, Option.bind_some, hat]
  · rintro ⟨path, hne, hat, hlocation⟩
    obtain ⟨j, path, rfl⟩ := List.exists_cons_of_ne_nil hne
    obtain ⟨c, hc, hat⟩ := Option.bind_eq_some_iff.1 hat
    exact ⟨j, c, path, hc, hat, by rw [hlocation, Nat.zero_add]⟩

theorem mem_descendantsOrSelf_iff {p q : Place} :
    q ∈ p.descendantsOrSelf ↔ q = p ∨ q ∈ p.descendants := by
  rw [descendants, descendantsOrSelf, below_eq, List.mem_cons, List.tail_cons]

/-- What is below a place is a child of something at or below it. -/
theorem mem_descendants {p q : Place} :
    q ∈ p.descendants ↔ ∃ m ∈ p.descendantsOrSelf, q ∈ m.children := by
  rw [mem_descendants_iff]
  constructor
  · rintro ⟨path, hne, hat, hlocation⟩
    obtain ⟨way, i, rfl⟩ := List.eq_nil_or_concat' path |>.resolve_left hne
    rw [at?_append] at hat
    obtain ⟨n, hn, hat⟩ := Option.bind_eq_some_iff.1 hat
    obtain ⟨c, hc, hat⟩ := Option.bind_eq_some_iff.1 hat
    obtain rfl : c = q.node := Option.some_inj.1 hat
    refine ⟨⟨p.location ++ way, n⟩, mem_below.2 ⟨way, hn, rfl⟩, mem_children.2 ⟨i, hc, ?_⟩⟩
    rw [hlocation, List.append_assoc]
  · rintro ⟨m, hm, hq⟩
    obtain ⟨way, hn, hway⟩ := mem_below.1 hm
    obtain ⟨i, hc, hlocation⟩ := mem_children.1 hq
    refine ⟨way ++ [i], by simp, ?_, by rw [hlocation, hway, List.append_assoc]⟩
    rw [at?_append, hn, Option.bind_some, Node.at?, hc]
    rfl

theorem locationBefore_iff (a b : List Nat) : Selector.locationBefore a b = true ↔ a < b := by
  induction a generalizing b with
  | nil => cases b <;> simp [Selector.locationBefore]
  | cons i rest ih => cases b <;> simp [Selector.locationBefore, ih, List.cons_lt_cons_iff]

/-- A common way down does not matter to the order. -/
theorem append_lt_append (location a b : List Nat) : location ++ a < location ++ b ↔ a < b := by
  rw [← locationBefore_iff, Selector.locationBefore_append, locationBefore_iff]

theorem lt_append_cons (location : List Nat) (i : Nat) (path : List Nat) :
    location < location ++ i :: path := by
  have hbefore := Selector.locationBefore_below location (i :: path) (by simp)
  exact (locationBefore_iff _ _).1 hbefore.1

mutual

theorem pairwise_below (location : List Nat) (n : Node) :
    (below location n).Pairwise fun p q => p.location < q.location := by
  rw [below_eq]
  refine List.Pairwise.cons ?_ (pairwise_belowAll location 0 n.children)
  intro q hq
  obtain ⟨j, c, path, -, -, hlocation⟩ := mem_belowAll.1 hq
  rw [hlocation]
  exact lt_append_cons location (0 + j) path
  termination_by (sizeOf n, 1)
  decreasing_by
    have := sizeOf_children_le n
    grind

theorem pairwise_belowAll (location : List Nat) (i : Nat) (cs : List Node) :
    (belowAll location i cs).Pairwise fun p q => p.location < q.location := by
  match cs with
  | [] => exact .nil
  | c :: rest =>
    rw [belowAll, List.pairwise_append]
    refine ⟨pairwise_below _ c, pairwise_belowAll location (i + 1) rest, ?_⟩
    intro p hp q hq
    obtain ⟨path, -, hlocation⟩ := mem_below.1 hp
    obtain ⟨j, d, path', -, -, hlocation'⟩ := mem_belowAll.1 hq
    rw [hlocation, hlocation', List.append_assoc, List.singleton_append]
    rw [append_lt_append, List.cons_lt_cons_iff]
    left
    omega
  termination_by (sizeOf cs, 0)

end

end Markup.Place

namespace Selector

open Markup

theorem keyLe_iff (a b : List Nat × Nat) : keyLe a b = true ↔ toLex a ≤ toLex b := by
  simp [keyLe, Prod.Lex.toLex_le_toLex, Place.locationBefore_iff]

namespace Item

/-- The item comes strictly before the other in document order. -/
def Before (x y : Item) : Prop := toLex x.key < toLex y.key

def LiesIn (document : Node) : Item → Prop
  | node p => p.LiesIn document
  | attr p slot a => p.LiesIn document ∧ p.node.attributes[slot]? = some a

/-- An item of a document is determined by its key. -/
theorem eq_of_key_eq {document : Node} {x y : Item} (hx : x.LiesIn document)
    (hy : y.LiesIn document) (h : x.key = y.key) : x = y := by
  have hplaces {p q : Place} (hp : p.LiesIn document) (hq : q.LiesIn document)
      (h : p.location = q.location) : p = q := by
    obtain ⟨location, n⟩ := p
    obtain ⟨location', m⟩ := q
    obtain rfl : location = location' := h
    obtain rfl : n = m := Option.some_inj.1 (hp.symm.trans hq)
    rfl
  cases x with
  | node p =>
    cases y with
    | node q => rw [hplaces hx hy (Prod.ext_iff.1 h).1]
    | attr q slot b => cases (Prod.ext_iff.1 h).2
  | attr p slot a =>
    cases y with
    | node q => cases (Prod.ext_iff.1 h).2
    | attr q slot' b =>
      obtain rfl : p = q := hplaces hx.1 hy.1 (Prod.ext_iff.1 h).1
      obtain rfl : slot = slot' := Nat.succ.inj (Prod.ext_iff.1 h).2
      obtain rfl : a = b := Option.some_inj.1 (hx.2.symm.trans hy.2)
      rfl

end Item

/-- A node and its attributes, in the order of their slots. -/
def itemsAt (p : Place) : List Item := .node p :: p.node.attributes.mapIdx (.attr p)

/-- Everything in a document, from the root down: each node, its attributes, and then
what is below it. -/
def everything (document : Node) : List Item :=
  (Place.top document).descendantsOrSelf.flatMap itemsAt

theorem mem_itemsAt {p : Place} {x : Item} :
    x ∈ itemsAt p ↔
      x = .node p ∨ ∃ slot a, p.node.attributes[slot]? = some a ∧ x = .attr p slot a := by
  unfold itemsAt
  rw [List.mem_cons, List.mem_mapIdx]
  constructor
  · rintro (hx | ⟨slot, hslot, rfl⟩)
    · exact .inl hx
    · exact .inr ⟨slot, _, List.getElem?_eq_getElem hslot, rfl⟩
  · rintro (hx | ⟨slot, a, ha, rfl⟩)
    · exact .inl hx
    · obtain ⟨hslot, rfl⟩ := List.getElem?_eq_some_iff.1 ha
      exact .inr ⟨slot, hslot, rfl⟩

/-- A document lists its items, and nothing else. -/
theorem mem_everything {document : Node} {x : Item} :
    x ∈ everything document ↔ x.LiesIn document := by
  simp only [everything, List.mem_flatMap, Place.mem_descendantsOrSelf_top, mem_itemsAt]
  constructor
  · rintro ⟨p, hp, rfl | ⟨slot, a, ha, rfl⟩⟩
    · exact hp
    · exact ⟨hp, ha⟩
  · cases x with
    | node p =>
      intro hp
      exact ⟨p, hp, .inl rfl⟩
    | attr p slot a =>
      rintro ⟨hp, ha⟩
      exact ⟨p, hp, .inr ⟨slot, a, ha, rfl⟩⟩

theorem before_of_location_lt {p q : Place} {x y : Item} (hx : x ∈ itemsAt p) (hy : y ∈ itemsAt q)
    (h : p.location < q.location) : x.Before y := by
  have hlocation {p : Place} {x : Item} (hx : x ∈ itemsAt p) : x.key.1 = p.location := by
    rcases mem_itemsAt.1 hx with rfl | ⟨slot, a, -, rfl⟩ <;> rfl
  refine Prod.Lex.toLex_lt_toLex.2 (.inl ?_)
  rwa [hlocation hx, hlocation hy]

/-- A node comes before its attributes, and these come in the order of their slots. -/
theorem pairwise_itemsAt (p : Place) : (itemsAt p).Pairwise Item.Before := by
  refine List.Pairwise.cons ?_ ?_
  · intro x hx
    obtain ⟨slot, hslot, rfl⟩ := List.mem_mapIdx.1 hx
    exact Prod.Lex.toLex_lt_toLex.2 (.inr ⟨rfl, Nat.succ_pos slot⟩)
  · rw [List.pairwise_iff_getElem]
    intro i j hi hj hij
    simp only [List.getElem_mapIdx]
    exact Prod.Lex.toLex_lt_toLex.2 (.inr ⟨rfl, Nat.succ_lt_succ hij⟩)

/-- A document lists its items in document order. -/
theorem pairwise_everything (document : Node) : (everything document).Pairwise Item.Before := by
  refine List.pairwise_flatMap.2 ⟨fun p _ => pairwise_itemsAt p, ?_⟩
  refine (Place.pairwise_below [] document).imp ?_
  intro p q hpq x hx y hy
  exact before_of_location_lt hx hy hpq

instance : Std.Irrefl Item.Before := ⟨fun x => lt_irrefl (toLex x.key)⟩

instance : Std.Antisymm Item.Before := ⟨fun _ _ hxy hyx => absurd hyx (lt_asymm hxy)⟩

/-- Items of a document that come in document order are a part of its listing. -/
theorem sublist_everything {document : Node} {items : List Item}
    (h : items.Pairwise Item.Before) (hlies : ∀ x ∈ items, x.LiesIn document) :
    items.Sublist (everything document) := by
  refine List.sublist_of_subperm_of_pairwise ?_ h (pairwise_everything document)
  exact List.subperm_of_subset h.nodup fun x hx => mem_everything.2 (hlies x hx)

section InOrder

variable {items : List Item}

theorem mem_of_mem_dropRepeated {x : Item} (h : x ∈ dropRepeated items) : x ∈ items := by
  induction items using dropRepeated.induct with
  | case1 => rwa [dropRepeated] at h
  | case2 y => rwa [dropRepeated] at h
  | case3 y z rest hyz ih =>
    rw [dropRepeated, if_pos hyz] at h
    rcases List.mem_cons.1 (ih h) with rfl | hx
    · exact List.mem_cons_self
    · exact List.mem_cons_of_mem y (List.mem_cons_of_mem z hx)
  | case4 y z rest hyz ih =>
    rw [dropRepeated, if_neg hyz] at h
    rcases List.mem_cons.1 h with rfl | hx
    · exact List.mem_cons_self
    · exact List.mem_cons_of_mem y (ih hx)

/-- Of the items with one key, one stays. -/
theorem exists_mem_dropRepeated {x : Item} (h : x ∈ items) :
    ∃ y ∈ dropRepeated items, y.key = x.key := by
  induction items using dropRepeated.induct generalizing x with
  | case1 => cases h
  | case2 y =>
    rw [dropRepeated]
    exact ⟨x, h, rfl⟩
  | case3 y z rest hyz ih =>
    rw [dropRepeated, if_pos hyz]
    rcases List.mem_cons.1 h with rfl | hx
    · exact ih List.mem_cons_self
    · rcases List.mem_cons.1 hx with rfl | hx
      · obtain ⟨w, hw, hkey⟩ := ih List.mem_cons_self
        exact ⟨w, hw, hkey.trans (beq_iff_eq.1 hyz)⟩
      · exact ih (List.mem_cons_of_mem y hx)
  | case4 y z rest hyz ih =>
    rw [dropRepeated, if_neg hyz]
    rcases List.mem_cons.1 h with rfl | hx
    · exact ⟨x, List.mem_cons_self, rfl⟩
    · obtain ⟨w, hw, hkey⟩ := ih hx
      exact ⟨w, List.mem_cons_of_mem y hw, hkey⟩

/-- Without the items that repeat the one before them, an ordered list increases
strictly. -/
theorem pairwise_dropRepeated (h : items.Pairwise fun x y => toLex x.key ≤ toLex y.key) :
    (dropRepeated items).Pairwise Item.Before := by
  induction items using dropRepeated.induct with
  | case1 =>
    rw [dropRepeated]
    exact .nil
  | case2 y =>
    rw [dropRepeated]
    exact List.pairwise_singleton _ y
  | case3 y z rest hyz ih =>
    rw [dropRepeated, if_pos hyz]
    exact ih (h.sublist (List.Sublist.cons_cons y (List.sublist_cons_self z rest)))
  | case4 y z rest hyz ih =>
    rw [dropRepeated, if_neg hyz]
    obtain ⟨hy, hrest⟩ := List.pairwise_cons.1 h
    refine List.Pairwise.cons ?_ (ih hrest)
    have hlt : toLex y.key < toLex z.key := by
      refine lt_of_le_of_ne (hy z List.mem_cons_self) ?_
      intro hkey
      exact hyz (beq_iff_eq.2 (toLex.injective hkey))
    intro w hw
    rcases List.mem_cons.1 (mem_of_mem_dropRepeated hw) with rfl | hw
    · exact hlt
    · exact lt_of_lt_of_le hlt ((List.pairwise_cons.1 hrest).1 w hw)

/-- Items brought in order increase strictly. -/
theorem pairwise_inOrder (items : List Item) : (inOrder items).Pairwise Item.Before := by
  refine pairwise_dropRepeated ?_
  have htrans (x y z : Item) (hxy : keyLe x.key y.key = true) (hyz : keyLe y.key z.key = true) :
      keyLe x.key z.key = true := by
    rw [keyLe_iff] at hxy hyz ⊢
    exact le_trans hxy hyz
  have htotal (x y : Item) : (keyLe x.key y.key || keyLe y.key x.key) = true := by
    rw [Bool.or_eq_true, keyLe_iff, keyLe_iff]
    exact le_total _ _
  exact (List.pairwise_mergeSort htrans htotal items).imp fun hxy => (keyLe_iff _ _).1 hxy

theorem mem_of_mem_inOrder {x : Item} (h : x ∈ inOrder items) : x ∈ items :=
  List.mem_mergeSort.1 (mem_of_mem_dropRepeated h)

/-- Bringing items of a document in order keeps each of them. -/
theorem mem_inOrder {document : Node} (hlies : ∀ x ∈ items, x.LiesIn document) {x : Item} :
    x ∈ inOrder items ↔ x ∈ items := by
  constructor
  · exact mem_of_mem_inOrder
  · intro hx
    obtain ⟨y, hy, hkey⟩ := exists_mem_dropRepeated (List.mem_mergeSort.2 hx)
    have hyitems : y ∈ items := mem_of_mem_inOrder hy
    rwa [Item.eq_of_key_eq (hlies y hyitems) (hlies x hx) hkey] at hy

/-- In order, lists of the same items of a document are the same. -/
theorem inOrder_eq_of_mem_iff {document : Node} {others : List Item}
    (hlies : ∀ x ∈ items, x.LiesIn document) (h : ∀ x, x ∈ items ↔ x ∈ others) :
    inOrder items = inOrder others := by
  refine List.Pairwise.eq_of_mem_iff (pairwise_inOrder items) (pairwise_inOrder others) ?_
  intro x
  rw [mem_inOrder hlies, mem_inOrder fun y hy => hlies y ((h y).2 hy), h x]

end InOrder

end Selector

end DataQuality
