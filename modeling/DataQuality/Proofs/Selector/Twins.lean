import DataQuality.Selector.Selection
import Mathlib.Data.List.Forall2
import Mathlib.Tactic

/-!
# Units that look the same

Two units hold the same node, each in a document of its own. What can be reached
from one unit corresponds to what can be reached from the other: the nodes in the
units stand at the same ways down, and above each unit stands its parent. If the
parents have the same name and the same string-value, every path finds
corresponding items from corresponding places. Putting lists of such items in order keeps
them corresponding: the order is compared, not the keys, so it does not matter that they
stand in different documents.
-/
namespace DataQuality

namespace Markup.Place

def LiesIn (document : Node) (p : Place) : Prop := document.at? p.location = some p.node

theorem at?_append (n : Node) (way path : List Nat) :
    n.at? (way ++ path) = (n.at? way).bind (·.at? path) := by
  induction way generalizing n with
  | nil => rfl
  | cons i rest ih =>
    simp only [List.cons_append, Node.at?]
    cases n.children[i]? with
    | none => rfl
    | some child => exact ih child

/-- The first of the children from the one at `i` on, and the rest of them. -/
theorem at?_child {top n c : Node} {path : List Nat} {i : Nat} {rest : List Node}
    (hn : top.at? path = some n) (h : n.children.drop i = c :: rest) :
    top.at? (path ++ [i]) = some c ∧ n.children.drop (i + 1) = rest := by
  have hc : n.children[i]? = some c := by
    rw [← List.head?_drop, h]
    rfl
  constructor
  · rw [at?_append, hn, Option.bind_some, Node.at?, hc]
    rfl
  · rw [← List.tail_drop, h]
    rfl

/-- The place above is one of the document, and the way to it is one step shorter. -/
theorem parent?_eq_some {document : Node} {p above : Place} (h : p.parent? document = some above) :
    above.LiesIn document ∧ ∃ i, p.location = above.location ++ [i] := by
  unfold parent? at h
  split at h
  · cases h
  · rename_i hne
    obtain ⟨n, hn, rfl⟩ := Option.map_eq_some_iff.1 h
    have hlocation : p.location ≠ [] := fun he => hne he
    exact ⟨hn, p.location.getLast hlocation, (List.dropLast_concat_getLast hlocation).symm⟩

theorem parent?_concat (document : Node) (way : List Nat) (i : Nat) (n : Node) :
    parent? document ⟨way ++ [i], n⟩ = (document.at? way).map fun m => ⟨way, m⟩ := by
  have hne : way ++ [i] ≠ [] := by simp
  unfold parent?
  split
  · rename_i h
    exact absurd h hne
  · simp

end Markup.Place

namespace Selector

theorem isEmpty_eq_of_forall₂ {α β : Type} {R : α → β → Prop} {as : List α} {bs : List β}
    (h : List.Forall₂ R as bs) : as.isEmpty = bs.isEmpty := by
  cases h <;> rfl

/-- Corresponding lists count alike what corresponding elements agree about. -/
theorem countP_eq_of_forall₂ {α β : Type} {R : α → β → Prop} {f : α → Bool} {g : β → Bool}
    (hfg : ∀ a b, R a b → f a = g b) {as : List α} {bs : List β} (h : List.Forall₂ R as bs) :
    as.countP f = bs.countP g := by
  induction h with
  | nil => rfl
  | cons hab _ ih => rw [List.countP_cons, List.countP_cons, ih, hfg _ _ hab]

theorem any_eq_of_forall₂ {α β : Type} {R : α → β → Prop} {f : α → Bool} {g : β → Bool}
    (hfg : ∀ a b, R a b → f a = g b) {as : List α} {bs : List β} (h : List.Forall₂ R as bs) :
    as.any f = bs.any g := by
  induction h with
  | nil => rfl
  | cons hab _ ih => rw [List.any_cons, List.any_cons, ih, hfg _ _ hab]

/-- Lists that correspond stay so when both are sorted, if corresponding elements
compare alike. -/
theorem forall₂_mergeSort {α β : Type} {R : α → β → Prop} {le : α → α → Bool}
    {le' : β → β → Bool} (hle : ∀ a a' b b', R a b → R a' b' → le a a' = le' b b')
    {as : List α} {bs : List β} (h : List.Forall₂ R as bs) :
    List.Forall₂ R (as.mergeSort le) (bs.mergeSort le') := by
  have hlength : as.length = bs.length := h.length_eq
  have hfst : (as.zip bs).map Prod.fst = as := List.map_fst_zip (le_of_eq hlength)
  have hsnd : (as.zip bs).map Prod.snd = bs := List.map_snd_zip (ge_of_eq hlength)
  have hpairs : ∀ x ∈ as.zip bs, R x.1 x.2 := fun x hx => List.forall₂_zip h hx
  let sorted := (as.zip bs).mergeSort fun x y => le x.1 y.1
  have has : as.mergeSort le = sorted.map Prod.fst := by
    rw [List.map_mergeSort (s := le) fun _ _ _ _ => rfl, hfst]
  have hbs : bs.mergeSort le' = sorted.map Prod.snd := by
    have hsame : ∀ x ∈ as.zip bs, ∀ y ∈ as.zip bs, le x.1 y.1 = le' x.2 y.2 :=
      fun x hx y hy => hle _ _ _ _ (hpairs x hx) (hpairs y hy)
    rw [List.map_mergeSort (s := le') hsame, hsnd]
  rw [has, hbs, List.forall₂_map_left_iff, List.forall₂_map_right_iff, List.forall₂_same]
  intro x hx
  exact hpairs x (List.mem_mergeSort.1 hx)

/-- Dropping repeated items keeps lists corresponding, if corresponding items
repeat together. -/
theorem forall₂_dropRepeated {R : Item → Item → Prop}
    (hkey : ∀ x x' y y', R x y → R x' y' → (x.key == x'.key) = (y.key == y'.key))
    {xs ys : List Item} (h : List.Forall₂ R xs ys) :
    List.Forall₂ R (dropRepeated xs) (dropRepeated ys) := by
  induction xs using dropRepeated.induct generalizing ys with
  | case1 =>
    rw [List.forall₂_nil_left_iff.1 h, dropRepeated_nil]
    exact .nil
  | case2 x =>
    obtain ⟨y, rest, hx, hrest, rfl⟩ := List.forall₂_cons_left_iff.1 h
    rw [List.forall₂_nil_left_iff.1 hrest, dropRepeated, dropRepeated]
    exact .cons hx .nil
  | case3 x x' rest hxx ih =>
    obtain ⟨y, ys', hx, h', rfl⟩ := List.forall₂_cons_left_iff.1 h
    obtain ⟨y', rest', hx', hrest, rfl⟩ := List.forall₂_cons_left_iff.1 h'
    have hyy : (y.key == y'.key) = true := by rw [← hkey x x' y y' hx hx', hxx]
    rw [dropRepeated, if_pos hxx, dropRepeated, if_pos hyy]
    exact ih (.cons hx hrest)
  | case4 x x' rest hxx ih =>
    obtain ⟨y, ys', hx, h', rfl⟩ := List.forall₂_cons_left_iff.1 h
    obtain ⟨y', rest', hx', hrest, rfl⟩ := List.forall₂_cons_left_iff.1 h'
    have hyy : ¬ (y.key == y'.key) = true := by rwa [← hkey x x' y y' hx hx']
    rw [dropRepeated, if_neg hxx, dropRepeated, if_neg hyy]
    exact .cons hx (ih h')

/-- Corresponding lists correspond in document order. -/
theorem forall₂_inOrder {R : Item → Item → Prop}
    (hle : ∀ x x' y y', R x y → R x' y' → keyLe x.key x'.key = keyLe y.key y'.key)
    (hkey : ∀ x x' y y', R x y → R x' y' → (x.key == x'.key) = (y.key == y'.key))
    {xs ys : List Item} (h : List.Forall₂ R xs ys) :
    List.Forall₂ R (inOrder xs) (inOrder ys) :=
  forall₂_dropRepeated hkey (forall₂_mergeSort hle h)

@[simp] theorem locationBefore_self (location : List Nat) :
    locationBefore location location = false := by
  induction location with
  | nil => rfl
  | cons i rest ih => simp [locationBefore, ih]

/-- A common way down does not matter to the order. -/
@[simp] theorem locationBefore_append (location a b : List Nat) :
    locationBefore (location ++ a) (location ++ b) = locationBefore a b := by
  induction location with
  | nil => rfl
  | cons i rest ih => simp [locationBefore, ih]

/-- A place comes before those below it, and not after them. -/
theorem locationBefore_below (location path : List Nat) (h : path ≠ []) :
    locationBefore location (location ++ path) = true ∧
      locationBefore (location ++ path) location = false := by
  obtain ⟨i, rest, rfl⟩ := List.exists_cons_of_ne_nil h
  have hbefore := locationBefore_append location [] (i :: rest)
  have hafter := locationBefore_append location (i :: rest) []
  rw [List.append_nil] at hbefore hafter
  exact ⟨hbefore, hafter⟩

open Markup

variable {d₁ d₂ : Node} {u₁ u₂ a₁ a₂ : Place}

/-- Two units with the same node below parents that look the same. -/
structure LookAlike (d₁ d₂ : Node) (u₁ u₂ a₁ a₂ : Place) : Prop where
  node : u₁.node = u₂.node
  first : u₁.LiesIn d₁
  second : u₂.LiesIn d₂
  above₁ : u₁.parent? d₁ = some a₁
  above₂ : u₂.parent? d₂ = some a₂
  name : a₁.node.elementName? = a₂.node.elementName?
  text : a₁.node.stringValue = a₂.node.stringValue

/-- Corresponding places: the parents, and places in the units at the same way down. -/
inductive Twin (u₁ u₂ a₁ a₂ : Place) : Place → Place → Prop
  | above : Twin u₁ u₂ a₁ a₂ a₁ a₂
  | inside (path : List Nat) (n : Node) (h : u₁.node.at? path = some n) :
    Twin u₁ u₂ a₁ a₂ ⟨u₁.location ++ path, n⟩ ⟨u₂.location ++ path, n⟩

/-- Corresponding items: nodes at corresponding places, and attributes of one node
in the units. -/
inductive ItemTwin (u₁ u₂ a₁ a₂ : Place) : Item → Item → Prop
  | node {p q : Place} (h : Twin u₁ u₂ a₁ a₂ p q) : ItemTwin u₁ u₂ a₁ a₂ (.node p) (.node q)
  | attr {p q : Place} (h : Twin u₁ u₂ a₁ a₂ p q) (slot : Nat) (a : Attribute) :
    ItemTwin u₁ u₂ a₁ a₂ (.attr p slot a) (.attr q slot a)

/-- Corresponding places stand in the same order. -/
theorem LookAlike.locations (h : LookAlike d₁ d₂ u₁ u₂ a₁ a₂) {p p' q q' : Place}
    (hp : Twin u₁ u₂ a₁ a₂ p q) (hp' : Twin u₁ u₂ a₁ a₂ p' q') :
    locationBefore p.location p'.location = locationBefore q.location q'.location ∧
      (p.location = p'.location ↔ q.location = q'.location) := by
  obtain ⟨-, i, hi⟩ := Place.parent?_eq_some h.above₁
  obtain ⟨-, j, hj⟩ := Place.parent?_eq_some h.above₂
  cases hp with
  | above =>
    cases hp' with
    | above => simp
    | inside path n hn =>
      have h₁ := locationBefore_below a₁.location (i :: path) (by simp)
      have h₂ := locationBefore_below a₂.location (j :: path) (by simp)
      simp [hi, hj, h₁.1, h₂.1]
  | inside path n hn =>
    cases hp' with
    | above =>
      have h₁ := locationBefore_below a₁.location (i :: path) (by simp)
      have h₂ := locationBefore_below a₂.location (j :: path) (by simp)
      simp [hi, hj, h₁.2, h₂.2]
    | inside path' n' hn' => simp

/-- Something above a place of a document has that place below it, so it is no text. -/
theorem not_isText_of_parent {d : Node} {u a : Place} (hu : u.LiesIn d)
    (ha : u.parent? d = some a) : a.node.isText = false := by
  obtain ⟨hlies, i, hi⟩ := Place.parent?_eq_some ha
  have hchild : a.node.at? [i] = some u.node := by
    have hat : d.at? (a.location ++ [i]) = some u.node := by rw [← hi]; exact hu
    rwa [Place.at?_append, hlies, Option.bind_some] at hat
  cases hn : a.node with
  | text s =>
    rw [hn] at hchild
    cases hchild
  | _ => rfl

namespace LookAlike

/-- Corresponding places pass the same tests. -/
theorem admits (h : LookAlike d₁ d₂ u₁ u₂ a₁ a₂) {p q : Place} (hpq : Twin u₁ u₂ a₁ a₂ p q)
    (test : NodeTest) : test.admits p.node = test.admits q.node := by
  cases hpq with
  | above =>
    cases test with
    | name wanted => simp only [NodeTest.admits, Node.isNamed, h.name]
    | anyName => simp only [NodeTest.admits, Node.isElement, h.name]
    | text =>
      simp only [NodeTest.admits]
      rw [not_isText_of_parent h.first h.above₁, not_isText_of_parent h.second h.above₂]
    | anyNode => rfl
  | inside path n hn => rfl

/-- Corresponding items have the same string-value. -/
theorem stringValue (h : LookAlike d₁ d₂ u₁ u₂ a₁ a₂) {x y : Item}
    (hxy : ItemTwin u₁ u₂ a₁ a₂ x y) : x.stringValue = y.stringValue := by
  cases hxy with
  | node hpq =>
    cases hpq with
    | above => exact h.text
    | inside path n hn => rfl
  | attr hpq slot a => rfl

theorem isBlank_of_not_isText {p : Place} (hp : p.node.isText = false) :
    (Item.node p).isBlank = false := by
  obtain ⟨location, n⟩ := p
  cases n with
  | text s => cases hp
  | _ => rfl

/-- Corresponding items are blank together. -/
theorem isBlank (h : LookAlike d₁ d₂ u₁ u₂ a₁ a₂) {x y : Item}
    (hxy : ItemTwin u₁ u₂ a₁ a₂ x y) : x.isBlank = y.isBlank := by
  cases hxy with
  | node hpq =>
    cases hpq with
    | above =>
      rw [isBlank_of_not_isText (not_isText_of_parent h.first h.above₁),
        isBlank_of_not_isText (not_isText_of_parent h.second h.above₂)]
    | inside path n hn => cases n <;> rfl
  | attr hpq slot a => rfl

/-- Corresponding items come in the same order. -/
theorem keys (h : LookAlike d₁ d₂ u₁ u₂ a₁ a₂) {x x' y y' : Item}
    (hxy : ItemTwin u₁ u₂ a₁ a₂ x y) (hxy' : ItemTwin u₁ u₂ a₁ a₂ x' y') :
    keyLe x.key x'.key = keyLe y.key y'.key ∧ (x.key == x'.key) = (y.key == y'.key) := by
  have hplaces {p p' q q' : Place} (hp : Twin u₁ u₂ a₁ a₂ p q) (hp' : Twin u₁ u₂ a₁ a₂ p' q')
      (i j : Nat) : keyLe (p.location, i) (p'.location, j) = keyLe (q.location, i) (q'.location, j) ∧
        ((p.location, i) == (p'.location, j)) = ((q.location, i) == (q'.location, j)) := by
    obtain ⟨hbefore, hsame⟩ := h.locations hp hp'
    have hbeq : (p.location == p'.location) = (q.location == q'.location) := by
      rw [Bool.eq_iff_iff, beq_iff_eq, beq_iff_eq, hsame]
    constructor
    · simp only [keyLe, hbefore, hbeq]
    · change (p.location == p'.location && i == j) = (q.location == q'.location && i == j)
      rw [hbeq]
  cases hxy with
  | node hp => cases hxy' with
    | node hp' => exact hplaces hp hp' 0 0
    | attr hp' slot' a' => exact hplaces hp hp' 0 (slot' + 1)
  | attr hp slot a => cases hxy' with
    | node hp' => exact hplaces hp hp' (slot + 1) 0
    | attr hp' slot' a' => exact hplaces hp hp' (slot + 1) (slot' + 1)

theorem inOrder (h : LookAlike d₁ d₂ u₁ u₂ a₁ a₂) {xs ys : List Item}
    (hxy : List.Forall₂ (ItemTwin u₁ u₂ a₁ a₂) xs ys) :
    List.Forall₂ (ItemTwin u₁ u₂ a₁ a₂) (Selector.inOrder xs) (Selector.inOrder ys) :=
  forall₂_inOrder (fun _ _ _ _ hx hx' => (h.keys hx hx').1) (fun _ _ _ _ hx hx' => (h.keys hx hx').2)
    hxy

end LookAlike

section Axes

variable {path : List Nat} {n : Node}

/-- The children of a node in the unit, from the one at `i` on. -/
theorem twins_enumerate (hn : u₁.node.at? path = some n) (i : Nat) (cs : List Node)
    (hcs : n.children.drop i = cs) :
    List.Forall₂ (Twin u₁ u₂ a₁ a₂) (Place.enumerate (u₁.location ++ path) i cs)
      (Place.enumerate (u₂.location ++ path) i cs) := by
  induction cs generalizing i with
  | nil => exact .nil
  | cons c rest ih =>
    obtain ⟨hat, hrest⟩ := Place.at?_child hn hcs
    simp only [Place.enumerate, List.append_assoc]
    exact .cons (.inside (path ++ [i]) c hat) (ih (i + 1) hrest)

mutual

/-- The places at and below a node in the unit. -/
theorem twins_below (path : List Nat) (n : Node) (hn : u₁.node.at? path = some n) :
    List.Forall₂ (Twin u₁ u₂ a₁ a₂) (Place.below (u₁.location ++ path) n)
      (Place.below (u₂.location ++ path) n) :=
  match n, hn with
  | .root cs, hn => .cons (.inside path _ hn) (twins_belowAll path _ hn 0 cs rfl)
  | .element _ _ cs, hn => .cons (.inside path _ hn) (twins_belowAll path _ hn 0 cs rfl)
  | .text _, hn => .cons (.inside path _ hn) .nil
  | .comment _, hn => .cons (.inside path _ hn) .nil
  | .instruction _ _, hn => .cons (.inside path _ hn) .nil

theorem twins_belowAll (path : List Nat) (n : Node) (hn : u₁.node.at? path = some n) (i : Nat)
    (cs : List Node) (hcs : n.children.drop i = cs) :
    List.Forall₂ (Twin u₁ u₂ a₁ a₂) (Place.belowAll (u₁.location ++ path) i cs)
      (Place.belowAll (u₂.location ++ path) i cs) := by
  match cs, hcs with
  | [], _ => exact .nil
  | c :: rest, hcs =>
    obtain ⟨hat, hrest⟩ := Place.at?_child hn hcs
    simp only [Place.belowAll, List.append_assoc]
    exact List.rel_append (twins_below (path ++ [i]) c hat) (twins_belowAll path n hn (i + 1) rest hrest)

end

/-- What is above a place in the unit is in the unit, or is its parent. -/
theorem LookAlike.twins_parent (h : LookAlike d₁ d₂ u₁ u₂ a₁ a₂) (hn : u₁.node.at? path = some n) :
    List.Forall₂ (Twin u₁ u₂ a₁ a₂) (Place.parent? d₁ ⟨u₁.location ++ path, n⟩).toList
      (Place.parent? d₂ ⟨u₂.location ++ path, n⟩).toList := by
  rcases List.eq_nil_or_concat path with rfl | ⟨way, i, rfl⟩
  · have h₁ : Place.parent? d₁ ⟨u₁.location ++ [], n⟩ = some a₁ := by
      rw [List.append_nil]
      exact h.above₁
    have h₂ : Place.parent? d₂ ⟨u₂.location ++ [], n⟩ = some a₂ := by
      rw [List.append_nil]
      exact h.above₂
    rw [h₁, h₂]
    exact .cons .above .nil
  · rw [List.concat_eq_append] at hn
    obtain ⟨m, hm, -⟩ := Option.bind_eq_some_iff.1 ((Place.at?_append u₁.node way [i]).symm.trans hn)
    have hm₂ : u₂.node.at? way = some m := by rw [← h.node]; exact hm
    rw [List.concat_eq_append, ← List.append_assoc, ← List.append_assoc, Place.parent?_concat,
      Place.parent?_concat, Place.at?_append, Place.at?_append, h.first, h.second]
    simp only [Option.bind_some, hm, hm₂]
    exact .cons (.inside way m hm) .nil

theorem twins_attributes {p q : Place} (hpq : Twin u₁ u₂ a₁ a₂ p q) (test : NodeTest) (slot : Nat)
    (as : List Attribute) :
    List.Forall₂ (ItemTwin u₁ u₂ a₁ a₂) (admittedAttributes test p slot as)
      (admittedAttributes test q slot as) := by
  induction as generalizing slot with
  | nil => exact .nil
  | cons a rest ih =>
    simp only [admittedAttributes]
    by_cases ha : test.admitsAttribute a = true
    · simp only [ha, if_true]
      exact .cons (.attr hpq slot a) (ih (slot + 1))
    · simp only [ha]
      exact ih (slot + 1)

theorem LookAlike.twins_admitted (h : LookAlike d₁ d₂ u₁ u₂ a₁ a₂) (test : NodeTest)
    {ps qs : List Place} (hpq : List.Forall₂ (Twin u₁ u₂ a₁ a₂) ps qs) :
    List.Forall₂ (ItemTwin u₁ u₂ a₁ a₂) (admitted test ps) (admitted test qs) := by
  unfold admitted
  rw [List.forall₂_map_left_iff, List.forall₂_map_right_iff]
  have hfilter := List.rel_filter (R := Twin u₁ u₂ a₁ a₂) (p := fun p => test.admits p.node)
    (q := fun q => test.admits q.node) (fun _ _ hp => iff_of_eq (congrArg (· = true) (h.admits hp test))) hpq
  exact hfilter.imp fun _ _ hp => .node hp

/-- The scope of a unit that has a parent. -/
theorem ofUnit_eq {d : Node} {u a : Place} (ha : u.parent? d = some a) :
    Scope.ofUnit d u = ⟨d, a, some u⟩ := by
  unfold Scope.ofUnit
  rw [ha]

/-- Nothing in the unit is its parent. -/
theorem unitBelow?_inside {d : Node} {u a : Place} (ha : u.parent? d = some a) :
    (Scope.ofUnit d u).unitBelow? ⟨u.location ++ path, n⟩ = none := by
  obtain ⟨-, i, hi⟩ := Place.parent?_eq_some ha
  rw [ofUnit_eq ha]
  unfold Scope.unitBelow?
  rw [if_neg]
  intro he
  have hlength := congrArg List.length he
  simp only [hi, List.length_append, List.length_singleton] at hlength
  omega

theorem unitBelow?_above {d : Node} {u a : Place} (ha : u.parent? d = some a) :
    (Scope.ofUnit d u).unitBelow? a = some u := by
  rw [ofUnit_eq ha]
  unfold Scope.unitBelow?
  rw [if_pos rfl]

/-- The unit corresponds to the other unit. -/
theorem LookAlike.unit (h : LookAlike d₁ d₂ u₁ u₂ a₁ a₂) : Twin u₁ u₂ a₁ a₂ u₁ u₂ := by
  have hinside : Twin u₁ u₂ a₁ a₂ _ _ := .inside [] u₁.node (Node.at?_nil u₁.node)
  rw [List.append_nil, List.append_nil] at hinside
  have hu₂ : (⟨u₂.location, u₁.node⟩ : Place) = u₂ := by rw [h.node]
  rwa [hu₂] at hinside

/-- A step from corresponding places leads to corresponding places. -/
theorem LookAlike.places (h : LookAlike d₁ d₂ u₁ u₂ a₁ a₂) (axis : Axis) {p q : Place}
    (hpq : Twin u₁ u₂ a₁ a₂ p q) :
    List.Forall₂ (Twin u₁ u₂ a₁ a₂) ((Scope.ofUnit d₁ u₁).places axis p)
      ((Scope.ofUnit d₂ u₂).places axis q) := by
  have hunit : List.Forall₂ (Twin u₁ u₂ a₁ a₂) u₁.descendantsOrSelf u₂.descendantsOrSelf := by
    have hbelow : List.Forall₂ (Twin u₁ u₂ a₁ a₂) _ _ :=
      twins_below [] u₁.node (Node.at?_nil u₁.node)
    rw [List.append_nil, List.append_nil] at hbelow
    unfold Place.descendantsOrSelf
    rwa [← h.node]
  cases hpq with
  | above =>
    unfold Scope.places
    rw [unitBelow?_above h.above₁, unitBelow?_above h.above₂]
    cases axis with
    | child => exact .cons h.unit .nil
    | descendant => exact hunit
    | descendantOrSelf => exact .cons .above hunit
    | attributes => exact .nil
    | self => exact .cons .above .nil
    | parent => exact .nil
  | inside path n hn =>
    have hbelow : List.Forall₂ (Twin u₁ u₂ a₁ a₂) _ _ := twins_below path n hn
    unfold Scope.places
    rw [unitBelow?_inside h.above₁, unitBelow?_inside h.above₂]
    cases axis with
    | child => exact twins_enumerate hn 0 _ rfl
    | descendant =>
      unfold Place.descendants Place.descendantsOrSelf
      rw [← List.drop_one, ← List.drop_one]
      exact List.forall₂_drop 1 hbelow
    | descendantOrSelf => exact hbelow
    | attributes => exact .nil
    | self => exact .cons (.inside path n hn) .nil
    | parent =>
      rw [ofUnit_eq h.above₁, ofUnit_eq h.above₂]
      exact h.twins_parent hn

/-- An axis and a test find corresponding items from corresponding places. -/
theorem LookAlike.candidates (h : LookAlike d₁ d₂ u₁ u₂ a₁ a₂) (axis : Axis) (test : NodeTest)
    {p q : Place} (hpq : Twin u₁ u₂ a₁ a₂ p q) :
    List.Forall₂ (ItemTwin u₁ u₂ a₁ a₂) ((Scope.ofUnit d₁ u₁).candidates axis test p)
      ((Scope.ofUnit d₂ u₂).candidates axis test q) := by
  by_cases ha : axis = .attributes
  · subst ha
    unfold Scope.candidates
    cases hpq with
    | above =>
      rw [unitBelow?_above h.above₁, unitBelow?_above h.above₂]
      exact .nil
    | inside path n hn =>
      rw [unitBelow?_inside h.above₁, unitBelow?_inside h.above₂]
      exact twins_attributes (.inside path n hn) test 0 n.attributes
  · have hcandidates (scope : Scope) (p : Place) :
        scope.candidates axis test p = admitted test (scope.places axis p) := by
      cases axis with
      | attributes => exact absurd rfl ha
      | _ => rfl
    rw [hcandidates, hcandidates]
    exact h.twins_admitted test (h.places axis hpq)

end Axes

mutual

/-- A path finds corresponding items from corresponding places. -/
theorem LookAlike.select_path (h : LookAlike d₁ d₂ u₁ u₂ a₁ a₂) (path : Path) {p q : Place}
    (hpq : Twin u₁ u₂ a₁ a₂ p q) :
    List.Forall₂ (ItemTwin u₁ u₂ a₁ a₂) (path.select (.ofUnit d₁ u₁) p)
      (path.select (.ofUnit d₂ u₂) q) := by
  match path with
  | .mk absolute steps =>
    simp only [Path.select]
    refine h.select_steps steps (.cons (.node ?_) .nil)
    cases absolute with
    | true =>
      rw [ofUnit_eq h.above₁, ofUnit_eq h.above₂]
      exact .above
    | false => exact hpq

theorem LookAlike.select_steps (h : LookAlike d₁ d₂ u₁ u₂ a₁ a₂) (steps : List Step)
    {xs ys : List Item} (hxy : List.Forall₂ (ItemTwin u₁ u₂ a₁ a₂) xs ys) :
    List.Forall₂ (ItemTwin u₁ u₂ a₁ a₂) (Steps.select (.ofUnit d₁ u₁) steps xs)
      (Steps.select (.ofUnit d₂ u₂) steps ys) := by
  match steps with
  | [] => exact hxy
  | step :: rest =>
    simp only [Steps.select]
    refine h.select_steps rest (h.inOrder (List.rel_flatMap hxy fun x y hxy => ?_))
    cases hxy with
    | node hpq => exact h.select_step step hpq
    | attr hpq slot a => exact .nil

theorem LookAlike.select_step (h : LookAlike d₁ d₂ u₁ u₂ a₁ a₂) (step : Step) {p q : Place}
    (hpq : Twin u₁ u₂ a₁ a₂ p q) :
    List.Forall₂ (ItemTwin u₁ u₂ a₁ a₂) (step.select (.ofUnit d₁ u₁) p)
      (step.select (.ofUnit d₂ u₂) q) := by
  match step with
  | .mk axis test conditions =>
    simp only [Step.select]
    exact h.filter_conditions conditions (h.candidates axis test hpq)

theorem LookAlike.filter_conditions (h : LookAlike d₁ d₂ u₁ u₂ a₁ a₂) (conditions : List Condition)
    {xs ys : List Item} (hxy : List.Forall₂ (ItemTwin u₁ u₂ a₁ a₂) xs ys) :
    List.Forall₂ (ItemTwin u₁ u₂ a₁ a₂) (Conditions.filter (.ofUnit d₁ u₁) conditions xs)
      (Conditions.filter (.ofUnit d₂ u₂) conditions ys) := by
  match conditions with
  | [] => exact hxy
  | condition :: rest =>
    simp only [Conditions.filter]
    exact h.filter_conditions rest (h.filter_condition condition hxy)

theorem LookAlike.filter_condition (h : LookAlike d₁ d₂ u₁ u₂ a₁ a₂) (condition : Condition)
    {xs ys : List Item} (hxy : List.Forall₂ (ItemTwin u₁ u₂ a₁ a₂) xs ys) :
    List.Forall₂ (ItemTwin u₁ u₂ a₁ a₂) (condition.filter (.ofUnit d₁ u₁) xs)
      (condition.filter (.ofUnit d₂ u₂) ys) := by
  match condition with
  | .position n =>
    simp only [Condition.filter]
    exact List.forall₂_take 1 (List.forall₂_drop (n - 1) hxy)
  | .present path =>
    simp only [Condition.filter]
    refine List.rel_filter (fun x y hxy => ?_) hxy
    cases hxy with
    | node hpq =>
      refine iff_of_eq (congrArg (fun b => (!b) = true) ?_)
      exact isEmpty_eq_of_forall₂ (h.select_path path hpq)
    | attr hpq slot a => exact Iff.rfl
  | .compares path equal literal =>
    simp only [Condition.filter]
    refine List.rel_filter (fun x y hxy => ?_) hxy
    cases hxy with
    | node hpq =>
      refine iff_of_eq (congrArg (· = true) ?_)
      refine any_eq_of_forall₂ (fun x y hxy => ?_) (h.select_path path hpq)
      rw [h.stringValue hxy]
    | attr hpq slot a => exact Iff.rfl

end

/-- A selector finds corresponding items in units that look the same. -/
theorem LookAlike.selectUnit (h : LookAlike d₁ d₂ u₁ u₂ a₁ a₂) (s : Selector) :
    List.Forall₂ (ItemTwin u₁ u₂ a₁ a₂) (s.selectUnit d₁ u₁) (s.selectUnit d₂ u₂) := by
  refine h.inOrder ?_
  induction s.branches with
  | nil => exact .nil
  | cons path rest ih => exact List.rel_append (h.select_path path h.unit) ih

end Selector

end DataQuality
