import DataQuality.Proofs.Metric.Records
import Mathlib.Data.List.Forall2

/-!
# Documents without what organisations hold

A map of trees that changes only elements of one name leaves everything that metrics read
in a record, unless they read it in elements of that name. What is found by other names is
found again, changed in the same way.

Two documents that differ only in what their organisation elements hold are the same once
all of these have been emptied. A node that is no such element, and what is found in it by
names other than theirs, looks the same before and after. If organisation elements that
stand at the same place hold the same records of some name, the documents have the same
records of that name, in the same order, but for what is held in organisation elements
inside the records.
-/
namespace DataQuality

namespace Markup.Node

/-- The map keeps names and texts, and changes the elements of one name only: all others keep their
attributes, and it goes on to what is directly below them. -/
structure ChangesOnly (name : String) (f : Node → Node) : Prop where
  elementName? (n : Node) : (f n).elementName? = n.elementName?
  text (s : String) : f (.text s) = .text s
  isText (n : Node) : (f n).isText = n.isText
  leadingText? (n : Node) : n.isNamed name = false → (f n).leadingText? = n.leadingText?
  attributes (n : Node) : n.isNamed name = false → (f n).attributes = n.attributes
  children (n : Node) : n.isNamed name = false → (f n).children = n.children.map f

section Throughout

variable {f : Node → Node}

mutual

/-- A map that goes on below every node keeps the order of what is inside. -/
theorem inside_map (hf : ∀ n, (f n).children = n.children.map f) (n : Node) :
    (f n).inside = n.inside.map f := by
  rw [inside_eq, inside_eq, hf]
  exact insideAll_map hf n.children
  termination_by (sizeOf n, 1)
  decreasing_by
    have := Place.sizeOf_children_le n
    grind

theorem insideAll_map (hf : ∀ n, (f n).children = n.children.map f) (cs : List Node) :
    insideAll (cs.map f) = (insideAll cs).map f := by
  match cs with
  | [] => rfl
  | c :: rest =>
    rw [List.map_cons, insideAll, insideAll, inside_map hf c, insideAll_map hf rest, List.map_cons,
      List.map_append]
  termination_by (sizeOf cs, 0)

end

theorem at?_map (hf : ∀ n, (f n).children = n.children.map f) (n : Node) (way : List Nat) :
    (f n).at? way = (n.at? way).map f := by
  induction way generalizing n with
  | nil => rfl
  | cons i rest ih =>
    rw [Node.at?, Node.at?, hf, List.getElem?_map]
    cases n.children[i]? with
    | none => rfl
    | some c => exact ih c

end Throughout

/-- An element has only one name. -/
theorem isNamed_eq_false {n : Node} {name other : String} (h : n.isNamed other = true)
    (hname : other ≠ name) : n.isNamed name = false := by
  unfold isNamed at h ⊢
  rw [eq_of_beq h]
  simpa using hname

section Named

variable {n c : Node} {name other : String}

theorem isNamed_eq_false_of_mem_named {nodes : List Node} (h : n ∈ named other nodes)
    (hother : other ≠ name) : n.isNamed name = false :=
  isNamed_eq_false (List.mem_filter.1 h).2 hother

theorem isNamed_eq_false_of_child? (hc : n.child? other = some c) (hother : other ≠ name) :
    c.isNamed name = false :=
  isNamed_eq_false (List.find?_some (p := fun m : Node => m.isNamed other) hc) hother

theorem isNamed_eq_false_of_mem_childrenNamed (hc : c ∈ n.childrenNamed other)
    (hother : other ≠ name) : c.isNamed name = false :=
  isNamed_eq_false (List.mem_filter.1 hc).2 hother

end Named

namespace ChangesOnly

variable {n : Node} {name other : String} {f : Node → Node} (hf : ChangesOnly name f)

include hf

theorem isNamed (n : Node) (other : String) : (f n).isNamed other = n.isNamed other := by
  unfold Node.isNamed
  rw [hf.elementName?]

theorem named_map (nodes : List Node) : named other (nodes.map f) = (named other nodes).map f := by
  have hnamed : ((fun c => c.isNamed other) ∘ f) = fun c => c.isNamed other :=
    funext fun c => hf.isNamed c other
  unfold named
  rw [List.filter_map, hnamed]

variable (h : n.isNamed name = false)

include h

/-- The first child of a name is found again, changed. -/
theorem child? (other : String) : (f n).child? other = (n.child? other).map f := by
  have hnamed : ((fun c => c.isNamed other) ∘ f) = fun c => c.isNamed other :=
    funext fun c => hf.isNamed c other
  unfold Node.child?
  rw [hf.children n h, List.find?_map, hnamed]

theorem childrenNamed (other : String) :
    (f n).childrenNamed other = (n.childrenNamed other).map f := by
  unfold Node.childrenNamed
  rw [hf.children n h]
  exact hf.named_map n.children

theorem attribute? (key : String) : (f n).attribute? key = n.attribute? key := by
  unfold Node.attribute?
  rw [hf.attributes n h]

theorem childText? (hother : other ≠ name) : (f n).childText? other = n.childText? other := by
  unfold Node.childText?
  rw [hf.child? h]
  cases hc : n.child? other with
  | none => rfl
  | some c => exact hf.leadingText? c (isNamed_eq_false_of_child? hc hother)

theorem childAttribute? (hother : other ≠ name) (key : String) :
    (f n).childAttribute? other key = n.childAttribute? other key := by
  unfold Node.childAttribute?
  rw [hf.child? h]
  cases hc : n.child? other with
  | none => rfl
  | some c => exact hf.attribute? (isNamed_eq_false_of_child? hc hother) key

theorem hasAttributeBelow (hother : other ≠ name) (key : String) (passes : String → Bool) :
    (f n).hasAttributeBelow other key passes = n.hasAttributeBelow other key passes := by
  unfold Node.hasAttributeBelow
  rw [hf.children n h, List.any_map]
  refine List.any_congr rfl fun c => ?_
  rw [Function.comp_apply, hf.isNamed]
  cases hnamed : c.isNamed other with
  | false => rfl
  | true => rw [hf.attributes c (isNamed_eq_false hnamed hother)]

theorem titles (htitle : "title" ≠ name) (hnarrative : "narrative" ≠ name) :
    (f n).titles = n.titles := by
  have htexts {m : Node} (hm : m.isNamed name = false) :
      ((f m).children.filter Node.isText).map stringValue =
        (m.children.filter Node.isText).map stringValue := by
    have htext : Node.isText ∘ f = Node.isText := funext hf.isText
    rw [hf.children m hm, List.filter_map, htext, List.map_map]
    refine List.map_congr_left fun c hc => ?_
    cases c with
    | text s => exact congrArg stringValue (hf.text s)
    | _ => cases (List.mem_filter.1 hc).2
  unfold Node.titles
  rw [hf.childrenNamed h, List.flatMap_map]
  refine List.flatMap_congr fun t ht => ?_
  have ht' := isNamed_eq_false_of_mem_childrenNamed ht htitle
  rw [hf.childrenNamed ht', List.flatMap_map]
  exact List.flatMap_congr fun m hm =>
    htexts (isNamed_eq_false_of_mem_childrenNamed hm hnarrative)

end ChangesOnly

section MapAttributes

mutual

/-- The node with the attributes of all elements of a name changed. -/
def mapAttributes (name : String) (g : Attribute → Attribute) : Node → Node
  | root cs => root (mapAttributesAll name g cs)
  | element other as cs =>
    element other (if other = name then as.map g else as) (mapAttributesAll name g cs)
  | text s => text s
  | comment s => comment s
  | instruction target s => instruction target s

/-- These nodes with the attributes of all elements of a name changed. -/
def mapAttributesAll (name : String) (g : Attribute → Attribute) : List Node → List Node
  | [] => []
  | n :: rest => n.mapAttributes name g :: mapAttributesAll name g rest

end

variable {name : String} {g : Attribute → Attribute}

theorem mapAttributesAll_eq (cs : List Node) :
    mapAttributesAll name g cs = cs.map (mapAttributes name g) := by
  induction cs with
  | nil => rfl
  | cons c rest ih => rw [mapAttributesAll, ih, List.map_cons]

theorem children_mapAttributes (n : Node) :
    (n.mapAttributes name g).children = n.children.map (mapAttributes name g) := by
  cases n with
  | root cs => exact mapAttributesAll_eq cs
  | element other as cs => exact mapAttributesAll_eq cs
  | _ => rfl

theorem leadingText?_mapAttributes (n : Node) :
    (n.mapAttributes name g).leadingText? = n.leadingText? := by
  cases n with
  | element other as cs =>
    cases cs with
    | nil => rfl
    | cons c rest => cases c <;> rfl
  | _ => rfl

theorem attributes_mapAttributes {n : Node} (h : n.isNamed name = true) :
    (n.mapAttributes name g).attributes = n.attributes.map g := by
  cases n with
  | element other as cs =>
    have hname : other = name := by simpa [isNamed, elementName?] using h
    rw [mapAttributes, if_pos hname]
    rfl
  | _ => rfl

theorem changesOnly_mapAttributes : ChangesOnly name (mapAttributes name g) where
  elementName? n := by cases n <;> rfl
  text _ := rfl
  isText n := by cases n <;> rfl
  leadingText? n _ := leadingText?_mapAttributes n
  attributes n h := by
    cases n with
    | element other as cs =>
      have hname : ¬ other = name := by simpa [isNamed, elementName?] using h
      rw [mapAttributes, if_neg hname]
      rfl
    | _ => rfl
  children n _ := children_mapAttributes n

end MapAttributes

end Markup.Node

namespace Metric

open Markup Node

/-- The names of the elements that metrics read in a record, but for the category of a link and the
country of a record. -/
def partNames : List String :=
  ["period-start", "period-end", "value", "budget-line", "narrative", "title"]

end Metric

namespace Markup.Node.ChangesOnly

open DataQuality.Metric

variable {n : Node} {name : String} {f : Node → Node} (hf : ChangesOnly name f)
  (hname : name ∉ partNames) (h : n.isNamed name = false)

omit hf h in
/-- None of the parts has the name. -/
theorem part_ne (hname : name ∉ partNames) {part : String} (hpart : part ∈ partNames) :
    part ≠ name :=
  ne_of_mem_of_not_mem hpart hname

include hf hname h

theorem hasEndDate : (f n).hasEndDate = n.hasEndDate :=
  hf.hasAttributeBelow h (part_ne hname (by decide)) _ _

theorem endDate? : Metric.endDate? (f n) = Metric.endDate? n :=
  hf.childAttribute? h (part_ne hname (by decide)) _

theorem endsIn (w : Window) : Metric.endsIn w (f n) = Metric.endsIn w n := by
  unfold Metric.endsIn
  rw [hf.endDate? hname h]

theorem amount? : Metric.amount? (f n) = Metric.amount? n := by
  unfold Metric.amount?
  rw [hf.childText? h (part_ne hname (by decide))]

theorem plainAmount? : Metric.plainAmount? (f n) = Metric.plainAmount? n := by
  unfold Metric.plainAmount?
  rw [hf.childText? h (part_ne hname (by decide))]

theorem yearBudget_add (w : Window) (year : YearBudget) : year.add w (f n) = year.add w n := by
  unfold YearBudget.add
  rw [hf.childAttribute? h (part_ne hname (by decide)), hf.endsIn hname h, hf.amount? hname h]

theorem addLine (year : SectorYear) : year.addLine (f n) = year.addLine n := by
  unfold SectorYear.addLine
  rw [hf.childText? h (part_ne hname (by decide)), hf.plainAmount? hname h, hf.attribute? h]

theorem sectorYear_add (w : Window) (year : SectorYear) : year.add w (f n) = year.add w n := by
  have hlines (year : SectorYear) :
      ((f n).childrenNamed "budget-line").foldl SectorYear.addLine year =
        (n.childrenNamed "budget-line").foldl SectorYear.addLine year := by
    rw [hf.childrenNamed h, List.foldl_map]
    refine List.foldl_ext _ _ _ fun year line hline => hf.addLine hname ?_ year
    exact isNamed_eq_false_of_mem_childrenNamed hline (part_ne hname (by decide))
  unfold SectorYear.add
  rw [hf.endsIn hname h, hf.plainAmount? hname h]
  simp only [hlines]

theorem countryOf (hcountryName : "recipient-country" ≠ name) :
    Metric.countryOf (f n) = Metric.countryOf n := by
  unfold Metric.countryOf
  rw [hf.child? h]
  cases hcountry : n.child? "recipient-country" with
  | none => rfl
  | some country =>
    have hc := isNamed_eq_false_of_child? hcountry hcountryName
    rw [Option.map_some]
    dsimp only
    rw [hf.child? hc, hf.attribute? hc, hf.leadingText? country hc]
    cases hnarrative : country.child? "narrative" with
    | none => rfl
    | some narrative =>
      have hn := isNamed_eq_false_of_child? hnarrative (part_ne hname (by decide))
      rw [Option.map_some]
      dsimp only
      rw [hf.leadingText? narrative hn]

theorem isActive (now : Instant) : Metric.isActive now (f n) = Metric.isActive now n := by
  unfold Metric.isActive
  rw [hf.endDate? hname h, hf.plainAmount? hname h]

theorem paperTitle? : Metric.paperTitle? (f n) = Metric.paperTitle? n := by
  unfold Metric.paperTitle?
  rw [hf.child? h]
  cases htitle : n.child? "title" with
  | none => rfl
  | some title =>
    have ht := isNamed_eq_false_of_child? htitle (part_ne hname (by decide))
    rw [Option.map_some]
    dsimp only [Option.bind_eq_bind, Option.bind_some]
    rw [hf.leadingText? title ht, hf.childText? ht (part_ne hname (by decide))]

theorem coversCountry (hcountryName : "recipient-country" ≠ name) (code lowerName : Option String) :
    Metric.coversCountry code lowerName (f n) = Metric.coversCountry code lowerName n := by
  unfold Metric.coversCountry
  rw [hf.childAttribute? h hcountryName, hf.paperTitle? hname h]

end Markup.Node.ChangesOnly

namespace Markup.Node

/-- The name of the elements that organisations have in a document. -/
def organisationName : String := "iati-organisation"

mutual

/-- The node without what organisation elements hold. -/
def hollow : Node → Node
  | root cs => root (hollowAll cs)
  | element name as cs =>
    if name = organisationName then element name [] [] else element name as (hollowAll cs)
  | text s => text s
  | comment s => comment s
  | instruction target s => instruction target s

/-- These nodes without what organisation elements hold. -/
def hollowAll : List Node → List Node
  | [] => []
  | n :: rest => n.hollow :: hollowAll rest

end

mutual

/-- What each of the outermost organisation elements of a node holds: the nodes inside. -/
def holdings : Node → List (List Node)
  | root cs => holdingsAll cs
  | element name _ cs => if name = organisationName then [insideAll cs] else holdingsAll cs
  | text _ => []
  | comment _ => []
  | instruction _ _ => []

/-- What each of the outermost organisation elements of some nodes holds. -/
def holdingsAll : List Node → List (List Node)
  | [] => []
  | n :: rest => n.holdings ++ holdingsAll rest

end

def isOrganisation (n : Node) : Bool := n.isNamed organisationName

theorem hollowAll_eq (cs : List Node) : hollowAll cs = cs.map hollow := by
  induction cs with
  | nil => rfl
  | cons c rest ih => rw [hollowAll, ih, List.map_cons]

theorem elementName?_hollow (n : Node) : n.hollow.elementName? = n.elementName? := by
  cases n with
  | element name as cs =>
    rw [hollow]
    split <;> rfl
  | _ => rfl

theorem isText_hollow (n : Node) : n.hollow.isText = n.isText := by
  cases n with
  | element name as cs =>
    rw [hollow]
    split <;> rfl
  | _ => rfl

theorem isOrganisation_element (name : String) (as : List Attribute) (cs : List Node) :
    (element name as cs).isOrganisation = (name == organisationName) := rfl

theorem children_hollow {n : Node} (h : n.isOrganisation = false) :
    n.hollow.children = n.children.map hollow := by
  cases n with
  | element name as cs =>
    have hname : ¬ name = organisationName := by simpa [isOrganisation_element] using h
    rw [hollow, if_neg hname, hollowAll_eq]
    rfl
  | root cs => exact hollowAll_eq cs
  | _ => rfl

theorem attributes_hollow {n : Node} (h : n.isOrganisation = false) :
    n.hollow.attributes = n.attributes := by
  cases n with
  | element name as cs =>
    have hname : ¬ name = organisationName := by simpa [isOrganisation_element] using h
    rw [hollow, if_neg hname]
    rfl
  | _ => rfl

theorem leadingText?_hollow {n : Node} (h : n.isOrganisation = false) :
    n.hollow.leadingText? = n.leadingText? := by
  cases n with
  | element name as cs =>
    have hname : ¬ name = organisationName := by simpa [isOrganisation_element] using h
    rw [hollow, if_neg hname]
    cases cs with
    | nil => rfl
    | cons c rest =>
      cases c with
      | element name as cs =>
        rw [hollowAll, hollow]
        split <;> rfl
      | _ => rfl
  | _ => rfl

theorem changesOnly_hollow : ChangesOnly organisationName hollow where
  elementName? := elementName?_hollow
  text _ := rfl
  isText := isText_hollow
  leadingText? _ := leadingText?_hollow
  attributes _ := attributes_hollow
  children _ := children_hollow

theorem holdings_of_isOrganisation {n : Node} (h : n.isOrganisation = true) :
    n.holdings = [n.inside] := by
  cases n with
  | element name as cs =>
    have hname : name = organisationName := by simpa [isOrganisation_element] using h
    rw [holdings, if_pos hname, inside]
  | _ => cases h

theorem holdings_of_not {n : Node} (h : n.isOrganisation = false) :
    n.holdings = holdingsAll n.children := by
  cases n with
  | element name as cs =>
    have hname : ¬ name = organisationName := by simpa [isOrganisation_element] using h
    rw [holdings, if_neg hname]
    rfl
  | _ => rfl

mutual

/-- How many organisation elements there are does not depend on what they hold. -/
theorem length_holdings_hollow (n : Node) : n.hollow.holdings.length = n.holdings.length := by
  cases h : n.isOrganisation with
  | true =>
    have hhollow : n.hollow.isOrganisation = true := (changesOnly_hollow.isNamed n _).trans h
    rw [holdings_of_isOrganisation h, holdings_of_isOrganisation hhollow]
    rfl
  | false =>
    have hhollow : n.hollow.isOrganisation = false := (changesOnly_hollow.isNamed n _).trans h
    rw [holdings_of_not h, holdings_of_not hhollow, children_hollow h]
    exact length_holdingsAll_hollow n.children
  termination_by (sizeOf n, 1)
  decreasing_by
    have := Place.sizeOf_children_le n
    grind

theorem length_holdingsAll_hollow (cs : List Node) :
    (holdingsAll (cs.map hollow)).length = (holdingsAll cs).length := by
  match cs with
  | [] => rfl
  | c :: rest =>
    rw [List.map_cons, holdingsAll, holdingsAll, List.length_append, List.length_append,
      length_holdings_hollow c, length_holdingsAll_hollow rest]
  termination_by (sizeOf cs, 0)

end

/-- Two nodes that are no organisation elements, and differ only in what such elements hold. -/
structure SameOutside (n n' : Node) : Prop where
  hollow : n.hollow = n'.hollow
  isOrganisation : n.isOrganisation = false
  isOrganisation' : n'.isOrganisation = false

section

variable {name : String}

theorem sameOutside_refl {n : Node} (hname : name ≠ organisationName) (h : n.isNamed name = true) :
    SameOutside n n :=
  ⟨rfl, isNamed_eq_false h hname, isNamed_eq_false h hname⟩

theorem isNamed_eq_of_hollow {n n' : Node} (h : n.hollow = n'.hollow) :
    n.isNamed name = n'.isNamed name := by
  rw [← changesOnly_hollow.isNamed n, h, changesOnly_hollow.isNamed]

mutual

/-- The same records in organisation elements make the same records in a node. -/
theorem forall₂_named_inside (hname : name ≠ organisationName) {n n' : Node}
    (h : n.hollow = n'.hollow) (hheld : n.holdings.map (named name) = n'.holdings.map (named name)) :
    List.Forall₂ SameOutside (named name n.inside) (named name n'.inside) := by
  have hsame : n.isOrganisation = n'.isOrganisation := isNamed_eq_of_hollow h
  cases horganisation : n.isOrganisation with
  | true =>
    rw [holdings_of_isOrganisation horganisation,
      holdings_of_isOrganisation (hsame.symm.trans horganisation)] at hheld
    rw [List.map_singleton, List.map_singleton, List.singleton_inj] at hheld
    rw [← hheld, List.forall₂_same]
    exact fun m hm => sameOutside_refl hname (List.mem_filter.1 hm).2
  | false =>
    have horganisation' := hsame.symm.trans horganisation
    have hchildren := congrArg children h
    rw [children_hollow horganisation, children_hollow horganisation'] at hchildren
    rw [holdings_of_not horganisation, holdings_of_not horganisation'] at hheld
    rw [inside_eq, inside_eq]
    exact forall₂_named_insideAll hname hchildren hheld
  termination_by (sizeOf n, 1)
  decreasing_by
    have := Place.sizeOf_children_le n
    grind

theorem forall₂_named_insideAll (hname : name ≠ organisationName) {cs cs' : List Node}
    (h : cs.map hollow = cs'.map hollow)
    (hheld : (holdingsAll cs).map (named name) = (holdingsAll cs').map (named name)) :
    List.Forall₂ SameOutside (named name (insideAll cs)) (named name (insideAll cs')) := by
  match cs, cs' with
  | [], [] => exact .nil
  | [], c' :: rest' => cases h
  | c :: rest, [] => cases h
  | c :: rest, c' :: rest' =>
    rw [List.map_cons, List.map_cons, List.cons.injEq] at h
    have hlength : (c.holdings.map (named name)).length = (c'.holdings.map (named name)).length := by
      rw [List.length_map, List.length_map, ← length_holdings_hollow c, h.1, length_holdings_hollow]
    rw [holdingsAll, holdingsAll, List.map_append, List.map_append] at hheld
    obtain ⟨hfirst, hrest⟩ := List.append_inj hheld hlength
    have hinside : List.Forall₂ SameOutside (named name (c.inside ++ insideAll rest))
        (named name (c'.inside ++ insideAll rest')) := by
      unfold named
      rw [List.filter_append, List.filter_append]
      exact List.rel_append (forall₂_named_inside hname h.1 hfirst)
        (forall₂_named_insideAll hname h.2 hrest)
    have hsame : c.isNamed name = c'.isNamed name := isNamed_eq_of_hollow h.1
    unfold named at hinside ⊢
    rw [insideAll, insideAll, List.filter_cons, List.filter_cons, ← hsame]
    split
    · next hnamed =>
      refine .cons ⟨h.1, isNamed_eq_false hnamed hname, ?_⟩ hinside
      exact isNamed_eq_false (hsame.symm.trans hnamed) hname
    · exact hinside
  termination_by (sizeOf cs, 0)

end

end

end Markup.Node

end DataQuality
