import DataQuality.Proofs.Metric.StrategyPapers
import Mathlib

/-!
# Spellings of country codes

Codes are compared without regard to the case of ASCII letters where strategy papers are looked for, and
without regard to any case in a codelist. But countries are told apart by the codes as they are spelled,
so a country that is spelled in two ways is counted twice.
-/
namespace DataQuality

namespace Text

/-- A text with its ASCII letters in lower case. -/
def asciiLower (s : String) : String := String.ofList (s.toList.map Char.toLower)

theorem toList_asciiLower (s : String) : (asciiLower s).toList = s.toList.map Char.toLower :=
  String.toList_ofList

@[simp] theorem asciiLower_asciiLower (s : String) : asciiLower (asciiLower s) = asciiLower s := by
  refine congrArg String.ofList ?_
  rw [toList_asciiLower, List.map_map]
  exact List.map_congr_left fun c _ => Char.toLower_toLower_eq_toLower c

theorem toNat_lt_of_isAlpha {c : Char} (h : c.isAlpha = true) : c.toNat < 128 := by
  simp only [Char.isAlpha, Char.isUpper, Char.isLower, UInt32.le_iff_toNat_le, Bool.or_eq_true,
    Bool.and_eq_true, decide_eq_true_eq, ge_iff_le, Char.toNat_val, Char.reduceVal,
    UInt32.reduceToNat] at h
  omega

theorem upperChar_toLower (c : Char) : upperChar c.toLower = upperChar c := by
  by_cases h : c.isUpper = true
  · have halpha : c.isAlpha = true := by
      rw [Char.isAlpha, h, Bool.true_or]
    have hlower : c.toLower.isAlpha = true := (Char.isAlpha_toLower_eq_isAlpha c).trans halpha
    unfold upperChar
    rw [if_pos (toNat_lt_of_isAlpha hlower), if_pos (toNat_lt_of_isAlpha halpha),
      Char.toUpper_toLower_eq_toUpper]
  · rw [Char.toLower_eq_of_not_isUpper h]

/-- In upper case, the case that ASCII letters had does not matter. -/
theorem upper_asciiLower (s : String) : upper (asciiLower s) = upper s := by
  unfold upper
  rw [toList_asciiLower, List.flatMap_map]
  exact congrArg String.ofList (List.flatMap_congr fun c _ => upperChar_toLower c)

end Text

namespace Keyed

section Coarser

variable {α β κ : Type} {coarse : α → κ} {pairs pairs' : List (α × β)} {k : κ}

/-- The keys of some pairs that are the same by a coarser key. -/
def keysOf (coarse : α → κ) (pairs : List (α × β)) (k : κ) : Set α :=
  {a | coarse a = k ∧ a ∈ pairs.map Prod.fst}

/-- Pairs with different keys that are the same by a coarser key have the same value. -/
def OneValue (coarse : α → κ) (pairs : List (α × β)) : Prop :=
  ∀ p ∈ pairs, ∀ q ∈ pairs, p.1 ≠ q.1 → coarse p.1 = coarse q.1 → p.2 = q.2

theorem mem_keysOf {p : α × β} (hp : p ∈ pairs) : p.1 ∈ keysOf coarse pairs (coarse p.1) :=
  ⟨rfl, List.mem_map_of_mem hp⟩

theorem finite_keysOf : (keysOf coarse pairs k).Finite :=
  (pairs.map Prod.fst).finite_toSet.subset fun _ h => h.2

theorem nonempty_keysOf_iff :
    (keysOf coarse pairs k).Nonempty ↔ k ∈ (pairs.map (Prod.map coarse id)).map Prod.fst := by
  rw [List.map_map, List.mem_map]
  constructor
  · rintro ⟨a, rfl, ha⟩
    obtain ⟨p, hp, rfl⟩ := List.mem_map.1 ha
    exact ⟨p, hp, rfl⟩
  · rintro ⟨p, hp, rfl⟩
    exact ⟨p.1, mem_keysOf hp⟩

theorem ncard_keysOf_le_one
    (h : ∀ p ∈ pairs, ∀ q ∈ pairs, coarse p.1 = coarse q.1 → p.1 = q.1) (k : κ) :
    (keysOf coarse pairs k).ncard ≤ 1 := by
  rw [Set.ncard_le_one finite_keysOf]
  rintro a ⟨ha, hamem⟩ b ⟨hb, hbmem⟩
  obtain ⟨p, hp, rfl⟩ := List.mem_map.1 hamem
  obtain ⟨q, hq, rfl⟩ := List.mem_map.1 hbmem
  exact h p hp q hq (ha.trans hb.symm)

variable (hsame : pairs.map (Prod.map coarse id) = pairs'.map (Prod.map coarse id))

include hsame

/-- If each coarse key is that of one key at most, there are as many keys of each. -/
theorem ncard_keysOf_eq (h : (keysOf coarse pairs k).ncard ≤ 1) (h' : (keysOf coarse pairs' k).ncard ≤ 1) :
    (keysOf coarse pairs k).ncard = (keysOf coarse pairs' k).ncard := by
  have hpos : 0 < (keysOf coarse pairs k).ncard ↔ 0 < (keysOf coarse pairs' k).ncard := by
    rw [Set.ncard_pos finite_keysOf, Set.ncard_pos finite_keysOf, nonempty_keysOf_iff, hsame,
      nonempty_keysOf_iff]
  omega

/-- Where a coarse key is that of several keys, all values are the same, and stay so. -/
theorem OneValue.of_ncard_eq (hone : OneValue coarse pairs)
    (hcount : ∀ k, (keysOf coarse pairs k).ncard = (keysOf coarse pairs' k).ncard) :
    OneValue coarse pairs' := by
  intro p' hp' q' hq' hne hcoarse
  have hseveral : 1 < (keysOf coarse pairs (coarse p'.1)).ncard := by
    rw [hcount, Set.one_lt_ncard finite_keysOf]
    exact ⟨p'.1, mem_keysOf hp', q'.1, hcoarse ▸ mem_keysOf hq', hne⟩
  obtain ⟨a, ⟨ha, hamem⟩, b, ⟨hb, hbmem⟩, hab⟩ := (Set.one_lt_ncard finite_keysOf).1 hseveral
  obtain ⟨s, hs, rfl⟩ := List.mem_map.1 hamem
  obtain ⟨t, ht, rfl⟩ := List.mem_map.1 hbmem
  have hst : s.2 = t.2 := hone s hs t ht hab (ha.trans hb.symm)
  -- a key of the class differs from one of the two
  have hall {x : α × β} (hx : x ∈ pairs) (hclass : coarse x.1 = coarse p'.1) : x.2 = s.2 := by
    by_cases hxs : x.1 = s.1
    · exact (hone x hx t ht (hxs ▸ hab) (hclass.trans hb.symm)).trans hst.symm
    · exact hone x hx s hs hxs (hclass.trans ha.symm)
  have hback {x' : α × β} (hx' : x' ∈ pairs') (hclass : coarse x'.1 = coarse p'.1) : x'.2 = s.2 := by
    have hmem : Prod.map coarse id x' ∈ pairs.map (Prod.map coarse id) :=
      hsame ▸ List.mem_map_of_mem hx'
    obtain ⟨x, hx, heq⟩ := List.mem_map.1 hmem
    obtain ⟨hkey, hvalue⟩ := Prod.mk.inj heq
    exact hvalue.symm.trans (hall hx (hkey.trans hclass))
  exact (hback hp' rfl).trans (hback hq' hcoarse.symm).symm

end Coarser

section PutAll

variable {α β κ : Type} [BEq α] [LawfulBEq α] {before : α → α → Bool} {coarse : α → κ}
  {pairs pairs' : List (α × β)}

/-- What is left over when some pairs are put one after the other. -/
abbrev putAll (before : α → α → Bool) (pairs : List (α × β)) : List (α × β) :=
  pairs.foldl (fun all p => insert before p.1 p.2 all) []

variable (h : IsOrder before)

include h

theorem mem_of_mem_putAll {p : α × β} (hp : p ∈ putAll before pairs) : p ∈ pairs := by
  obtain ⟨front, rest, rfl, -⟩ := (mem_foldl_insert_iff h).1 hp
  exact List.mem_append_right _ List.mem_cons_self

variable [BEq κ] [LawfulBEq κ]

variable (coarse) in
/-- The last pair of a coarse key is left over. -/
theorem exists_mem_putAll {p : α × β} (hp : p ∈ pairs) :
    ∃ q ∈ putAll before pairs, coarse q.1 = coarse p.1 ∧
      (pairs.map (Prod.map coarse id)).reverse.lookup (coarse p.1) = some q.2 := by
  have hsome : ((pairs.map (Prod.map coarse id)).reverse.lookup (coarse p.1)).isSome = true := by
    rw [List.lookup_isSome_iff]
    exact ⟨Prod.map coarse id p, List.mem_reverse.2 (List.mem_map_of_mem hp), beq_self_eq_true _⟩
  obtain ⟨v, hv⟩ := Option.isSome_iff_exists.1 hsome
  obtain ⟨later, earlier, hsplit, hlater⟩ := List.lookup_eq_some_iff.1 hv
  rw [← List.reverse_inj, List.reverse_reverse, List.reverse_append, List.reverse_cons,
    List.append_assoc, List.singleton_append] at hsplit
  obtain ⟨front, after, rfl, -, hafter⟩ := List.map_eq_append_iff.1 hsplit
  obtain ⟨q, rest, rfl, hq, hrest⟩ := List.map_eq_cons_iff.1 hafter
  obtain ⟨hkey, rfl⟩ := Prod.mk.inj hq
  refine ⟨q, (mem_foldl_insert_iff h).2 ⟨front, rest, rfl, fun r hr heq => ?_⟩, hkey, hv⟩
  have hmem : Prod.map coarse id r ∈ later := by
    rw [← List.mem_reverse, ← hrest]
    exact List.mem_map_of_mem hr
  have hne := hlater _ hmem
  rw [Prod.map_fst, heq, hkey, bne_self_eq_false] at hne
  cases hne

/-- With one value for each coarse key, all pairs of it that are left over have the value it was put with
last. -/
theorem lookup_of_mem_putAll (hone : OneValue coarse pairs) {p : α × β}
    (hp : p ∈ putAll before pairs) :
    (pairs.map (Prod.map coarse id)).reverse.lookup (coarse p.1) = some p.2 := by
  have hmem := mem_of_mem_putAll h hp
  obtain ⟨q, hq, hcoarse, hlookup⟩ := exists_mem_putAll coarse h hmem
  rw [hlookup, Option.some_inj]
  by_cases hkey : q.1 = p.1
  · exact congrArg Prod.snd (List.inj_on_of_nodup_map (nodup_keys_foldl_insert h pairs) hq hp hkey)
  · exact hone q (mem_of_mem_putAll h hq) p hmem hkey hcoarse

theorem mem_keys_putAll {a : α} :
    a ∈ (putAll before pairs).map Prod.fst ↔ a ∈ pairs.map Prod.fst := by
  constructor
  · intro ha
    obtain ⟨p, hp, rfl⟩ := List.mem_map.1 ha
    exact List.mem_map_of_mem (mem_of_mem_putAll h hp)
  · intro ha
    obtain ⟨p, hp, rfl⟩ := List.mem_map.1 ha
    obtain ⟨q, hq, hkey, -⟩ := exists_mem_putAll id h hp
    exact List.mem_map.2 ⟨q, hq, hkey⟩

theorem countP_putAll (k : κ) :
    (putAll before pairs).countP (fun p => coarse p.1 == k) = (keysOf coarse pairs k).ncard := by
  have hset : keysOf coarse pairs k =
      {a | a ∈ (putAll before pairs).map Prod.fst ∧ (coarse a == k) = true} := by
    ext a
    simp only [keysOf, Set.mem_ofPred_eq, mem_keys_putAll h, beq_iff_eq, and_comm]
  rw [hset, Metric.ncard_eq_countP (nodup_keys_foldl_insert h pairs), List.countP_map]
  rfl

variable [DecidableEq β]

theorem count_map_putAll (hone : OneValue coarse pairs) (p : κ × β) :
    ((putAll before pairs).map (Prod.map coarse id)).count p =
      if (pairs.map (Prod.map coarse id)).reverse.lookup p.1 = some p.2 then
        (keysOf coarse pairs p.1).ncard else 0 := by
  have hpair {q : α × β} (hq : q ∈ putAll before pairs) : Prod.map coarse id q = p ↔
      coarse q.1 = p.1 ∧ (pairs.map (Prod.map coarse id)).reverse.lookup p.1 = some p.2 := by
    have hvalue := lookup_of_mem_putAll h hone hq
    rw [Prod.ext_iff, Prod.map_fst, Prod.map_snd, id]
    refine and_congr_right fun hkey => ?_
    rw [← hkey, hvalue, Option.some_inj]
  rw [List.count_eq_countP, List.countP_map]
  split
  · next hlast =>
    rw [← countP_putAll h]
    refine List.countP_congr fun q hq => ?_
    rw [Function.comp_apply, beq_iff_eq, beq_iff_eq, hpair hq]
    exact and_iff_left hlast
  · next hlast =>
    refine List.countP_eq_zero.2 fun q hq => ?_
    rw [Function.comp_apply, beq_iff_eq, hpair hq]
    exact fun hq => hlast hq.2

/-- By coarse keys, the same is left over exactly if there are as many keys of each. -/
theorem perm_map_putAll_iff (hone : OneValue coarse pairs)
    (hsame : pairs.map (Prod.map coarse id) = pairs'.map (Prod.map coarse id)) :
    ((putAll before pairs).map (Prod.map coarse id)).Perm
        ((putAll before pairs').map (Prod.map coarse id)) ↔
      ∀ k, (keysOf coarse pairs k).ncard = (keysOf coarse pairs' k).ncard := by
  constructor
  · intro hperm k
    have hcount := hperm.countP_eq fun p => p.1 == k
    rw [List.countP_map, List.countP_map] at hcount
    exact (countP_putAll h k).symm.trans (hcount.trans (countP_putAll h k))
  · intro hcount
    refine List.perm_iff_count.2 fun p => ?_
    rw [count_map_putAll h hone, count_map_putAll h (hone.of_ncard_eq hsame hcount), hsame, hcount]

end PutAll

end Keyed

namespace Markup

/-- The attribute with its ASCII letters in lower case if it is a code. -/
def Attribute.withLowerCode (a : Attribute) : Attribute :=
  if a.name = "code" then { a with value := Text.asciiLower a.value } else a

namespace Node

/-- The node with the codes of all recipient countries in lower case. -/
def withLowerCodes (n : Node) : Node := n.mapAttributes "recipient-country" Attribute.withLowerCode

theorem children_withLowerCodes (n : Node) :
    n.withLowerCodes.children = n.children.map withLowerCodes :=
  children_mapAttributes n

theorem changesOnly_withLowerCodes : ChangesOnly "recipient-country" withLowerCodes :=
  changesOnly_mapAttributes

theorem child?_withLowerCodes (n : Node) (name : String) :
    n.withLowerCodes.child? name = (n.child? name).map withLowerCodes := by
  have hnamed : ((fun c => c.isNamed name) ∘ withLowerCodes) = fun c => c.isNamed name :=
    funext fun c => changesOnly_withLowerCodes.isNamed c name
  unfold child?
  rw [children_withLowerCodes, List.find?_map, hnamed]

/-- A country keeps its code but for the case of ASCII letters. -/
theorem code_withLowerCodes {country : Node} (h : country.isNamed "recipient-country" = true) :
    country.withLowerCodes.attribute? "code" = (country.attribute? "code").map Text.asciiLower := by
  let isCode (a : Attribute) : Bool := a.space == none && a.name == "code"
  have hcode : isCode ∘ Attribute.withLowerCode = isCode := by
    funext a
    simp only [isCode, Function.comp_apply, Attribute.withLowerCode]
    split <;> rfl
  unfold attribute? withLowerCodes
  rw [attributes_mapAttributes h, List.find?_map, hcode, Option.map_map, Option.map_map]
  refine Option.map_congr fun a ha => ?_
  have hname := (Bool.and_eq_true_iff.1 (List.find?_some (p := isCode) ha)).2
  rw [Function.comp_apply, Function.comp_apply, Attribute.withLowerCode, if_pos (eq_of_beq hname)]

end Node

end Markup

namespace Metric

open Markup Node

/-- A country with its code in lower case. -/
abbrev withLowerCode (c : Option String × Option String) : Option String × Option String :=
  Prod.map (Option.map Text.asciiLower) id c

/-- The same place of two documents that are the same but for the case of ASCII letters in the codes of
recipient countries. -/
structure Respelled (d d' : Node) (p p' : Place) : Prop where
  document : d.withLowerCodes = d'.withLowerCodes
  here : p.LiesIn d
  there : p'.LiesIn d'
  location : p.location = p'.location

def spellings (now : Instant) (document : Node) (code : Option String) : Set (Option String) :=
  {s | s.map Text.asciiLower = code ∧ ∃ q, IsActiveBudget now document q ∧ (countryOf q.node).1 = s}

/-- The countries of all budgets for recipient countries, one for each budget. -/
def budgetCountries (nodes : List Node) : List (Option String × Option String) :=
  (named "recipient-country-budget" nodes).map countryOf

/-- Budgets whose codes differ only in case give the country the same name. -/
def OneName (document : Node) : Prop :=
  Keyed.OneValue (Option.map Text.asciiLower) (budgetCountries document.inside)

section Lowered

theorem notPart_recipientCountry : "recipient-country" ∉ partNames := by decide

theorem sameIgnoringCase_eq (a b : String) :
    sameIgnoringCase a b = (Text.asciiLower a == Text.asciiLower b) := by
  rw [Bool.eq_iff_iff, sameIgnoringCase, beq_iff_eq, beq_iff_eq, Text.asciiLower, Text.asciiLower,
    String.ofList_inj]

/-- Letter case does not matter where the name of a country is looked up. -/
theorem displayName?_asciiLower (codelist : Option Codelist) (c : Option String × Option String) :
    displayName? codelist (c.1.map Text.asciiLower) c.2 = displayName? codelist c.1 c.2 := by
  have hname (list : Codelist) (code : String) :
      list.nameOf? (Text.asciiLower code) = list.nameOf? code := by
    rw [Codelist.nameOf?, Text.upper_asciiLower, Codelist.nameOf?]
  have hlisted : listedName? codelist (withLowerCode c) = listedName? codelist c := by
    cases codelist with
    | none => rfl
    | some list =>
      obtain ⟨code, name⟩ := c
      cases code with
      | none => rfl
      | some code => exact hname list code
  exact (displayName?_eq codelist (withLowerCode c)).trans
    ((congrArg _ hlisted).trans (displayName?_eq codelist c).symm)

theorem childCode_withLowerCodes (n : Node) :
    n.withLowerCodes.childAttribute? "recipient-country" "code" =
      (n.childAttribute? "recipient-country" "code").map Text.asciiLower := by
  unfold childAttribute?
  rw [child?_withLowerCodes]
  cases hcountry : n.child? "recipient-country" with
  | none => rfl
  | some country =>
    exact code_withLowerCodes (List.find?_some (p := fun m : Node => m.isNamed _) hcountry)

theorem countryOf_withLowerCodes (n : Node) :
    countryOf n.withLowerCodes = withLowerCode (countryOf n) := by
  unfold countryOf
  rw [child?_withLowerCodes]
  cases hcountry : n.child? "recipient-country" with
  | none => rfl
  | some country =>
    have hcode := code_withLowerCodes (List.find?_some (p := fun m : Node => m.isNamed _) hcountry)
    rw [Option.map_some]
    dsimp only
    rw [hcode, child?_withLowerCodes, withLowerCodes, leadingText?_mapAttributes]
    cases country.child? "narrative" with
    | none => rfl
    | some narrative =>
      rw [Option.map_some]
      dsimp only
      rw [withLowerCodes, leadingText?_mapAttributes]
      rfl

variable {n : Node} (h : n.isNamed "recipient-country" = false)

include h

theorem coversCountry_withLowerCodes (code lowerName : Option String) :
    coversCountry (code.map Text.asciiLower) lowerName n.withLowerCodes =
      coversCountry code lowerName n := by
  unfold coversCountry
  rw [childCode_withLowerCodes, changesOnly_withLowerCodes.paperTitle? notPart_recipientCountry h]
  cases n.childAttribute? "recipient-country" "code" with
  | none => rfl
  | some a =>
    cases code with
    | none => rfl
    | some b => simp only [Option.map_some, sameIgnoringCase_eq, Text.asciiLower_asciiLower]

theorem isInCategory_withLowerCodes (category : String) :
    n.withLowerCodes.isInCategory category = n.isInCategory category :=
  changesOnly_withLowerCodes.hasAttributeBelow h (by decide) _ _

end Lowered

theorem linksIn_withLowerCodes (category : String) (nodes : List Node) :
    linksIn category (nodes.map withLowerCodes) = (linksIn category nodes).map withLowerCodes := by
  unfold linksIn
  rw [changesOnly_withLowerCodes.named_map, List.filter_map]
  refine congrArg _ (List.filter_congr fun n hn => ?_)
  exact isInCategory_withLowerCodes (isNamed_eq_false_of_mem_named hn (by decide)) category

theorem any_linksIn_withLowerCodes {passes passes' : Node → Bool}
    (h : ∀ n : Node, n.isNamed "recipient-country" = false → passes' n.withLowerCodes = passes n)
    (category : String) (nodes : List Node) :
    (linksIn category (nodes.map withLowerCodes)).any passes' = (linksIn category nodes).any passes := by
  rw [linksIn_withLowerCodes, List.any_map, Bool.eq_iff_iff, List.any_eq_true, List.any_eq_true]
  refine exists_congr fun link => and_congr_right fun hlink => ?_
  have hnamed := isNamed_eq_false_of_mem_named (List.mem_filter.1 hlink).1
    (by decide : "document-link" ≠ "recipient-country")
  rw [Function.comp_apply, h link hnamed]

theorem isCountedBy_withLowerCodes (d : Node) (code name : Option String) :
    isCountedBy d.withLowerCodes (code.map Text.asciiLower) name = isCountedBy d code name := by
  unfold isCountedBy
  rw [inside_map children_withLowerCodes]
  exact any_linksIn_withLowerCodes (fun n hn => coversCountry_withLowerCodes hn _ _) "B03" d.inside

theorem activeBudgets_withLowerCodes (now : Instant) (nodes : List Node) :
    activeBudgets now (nodes.map withLowerCodes) = (activeBudgets now nodes).map withLowerCodes := by
  unfold activeBudgets
  rw [changesOnly_withLowerCodes.named_map, List.filter_map]
  refine congrArg _ (List.filter_congr fun n hn => ?_)
  exact changesOnly_withLowerCodes.isActive notPart_recipientCountry
    (isNamed_eq_false_of_mem_named hn (by decide)) now

/-- The countries of the active budgets of a document, one for each budget. -/
def activeBudgetCountries (now : Instant) (document : Node) : List (Option String × Option String) :=
  (activeBudgets now document.inside).map countryOf

theorem activeBudgetCountries_withLowerCodes (now : Instant) (d : Node) :
    activeBudgetCountries now d.withLowerCodes =
      (activeBudgetCountries now d).map withLowerCode := by
  unfold activeBudgetCountries
  rw [inside_map children_withLowerCodes, activeBudgets_withLowerCodes, List.map_map, List.map_map]
  exact List.map_congr_left fun n _ => countryOf_withLowerCodes n

theorem mem_activeBudgetCountries {now : Instant} {d : Node} {c : Option String × Option String} :
    c ∈ activeBudgetCountries now d ↔ ∃ q, IsActiveBudget now d q ∧ countryOf q.node = c := by
  unfold activeBudgetCountries
  rw [activeBudgets_eq_map, List.map_map, List.mem_map]
  refine exists_congr fun q => and_congr_left fun _ => ?_
  rw [List.mem_filter, Bool.and_eq_true]
  exact ⟨fun h => ⟨h.1, h.2.1, h.2.2⟩, fun h => ⟨h.mem, h.named, h.active⟩⟩

theorem OneName.active {d : Node} (h : OneName d) (now : Instant) :
    Keyed.OneValue (Option.map Text.asciiLower) (activeBudgetCountries now d) := by
  have hsubset : activeBudgetCountries now d ⊆ budgetCountries d.inside :=
    List.map_subset _ (List.filter_subset_self _)
  exact fun c hc c' hc' => h c (hsubset hc) c' (hsubset hc')

theorem spellings_eq_keysOf (now : Instant) (d : Node) (code : Option String) :
    spellings now d code =
      Keyed.keysOf (Option.map Text.asciiLower) (activeBudgetCountries now d) code := by
  ext s
  refine and_congr_right fun _ => ?_
  rw [List.mem_map]
  constructor
  · rintro ⟨q, hq, rfl⟩
    exact ⟨_, mem_activeBudgetCountries.2 ⟨q, hq, rfl⟩, rfl⟩
  · rintro ⟨c, hc, rfl⟩
    obtain ⟨q, hq, rfl⟩ := mem_activeBudgetCountries.1 hc
    exact ⟨q, hq, rfl⟩

namespace Respelled

variable {d d' : Node} {p p' : Place} (h : Respelled d d' p p')

include h

theorem node : p.node.withLowerCodes = p'.node.withLowerCodes := by
  have hat : d.withLowerCodes.at? p.location = d'.withLowerCodes.at? p'.location := by
    rw [h.document, h.location]
  rw [at?_map children_withLowerCodes, at?_map children_withLowerCodes, h.here, h.there] at hat
  exact Option.some_inj.1 hat

theorem map_activeBudgetCountries (now : Instant) : (activeBudgetCountries now d).map withLowerCode =
    (activeBudgetCountries now d').map withLowerCode := by
  rw [← activeBudgetCountries_withLowerCodes, h.document, activeBudgetCountries_withLowerCodes]

theorem isCountedBy (code name : Option String) :
    Metric.isCountedBy d code name = Metric.isCountedBy d' code name := by
  rw [← isCountedBy_withLowerCodes, h.document, isCountedBy_withLowerCodes]

/-- Sectors are not looked for by codes of countries. -/
theorem sectorPapers (setting : MetricSetting) :
    Metric.sectorPapers setting d p = Metric.sectorPapers setting d' p' := by
  have htitles (category : String) (passes : String → Bool) (nodes : List Node) :
      (linksIn category (nodes.map withLowerCodes)).any (fun link => link.titles.any passes) =
        (linksIn category nodes).any fun link => link.titles.any passes := by
    refine any_linksIn_withLowerCodes (fun n hn => ?_) category nodes
    rw [changesOnly_withLowerCodes.titles hn (by decide) (by decide)]
  have hyears := sectorYears_eq_of_map_eq changesOnly_withLowerCodes notPart_recipientCountry
    (by decide) children_withLowerCodes h.document h.here h.there setting.now
  have hanywhere (passes : String → Bool) :
      (linksIn "B11" d.inside).any (fun link => link.titles.any passes) =
        (linksIn "B11" d'.inside).any fun link => link.titles.any passes := by
    rw [← htitles, ← inside_map children_withLowerCodes, h.document,
      inside_map children_withLowerCodes, htitles]
  have hbelow (passes : String → Bool) :
      (linksIn "B12" p.node.children).any (fun link => link.titles.any passes) =
        (linksIn "B12" p'.node.children).any fun link => link.titles.any passes := by
    rw [← htitles, ← children_withLowerCodes, h.node, children_withLowerCodes, htitles]
  unfold Metric.sectorPapers
  simp only [hyears, any_sectorTitles h.here, any_sectorTitles h.there, hanywhere, hbelow]

/-- If the same countries are counted but for the case of their codes, the value is the same. -/
theorem countryPapers_of_perm (setting : MetricSetting)
    (hperm : ((activeCountries setting.now d p).map withLowerCode).Perm
      ((activeCountries setting.now d' p').map withLowerCode)) :
    countryPapers setting d p = countryPapers setting d' p' := by
  have huncovered (d : Node) (countries : List (Option String × Option String)) :
      (countries.countP fun c =>
          !Metric.isCountedBy d c.1 (displayName? setting.codelist c.1 c.2)) =
        (countries.map withLowerCode).countP fun c =>
          !Metric.isCountedBy d.withLowerCodes c.1 (displayName? setting.codelist c.1 c.2) := by
    rw [List.countP_map]
    refine List.countP_congr fun c _ => ?_
    rw [Function.comp_apply, Prod.map_fst, Prod.map_snd, id, isCountedBy_withLowerCodes,
      displayName?_asciiLower]
  have hempty : activeCountries setting.now d p = [] ↔ activeCountries setting.now d' p' = [] := by
    rw [← List.length_eq_zero_iff, ← List.length_eq_zero_iff, ← List.length_map withLowerCode,
      hperm.length_eq, List.length_map]
  by_cases hnone : activeCountries setting.now d p = []
  · rw [countryPapers_of_none hnone, countryPapers_of_none (hempty.1 hnone), h.sectorPapers]
  · have hlength := hperm.length_eq
    rw [List.length_map, List.length_map] at hlength
    rw [countryPapers_of_activeCountries h.here hnone,
      countryPapers_of_activeCountries h.there (mt hempty.2 hnone), huncovered d, huncovered d',
      h.document, hperm.countP_eq, hlength]
    unfold paperShare
    rw [h.sectorPapers]

end Respelled

/-- The case of letters in codes does not matter to the share of countries with a strategy paper if each
code is spelled in as many ways before and after, as it is when no code is spelled in two ways. Exactly
then the same countries are counted. -/
theorem countryPapers_respelled {d d' : Node} {p p' : Place} (h : Respelled d d' p p')
    (hname : OneName d) (setting : MetricSetting) :
    let counted (d : Node) (p : Place) := (activeCountries setting.now d p).map withLowerCode
    let alike := ∀ code, (spellings setting.now d code).ncard = (spellings setting.now d' code).ncard
    ((counted d p).Perm (counted d' p') ↔ alike) ∧
      (alike → countryPapers setting d p = countryPapers setting d' p') ∧
      ((∀ code, (spellings setting.now d code).ncard ≤ 1 ∧
        (spellings setting.now d' code).ncard ≤ 1) → alike) := by
  intro counted alike
  have hsame := h.map_activeBudgetCountries setting.now
  have halike : (counted d p).Perm (counted d' p') ↔ alike := by
    simp only [counted, alike, spellings_eq_keysOf, activeCountries_eq_foldl h.here,
      activeCountries_eq_foldl h.there]
    exact Keyed.perm_map_putAll_iff isOrder_codeBefore (hname.active setting.now) hsame
  refine ⟨halike, fun h' => h.countryPapers_of_perm setting (halike.2 h'), fun honce code => ?_⟩
  have hcode := honce code
  rw [spellings_eq_keysOf, spellings_eq_keysOf] at hcode ⊢
  exact Keyed.ncard_keysOf_eq hsame hcode.1 hcode.2

/-- A country strategy paper for the country of a code. -/
def paperFor (code : String) : Node :=
  .element "document-link" [] [textElement "title" "Plan",
    attributeElement "recipient-country" "code" code, attributeElement "category" "code" "B03"]

/-- An organisation with two budgets for Kenya, one for Uganda, and a paper for Kenya. -/
def spelledHolding (first second third paper : String) : List Node :=
  [namedRecord first "Kenya", namedRecord second "Kenya", namedRecord third "Uganda", paperFor paper]

/-- Every code changes its case, and stays the same for all budgets of a country. -/
theorem countryPapers_respelled_once :
    let held := spelledHolding "KE" "KE" "UG" "ke"
    let held' := spelledHolding "kE" "kE" "ug" "KE"
    let d := twoOrganisations held []
    let d' := twoOrganisations held' []
    let here := firstOrganisation held
    let there := firstOrganisation held'
    Respelled d d' here there ∧ OneName d ∧
      (∀ code, (spellings sampleSetting.now d code).ncard ≤ 1 ∧
        (spellings sampleSetting.now d' code).ncard ≤ 1) ∧
      (countryPapers sampleSetting d here).toOption = some 50.0 ∧
      countryPapers sampleSetting d here = countryPapers sampleSetting d' there := by
  intro held held' d d' here there
  have hrespelled : Respelled d d' here there := ⟨rfl, rfl, rfl, rfl⟩
  have hname : OneName d := by
    unfold OneName Keyed.OneValue
    decide +kernel
  have honce (code : Option String) : (spellings sampleSetting.now d code).ncard ≤ 1 ∧
      (spellings sampleSetting.now d' code).ncard ≤ 1 := by
    rw [spellings_eq_keysOf, spellings_eq_keysOf]
    constructor
    · refine Keyed.ncard_keysOf_le_one ?_ code
      decide +kernel
    · refine Keyed.ncard_keysOf_le_one ?_ code
      decide +kernel
  obtain ⟨-, hvalue, halike⟩ := countryPapers_respelled hrespelled hname sampleSetting
  refine ⟨hrespelled, hname, honce, ?_, hvalue (halike honce)⟩
  simp only [countryPapers, activeCountries, elements_countryBudget hrespelled.here,
    elements_everyLink hrespelled.here]
  decide +kernel

/-- Kenya is counted twice when its code is spelled in two ways, and so weighs more against Uganda. -/
theorem not_respelled_counted_twice :
    let held := spelledHolding "KE" "ke" "UG" "KE"
    let held' := spelledHolding "KE" "KE" "UG" "KE"
    let d := twoOrganisations held []
    let d' := twoOrganisations held' []
    let here := firstOrganisation held
    let there := firstOrganisation held'
    Respelled d d' here there ∧ OneName d ∧ OneName d' ∧
      (countryPapers sampleSetting d here).toOption = some (100.0 - 1.0 / 3.0 * 100.0) ∧
      (countryPapers sampleSetting d' there).toOption = some 50.0 ∧
      ¬ ∀ (setting : MetricSetting) (d d' : Node) (p p' : Place), Respelled d d' p p' → OneName d →
        OneName d' → countryPapers setting d p = countryPapers setting d' p' := by
  intro held held' d d' here there
  have hrespelled : Respelled d d' here there := ⟨rfl, rfl, rfl, rfl⟩
  have hname : OneName d ∧ OneName d' := by
    unfold OneName Keyed.OneValue
    decide +kernel
  have hfirst : (countryPapers sampleSetting d here).toOption =
      some (100.0 - 1.0 / 3.0 * 100.0) := by
    simp only [countryPapers, activeCountries, elements_countryBudget hrespelled.here,
      elements_everyLink hrespelled.here]
    decide +kernel
  have hsecond : (countryPapers sampleSetting d' there).toOption = some 50.0 := by
    simp only [countryPapers, activeCountries, elements_countryBudget hrespelled.there,
      elements_everyLink hrespelled.there]
    decide +kernel
  refine ⟨hrespelled, hname.1, hname.2, hfirst, hsecond, fun hsame => ?_⟩
  rw [hsame sampleSetting d d' here there hrespelled hname.1 hname.2, hsecond] at hfirst
  revert hfirst
  decide +kernel

end Metric

end DataQuality
