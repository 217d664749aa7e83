import DataQuality.Proofs.Metric.Isolation

/-!
# The two categories of sector strategy papers

A document link is a sector strategy paper in either of two categories, but the links of
one count wherever they stand, and those of the other only directly below the place at
which the metric is computed. So it matters which of the two codes a link has: a change
from one to the other keeps every sector covered exactly if each link that stands elsewhere
names only sectors that are covered before and after.
-/
namespace DataQuality

namespace Markup

/-- The attribute with the code of the first category in place of that of the second. -/
def Attribute.withOneCode (a : Attribute) : Attribute :=
  if a.name = "code" ∧ a.value = "B12" then { a with value := "B11" } else a

theorem Attribute.isCode_withOneCode (a : Attribute) :
    (a.withOneCode.name == "code" && a.withOneCode.value == "B11") =
      (a.name == "code" && a.value == "B11" || a.name == "code" && a.value == "B12") := by
  unfold withOneCode
  split
  · next h => simp [h.1, h.2]
  · next h =>
    rw [not_and] at h
    by_cases hname : a.name = "code"
    · simp [hname, h hname]
    · simp [hname]

namespace Node

mutual

/-- The node with one code in place of both, wherever a category is given. -/
def withOneCode : Node → Node
  | root cs => root (withOneCodeAll cs)
  | element name as cs =>
    element name (if name = "category" then as.map Attribute.withOneCode else as)
      (withOneCodeAll cs)
  | text s => text s
  | comment s => comment s
  | instruction target s => instruction target s

/-- These nodes with one code in place of both. -/
def withOneCodeAll : List Node → List Node
  | [] => []
  | n :: rest => n.withOneCode :: withOneCodeAll rest

end

mutual

theorem withOneCode_eq_mapAttributes (n : Node) :
    n.withOneCode = n.mapAttributes "category" Attribute.withOneCode := by
  cases n with
  | root cs => rw [withOneCode, mapAttributes, withOneCodeAll_eq_mapAttributesAll cs]
  | element name as cs => rw [withOneCode, mapAttributes, withOneCodeAll_eq_mapAttributesAll cs]
  | _ => rfl

theorem withOneCodeAll_eq_mapAttributesAll (cs : List Node) :
    withOneCodeAll cs = mapAttributesAll "category" Attribute.withOneCode cs := by
  match cs with
  | [] => rfl
  | c :: rest =>
    rw [withOneCodeAll, mapAttributesAll, withOneCode_eq_mapAttributes c,
      withOneCodeAll_eq_mapAttributesAll rest]

end

theorem withOneCode_eq : withOneCode = mapAttributes "category" Attribute.withOneCode :=
  funext withOneCode_eq_mapAttributes

theorem children_withOneCode (n : Node) : n.withOneCode.children = n.children.map withOneCode := by
  rw [withOneCode_eq, children_mapAttributes]

theorem changesOnly_withOneCode : ChangesOnly "category" withOneCode :=
  withOneCode_eq ▸ changesOnly_mapAttributes

theorem attributes_withOneCode {n : Node} (h : n.isNamed "category" = true) :
    n.withOneCode.attributes = n.attributes.map Attribute.withOneCode := by
  rw [withOneCode_eq, attributes_mapAttributes h]

theorem any_or {α : Type} (xs : List α) (f g : α → Bool) :
    (xs.any fun x => f x || g x) = (xs.any f || xs.any g) := by
  rw [Bool.eq_iff_iff]
  simp only [List.any_eq_true, Bool.or_eq_true, and_or_left, exists_or]

/-- With one code, links of both categories are in the first. -/
theorem isInCategory_withOneCode (n : Node) :
    n.withOneCode.isInCategory "B11" = (n.isInCategory "B11" || n.isInCategory "B12") := by
  have hcategory (c : Node) :
      (c.withOneCode.isNamed "category" &&
          c.withOneCode.attributes.any fun a => a.name == "code" && a.value == "B11") =
        ((c.isNamed "category" && c.attributes.any fun a => a.name == "code" && a.value == "B11") ||
          (c.isNamed "category" && c.attributes.any fun a => a.name == "code" && a.value == "B12")) := by
    rw [changesOnly_withOneCode.isNamed, ← Bool.and_or_distrib_left]
    cases hnamed : c.isNamed "category" with
    | false => rfl
    | true =>
      rw [attributes_withOneCode hnamed, List.any_map]
      simp only [Function.comp_def, Attribute.isCode_withOneCode, Bool.true_and]
      exact any_or ..
  unfold isInCategory hasAttributeBelow
  rw [children_withOneCode, List.any_map]
  simp only [Function.comp_def, hcategory]
  exact any_or ..

end Node

end Markup

namespace Metric

open Markup Node Selector

/-- The same place of two documents that are the same but for the code, of these two, that each
category has. -/
structure Recoded (d d' : Node) (p p' : Place) : Prop where
  document : d.withOneCode = d'.withOneCode
  here : p.LiesIn d
  there : p'.LiesIn d'
  location : p.location = p'.location

namespace Recoded

variable {d d' : Node} {p p' q q' : Place}

theorem symm (h : Recoded d d' p p') : Recoded d' d p' p :=
  ⟨h.document.symm, h.there, h.here, h.location.symm⟩

/-- The nodes differ in nothing else. -/
theorem node (h : Recoded d d' p p') : p.node.withOneCode = p'.node.withOneCode := by
  have hat : d.withOneCode.at? p.location = d'.withOneCode.at? p'.location := by
    rw [h.document, h.location]
  rw [at?_map children_withOneCode, at?_map children_withOneCode, h.here, h.there] at hat
  exact Option.some_inj.1 hat

/-- Every place of one document is one of the other. -/
theorem exists_place (h : Recoded d d' p p') (hq : q.LiesIn d) : ∃ q', Recoded d d' q q' := by
  have hat : (d'.at? q.location).map withOneCode = some q.node.withOneCode := by
    rw [← at?_map children_withOneCode, ← h.document, at?_map children_withOneCode, hq]
    rfl
  obtain ⟨n, hn, -⟩ := Option.map_eq_some_iff.1 hat
  exact ⟨⟨q.location, n⟩, h.document, hq, hn, rfl⟩

theorem isNamed (h : Recoded d d' p p') (name : String) :
    p.node.isNamed name = p'.node.isNamed name := by
  rw [← changesOnly_withOneCode.isNamed, h.node, changesOnly_withOneCode.isNamed]

theorem titles (h : Recoded d d' p p') (hlink : p.node.isNamed "document-link" = true) :
    p.node.titles = p'.node.titles := by
  have hsame {q : Place} (hq : q.node.isNamed "document-link" = true) :
      q.node.withOneCode.titles = q.node.titles :=
    changesOnly_withOneCode.titles (isNamed_eq_false hq (by decide)) (by decide) (by decide)
  rw [← hsame hlink, h.node, hsame ((h.isNamed _).symm.trans hlink)]

/-- A link stays in one of the two categories. -/
theorem isInCategory (h : Recoded d d' p p') :
    (p.node.isInCategory "B11" || p.node.isInCategory "B12") =
      (p'.node.isInCategory "B11" || p'.node.isInCategory "B12") := by
  rw [← isInCategory_withOneCode, h.node, isInCategory_withOneCode]

theorem mem_children (h : Recoded d d' p p') (hq : Recoded d d' q q') (hchild : q ∈ p.children) :
    q' ∈ p'.children := by
  obtain ⟨i, -, hlocation⟩ := Place.mem_children.1 hchild
  have hat := hq.there
  unfold Place.LiesIn at hat
  rw [← hq.location, hlocation, h.location, Place.at?_append, h.there, Option.bind_some,
    Node.at?] at hat
  obtain ⟨n, hn, hnode⟩ := Option.bind_eq_some_iff.1 hat
  obtain rfl := Option.some_inj.1 hnode
  exact Place.mem_children.2 ⟨i, hn, by rw [← hq.location, hlocation, h.location]⟩

theorem mem_all (hq : Recoded d d' q q') (hmem : q ∈ Place.all d) : q' ∈ Place.all d' := by
  refine Place.mem_descendants_top.2 ⟨hq.there, ?_⟩
  rw [← hq.location]
  exact (Place.mem_descendants_top.1 hmem).2

/-- The total budgets give no categories. -/
theorem sectorYears (h : Recoded d d' p p') (now : Instant) :
    Metric.sectorYears now d p = Metric.sectorYears now d' p' :=
  sectorYears_eq_of_map_eq changesOnly_withOneCode (by decide) (by decide) children_withOneCode
    h.document h.here h.there now

end Recoded

def namesSector (sector : String) (link : Node) : Bool :=
  link.titles.any fun t => occursIn sector.toList t.toList

/-- A document link that counts as sector strategy paper: of the first category anywhere, or of the
second directly below the context. -/
def Counts (context q : Place) : Prop :=
  q.node.isNamed "document-link" = true ∧
    (q.node.isInCategory "B11" = true ∨ q.node.isInCategory "B12" = true ∧ q ∈ context.children)

/-- The sectors whose name occurs in the title of a sector strategy paper. -/
def coveredSectors (setting : MetricSetting) (document : Node) (context : Place) : List String :=
  let titles := (selectAll (Scope.ofDocument document) sectorTitlePaths context).map Item.stringValue
  (sectorNames (sectorYears setting.now document context)).filter fun s =>
    titles.any fun t => occursIn s.toList t.toList

theorem sectorPapers_eq_share (setting : MetricSetting) (document : Node) (context : Place) :
    sectorPapers setting document context =
      let sectors := sectorNames (sectorYears setting.now document context)
      if sectors.isEmpty then .error .noSectors
      else .ok ((coveredSectors setting document context).length.toFloat /
        sectors.length.toFloat * 100.0) := by
  unfold sectorPapers coveredSectors
  simp only [List.countP_eq_length_filter]

def IsCovered (document : Node) (context : Place) (sector : String) : Prop :=
  ∃ q ∈ Place.all document, Counts context q ∧ namesSector sector q.node = true

theorem mem_coveredSectors {setting : MetricSetting} {document : Node} {context : Place}
    (hcontext : context.LiesIn document) {s : String} :
    s ∈ coveredSectors setting document context ↔
      s ∈ sectorNames (sectorYears setting.now document context) ∧
        IsCovered document context s := by
  have hchild {q : Place} (hq : q ∈ context.children) : q ∈ Place.all document :=
    Place.exists_parent_iff.2 ⟨context, hcontext, hq⟩
  have hlinks (category : String) (places : List Place) :
      (linksIn category (places.map (·.node))).any (namesSector s) = true ↔
        ∃ q ∈ places, q.node.isNamed "document-link" = true ∧
          q.node.isInCategory category = true ∧ namesSector s q.node = true := by
    simp only [linksIn, named, List.filter_map, List.any_map, List.any_filter, List.any_eq_true,
      Function.comp_apply, Bool.and_eq_true]
  unfold coveredSectors
  dsimp only
  rw [List.mem_filter, any_sectorTitles hcontext, Bool.or_eq_true]
  refine and_congr_right fun _ => ?_
  rw [← Place.map_node_descendants_top, ← Place.map_node_children]
  refine (or_congr (hlinks _ _) (hlinks _ _)).trans ?_
  constructor
  · rintro (⟨q, hq, hlink, hcategory, hnames⟩ | ⟨q, hq, hlink, hcategory, hnames⟩)
    · exact ⟨q, hq, ⟨hlink, .inl hcategory⟩, hnames⟩
    · exact ⟨q, hchild hq, ⟨hlink, .inr ⟨hcategory, hq⟩⟩, hnames⟩
  · rintro ⟨q, hq, ⟨hlink, hcategory | ⟨hcategory, hchild⟩⟩, hnames⟩
    · exact .inl ⟨q, hq, hlink, hcategory, hnames⟩
    · exact .inr ⟨q, hchild, hlink, hcategory, hnames⟩

/-- A document link that does not stand directly below the context, and is of the first category in
only one of the documents. -/
structure ChangedElsewhere (d d' : Node) (context q q' : Place) : Prop where
  recoded : Recoded d d' q q'
  below : q ∈ Place.all d
  link : q.node.isNamed "document-link" = true
  elsewhere : q ∉ context.children
  changed : q.node.isInCategory "B11" ≠ q'.node.isInCategory "B11"

section Covered

variable {d d' : Node} {p p' : Place} {s : String}

theorem ChangedElsewhere.symm (h : Recoded d d' p p') {q q' : Place}
    (hq : ChangedElsewhere d d' p q q') : ChangedElsewhere d' d p' q' q where
  recoded := hq.recoded.symm
  below := hq.recoded.mem_all hq.below
  link := (hq.recoded.isNamed _).symm.trans hq.link
  elsewhere := fun hchild => hq.elsewhere (h.symm.mem_children hq.recoded.symm hchild)
  changed := hq.changed.symm

theorem namesSector_eq {q q' : Place} (hq : Recoded d d' q q')
    (hlink : q.node.isNamed "document-link" = true) (s : String) :
    namesSector s q.node = namesSector s q'.node := by
  unfold namesSector
  rw [hq.titles hlink]

/-- A covered sector stays covered, or is named by a changed link elsewhere. -/
theorem isCovered_or_changed (h : Recoded d d' p p') (hs : IsCovered d p s) :
    IsCovered d' p' s ∨
      ∃ q q', ChangedElsewhere d d' p q q' ∧ namesSector s q.node = true := by
  obtain ⟨q, hq, ⟨hlink, hcounts⟩, hnames⟩ := hs
  obtain ⟨q', hqq'⟩ := h.exists_place (Place.mem_descendants_top.1 hq).1
  have hlink' := (hqq'.isNamed _).symm.trans hlink
  have hnames' := (namesSector_eq hqq' hlink s).symm.trans hnames
  have hcovered (hcounts' : q'.node.isInCategory "B11" = true ∨
      q'.node.isInCategory "B12" = true ∧ q' ∈ p'.children) : IsCovered d' p' s :=
    ⟨q', hqq'.mem_all hq, ⟨hlink', hcounts'⟩, hnames'⟩
  by_cases hchild : q ∈ p.children
  · -- directly below the context, a link of either category counts
    have hpaper : (q.node.isInCategory "B11" || q.node.isInCategory "B12") = true := by
      rw [Bool.or_eq_true]
      exact hcounts.imp_right And.left
    rw [hqq'.isInCategory, Bool.or_eq_true] at hpaper
    exact .inl (hcovered (hpaper.imp_right fun hcategory => ⟨hcategory, h.mem_children hqq' hchild⟩))
  · have hfirst := hcounts.resolve_right fun hsecond => hchild hsecond.2
    by_cases hsame : q.node.isInCategory "B11" = q'.node.isInCategory "B11"
    · exact .inl (hcovered (.inl (hsame.symm.trans hfirst)))
    · exact .inr ⟨q, q', ⟨hqq', hq, hlink, hchild, hsame⟩, hnames⟩

/-- A sector that a changed link elsewhere names is covered in one of the documents. -/
theorem isCovered_or_isCovered (h : Recoded d d' p p') {q q' : Place}
    (hq : ChangedElsewhere d d' p q q') (hnames : namesSector s q.node = true) :
    IsCovered d p s ∨ IsCovered d' p' s := by
  have hq' := hq.symm h
  cases hfirst : q.node.isInCategory "B11" with
  | true => exact .inl ⟨q, hq.below, ⟨hq.link, .inl hfirst⟩, hnames⟩
  | false =>
    have hchanged := hq.changed
    rw [hfirst] at hchanged
    have hfirst' : q'.node.isInCategory "B11" = true := Bool.eq_true_of_not_eq_false hchanged.symm
    rw [namesSector_eq hq.recoded hq.link] at hnames
    exact .inr ⟨q', hq'.below, ⟨hq'.link, .inl hfirst'⟩, hnames⟩

theorem coveredSectors_eq_iff (h : Recoded d d' p p') (setting : MetricSetting) :
    coveredSectors setting d p = coveredSectors setting d' p' ↔
      ∀ s ∈ sectorNames (sectorYears setting.now d p), (IsCovered d p s ↔ IsCovered d' p' s) := by
  constructor
  · intro heq s hs
    have hsame : s ∈ coveredSectors setting d p ↔ s ∈ coveredSectors setting d' p' := by rw [heq]
    rwa [mem_coveredSectors h.here, mem_coveredSectors h.there, ← h.sectorYears,
      and_iff_right hs, and_iff_right hs] at hsame
  · intro hsame
    have hmem (s : String) :
        s ∈ coveredSectors setting d p ↔ s ∈ coveredSectors setting d' p' := by
      rw [mem_coveredSectors h.here, mem_coveredSectors h.there, ← h.sectorYears]
      exact and_congr_right (hsame s)
    unfold coveredSectors at hmem ⊢
    rw [← h.sectorYears] at hmem ⊢
    refine List.filter_congr fun s hs => Bool.eq_iff_iff.2 ?_
    have hiff := hmem s
    rwa [List.mem_filter, List.mem_filter, and_iff_right hs, and_iff_right hs] at hiff

end Covered

/-- The codes of document links do not matter to the share of sectors with a strategy paper if every
sector that a changed link elsewhere names is covered before and after, and that is exactly when
the same sectors are covered. -/
theorem sectorPapers_recoded {d d' : Node} {p p' : Place} (h : Recoded d d' p p')
    (setting : MetricSetting) :
    let unmoved := ∀ q q', ChangedElsewhere d d' p q q' →
      ∀ s ∈ sectorNames (sectorYears setting.now d p), namesSector s q.node = true →
        IsCovered d p s ∧ IsCovered d' p' s
    (coveredSectors setting d p = coveredSectors setting d' p' ↔ unmoved) ∧
      (unmoved → sectorPapers setting d p = sectorPapers setting d' p') := by
  intro unmoved
  have hunmoved : coveredSectors setting d p = coveredSectors setting d' p' ↔ unmoved := by
    rw [coveredSectors_eq_iff h]
    constructor
    · intro hsame q q' hq s hs hnames
      rw [hsame s hs, and_self]
      exact (isCovered_or_isCovered h hq hnames).elim (hsame s hs).1 id
    · intro hunmoved s hs
      constructor
      · intro hcovered
        rcases isCovered_or_changed h hcovered with hcovered' | ⟨q, q', hq, hnames⟩
        · exact hcovered'
        · exact (hunmoved q q' hq s hs hnames).2
      · intro hcovered'
        rcases isCovered_or_changed h.symm hcovered' with hcovered | ⟨q', q, hq', hnames'⟩
        · exact hcovered
        · rw [namesSector_eq hq'.recoded hq'.link] at hnames'
          exact (hunmoved q q' (hq'.symm h.symm) s hs hnames').1
  refine ⟨hunmoved, fun h' => ?_⟩
  rw [sectorPapers_eq_share, sectorPapers_eq_share, hunmoved.2 h', h.sectorYears]

/-- An organisation with a budget line for a sector and a paper that names it, beside another one with
such a paper. -/
def papersOf (code code' : String) : Node :=
  twoOrganisations [healthBudget, strategyPaper [code]] [strategyPaper [code']]

/-- Two papers exchange their codes, and the one in the other organisation no longer counts, but the
sector that it names stays covered. -/
theorem sectorPapers_recoded_exchanged :
    let d := papersOf "B12" "B11"
    let d' := papersOf "B11" "B12"
    let here (code : String) := firstOrganisation [healthBudget, strategyPaper [code]]
    let there (code : String) : Place := ⟨[0, 1, 0], strategyPaper [code]⟩
    Recoded d d' (here "B12") (here "B11") ∧
      ChangedElsewhere d d' (here "B12") (there "B11") (there "B12") ∧
      (sectorPapers sampleSetting d (here "B12")).toOption = some 100.0 ∧
      sectorPapers sampleSetting d (here "B12") = sectorPapers sampleSetting d' (here "B11") := by
  intro d d' here there
  have hrecoded : Recoded d d' (here "B12") (here "B11") := ⟨rfl, rfl, rfl, rfl⟩
  have hcovered : ∀ s ∈ sectorNames (sectorYears sampleSetting.now d (here "B12")),
      s ∈ coveredSectors sampleSetting d (here "B12") ∧
        s ∈ coveredSectors sampleSetting d' (here "B11") := by
    simp only [coveredSectors, sectorYears, any_sectorTitles hrecoded.here,
      any_sectorTitles hrecoded.there, elements_totalBudget hrecoded.here,
      elements_totalBudget hrecoded.there]
    decide +kernel
  have hpapers := (sectorPapers_recoded hrecoded sampleSetting).2 fun q q' _ s hs _ =>
    ⟨((mem_coveredSectors hrecoded.here).1 (hcovered s hs).1).2,
      ((mem_coveredSectors hrecoded.there).1 (hcovered s hs).2).2⟩
  refine ⟨hrecoded, ⟨⟨rfl, rfl, rfl, rfl⟩, ?_, rfl, ?_, ?_⟩, ?_, hpapers⟩
  · exact Place.mem_descendants_top.2 ⟨rfl, List.cons_ne_nil _ _⟩
  · intro hchild
    obtain ⟨i, -, hlocation⟩ := Place.mem_children.1 hchild
    cases hlocation
  · decide +kernel
  · simp only [sectorPapers, sectorYears, any_sectorTitles hrecoded.here,
      elements_totalBudget hrecoded.here]
    decide +kernel

/-- At the root of a document, where papers stand further below, only those of one category count. -/
theorem not_recoded_counts_alike :
    let d := twoOrganisations [healthBudget, strategyPaper ["B11"]] []
    let d' := twoOrganisations [healthBudget, strategyPaper ["B12"]] []
    Recoded d d' (.top d) (.top d') ∧
      (sectorPapers sampleSetting d (.top d)).toOption = some 100.0 ∧
      (sectorPapers sampleSetting d' (.top d')).toOption = some 0.0 ∧
      ¬ ∀ (setting : MetricSetting) (d d' : Node) (p p' : Place), Recoded d d' p p' →
        sectorPapers setting d p = sectorPapers setting d' p' := by
  intro d d'
  have hrecoded : Recoded d d' (.top d) (.top d') := ⟨rfl, rfl, rfl, rfl⟩
  have hfirst : (sectorPapers sampleSetting d (.top d)).toOption = some 100.0 := by
    simp only [sectorPapers, sectorYears, any_sectorTitles hrecoded.here,
      elements_totalBudget hrecoded.here]
    decide +kernel
  have hsecond : (sectorPapers sampleSetting d' (.top d')).toOption = some 0.0 := by
    simp only [sectorPapers, sectorYears, any_sectorTitles hrecoded.there,
      elements_totalBudget hrecoded.there]
    decide +kernel
  refine ⟨hrecoded, hfirst, hsecond, fun hsame => ?_⟩
  rw [hsame sampleSetting d d' (.top d) (.top d') hrecoded, hsecond] at hfirst
  revert hfirst
  decide +kernel

end Metric

end DataQuality
