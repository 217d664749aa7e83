import DataQuality.Proofs.Metric.Organisations

/-!
# What metrics know of other organisations

A metric is computed at the element of an organisation, but takes its records from the
whole document. So its value there does not change with what other organisations hold as
long as they hold the same records of the kinds that the metric reads; and it may change
with the records of each of these kinds.
-/
namespace DataQuality

open Markup Node

namespace Metric

/-- The records that metrics read, by the names of their elements. -/
inductive RecordKind
  | totalBudget
  | countryBudget
  | documentLink
  deriving DecidableEq

def RecordKind.name : RecordKind → String
  | totalBudget => "total-budget"
  | countryBudget => "recipient-country-budget"
  | documentLink => "document-link"

/-- The kinds of the records that a metric reads, also where it falls back on another one. -/
def reads : Metric → List RecordKind
  | totalCountryBudgets => [.totalBudget, .countryBudget]
  | countryStrategyPapers => [.totalBudget, .countryBudget, .documentLink]
  | totalBudgetsAvailable => [.totalBudget]
  | totalSectorBudgets => [.totalBudget]
  | sectorStrategyPapers => [.totalBudget, .documentLink]

/-- The organisation element stands in both documents, and these differ only in what organisation
elements hold. -/
structure DifferElsewhere (p : Place) (d d' : Node) : Prop where
  organisation : p.node.isOrganisation = true
  here : p.LiesIn d
  there : p.LiesIn d'
  elsewhere : d.hollow = d'.hollow

/-- The organisation elements of two documents, one by one, hold the same records of a kind. -/
def HoldSame (kind : RecordKind) (d d' : Node) : Prop :=
  d.holdings.map (named kind.name) = d'.holdings.map (named kind.name)

/-- A metric has the same value or error at an organisation element whatever the other organisations
hold, if their records of some kinds stay the same. -/
def IsolatedGiven (m : Metric) (kinds : List RecordKind) : Prop :=
  ∀ setting p d d', DifferElsewhere p d d' → (∀ kind ∈ kinds, HoldSame kind d d') →
    m.evaluate setting d p = m.evaluate setting d' p

section Records

variable {document : Node} {context : Place}

theorem elements_totalBudget (h : context.LiesIn document) :
    elements document context [everyElement "total-budget" []] =
      named "total-budget" document.inside := by
  rw [elements_every (Selector.decides_nil document) h, List.filter_true]

theorem elements_datedTotalBudget (h : context.LiesIn document) :
    elements document context [everyElement "total-budget" [.present endDatePath]] =
      (named "total-budget" document.inside).filter hasEndDate :=
  elements_every (Selector.decides_present document "period-end" "iso-date") h

theorem elements_countryBudget (h : context.LiesIn document) :
    elements document context countryBudgetPaths =
      (named "recipient-country-budget" document.inside).filter hasEndDate :=
  elements_every (Selector.decides_present document "period-end" "iso-date") h

theorem elements_everyLink (h : context.LiesIn document) (category : String) :
    elements document context [everyLink category] = linksIn category document.inside :=
  elements_every (Selector.decides_compares document "category" "code" category) h

end Records

/-- Documents that are the same but for elements of a name have the same budget lines. -/
theorem sectorYears_eq_of_map_eq {name : String} {f : Node → Node} (hf : ChangesOnly name f)
    (hname : name ∉ partNames) (hbudget : "total-budget" ≠ name)
    (hchildren : ∀ n, (f n).children = n.children.map f) {d d' : Node} (h : f d = f d')
    {p p' : Place} (hp : p.LiesIn d) (hp' : p'.LiesIn d') (now : Instant) :
    sectorYears now d p = sectorYears now d' p' := by
  have hsame (d : Node) (o : Nat) :
      (named "total-budget" (f d).inside).foldl (SectorYear.add (.ofOffset now o)) SectorYear.none =
        (named "total-budget" d.inside).foldl (SectorYear.add (.ofOffset now o)) SectorYear.none := by
    rw [inside_map hchildren, hf.named_map, List.foldl_map]
    refine List.foldl_ext _ _ _ fun year budget hmem => ?_
    exact hf.sectorYear_add hname (isNamed_eq_false_of_mem_named hmem hbudget) _ year
  unfold sectorYears
  rw [elements_totalBudget hp, elements_totalBudget hp']
  refine List.map_congr_left fun o _ => ?_
  rw [← hsame d, h, hsame d']

/-- A budget with an end has a date of it. -/
theorem hasEndDate_of_endDate? {budget : Node} {text : String} (h : endDate? budget = some text) :
    budget.hasEndDate = true := by
  obtain ⟨c, hc, hattribute⟩ := Option.bind_eq_some_iff.1 h
  obtain ⟨a, ha, -⟩ := Option.map_eq_some_iff.1 hattribute
  have hkey := List.find?_some ha
  rw [Bool.and_eq_true] at hkey
  refine List.any_eq_true.2 ⟨c, List.mem_of_find?_eq_some hc, Bool.and_eq_true_iff.2 ⟨?_, ?_⟩⟩
  · exact List.find?_some (p := fun m : Node => m.isNamed "period-end") hc
  · exact List.any_eq_true.2 ⟨a, List.mem_of_find?_eq_some ha, Bool.and_eq_true_iff.2 ⟨hkey.2, rfl⟩⟩

theorem notPart_organisationName : organisationName ∉ partNames := by decide

/-- What looks the same without what organisation elements hold is the same for nodes that differ
only in that. -/
theorem eq_of_sameOutside {γ : Type} {g : Node → γ} {n n' : Node}
    (hg : ∀ n : Node, n.isOrganisation = false → g n.hollow = g n) (h : SameOutside n n') :
    g n = g n' := by
  rw [← hg n h.isOrganisation, h.hollow, hg n' h.isOrganisation']

theorem hasEndDate_hollow {n : Node} (h : n.isOrganisation = false) :
    n.hollow.hasEndDate = n.hasEndDate :=
  changesOnly_hollow.hasEndDate notPart_organisationName h

theorem isInCategory_hollow {n : Node} (h : n.isOrganisation = false) (category : String) :
    n.hollow.isInCategory category = n.isInCategory category :=
  changesOnly_hollow.hasAttributeBelow h (by decide) _ _

/-- A budget that ends at a date and is of an amount. The metrics pass over any other one. -/
def isSound (budget : Node) : Bool :=
  ((endDate? budget).any fun date => (Date.read? date).isSome) && (amount? budget).isSome

/-- Whether a record of a kind can make a difference. -/
def RecordKind.counts (kind : RecordKind) (record : Node) : Bool :=
  match kind with
  | totalBudget => isSound record
  | countryBudget => isSound record
  | documentLink => record.isInCategory "B03" || record.isInCategory "B11"

/-- The records of a kind among some nodes that can make a difference. -/
def counted (kind : RecordKind) (nodes : List Node) : List Node :=
  (named kind.name nodes).filter kind.counts

section Counted

variable {n : Node}

theorem isSome_amount?_of_plainAmount? (h : (plainAmount? n).isSome = true) :
    (amount? n).isSome = true := by
  unfold plainAmount? at h
  unfold amount?
  cases hvalue : n.childText? "value" with
  | none =>
    rw [hvalue] at h
    cases h
  | some s =>
    rw [hvalue] at h
    obtain ⟨x, hx⟩ := Option.isSome_iff_exists.1 h
    have hread : readAmountChars? s.toList = some x := hx
    rw [Option.bind_some, readAmount, hread]
    rfl

/-- What is wrong with a budget keeps it out of every window, or leaves it without an amount. -/
theorem not_isSound_cases (h : isSound n = false) :
    (∀ w, endsIn w n = false) ∧ (∀ now, (endDate? n).any (isLater now) = false) ∨
      amount? n = none ∧ plainAmount? n = none := by
  cases hamount : amount? n with
  | none =>
    refine .inr ⟨rfl, ?_⟩
    by_contra hplain
    have hsome := isSome_amount?_of_plainAmount? (Option.isSome_iff_ne_none.2 hplain)
    rw [hamount] at hsome
    cases hsome
  | some x =>
    left
    unfold isSound at h
    rw [hamount, Option.isSome_some, Bool.and_true] at h
    unfold endsIn
    cases hdate : endDate? n with
    | none => exact ⟨fun w => rfl, fun now => rfl⟩
    | some date =>
      rw [hdate, Option.any_some, Option.isSome_eq_false_iff, Option.isNone_iff_eq_none] at h
      unfold Window.containsDate isLater
      simp only [Option.any_some, h, implies_true, and_self]

theorem yearBudget_add_of_not_isSound (h : isSound n = false) (w : Window) (year : YearBudget) :
    year.add w n = year := by
  unfold YearBudget.add
  rcases not_isSound_cases h with ⟨hend, -⟩ | ⟨hamount, -⟩
  · rw [hend, Bool.and_false]
    rfl
  · rw [hamount]
    split <;> rfl

theorem sectorYear_add_of_not_isSound (h : isSound n = false) (w : Window) (year : SectorYear) :
    year.add w n = year := by
  unfold SectorYear.add
  rcases not_isSound_cases h with ⟨hend, -⟩ | ⟨-, hamount⟩
  · rw [hend]
    rfl
  · rw [hamount]
    split <;> rfl

theorem isActive_of_not_isSound (h : isSound n = false) (now : Instant) : isActive now n = false := by
  unfold isActive
  rcases not_isSound_cases h with ⟨-, hlater⟩ | ⟨-, hamount⟩
  · rw [hlater]
    rfl
  · rw [hamount, Option.any_none, Bool.and_false]

theorem countryBudgetsIn_filter_isSound (w : Window) (nodes : List Node) :
    countryBudgetsIn w (nodes.filter isSound) = countryBudgetsIn w nodes := by
  unfold countryBudgetsIn
  rw [List.filterMap_filter]
  refine List.filterMap_congr fun n _ => ?_
  cases hsound : isSound n with
  | true => rfl
  | false =>
    rcases not_isSound_cases hsound with ⟨hend, -⟩ | ⟨hamount, -⟩
    · rw [hend]
      rfl
    · simp [hamount]

theorem counts_hollow (h : n.isOrganisation = false) (kind : RecordKind) :
    kind.counts n.hollow = kind.counts n := by
  have hsound : isSound n.hollow = isSound n := by
    unfold isSound
    rw [changesOnly_hollow.endDate? notPart_organisationName h,
      changesOnly_hollow.amount? notPart_organisationName h]
  cases kind with
  | totalBudget => exact hsound
  | countryBudget => exact hsound
  | documentLink =>
    simp only [RecordKind.counts]
    rw [isInCategory_hollow h, isInCategory_hollow h]

theorem linksIn_eq_filter_counted (category : String) (hcategory : category ∈ ["B03", "B11"])
    (nodes : List Node) :
    linksIn category nodes = (counted .documentLink nodes).filter (isInCategory category) := by
  unfold linksIn counted
  rw [List.filter_filter]
  refine List.filter_congr fun n _ => ?_
  obtain rfl | rfl : category = "B03" ∨ category = "B11" := by simpa using hcategory
  all_goals
    simp only [RecordKind.counts]
    cases n.isInCategory "B03" <;> cases n.isInCategory "B11" <;> rfl

/-- What is passed over does not have to be there. -/
theorem foldl_filter_of_skip {β : Type} {f : β → Node → β} {keep : Node → Bool}
    (hskip : ∀ b n, keep n = false → f b n = b) (nodes : List Node) (b : β) :
    (nodes.filter keep).foldl f b = nodes.foldl f b := by
  rw [List.foldl_filter]
  refine List.foldl_ext _ _ _ fun b n _ => ?_
  cases hkeep : keep n with
  | true => rfl
  | false => exact (hskip b n hkeep).symm

end Counted

section Agreement

variable {xs ys : List Node} {d d' : Node} {p : Place}

theorem forall₂_filter {keep : Node → Bool}
    (hkeep : ∀ n : Node, n.isOrganisation = false → keep n.hollow = keep n)
    (h : List.Forall₂ SameOutside xs ys) :
    List.Forall₂ SameOutside (xs.filter keep) (ys.filter keep) :=
  List.rel_filter (fun _ _ hn => iff_of_eq (congrArg (· = true) (eq_of_sameOutside hkeep hn))) h

theorem foldl_eq {β : Type} {f : β → Node → β}
    (hf : ∀ b, ∀ n : Node, n.isOrganisation = false → f b n.hollow = f b n)
    (h : List.Forall₂ SameOutside xs ys) (b : β) : xs.foldl f b = ys.foldl f b := by
  induction h generalizing b with
  | nil => rfl
  | cons hn _ ih => rw [List.foldl_cons, List.foldl_cons, eq_of_sameOutside (hf b) hn, ih]

theorem filterMap_eq {β : Type} {f : Node → Option β}
    (hf : ∀ n : Node, n.isOrganisation = false → f n.hollow = f n)
    (h : List.Forall₂ SameOutside xs ys) : xs.filterMap f = ys.filterMap f := by
  induction h with
  | nil => rfl
  | cons hn _ ih => rw [List.filterMap_cons, List.filterMap_cons, eq_of_sameOutside hf hn, ih]

theorem any_eq {f : Node → Bool} (hf : ∀ n : Node, n.isOrganisation = false → f n.hollow = f n)
    (h : List.Forall₂ SameOutside xs ys) : xs.any f = ys.any f :=
  Selector.any_eq_of_forall₂ (fun _ _ hn => eq_of_sameOutside hf hn) h

theorem countryBudgetsIn_eq (h : List.Forall₂ SameOutside xs ys) (w : Window) :
    countryBudgetsIn w xs = countryBudgetsIn w ys := by
  refine filterMap_eq (fun n hn => ?_) h
  rw [changesOnly_hollow.endsIn notPart_organisationName hn,
    changesOnly_hollow.amount? notPart_organisationName hn,
    changesOnly_hollow.childAttribute? hn (by decide)]

/-- Two documents have the same records of a name, in the same order, but for what organisation
elements in the records hold. -/
def Agree (name : String) (d d' : Node) : Prop :=
  List.Forall₂ SameOutside (named name d.inside) (named name d'.inside)

/-- The same of the records of a kind that can make a difference. -/
def AgreeOn (kind : RecordKind) (d d' : Node) : Prop :=
  List.Forall₂ SameOutside (counted kind d.inside) (counted kind d'.inside)

theorem agreeOn_of_agree {kind : RecordKind} (h : Agree kind.name d d') : AgreeOn kind d d' :=
  forall₂_filter (fun _ hn => counts_hollow hn kind) h

/-- What is folded over dated records passes over those that are not sound. -/
theorem foldl_dated_eq (kind : RecordKind) {β : Type} {f : β → Node → β}
    (hcounts : kind.counts = isSound) (hskip : ∀ b n, isSound n = false → f b n = b)
    (hf : ∀ b, ∀ n : Node, n.isOrganisation = false → f b n.hollow = f b n) (h : AgreeOn kind d d')
    (b : β) :
    ((named kind.name d.inside).filter hasEndDate).foldl f b =
      ((named kind.name d'.inside).filter hasEndDate).foldl f b := by
  have hdated (d : Node) : ((named kind.name d.inside).filter hasEndDate).foldl f b =
      ((counted kind d.inside).filter hasEndDate).foldl f b := by
    unfold counted
    rw [hcounts, List.filter_comm, foldl_filter_of_skip hskip]
  rw [hdated, hdated]
  exact foldl_eq hf (forall₂_filter (fun _ => hasEndDate_hollow) h) b

variable {p' : Place} (hp : p.LiesIn d) (hp' : p'.LiesIn d') (now : Instant)

include hp hp'

theorem totalBudgets_eq (h : AgreeOn .totalBudget d d') :
    totalBudgets now d p = totalBudgets now d' p' := by
  unfold totalBudgets
  rw [elements_datedTotalBudget hp, elements_datedTotalBudget hp']
  refine List.map_congr_left fun o _ => ?_
  exact foldl_dated_eq .totalBudget rfl (fun year n hn => yearBudget_add_of_not_isSound hn _ year)
    (fun year n hn => changesOnly_hollow.yearBudget_add notPart_organisationName hn _ year) h _

theorem sectorYears_eq (h : AgreeOn .totalBudget d d') :
    sectorYears now d p = sectorYears now d' p' := by
  unfold sectorYears
  rw [elements_totalBudget hp, elements_totalBudget hp']
  refine List.map_congr_left fun o _ => ?_
  have hskip (nodes : List Node) :
      (nodes.filter isSound).foldl (SectorYear.add (.ofOffset now o)) SectorYear.none =
        nodes.foldl (SectorYear.add (.ofOffset now o)) SectorYear.none :=
    foldl_filter_of_skip (fun year n hn => sectorYear_add_of_not_isSound hn _ year) nodes _
  refine (hskip _).symm.trans (Eq.trans ?_ (hskip _))
  exact foldl_eq (fun year n hn =>
    changesOnly_hollow.sectorYear_add notPart_organisationName hn _ year) h _

theorem countryBudgets_eq (h : AgreeOn .countryBudget d d') (totals : List YearBudget) :
    countryBudgets now d p totals = countryBudgets now d' p' totals := by
  have hdated (w : Window) (d : Node) :
      countryBudgetsIn w ((named "recipient-country-budget" d.inside).filter hasEndDate) =
        countryBudgetsIn w ((counted .countryBudget d.inside).filter hasEndDate) := by
    rw [← countryBudgetsIn_filter_isSound, List.filter_comm]
    rfl
  have hrecords := forall₂_filter (fun _ => hasEndDate_hollow) h
  unfold countryBudgets
  rw [elements_countryBudget hp, elements_countryBudget hp']
  simp only [hdated, countryBudgetsIn_eq hrecords]

theorem activeCountries_eq (h : AgreeOn .countryBudget d d') :
    activeCountries now d p = activeCountries now d' p' := by
  unfold activeCountries
  rw [elements_countryBudget hp, elements_countryBudget hp',
    List.foldl_filter (p := isActive now), List.foldl_filter (p := isActive now)]
  refine foldl_dated_eq .countryBudget rfl (fun countries n hn => ?_)
    (fun countries n hn => ?_) h _
  · rw [isActive_of_not_isSound hn]
    rfl
  · rw [changesOnly_hollow.countryOf notPart_organisationName hn (by decide),
      changesOnly_hollow.isActive notPart_organisationName hn]

variable (hlinks : List.Forall₂ SameOutside (linksIn "B12" p.node.children)
  (linksIn "B12" p'.node.children))

include hlinks in
theorem sectorPapers_eq (setting : MetricSetting) (htotal : AgreeOn .totalBudget d d')
    (hlink : AgreeOn .documentLink d d') :
    sectorPapers setting d p = sectorPapers setting d' p' := by
  have htitles (passes : String → Bool) {xs ys : List Node} (h : List.Forall₂ SameOutside xs ys) :
      xs.any (fun link => link.titles.any passes) = ys.any (fun link => link.titles.any passes) := by
    refine any_eq (fun n hn => ?_) h
    rw [changesOnly_hollow.titles hn (by decide) (by decide)]
  have hanywhere := forall₂_filter (fun n hn => isInCategory_hollow hn "B11") hlink
  unfold sectorPapers
  simp only [sectorYears_eq hp hp' setting.now htotal, any_sectorTitles hp, any_sectorTitles hp',
    linksIn_eq_filter_counted "B11" (by decide), htitles _ hanywhere, htitles _ hlinks]

include hlinks in
theorem countryPapers_eq (setting : MetricSetting) (htotal : AgreeOn .totalBudget d d')
    (hcountry : AgreeOn .countryBudget d d') (hlink : AgreeOn .documentLink d d') :
    countryPapers setting d p = countryPapers setting d' p' := by
  have hpapers := forall₂_filter (fun n hn => isInCategory_hollow hn "B03") hlink
  have hcovers (code lowerName : Option String) :
      ((counted .documentLink d.inside).filter (isInCategory "B03")).any
          (coversCountry code lowerName) =
        ((counted .documentLink d'.inside).filter (isInCategory "B03")).any
          (coversCountry code lowerName) :=
    any_eq (fun n hn => changesOnly_hollow.coversCountry notPart_organisationName hn (by decide)
      code lowerName) hpapers
  unfold countryPapers
  simp only [activeCountries_eq hp hp' setting.now hcountry, elements_everyLink hp,
    elements_everyLink hp', linksIn_eq_filter_counted "B03" (by decide), hcovers,
    sectorPapers_eq hp hp' hlinks setting htotal hlink]

theorem countryScore_eq (setting : MetricSetting) (htotal : AgreeOn .totalBudget d d')
    (hcountry : AgreeOn .countryBudget d d') :
    countryScore setting d p = countryScore setting d' p' := by
  unfold countryScore
  simp only [totalBudgets_eq hp hp' setting.now htotal, sectorYears_eq hp hp' setting.now htotal,
    countryBudgets_eq hp hp' setting.now hcountry]

theorem availableYears_eq (setting : MetricSetting) (h : AgreeOn .totalBudget d d') :
    availableYears setting d p = availableYears setting d' p' := by
  unfold availableYears
  rw [totalBudgets_eq hp hp' setting.now h]

include hlinks in
/-- A metric has the same value or error in two documents with the same records of the kinds it
reads. -/
theorem evaluate_eq (setting : MetricSetting) (m : Metric) (h : ∀ kind ∈ m.reads, AgreeOn kind d d') :
    m.evaluate setting d p = m.evaluate setting d' p' := by
  unfold reads at h
  cases m with
  | totalCountryBudgets =>
    exact congrArg Except.ok
      (countryScore_eq hp hp' setting (h .totalBudget (by decide)) (h .countryBudget (by decide)))
  | countryStrategyPapers =>
    exact countryPapers_eq hp hp' hlinks setting (h .totalBudget (by decide))
      (h .countryBudget (by decide)) (h .documentLink (by decide))
  | totalBudgetsAvailable =>
    exact congrArg Except.ok (availableYears_eq hp hp' setting (h .totalBudget (by decide)))
  | totalSectorBudgets =>
    exact congrArg (fun years => Except.ok (sectorScore years))
      (sectorYears_eq hp hp' setting.now (h .totalBudget (by decide)))
  | sectorStrategyPapers =>
    exact sectorPapers_eq hp hp' hlinks setting (h .totalBudget (by decide))
      (h .documentLink (by decide))

end Agreement

/-- Organisation elements that hold the same records of a kind make documents with the same records of
that kind, if these differ in nothing else. -/
theorem agree_of_holdSame {kind : RecordKind} {d d' : Node} (h : d.hollow = d'.hollow)
    (hheld : HoldSame kind d d') : Agree kind.name d d' :=
  forall₂_named_inside (by cases kind <;> decide) h hheld

theorem isolatedGiven_of_reads {m : Metric} {kinds : List RecordKind} (h : m.reads ⊆ kinds) :
    m.IsolatedGiven kinds := by
  intro setting p d d' hdiffer hheld
  have hlinks : List.Forall₂ SameOutside (linksIn "B12" p.node.children)
      (linksIn "B12" p.node.children) := List.forall₂_same.2 fun link hlink =>
    sameOutside_refl (by decide) (List.mem_filter.1 (List.mem_filter.1 hlink).1).2
  refine evaluate_eq hdiffer.here hdiffer.there hlinks setting m fun kind hkind => ?_
  exact agreeOn_of_agree (agree_of_holdSame hdiffer.elsewhere (hheld kind (h hkind)))

def organisation (records : List Node) : Node := .element organisationName [] records

def twoOrganisations (ours others : List Node) : Node :=
  .root [.element "iati-organisations" [] [organisation ours, organisation others]]

/-- The first of the two. -/
def firstOrganisation (ours : List Node) : Place := ⟨[0, 0], organisation ours⟩

theorem differElsewhere_twoOrganisations (ours others others' : List Node) :
    DifferElsewhere (firstOrganisation ours) (twoOrganisations ours others)
      (twoOrganisations ours others') where
  organisation := rfl
  here := rfl
  there := rfl
  elsewhere := rfl

theorem holdSame_twoOrganisations {kind : RecordKind} {ours others others' : List Node}
    (h : named kind.name (insideAll others) = named kind.name (insideAll others')) :
    HoldSame kind (twoOrganisations ours others) (twoOrganisations ours others') := by
  have hheld (others : List Node) : (twoOrganisations ours others).holdings.map (named kind.name) =
      [named kind.name (insideAll ours), named kind.name (insideAll others)] := rfl
  unfold HoldSame
  rw [hheld, hheld, h]

def textElement (name text : String) : Node := .element name [] [.text text]

def attributeElement (name key value : String) : Node := .element name [⟨none, key, value⟩] []

/-- A total budget for the year ahead, half of it in the line of one sector. -/
def healthBudget : Node :=
  .element "total-budget" [] [
    attributeElement "period-start" "iso-date" "2020-01-01",
    attributeElement "period-end" "iso-date" "2021-01-01", textElement "value" "100",
    .element "budget-line" [] [textElement "narrative" "Health", textElement "value" "50"]]

/-- A budget of the same year for one country. -/
def countryRecord : Node :=
  .element "recipient-country-budget" [] [attributeElement "recipient-country" "code" "AF",
    attributeElement "period-end" "iso-date" "2021-01-01", textElement "value" "10"]

/-- A strategy paper for that country, and in some categories for that sector, too. -/
def strategyPaper (categories : List String) : Node :=
  .element "document-link" [] (.element "title" [] [textElement "narrative" "Health"] ::
    attributeElement "recipient-country" "code" "AF" ::
      categories.map (attributeElement "category" "code"))

def sampleSetting : MetricSetting := ⟨⟨1577836800, 0⟩, none⟩

/-- What a first organisation holds beside a record of a kind that a second one holds or not. -/
def heldBeside : RecordKind → List Node
  | .totalBudget => []
  | .countryBudget => [healthBudget, strategyPaper ["B03"]]
  | .documentLink => [healthBudget, countryRecord]

def otherRecord : RecordKind → Node
  | .totalBudget => healthBudget
  | .countryBudget => countryRecord
  | .documentLink => strategyPaper ["B03", "B11"]

/-- It counts for no other kind. -/
theorem named_otherRecord {kind kind' : RecordKind} (h : kind' ≠ kind) :
    named kind'.name (insideAll [otherRecord kind]) = [] := by
  cases kind <;> cases kind' <;> try rfl
  all_goals exact absurd rfl h

/-- A record in another organisation matters to each metric that reads its kind. -/
theorem evaluate_ne_of_reads {m : Metric} {kind : RecordKind} (h : kind ∈ m.reads) :
    let ours := heldBeside kind
    m.evaluate sampleSetting (twoOrganisations ours []) (firstOrganisation ours) ≠
      m.evaluate sampleSetting (twoOrganisations ours [otherRecord kind])
        (firstOrganisation ours) := by
  have hlies (ours others : List Node) :
      (firstOrganisation ours).LiesIn (twoOrganisations ours others) := rfl
  have hne {a b : Except MetricError Float} (h : a.toOption ≠ b.toOption) : a ≠ b :=
    fun hab => h (congrArg Except.toOption hab)
  refine hne ?_
  simp only [reads] at h
  cases m with
  | totalCountryBudgets =>
    simp only [List.mem_cons, List.not_mem_nil, or_false] at h
    simp only [evaluate, countryScore, totalBudgets, countryBudgets, sectorYears,
      elements_datedTotalBudget (hlies _ _), elements_countryBudget (hlies _ _),
      elements_totalBudget (hlies _ _)]
    rcases h with rfl | rfl <;> decide +kernel
  | countryStrategyPapers =>
    simp only [evaluate, countryPapers, activeCountries, sectorPapers, sectorYears,
      elements_countryBudget (hlies _ _), elements_everyLink (hlies _ _),
      elements_totalBudget (hlies _ _), any_sectorTitles (hlies _ _)]
    cases kind <;> decide +kernel
  | totalBudgetsAvailable =>
    obtain rfl := List.mem_singleton.1 h
    simp only [evaluate, availableYears, totalBudgets, elements_datedTotalBudget (hlies _ _)]
    decide +kernel
  | totalSectorBudgets =>
    obtain rfl := List.mem_singleton.1 h
    simp only [evaluate, sectorYears, elements_totalBudget (hlies _ _)]
    decide +kernel
  | sectorStrategyPapers =>
    simp only [List.mem_cons, List.not_mem_nil, or_false] at h
    simp only [evaluate, sectorPapers, sectorYears, elements_totalBudget (hlies _ _),
      any_sectorTitles (hlies _ _)]
    rcases h with rfl | rfl <;> decide +kernel

/-- What other organisations hold does not matter to a metric exactly if their records of all kinds
that the metric reads stay the same. -/
theorem isolatedGiven_iff_reads_subset (m : Metric) (kinds : List RecordKind) :
    m.IsolatedGiven kinds ↔ m.reads ⊆ kinds := by
  refine ⟨fun hisolated kind hkind => ?_, isolatedGiven_of_reads⟩
  by_contra hnot
  refine evaluate_ne_of_reads hkind ?_
  refine hisolated _ _ _ _ (differElsewhere_twoOrganisations _ _ _) fun kind' hkind' => ?_
  refine holdSame_twoOrganisations ?_
  have hne : kind' ≠ kind := by
    rintro rfl
    exact hnot hkind'
  rw [named_otherRecord hne]
  rfl

/-- The total budget of another organisation makes the one year of an organisation without budgets. -/
theorem not_isolated_other_budget :
    let here := firstOrganisation []
    let d := twoOrganisations [] []
    let d' := twoOrganisations [] [healthBudget]
    DifferElsewhere here d d' ∧
      (totalBudgetsAvailable.evaluate sampleSetting d here).toOption = some 0.0 ∧
      (totalBudgetsAvailable.evaluate sampleSetting d' here).toOption = some (1.0 / 3.0 * 100.0) ∧
      ¬ ∀ m : Metric, m.IsolatedGiven [] := by
  intro here d d'
  have hdiffer : DifferElsewhere here d d' := differElsewhere_twoOrganisations [] [] [healthBudget]
  have hwithout : (totalBudgetsAvailable.evaluate sampleSetting d here).toOption = some 0.0 := by
    simp only [evaluate, availableYears, totalBudgets, elements_datedTotalBudget hdiffer.here]
    decide +kernel
  have hwith : (totalBudgetsAvailable.evaluate sampleSetting d' here).toOption =
      some (1.0 / 3.0 * 100.0) := by
    simp only [evaluate, availableYears, totalBudgets, elements_datedTotalBudget hdiffer.there]
    decide +kernel
  refine ⟨hdiffer, hwithout, hwith, fun hisolated => ?_⟩
  have hsame := hisolated totalBudgetsAvailable sampleSetting here d d' hdiffer
    fun kind hkind => by cases hkind
  rw [hsame, hwith] at hwithout
  revert hwithout
  decide +kernel

end Metric

end DataQuality
