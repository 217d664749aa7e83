import DataQuality.Proofs.Keyed
import DataQuality.Proofs.Metric.Isolation
import Mathlib.Data.Set.Card

/-!
# Countries with a strategy paper

A country is looked for by its code, and by its name in the titles of strategy papers. The last active
budget of the country gives the name, and where that one is blank a codelist does.

The name in a codelist is not asked whether it is blank. A country with such a name is covered by every
paper whose title has these blank characters in it, so by every paper with a title if there are none.
-/
namespace DataQuality.Metric

open Markup Node

/-- The place of an active budget for a recipient country. -/
structure IsActiveBudget (now : Instant) (document : Node) (q : Place) : Prop where
  mem : q ∈ Place.all document
  named : q.node.isNamed "recipient-country-budget" = true
  active : isActive now q.node = true

/-- A country, as code and name, is that of an active budget, and no later one has its code. -/
def IsActiveCountry (now : Instant) (document : Node) (c : Option String × Option String) : Prop :=
  ∃ q, IsActiveBudget now document q ∧ countryOf q.node = c ∧
    ∀ r, IsActiveBudget now document r → (countryOf r.node).1 = c.1 →
      r = q ∨ Selector.locationBefore r.location q.location = true

/-- A document link names the code of a country, whatever the case of its letters. -/
def NamesCode (code : Option String) (link : Node) : Prop :=
  ∃ a b, link.childAttribute? "recipient-country" "code" = some a ∧ code = some b ∧
    a.toList.map Char.toLower = b.toList.map Char.toLower

/-- The title of a document link contains a name, whatever the case of its letters. -/
def TitleHas (name : String) (link : Node) : Prop :=
  ∃ title, paperTitle? link = some title ∧ (Text.lower name).toList <:+: (Text.lower title).toList

/-- Whether a name is not blank. -/
def isWritten (name : String) : Bool := !Text.isAllBlank name

def listedName? (codelist : Option Codelist) (c : Option String × Option String) : Option String := do
  (← codelist).nameOf? (← c.1)

/-- The name of a country in the document unless it is blank, else the one in the codelist unless that
is blank. -/
def writtenName? (codelist : Option Codelist) (c : Option String × Option String) : Option String :=
  (c.2.filter isWritten).or ((listedName? codelist c).filter isWritten)

/-- A country strategy paper names the country, by its code or by its name in the title. -/
def HasPaper (codelist : Option Codelist) (document : Node) (c : Option String × Option String) :
    Prop :=
  ∃ q ∈ Place.all document, q.node.isNamed "document-link" = true ∧
    q.node.isInCategory "B03" = true ∧
      (NamesCode c.1 q.node ∨ ∃ name, writtenName? codelist c = some name ∧ TitleHas name q.node)

/-- The only name of the country is blank characters in the codelist, and the title of a country strategy
paper contains them. -/
def MatchesBlank (codelist : Option Codelist) (document : Node) (c : Option String × Option String) :
    Prop :=
  c.2.filter isWritten = none ∧ ∃ name, listedName? codelist c = some name ∧ isWritten name = false ∧
    ∃ q ∈ Place.all document, q.node.isNamed "document-link" = true ∧
      q.node.isInCategory "B03" = true ∧ TitleHas name q.node

/-- Whether some strategy paper covers a country that is looked for by a name. -/
def isCountedBy (document : Node) (code name : Option String) : Bool :=
  (linksIn "B03" document.inside).any (coversCountry code (name.map Text.lower))

/-- The active countries that are counted as covered. -/
def countedCountries (setting : MetricSetting) (document : Node) (context : Place) :
    List (Option String × Option String) :=
  (activeCountries setting.now document context).filter fun c =>
    isCountedBy document c.1 (displayName? setting.codelist c.1 c.2)

/-- The value of the metric for some numbers of countries. -/
def paperShare (setting : MetricSetting) (document : Node) (context : Place) (total uncovered : Nat) :
    Except MetricError Float :=
  let score := 100.0 - uncovered.toFloat / total.toFloat * 100.0
  if 0.0 < score then .ok score else sectorPapers setting document context

/-- Having no code comes first, and codes are in alphabetical order. -/
theorem isOrder_codeBefore : Keyed.IsOrder codeBefore where
  irrefl
    | none => rfl
    | some a => Keyed.isOrder_string.irrefl a
  trans {a b c} hab hbc := by
    cases c with
    | none => cases b <;> cases hbc
    | some c =>
      cases b with
      | none => cases a <;> cases hab
      | some b =>
        cases a with
        | none => rfl
        | some a => exact Keyed.isOrder_string.trans hab hbc
  connex {a b} hne hab := by
    cases a with
    | none =>
      cases b with
      | none => exact absurd rfl hne
      | some b => cases hab
    | some a =>
      cases b with
      | none => rfl
      | some b => exact Keyed.isOrder_string.connex (fun h => hne (congrArg some h)) hab

def activeBudgets (now : Instant) (nodes : List Node) : List Node :=
  (named "recipient-country-budget" nodes).filter (isActive now)

section

variable {now : Instant} {setting : MetricSetting} {document : Node} {context : Place}

theorem activeCountries_eq_foldl (hcontext : context.LiesIn document) :
    activeCountries now document context =
      ((activeBudgets now document.inside).map countryOf).foldl
        (fun all c => Keyed.insert codeBefore c.1 c.2 all) [] := by
  have hdated (budget : Node) : (isActive now budget && budget.hasEndDate) = isActive now budget := by
    refine Bool.and_eq_left_iff_imp.2 fun hactive => ?_
    obtain ⟨text, htext, -⟩ := (Option.any_eq_true _ _).1 (Bool.and_eq_true_iff.1 hactive).1
    exact hasEndDate_of_endDate? htext
  unfold activeCountries activeBudgets
  rw [elements_countryBudget hcontext, List.filter_filter, List.foldl_map]
  simp only [hdated]

theorem nodup_activeCountries (hcontext : context.LiesIn document) :
    (activeCountries now document context).Nodup := by
  rw [activeCountries_eq_foldl hcontext]
  exact (Keyed.nodup_keys_foldl_insert isOrder_codeBefore _).of_map

/-- The active budgets are found at their places, in document order. -/
theorem activeBudgets_eq_map : activeBudgets now document.inside =
    ((Place.all document).filter fun q =>
      q.node.isNamed "recipient-country-budget" && isActive now q.node).map (·.node) := by
  unfold activeBudgets named
  rw [← Place.map_node_descendants_top, List.filter_filter, List.filter_map]
  simp only [Bool.and_comm, Function.comp_def]
  rfl

theorem mem_activeCountries (hcontext : context.LiesIn document)
    {c : Option String × Option String} :
    c ∈ activeCountries now document context ↔ IsActiveCountry now document c := by
  let active := (Place.all document).filter fun q =>
    q.node.isNamed "recipient-country-budget" && isActive now q.node
  have hactive {q : Place} : q ∈ active ↔ IsActiveBudget now document q := by
    rw [List.mem_filter, Bool.and_eq_true]
    exact ⟨fun h => ⟨h.1, h.2.1, h.2.2⟩, fun h => ⟨h.mem, h.named, h.active⟩⟩
  have hlast {q : Place} (hq : countryOf q.node = c) :=
    Place.exists_last_iff ((Place.pairwise_all document).filter fun q =>
      q.node.isNamed "recipient-country-budget" && isActive now q.node)
      (fun r => (countryOf r.node).1 = c.1) (congrArg Prod.fst hq)
  rw [activeCountries_eq_foldl hcontext, Keyed.mem_foldl_insert_iff isOrder_codeBefore,
    activeBudgets_eq_map, List.map_map]
  constructor
  · rintro ⟨front, rest, hsplit, hrest⟩
    obtain ⟨before, after, hplaces, -, hafter⟩ := List.map_eq_append_iff.1 hsplit
    obtain ⟨q, later, rfl, hq, rfl⟩ := List.map_eq_cons_iff.1 hafter
    obtain ⟨hmem, hbefore⟩ := (hlast hq).1 ⟨before, later, hplaces, fun r hr hcode =>
      hrest _ (List.mem_map_of_mem hr) hcode⟩
    exact ⟨q, hactive.1 hmem, hq, fun r hr hcode => hbefore r (hactive.2 hr) hcode⟩
  · rintro ⟨q, hmem, hq, hbefore⟩
    obtain ⟨before, later, hplaces, hlater⟩ := (hlast hq).2
      ⟨hactive.2 hmem, fun r hr hcode => hbefore r (hactive.1 hr) hcode⟩
    refine ⟨before.map (countryOf ∘ (·.node)), later.map (countryOf ∘ (·.node)), ?_, ?_⟩
    · rw [hplaces, List.map_append, List.map_cons, Function.comp_apply, hq]
    · intro d hd
      obtain ⟨r, hr, rfl⟩ := List.mem_map.1 hd
      exact hlater r hr

theorem occursIn_iff {part cs : List Char} : occursIn part cs = true ↔ part <:+: cs := by
  induction cs with
  | nil => rw [occursIn, List.isEmpty_iff, List.infix_nil]
  | cons c rest ih => rw [occursIn, Bool.or_eq_true, List.isPrefixOf_iff_prefix, ih, List.infix_cons_iff]

theorem coversCountry_iff {code name : Option String} {link : Node} :
    coversCountry code (name.map Text.lower) link = true ↔
      NamesCode code link ∨ ∃ n, name = some n ∧ TitleHas n link := by
  unfold coversCountry NamesCode TitleHas
  rw [Bool.or_eq_true]
  refine or_congr ?_ ?_
  · cases link.childAttribute? "recipient-country" "code" <;> cases code <;>
      simp [sameIgnoringCase]
  · cases name <;> cases paperTitle? link <;> simp [occursIn_iff]

theorem isCountedBy_iff {code name : Option String} :
    isCountedBy document code name = true ↔
      ∃ q ∈ Place.all document, q.node.isNamed "document-link" = true ∧
        q.node.isInCategory "B03" = true ∧
          (NamesCode code q.node ∨ ∃ n, name = some n ∧ TitleHas n q.node) := by
  unfold isCountedBy linksIn named
  rw [← Place.map_node_descendants_top, List.filter_map, List.filter_map, List.any_map]
  simp only [List.any_filter, List.any_eq_true, Function.comp_apply, Bool.and_eq_true,
    coversCountry_iff]
  rfl

theorem hasPaper_iff {codelist : Option Codelist} {c : Option String × Option String} :
    HasPaper codelist document c ↔ isCountedBy document c.1 (writtenName? codelist c) = true :=
  isCountedBy_iff.symm

theorem displayName?_eq (codelist : Option Codelist) (c : Option String × Option String) :
    displayName? codelist c.1 c.2 = (c.2.filter isWritten).or (listedName? codelist c) := by
  unfold displayName? isWritten
  cases c.2.filter fun n => !Text.isAllBlank n <;> rfl

/-- What is counted has a paper that names the country, or one whose title contains the blank name. -/
theorem isCountedBy_displayName?_iff {codelist : Option Codelist}
    {c : Option String × Option String} :
    isCountedBy document c.1 (displayName? codelist c.1 c.2) = true ↔
      HasPaper codelist document c ∨ MatchesBlank codelist document c := by
  unfold HasPaper MatchesBlank writtenName?
  rw [isCountedBy_iff, displayName?_eq]
  cases hown : c.2.filter isWritten with
  | some name => simp
  | none =>
    cases hlisted : listedName? codelist c with
    | none => simp
    | some name =>
      cases hwritten : isWritten name with
      | true => simp [hwritten]
      | false => simp [hwritten, and_or_left, exists_or]

theorem mem_countedCountries (hcontext : context.LiesIn document)
    {c : Option String × Option String} :
    c ∈ countedCountries setting document context ↔ IsActiveCountry setting.now document c ∧
      (HasPaper setting.codelist document c ∨ MatchesBlank setting.codelist document c) := by
  rw [countedCountries, List.mem_filter, mem_activeCountries hcontext, isCountedBy_displayName?_iff]

/-- The elements of a list without repetitions that pass are counted as a set. -/
theorem ncard_eq_countP {α : Type} {xs : List α} (h : xs.Nodup) (passes : α → Bool) :
    {x | x ∈ xs ∧ passes x = true}.ncard = xs.countP passes := by
  classical
  have hset : {x | x ∈ xs ∧ passes x = true} = ↑(xs.filter passes).toFinset := by
    ext x
    simp
  rw [hset, Set.ncard_coe_finset, List.toFinset_card_of_nodup (h.filter _),
    List.countP_eq_length_filter]

theorem countryPapers_of_none (hnone : activeCountries setting.now document context = []) :
    countryPapers setting document context = sectorPapers setting document context := by
  unfold countryPapers
  rw [hnone]
  rfl

theorem countryPapers_of_activeCountries (hcontext : context.LiesIn document)
    (hactive : activeCountries setting.now document context ≠ []) :
    countryPapers setting document context =
      paperShare setting document context (activeCountries setting.now document context).length
        ((activeCountries setting.now document context).countP fun c =>
          !isCountedBy document c.1 (displayName? setting.codelist c.1 c.2)) := by
  unfold countryPapers
  dsimp only
  rw [if_neg (by simpa using hactive), elements_everyLink hcontext]
  rfl

theorem countryPapers_eq_paperShare (hcontext : context.LiesIn document)
    (hactive : ∃ c, IsActiveCountry setting.now document c) :
    countryPapers setting document context = paperShare setting document context
      {c | IsActiveCountry setting.now document c}.ncard
      {c | IsActiveCountry setting.now document c ∧
        c ∉ countedCountries setting document context}.ncard := by
  let countries := activeCountries setting.now document context
  let isCounted (c : Option String × Option String) : Bool :=
    isCountedBy document c.1 (displayName? setting.codelist c.1 c.2)
  have hnodup : countries.Nodup := nodup_activeCountries hcontext
  have htotal : {c | IsActiveCountry setting.now document c}.ncard = countries.length := by
    simpa [← mem_activeCountries hcontext] using ncard_eq_countP hnodup fun _ => true
  have huncovered : {c | IsActiveCountry setting.now document c ∧
      c ∉ countedCountries setting document context}.ncard = countries.countP fun c => !isCounted c := by
    rw [← ncard_eq_countP hnodup]
    congr 1
    ext c
    simp only [Set.mem_ofPred_eq, ← mem_activeCountries hcontext, countedCountries, List.mem_filter,
      Bool.not_eq_true', not_and, Bool.not_eq_true]
    exact and_congr_right fun hc => forall_prop_of_true hc
  have hne : countries ≠ [] := by
    obtain ⟨c, hc⟩ := hactive
    exact List.ne_nil_of_mem ((mem_activeCountries hcontext).2 hc)
  rw [countryPapers_of_activeCountries hcontext hne, htotal, huncovered]

end

/-- The countries with a strategy paper make the value of the metric, and they are counted alone exactly if
every country whose blank name in the codelist is found in a title has a paper of its own. -/
theorem countryPapers_counted {document : Node} {context : Place} (hcontext : context.LiesIn document)
    {setting : MetricSetting} (hactive : ∃ c, IsActiveCountry setting.now document c) :
    let counted := countedCountries setting document context
    let countries := {c | IsActiveCountry setting.now document c}
    let covered := {c ∈ countries | HasPaper setting.codelist document c}
    let sound := ∀ c ∈ countries, MatchesBlank setting.codelist document c →
      HasPaper setting.codelist document c
    (∀ c, c ∈ counted ↔ c ∈ countries ∧
        (HasPaper setting.codelist document c ∨ MatchesBlank setting.codelist document c)) ∧
      countryPapers setting document context =
        paperShare setting document context countries.ncard {c ∈ countries | c ∉ counted}.ncard ∧
      ((∀ c, c ∈ counted ↔ c ∈ covered) ↔ sound) ∧
      (sound → countryPapers setting document context =
        paperShare setting document context countries.ncard (countries \ covered).ncard) := by
  intro counted countries covered sound
  have hcounted (c : Option String × Option String) : c ∈ counted ↔ c ∈ countries ∧
      (HasPaper setting.codelist document c ∨ MatchesBlank setting.codelist document c) :=
    mem_countedCountries hcontext
  have hvalue : countryPapers setting document context =
      paperShare setting document context countries.ncard {c ∈ countries | c ∉ counted}.ncard :=
    countryPapers_eq_paperShare hcontext hactive
  have hsound : (∀ c, c ∈ counted ↔ c ∈ covered) ↔ sound := by
    constructor
    · intro hsame c hc hblank
      exact ((hsame c).1 ((hcounted c).2 ⟨hc, .inr hblank⟩)).2
    · intro hsound c
      rw [hcounted]
      exact and_congr_right fun hc => or_iff_left_of_imp (hsound c hc)
  refine ⟨hcounted, hvalue, hsound, fun h => ?_⟩
  have hleft : {c ∈ countries | c ∉ counted} = countries \ covered := by
    ext c
    rw [Set.mem_sep_iff, Set.mem_sdiff, hsound.2 h c]
  rw [hvalue, hleft]

/-- A budget of the year ahead for one country, with the name of the country. -/
def namedRecord (code name : String) : Node :=
  .element "recipient-country-budget" [] [
    .element "recipient-country" [⟨none, "code", code⟩] [textElement "narrative" name],
    attributeElement "period-end" "iso-date" "2021-01-01", textElement "value" "10"]

/-- A country strategy paper with nothing but a title. -/
def titledPaper (title : String) : Node :=
  .element "document-link" [] [textElement "title" title, attributeElement "category" "code" "B03"]

/-- A reference time, and a codelist with a name for one code. -/
def settingWith (code name : String) : MetricSetting :=
  ⟨sampleSetting.now, some (.ofList [(code, name)])⟩

/-- One of two countries has a blank name in the document and a paper with its name in the codelist. -/
theorem countryPapers_counted_listed :
    let setting := settingWith "KE" "Kenya"
    let held := [countryRecord, namedRecord "ke" " ", titledPaper "Strategy for KENYA"]
    let d := twoOrganisations held []
    let here := firstOrganisation held
    let countries := {c | IsActiveCountry setting.now d c}
    let covered := {c ∈ countries | HasPaper setting.codelist d c}
    here.LiesIn d ∧ (some "ke", some " ") ∈ covered ∧ (some "AF", none) ∈ countries \ covered ∧
      countryPapers setting d here =
        paperShare setting d here countries.ncard (countries \ covered).ncard ∧
      (countryPapers setting d here).toOption = some 50.0 := by
  intro setting held d here countries covered
  have hhere : here.LiesIn d := rfl
  have hlist : activeCountries setting.now d here = [(some "AF", none), (some "ke", some " ")] := by
    rw [activeCountries_eq_foldl hhere]
    decide +kernel
  have hcountries (c : Option String × Option String) :
      c ∈ countries ↔ c = (some "AF", none) ∨ c = (some "ke", some " ") := by
    rw [← List.mem_pair, ← hlist, mem_activeCountries hhere]
    rfl
  have hkenya : (some "ke", some " ") ∈ countries := (hcountries _).2 (.inr rfl)
  have hsound : ∀ c ∈ countries, MatchesBlank setting.codelist d c →
      HasPaper setting.codelist d c := by
    rintro c hc ⟨-, name, hname, hblank, -⟩
    rcases (hcountries c).1 hc with rfl | rfl
    · cases (by decide +kernel : listedName? setting.codelist (some "AF", none) = none).symm.trans hname
    · obtain rfl : "Kenya" = name := Option.some_inj.1 <|
        (by decide +kernel : listedName? setting.codelist (some "ke", some " ") = some "Kenya").symm.trans
          hname
      cases (by decide : isWritten "Kenya" = true).symm.trans hblank
  refine ⟨hhere, ⟨hkenya, ?_⟩, ⟨(hcountries _).2 (.inl rfl), fun h => ?_⟩, ?_, ?_⟩
  · rw [hasPaper_iff]
    decide +kernel
  · have hpaper := hasPaper_iff.1 h.2
    revert hpaper
    decide +kernel
  · exact (countryPapers_counted hhere ⟨_, hkenya⟩).2.2.2 hsound
  · rw [countryPapers_of_activeCountries hhere (by rw [hlist]; exact List.cons_ne_nil _ _), hlist]
    decide +kernel

/-- A name without any characters in the codelist makes a paper with any title cover the country. -/
theorem not_counted_by_blank_name :
    let setting := settingWith "AF" ""
    let held := [countryRecord, titledPaper "Plan"]
    let d := twoOrganisations held []
    let here := firstOrganisation held
    here.LiesIn d ∧ IsActiveCountry setting.now d (some "AF", none) ∧
      (some "AF", none) ∈ countedCountries setting d here ∧
      ¬ HasPaper setting.codelist d (some "AF", none) ∧
      (countryPapers setting d here).toOption = some 100.0 ∧
      ¬ ∀ (setting : MetricSetting) (document : Node) (context : Place), context.LiesIn document →
        (∃ c, IsActiveCountry setting.now document c) →
          let countries := {c | IsActiveCountry setting.now document c}
          let covered := {c ∈ countries | HasPaper setting.codelist document c}
          (∀ c, c ∈ countedCountries setting document context ↔ c ∈ covered) ∧
            countryPapers setting document context =
              paperShare setting document context countries.ncard (countries \ covered).ncard := by
  intro setting held d here
  have hhere : here.LiesIn d := rfl
  have hlist : activeCountries setting.now d here = [(some "AF", none)] := by
    rw [activeCountries_eq_foldl hhere]
    decide +kernel
  have hactive : IsActiveCountry setting.now d (some "AF", none) := by
    rw [← mem_activeCountries hhere, hlist]
    exact List.mem_singleton.2 rfl
  have hcounted : (some "AF", none) ∈ countedCountries setting d here := by
    rw [countedCountries, hlist]
    decide +kernel
  have hpaper : ¬ HasPaper setting.codelist d (some "AF", none) := by
    rw [hasPaper_iff]
    decide +kernel
  have hvalue : (countryPapers setting d here).toOption = some 100.0 := by
    rw [countryPapers_of_activeCountries hhere (by rw [hlist]; exact List.cons_ne_nil _ _), hlist]
    decide +kernel
  refine ⟨hhere, hactive, hcounted, hpaper, hvalue, fun hclaim => hpaper ?_⟩
  exact (((hclaim setting d here hhere ⟨_, hactive⟩).1 _).1 hcounted).2

end DataQuality.Metric
