import DataQuality.Codelist
import DataQuality.Metric.Budget

/-!
# Coverage

The five metrics of a document. Two of them tell how far budgets cover the coming years, one how far
the budget lines cover the total budgets, and two for how many countries or sectors there is a
strategy paper.
-/
namespace DataQuality

inductive Metric
  | totalCountryBudgets
  | countryStrategyPapers
  | totalBudgetsAvailable
  | totalSectorBudgets
  | sectorStrategyPapers
  deriving DecidableEq, Repr

/-- A text that names no metric. -/
structure UnknownMetric where
  text : String
  deriving DecidableEq

def UnknownMetric.message (e : UnknownMetric) : String :=
  "unknown info metric: " ++ Text.quoted e.text

/-- A metric has no value: there are no sectors to look for strategy papers of. -/
inductive MetricError
  | noSectors
  deriving DecidableEq, Repr

def MetricError.message : MetricError → String
  | .noSectors => "no sector budget lines to match strategy papers against"

/-- What metrics are computed with: the reference time, and a codelist of countries. -/
structure MetricSetting where
  now : Instant
  codelist : Option Codelist

namespace Metric

open Markup Selector

def all : List Metric :=
  [totalCountryBudgets, countryStrategyPapers, totalBudgetsAvailable, totalSectorBudgets,
    sectorStrategyPapers]

def name : Metric → String
  | totalCountryBudgets => "total_country_budgets"
  | countryStrategyPapers => "country_strategy_papers"
  | totalBudgetsAvailable => "total_budgets_available"
  | totalSectorBudgets => "total_sector_budgets"
  | sectorStrategyPapers => "sector_strategy_papers"

def ofName? (s : String) : Option Metric := all.find? (·.name == s)

/-- Reads a metric, with blank characters allowed around it. -/
def parse (s : String) : Except UnknownMetric Metric :=
  match ofName? (Text.trim s) with
  | some m => .ok m
  | none => .error ⟨s⟩

def occursIn (part : List Char) : List Char → Bool
  | [] => part.isEmpty
  | c :: rest => part.isPrefixOf (c :: rest) || occursIn part rest

def linksStep (category : String) : Step :=
  .mk .child (.name "document-link")
    [.compares (.mk false [.mk .child (.name "category") [], .mk .attributes (.name "code") []]) true
      (.text category)]

def everyLink (category : String) : Selector.Path :=
  .mk true [Step.everywhere, linksStep category]

/-- The steps from a document link to the texts of its titles. -/
def titleSteps : List Step :=
  [.mk .child (.name "title") [], .mk .child (.name "narrative") [], .mk .child .text []]

/-- The paths to the titles of sector strategy papers: those of category `B11` anywhere, and those of
category `B12` directly below the context. -/
def sectorTitlePaths : List Selector.Path :=
  [.mk true (Step.everywhere :: linksStep "B11" :: titleSteps),
    .mk false (linksStep "B12" :: titleSteps)]

/-- The names of the sectors in some years, each once. -/
def sectorNames (years : List SectorYear) : List String :=
  (years.flatMap fun y => y.lines.map (·.2.name)).eraseDups

/-- The share of sectors whose name occurs in the title of a sector strategy paper. -/
def sectorPapers (setting : MetricSetting) (document : Node) (context : Place) :
    Except MetricError Float :=
  let sectors := sectorNames (sectorYears setting.now document context)
  if sectors.isEmpty then .error .noSectors
  else
    let titles :=
      (selectAll (Scope.ofDocument document) sectorTitlePaths context).map Item.stringValue
    let found := sectors.countP fun s => titles.any fun t => occursIn s.toList t.toList
    .ok (found.toFloat / sectors.length.toFloat * 100.0)

/-- Whether a written date is later than the reference time. -/
def isLater (now : Instant) (date : String) : Bool :=
  match Date.read? date with
  | some d => now.before (.ofDate d)
  | none => false

def countryOf (budget : Node) : Option String × Option String :=
  match budget.child? "recipient-country" with
  | some country =>
    let name :=
      match country.child? "narrative" with
      | some narrative => narrative.leadingText?
      | none => country.leadingText?
    (country.attribute? "code", name)
  | none => (none, none)

/-- Whether a country budget ends after the reference time and has an amount of one or more. -/
def isActive (now : Instant) (budget : Node) : Bool :=
  (endDate? budget).any (isLater now) && (plainAmount? budget).any fun x => 1.0 ≤ x

/-- The countries with an active budget, ordered by code, and the name that the last budget of each
gives it. -/
def activeCountries (now : Instant) (document : Node) (context : Place) :
    List (Option String × Option String) :=
  ((elements document context countryBudgetPaths).filter (isActive now)).foldl
    (fun countries b =>
      let (code, name) := countryOf b
      Keyed.insert codeBefore code name countries) []

/-- The name by which a country is looked for: the one in the document unless it is blank, else the
one in the codelist. -/
def displayName? (codelist : Option Codelist) (code name : Option String) : Option String :=
  match name.filter fun n => !Text.isAllBlank n with
  | some n => some n
  | none => do (← codelist).nameOf? (← code)

/-- The title of a document link: the text it begins with unless that is blank, else the text of its
narrative. -/
def paperTitle? (paper : Node) : Option String := do
  let title ← paper.child? "title"
  match title.leadingText?.filter fun t => !Text.isAllBlank t with
  | some t => pure t
  | none => title.childText? "narrative"

/-- Whether two texts are equal when the case of ASCII letters does not count. -/
def sameIgnoringCase (a b : String) : Bool :=
  a.toList.map Char.toLower == b.toList.map Char.toLower

/-- Whether a strategy paper covers a country: by its code, or by its name in the title. -/
def coversCountry (code lowerName : Option String) (paper : Node) : Bool :=
  let byCode :=
    match paper.childAttribute? "recipient-country" "code", code with
    | some a, some b => sameIgnoringCase a b
    | _, _ => false
  let byTitle :=
    match lowerName, paperTitle? paper with
    | some n, some t => occursIn n.toList (Text.lower t).toList
    | _, _ => false
  byCode || byTitle

/-- The share of active countries that a country strategy paper covers. If it is not positive, or
there is no active country, the share of sectors counts. -/
def countryPapers (setting : MetricSetting) (document : Node) (context : Place) :
    Except MetricError Float :=
  let countries := activeCountries setting.now document context
  if countries.isEmpty then sectorPapers setting document context
  else
    let papers := elements document context [everyLink "B03"]
    let uncovered := countries.countP fun (code, name) =>
      let lowerName := (displayName? setting.codelist code name).map Text.lower
      !papers.any (coversCountry code lowerName)
    let score := 100.0 - uncovered.toFloat / countries.length.toFloat * 100.0
    if 0.0 < score then .ok score else sectorPapers setting document context

/-- The country budget score, or the sector score if that is not positive. -/
def countryScore (setting : MetricSetting) (document : Node) (context : Place) : Float :=
  let totals := totalBudgets setting.now document context
  let score := (countryBudgets setting.now document context totals).score
  if 0.0 < score then score else sectorScore (sectorYears setting.now document context)

/-- The percentage of the three years ahead that have a total budget. -/
def availableYears (setting : MetricSetting) (document : Node) (context : Place) : Float :=
  let available := (totalBudgets setting.now document context).tail.countP (·.available)
  available.toFloat / 3.0 * 100.0

def evaluate (setting : MetricSetting) (document : Node) (context : Place) :
    Metric → Except MetricError Float
  | totalCountryBudgets => .ok (countryScore setting document context)
  | countryStrategyPapers => countryPapers setting document context
  | totalBudgetsAvailable => .ok (availableYears setting document context)
  | totalSectorBudgets => .ok (sectorScore (sectorYears setting.now document context))
  | sectorStrategyPapers => sectorPapers setting document context

@[simp] theorem ofName?_name (m : Metric) : ofName? m.name = some m := by
  cases m <;> decide

end Metric

end DataQuality
