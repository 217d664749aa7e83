import DataQuality.Calendar.Instant
import DataQuality.Decimal.Real
import DataQuality.Keyed
import DataQuality.Selector.Selection
import DataQuality.Text.Quoted

/-!
# Budgets

What a document says about the budgets of the coming years: total budgets, budgets for recipient
countries, and the lines of total budgets. A record with a date or an amount that cannot be read is
passed over. Records are taken from the whole document.

The metrics look at windows of a year each. The window of offset zero begins 185 days before the
reference time, and each further one begins where the one before it ends, unless the reference time is
a leap second. Neither end belongs to a window.

Amounts of money are written in more ways than numbers are: with commas between the thousands, or with
points and zeros too many.
-/
namespace DataQuality.Metric

/-- A text that is no amount. -/
structure AmountError where
  text : String
  deriving DecidableEq

def AmountError.message (e : AmountError) : String := Text.quoted e.text ++ " is not a number"

/-- The characters of a text without its commas. -/
def dropCommas (cs : List Char) : List Char := cs.filter (· != ',')

/-- The characters of a text without any point that is followed by a zero, and without that zero. -/
def dropPointZero : List Char → List Char
  | '.' :: '0' :: rest => dropPointZero rest
  | c :: rest => c :: dropPointZero rest
  | [] => []

/-- The number that some characters, trimmed, stand for. -/
def readAmountChars? (cs : List Char) : Option Float := Decimal.readFloat? (Text.trimChars cs)

/-- Reads an amount: as a number, else without its commas, else with its commas but without any point
and zero, wherever they stand. -/
def readAmount (s : String) : Except AmountError Float :=
  let cs := s.toList
  match ((readAmountChars? cs).or (readAmountChars? (dropCommas cs))).or
      (readAmountChars? (dropPointZero cs)) with
  | some x => .ok x
  | none => .error ⟨s⟩

/-- The offsets that the metrics look at. -/
def offsets : List Nat := [0, 1, 2, 3]

/-- A window of time; its ends do not belong to it. -/
structure Window where
  start : Instant
  finish : Instant
  deriving DecidableEq

namespace Window

/-- The window that lies `offset` years ahead of `now`. -/
def ofOffset (now : Instant) (offset : Nat) : Window :=
  let start := now.addDays (180 + 365 * ((offset : Int) - 1))
  ⟨start, start.addDays 365⟩

def contains (w : Window) (t : Instant) : Bool := w.start.before t && t.before w.finish

/-- Whether the beginning of a written date lies in a window. -/
def containsDate (w : Window) (date : String) : Bool :=
  match Date.read? date with
  | some d => w.contains (.ofDate d)
  | none => false

end Window

open Markup Selector

/-- The path to every element of a name that satisfies a condition. -/
def everyElement (name : String) (conditions : List Condition) : Selector.Path :=
  .mk true [Step.everywhere, .mk .child (.name name) conditions]

/-- The path `period-end/@iso-date`. -/
def endDatePath : Selector.Path :=
  .mk false [.mk .child (.name "period-end") [], .mk .attributes (.name "iso-date") []]

def elements (document : Node) (context : Place) (paths : List Selector.Path) : List Node :=
  (selectAll (Scope.ofDocument document) paths context).filterMap fun i => i.place?.map (·.node)

def endDate? (budget : Node) : Option String := budget.childAttribute? "period-end" "iso-date"

def endsIn (w : Window) (budget : Node) : Bool := (endDate? budget).any w.containsDate

def amount? (budget : Node) : Option Float :=
  (budget.childText? "value").bind fun s => (readAmount s).toOption

/-- The amount of a record in which only plain numbers count. -/
def plainAmount? (record : Node) : Option Float :=
  (record.childText? "value").bind Decimal.readTrimmed?

/-- The total budget of one offset. -/
structure YearBudget where
  /-- Whether there is a total budget. -/
  available : Bool
  /-- The amount of the last one. -/
  amount : Float

/-- The budget of a year without one. -/
def YearBudget.none : YearBudget := ⟨false, 0.0⟩

/-- The budget of a year after one more record. A total budget needs a date of beginning too. -/
def YearBudget.add (w : Window) (year : YearBudget) (budget : Node) : YearBudget :=
  if (budget.childAttribute? "period-start" "iso-date").isSome && endsIn w budget then
    match amount? budget with
    | some x => ⟨true, x⟩
    | .none => year
  else year

def totalBudgets (now : Instant) (document : Node) (context : Place) : List YearBudget :=
  let budgets := elements document context [everyElement "total-budget" [.present endDatePath]]
  offsets.map fun o => budgets.foldl (YearBudget.add (.ofOffset now o)) YearBudget.none

/-- The total budget of an offset. There is none beyond the last offset. -/
def yearAt (years : List YearBudget) (offset : Nat) : YearBudget := years.getD offset YearBudget.none

def firstPositive? (years : List YearBudget) : Option Float :=
  (years.map (·.amount)).find? fun x => 0.0 < x

/-- The share of total budgets that is meant for countries. -/
def countryShare : Float := 0.2136

/-- A percentage, at most a hundred. What is no number counts as a hundred. -/
def capped (x : Float) : Float := if x < 100.0 then x else 100.0

/-- The country budgets as a percentage of their share of a total; none of a total of zero. -/
def sharePercentage? (countries total : Float) : Option Float :=
  let share := total * countryShare
  if share == 0.0 then none else some (capped (countries / share * 100.0))

/-- The sum of some numbers. Negative zero is the number that changes no other it is added to. -/
def sumOf (xs : List Float) : Float := xs.foldl (· + ·) (-0.0)

/-- The budgets for recipient countries. -/
structure CountryBudgets where
  /-- The codes of the countries, in order, budgets without a code first. -/
  codes : List (Option String)
  amounts : List Float
  percentages : List Float
  /-- The mean percentage after offset zero. -/
  score : Float

/-- Whether one code comes before another; no code comes before every code. -/
def codeBefore : Option String → Option String → Bool
  | none, some _ => true
  | some a, some b => a < b
  | _, none => false

/-- The country budgets in a window: code and amount of each. -/
def countryBudgetsIn (w : Window) (budgets : List Node) : List (Option String × Float) :=
  budgets.filterMap fun b =>
    if endsIn w b then
      (amount? b).map fun x => (b.childAttribute? "recipient-country" "code", x)
    else none

def countryBudgetPaths : List Selector.Path :=
  [everyElement "recipient-country-budget" [.present endDatePath]]

/-- The budgets for recipient countries, compared with the total budgets. -/
def countryBudgets (now : Instant) (document : Node) (context : Place) (totals : List YearBudget) :
    CountryBudgets :=
  let budgets := elements document context countryBudgetPaths
  let years := offsets.map fun o => countryBudgetsIn (.ofOffset now o) budgets
  let amounts := years.map fun year => year.foldl (fun sum b => sum + b.2) 0.0
  let percentage (offset : Nat) (countries : Float) : Float :=
    match sharePercentage? countries (yearAt totals offset).amount with
    | some x => x
    | none => ((firstPositive? totals).bind (sharePercentage? countries)).getD 0.0
  let percentages := offsets.zipWith percentage amounts
  let codes := years.flatten.foldl (fun codes b => Keyed.insert codeBefore b.1 () codes) []
  ⟨codes.map (·.1), amounts, percentages, sumOf percentages.tail / 3.0⟩

/-- A line of a total budget. -/
structure BudgetLine where
  name : String
  value : Float

/-- The lines of the total budgets of one offset. -/
structure SectorYear where
  /-- The lines by reference, in order. -/
  lines : List (String × BudgetLine)
  /-- The amount of the last total budget. -/
  total : Float
  /-- The sum of all lines. -/
  linesTotal : Float
  /-- The lines as a percentage of the total. -/
  percentage : Float

namespace SectorYear

/-- A year without lines. -/
def none : SectorYear := ⟨[], 0.0, 0.0, 0.0⟩

/-- A year after one more line. A line needs a name and a value. -/
def addLine (year : SectorYear) (line : Node) : SectorYear :=
  match line.childText? "narrative", plainAmount? line with
  | some name, some value =>
    let reference := (line.attribute? "ref").getD ""
    { year with
      lines := Keyed.insert (fun a b => a < b) reference ⟨name, value⟩ year.lines
      linesTotal := year.linesTotal + value }
  | _, _ => year

def add (w : Window) (year : SectorYear) (budget : Node) : SectorYear :=
  if endsIn w budget then
    match plainAmount? budget with
    | .none => year
    | some total =>
      let year :=
        (budget.childrenNamed "budget-line").foldl addLine { year with total := total }
      { year with
        percentage :=
          if year.total == 0.0 then 0.0 else capped (year.linesTotal / year.total * 100.0) }
  else year

end SectorYear

/-- The lines of the total budgets of each offset. -/
def sectorYears (now : Instant) (document : Node) (context : Place) : List SectorYear :=
  let budgets := elements document context [everyElement "total-budget" []]
  offsets.map fun o => budgets.foldl (SectorYear.add (.ofOffset now o)) SectorYear.none

/-- The mean percentage of the lines over all offsets. -/
def sectorScore (years : List SectorYear) : Float :=
  sumOf (years.map (·.percentage)) / 4.0

@[simp] theorem length_totalBudgets (now : Instant) (document : Node) (context : Place) :
    (totalBudgets now document context).length = 4 := by
  simp [totalBudgets, offsets]

end DataQuality.Metric
