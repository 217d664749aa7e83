import DataQuality.Calendar.Instant
import DataQuality.Keyed
import DataQuality.Outcome

/-!
# Tables

What a store holds, and the writes that change it. A write takes effect when it is applied to the
tables; until then it is only staged.
-/
namespace DataQuality

/-- Processing status of a package. -/
inductive PackageStatus
  /-- Results and aggregation are available. -/
  | tested
  deriving DecidableEq, Repr

def PackageStatus.name : PackageStatus → String
  | .tested => "tested"

def PackageStatus.ofName? (s : String) : Option PackageStatus :=
  if s = "tested" then some .tested else none

/-- An organisation to test in a package, and the selector that finds its activities. -/
structure Target where
  organisationId : OrganisationId
  activitiesSelector : String
  deriving DecidableEq

/-- A run, which groups the results of one execution. -/
structure TestRun where
  id : RuntimeId
  startedAt : Instant
  deriving DecidableEq

inductive Write
  | saveResult (result : TestResult)
  | deleteResults (packageId : PackageId)
  | replaceInfo (result : InfoResult)
  | startRun (run : TestRun)
  | recordTestrun (packageId : PackageId) (runtimeId : RuntimeId)
  | setStatus (packageId : PackageId) (status : PackageStatus)
  | putAggregates (runtimeId : RuntimeId) (packageId : PackageId) (rows : List AggregateRow)

/-- What a store holds. -/
structure Tables where
  results : List TestResult
  infoResults : List InfoResult
  runs : List TestRun
  /-- The run in which each package was last tested. -/
  tested : List (PackageId × RuntimeId)
  statuses : List (PackageId × PackageStatus)
  aggregates : List AggregateRow
  organisations : List (PackageId × List Target)

namespace Tables

/-- Tables that hold nothing. -/
def empty : Tables := ⟨[], [], [], [], [], [], []⟩

/-- Carries out a write. A package's results are deleted together; an info value replaces the one of
the same identifier and organisation; aggregates replace those of the same run and package. -/
def apply (t : Tables) : Write → Tables
  | .saveResult r => { t with results := t.results ++ [r] }
  | .deleteResults p => { t with results := t.results.filter (·.packageId != p) }
  | .replaceInfo r =>
    let others := t.infoResults.filter fun x =>
      !(x.infoId == r.infoId && x.organisationId == r.organisationId)
    { t with infoResults := others ++ [r] }
  | .startRun run => { t with runs := t.runs ++ [run] }
  | .recordTestrun p r => { t with tested := Keyed.insert Id.before p r t.tested }
  | .setStatus p s => { t with statuses := Keyed.insert Id.before p s t.statuses }
  | .putAggregates r p rows =>
    let others := t.aggregates.filter fun a => !(a.runtimeId == r && a.packageId == p)
    { t with aggregates := others ++ rows }

def applyAll (t : Tables) (writes : List Write) : Tables := writes.foldl apply t

def setOrganisations (t : Tables) (p : PackageId) (targets : List Target) : Tables :=
  { t with organisations := Keyed.insert Id.before p targets t.organisations }

def organisationsOf (t : Tables) (p : PackageId) : List Target :=
  (Keyed.get? p t.organisations).getD []

def resultsOf (t : Tables) (p : PackageId) : List TestResult :=
  t.results.filter (·.packageId == p)

def infoOf (t : Tables) (o : OrganisationId) : List InfoResult :=
  t.infoResults.filter (·.organisationId == o)

def lastTestedRun? (t : Tables) (p : PackageId) : Option RuntimeId := Keyed.get? p t.tested

def statusOf? (t : Tables) (p : PackageId) : Option PackageStatus := Keyed.get? p t.statuses

def startedRuns (writes : List Write) : List RuntimeId :=
  writes.filterMap fun
    | .startRun run => some run.id
    | _ => none

/-- The identifier for a new run: one more than the greatest of all runs, started but not yet carried
out ones included. -/
def nextRuntimeId (t : Tables) (staged : List Write) : RuntimeId :=
  let ids := (t.runs.map (·.id) ++ startedRuns staged).map (·.value)
  ⟨(ids.max?.getD 0) + 1⟩

/-- What outcomes are counted by: an organisation, if they have one, and a rule. -/
abbrev CountKey := Option OrganisationId × RuleId

/-- Whether rows of one key come before those of another: by organisation, rows without one first,
and then by rule. -/
def CountKey.before (a b : CountKey) : Bool :=
  match a.1, b.1 with
  | none, some _ => true
  | some _, none => false
  | none, none => a.2.before b.2
  | some x, some y => x.before y || (x == y && a.2.before b.2)

def countResult (rows : List (CountKey × AggregateRow)) (r : TestResult) :
    List (CountKey × AggregateRow) :=
  let key : CountKey := (r.organisationId, r.testId)
  let row := (Keyed.get? key rows).getD (.zero r.runtimeId r.packageId r.organisationId r.testId)
  Keyed.insert CountKey.before key (row.count r.code) rows

/-- Counts the results of a package in a run, by organisation and rule. -/
def aggregate (t : Tables) (runtimeId : RuntimeId) (packageId : PackageId) : List AggregateRow :=
  let results := t.results.filter fun r => r.runtimeId == runtimeId && r.packageId == packageId
  (results.foldl countResult []).map (·.2)

@[simp] theorem applyAll_nil (t : Tables) : t.applyAll [] = t := rfl

theorem applyAll_append (t : Tables) (xs ys : List Write) :
    t.applyAll (xs ++ ys) = (t.applyAll xs).applyAll ys := by
  simp [applyAll, List.foldl_append]

end Tables

end DataQuality
