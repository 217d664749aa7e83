import DataQuality.Markup.Document
import DataQuality.Metric.Registry
import DataQuality.RuleSet
import DataQuality.Store.Ledger

/-!
# Testing packages

A package is tested organisation by organisation. Each activity is tested with the activity rules, and
its transactions with the transaction rules; then metrics are computed and the organisation nodes
tested. The outcomes of each of these units are committed together. At the end the outcomes are
counted, and the package is marked as tested. When a call to the store fails, what is staged is
dropped and testing ends.
-/
namespace DataQuality

open Markup (Node Place)

/-- Why the testing of a package ends early. -/
inductive TestingError
  | noOrganisations (packageId : PackageId)
  | invalidActivitiesSelector (organisationId : OrganisationId) (error : Selector.Error)
  | invalidOrganisationSelector (error : Selector.Error)
  | store (error : StoreError)
  deriving DecidableEq

/-- The message of the error; a store's own errors carry theirs. -/
def TestingError.message : TestingError → String
  | noOrganisations p => "package " ++ p.text ++ " has no organisations to test"
  | invalidActivitiesSelector o e =>
    "invalid activities selector for organisation " ++ o.text ++ ": " ++ e.message
  | invalidOrganisationSelector e => "invalid organisation selector: " ++ e.message
  | store (.other message) => message
  | store .io => "I/O error"
  | store .json => "JSON error"

/-- What packages are tested with. -/
structure TestPlan where
  rules : RuleSet
  /-- Whether earlier results of a package are deleted before it is tested. -/
  removeResults : Bool
  /-- The selector of the organisation nodes of a document. -/
  organisationSelector : String
  metrics : MetricRegistry
  codelist : Option Codelist

/-- The selector of organisation nodes, unless another one is configured. -/
def TestPlan.defaultOrganisationSelector : String := "//iati-organisation"

/-- What is known while a package is tested in a run. -/
structure RunContext where
  runtimeId : RuntimeId
  packageId : PackageId
  /-- The reference time of the metrics. -/
  now : Instant
  /-- How many identifiers have been made up in the run. -/
  missing : Nat
  deriving DecidableEq

namespace RunContext

def start (runtimeId : RuntimeId) (packageId : PackageId) (now : Instant) : RunContext :=
  ⟨runtimeId, packageId, now, 0⟩

def forPackage (c : RunContext) (p : PackageId) : RunContext := { c with packageId := p }

/-- The next identifier for an activity without one. -/
def nextMissing (c : RunContext) : String × RunContext :=
  ("MISSING-" ++ Decimal.ofNat (c.missing + 1), { c with missing := c.missing + 1 })

end RunContext

/-- How the testing of a package ended. -/
inductive PackageOutcome
  /-- The document was tested. Counts the results and info values written, and the rows of the
  aggregation. -/
  | tested (results infoResults aggregates : Nat)
  /-- There was no document to test. -/
  | invalidDocument
  deriving DecidableEq, Repr

/-- What testing changes: the context of the run, and the store. -/
structure TestState (σ : Type) where
  context : RunContext
  store : σ

/-- A part of testing. What it has done remains when it fails. -/
abbrev Testing (σ α : Type) := ExceptT TestingError (StateM (TestState σ)) α

namespace Testing

variable {σ α : Type}

def onStore (call : StoreM σ α) : Testing σ (Except StoreError α) := fun s =>
  let (result, store) := call s.store
  (.ok result, { s with store := store })

def context : Testing σ RunContext := do return (← get).context

/-- A made-up identifier. -/
def nextMissing : Testing σ String :=
  modifyGet fun s => let (name, c) := s.context.nextMissing; (name, { s with context := c })

/-- Adds up what a part of testing gives for each item, in order. -/
def sum (part : α → Testing σ Nat) : List α → Testing σ Nat
  | [] => pure 0
  | a :: rest => do
    let n ← part a
    let m ← sum part rest
    pure (n + m)

variable [Datastore σ]

/-- Drops what is staged and ends testing. Whether dropping fails does not matter. -/
def abort (e : StoreError) : Testing σ α := do
  let _ ← onStore Datastore.rollback
  throw (.store e)

/-- Makes a call on the store; if it fails, what is staged is dropped and testing ends. -/
def orAbort (call : StoreM σ α) : Testing σ α := do
  match ← onStore call with
  | .ok a => pure a
  | .error e => abort e

def commit (message : String) : Testing σ Unit := orAbort (Datastore.commit message)

def stageAll : List Write → Testing σ Unit
  | [] => pure ()
  | w :: rest => do
    orAbort (Datastore.stage w)
    stageAll rest

/-- Commits results together and gives their number. Nothing is committed when there are none. -/
def flush (batch : List TestResult) (message : String) : Testing σ Nat := do
  if batch.isEmpty then pure 0
  else
    stageAll (batch.map .saveResult)
    commit message
    pure batch.length

end Testing

namespace TestPlan

def verdict (document : Node) (unit : Place) (p : Predicate) : Verdict :=
  match p.evaluate document unit with
  | .ok .holds => .pass
  | .ok .fails => .fail
  | .ok .unknown => .skip
  | .error _ => .error

/-- The verdicts of some rules on a unit; all of them fail where that is forced. -/
def verdicts (forced : Bool) (document : Node) (unit : Place) (rules : List CompiledRule) :
    List (RuleId × Verdict) :=
  rules.map fun r =>
    (r.definition.id, if forced then .fail else verdict document unit r.predicate)

/-- The identifier of an activity, if it has one. -/
def identifier? (activity : Node) : Option String :=
  (activity.childText? "iati-identifier").filter fun s => !s.isEmpty

/-- The hierarchy of an activity; zero unless it is a number. -/
def hierarchy (activity : Node) : Int64 :=
  match activity.attribute? "hierarchy" with
  | some s => (Decimal.readInt64? (Text.trimChars s.toList)).getD 0
  | none => 0

def results (c : RunContext) (identifier : Option String) (hierarchy : Int64)
    (organisationId : OrganisationId) (verdicts : List (RuleId × Verdict)) : List TestResult :=
  verdicts.filterMap fun (testId, v) =>
    v.code?.map fun code =>
      ⟨c.runtimeId, c.packageId, testId, code, identifier, hierarchy, some organisationId⟩

def activityVerdicts (plan : TestPlan) (forced : Bool) (document : Node) (activity : Place) :
    List (RuleId × Verdict) :=
  let transactions := activity.children.filter (·.node.isNamed "transaction")
  verdicts forced document activity (plan.rules.forLevel .activity) ++
    transactions.flatMap fun t => verdicts forced document t (plan.rules.forLevel .transaction)

/-- The record of whether a document is valid. -/
def validity (c : RunContext) (code : Code) : TestResult :=
  ⟨c.runtimeId, c.packageId, validDocumentId, code, none, 0, none⟩

/-- The value of a metric, which is zero when the metric has none. -/
def metricValue (plan : TestPlan) (now : Instant) (document : Node) (place : Place) (m : Metric) :
    Float :=
  match m.evaluate ⟨now, plan.codelist⟩ document place with
  | .ok x => x
  | .error _ => 0.0

variable {σ : Type} [Datastore σ]

/-- Records whether the document is valid. -/
def recordValidity (code : Code) : Testing σ Unit := do
  let c ← Testing.context
  let _ ← Testing.flush [validity c code] "Record document validity"

/-- Tests an activity and its transactions. Without an identifier one is made up, and all results
fail. -/
def testActivity (plan : TestPlan) (organisationId : OrganisationId) (document : Node)
    (activity : Place) : Testing σ Nat := do
  let found := identifier? activity.node
  let name ← match found with
    | some name => pure name
    | none => Testing.nextMissing
  let c ← Testing.context
  let verdicts := plan.activityVerdicts found.isNone document activity
  Testing.flush (results c (some name) (hierarchy activity.node) organisationId verdicts)
    ("Test activity " ++ name)

def testOrganisation (plan : TestPlan) (organisationId : OrganisationId) (document : Node)
    (node : Place) : Testing σ Nat := do
  let c ← Testing.context
  let verdicts := verdicts false document node (plan.rules.forLevel .organisation)
  Testing.flush (results c none 0 organisationId verdicts)
    ("Test organisation " ++ organisationId.text)

/-- Computes a metric at a place and keeps its value. -/
def runMetric (plan : TestPlan) (organisationId : OrganisationId) (document : Node) (place : Place)
    (b : MetricBinding) : Testing σ Nat := do
  let c ← Testing.context
  let value := plan.metricValue c.now document place b.metric
  Testing.orAbort
    (Datastore.stage (.replaceInfo ⟨c.runtimeId, c.packageId, organisationId, b.infoId, value⟩))
  Testing.commit ("Info " ++ b.infoId.text ++ " for organisation " ++ organisationId.text)
  pure 1

def runMetrics (plan : TestPlan) (organisationId : OrganisationId) (level : Level) (document : Node)
    (place : Place) : Testing σ Nat :=
  Testing.sum (plan.runMetric organisationId document place) (plan.metrics.forLevel level)

/-- Computes the metrics of an organisation node and tests it. Gives how many results and info values
were written. -/
def testNode (plan : TestPlan) (organisationId : OrganisationId) (document : Node) (node : Place) :
    Testing σ (Nat × Nat) := do
  let infos ← plan.runMetrics organisationId .organisation document node
  let results ← plan.testOrganisation organisationId document node
  pure (results, infos)

/-- Tests organisation nodes one after the other, counting on from what was written before. -/
def testNodes (plan : TestPlan) (organisationId : OrganisationId) (document : Node) :
    Nat × Nat → List Place → Testing σ (Nat × Nat)
  | written, [] => pure written
  | written, node :: rest => do
    let (results, infos) ← plan.testNode organisationId document node
    plan.testNodes organisationId document (written.1 + results, written.2 + infos) rest

def testTarget (plan : TestPlan) (organisations : Selector) (document : Node) (t : Target) :
    Testing σ (Nat × Nat) := do
  match Selector.parse t.activitiesSelector with
  | .error e => throw (.invalidActivitiesSelector t.organisationId e)
  | .ok selector =>
    let root := Place.top document
    let activities := selector.selectPlaces document root
    let results ← Testing.sum (plan.testActivity t.organisationId document) activities
    let infos ←
      if activities.isEmpty then pure 0
      else plan.runMetrics t.organisationId .activity document root
    plan.testNodes t.organisationId document (results, infos)
      (organisations.selectPlaces document root)

/-- Tests what belongs to each organisation, counting on from what was written before. -/
def testTargets (plan : TestPlan) (organisations : Selector) (document : Node) :
    Nat × Nat → List Target → Testing σ (Nat × Nat)
  | written, [] => pure written
  | written, t :: rest => do
    let (results, infos) ← plan.testTarget organisations document t
    plan.testTargets organisations document (written.1 + results, written.2 + infos) rest

/-- Counts the results of the package, and marks it as tested. -/
def concludePackage : Testing σ (List AggregateRow) := do
  let c ← Testing.context
  let rows ← Testing.orAbort (Datastore.aggregate c.runtimeId c.packageId)
  Testing.orAbort (Datastore.stage (.setStatus c.packageId .tested))
  Testing.commit ("Aggregate package " ++ c.packageId.text)
  pure rows

def checkDocument (plan : TestPlan) (document : Node) : Testing σ PackageOutcome := do
  let c ← Testing.context
  match ← Testing.onStore (Datastore.organisationsOf c.packageId) with
  | .error e => throw (.store e)
  | .ok [] => throw (.noOrganisations c.packageId)
  | .ok targets =>
    match Selector.parse plan.organisationSelector with
    | .error e => throw (.invalidOrganisationSelector e)
    | .ok organisations =>
      let (results, infos) ← plan.testTargets organisations document (0, 0) targets
      let rows ← concludePackage
      pure (.tested results infos rows.length)

def checkText (plan : TestPlan) (text : String) : Testing σ PackageOutcome := do
  match Markup.parse? text with
  | none =>
    recordValidity .fail
    pure .invalidDocument
  | some document =>
    recordValidity .pass
    plan.checkDocument document

/-- Records the run in which the package was last tested. Whether that fails does not matter. -/
def recordTestrun : Testing σ Unit := do
  let c ← Testing.context
  tryCatch
    (do
      match ← Testing.onStore (Datastore.stage (.recordTestrun c.packageId c.runtimeId)) with
      | .ok _ => Testing.commit "Record tested run"
      | .error _ => pure ())
    fun _ => pure ()

/-- Tests a file. `read` gives its text, unless there is none to be read. -/
def checkFile (plan : TestPlan) (read : σ → Option String) : Testing σ PackageOutcome := do
  let c ← Testing.context
  if plan.removeResults then
    Testing.orAbort (Datastore.stage (.deleteResults c.packageId))
    Testing.commit ("Remove results for package " ++ c.packageId.text)
  let outcome ←
    match read (← get).store with
    | some text => plan.checkText text
    | none => do
      recordValidity .fail
      pure .invalidDocument
  recordTestrun
  pure outcome

end TestPlan

/-- A store, and the contexts of the runs in which packages have been tested. -/
structure TestSession (σ : Type) where
  store : σ
  runs : List (RuntimeId × RunContext)

namespace TestSession

variable {σ : Type}

def start (store : σ) : TestSession σ := ⟨store, []⟩

/-- The context in which a package of a run is tested next. Made-up identifiers count on within a
run. -/
def contextFor (s : TestSession σ) (runtimeId : RuntimeId) (packageId : PackageId) (now : Instant) :
    RunContext :=
  ((s.runs.lookup runtimeId).getD (.start runtimeId packageId now)).forPackage packageId

def check [Datastore σ] (plan : TestPlan) (now : Instant) (read : σ → Option String)
    (runtimeId : RuntimeId) (packageId : PackageId) (s : TestSession σ) :
    Except TestingError PackageOutcome × TestSession σ :=
  let (outcome, after) := (plan.checkFile read).run ⟨s.contextFor runtimeId packageId now, s.store⟩
  (outcome, ⟨after.store, (runtimeId, after.context) :: s.runs.filter (·.1 != runtimeId)⟩)

end TestSession

end DataQuality
