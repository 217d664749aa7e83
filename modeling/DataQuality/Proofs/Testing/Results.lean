import DataQuality.Proofs.Decimal.Digits
import DataQuality.Proofs.RuleSet
import DataQuality.Proofs.Selector.Denotation
import DataQuality.Proofs.Store.Journal
import DataQuality.Proofs.Testing.Effects
import Mathlib

/-!
# The results of a document

What testing a document appends to the results of its package is written down here
without a store: one result for each rule and each unit, organisation by organisation,
activities before organisation nodes, rules in the order of their definitions and units
in document order. An activity without an identifier is given the next made-up one, and
fails every rule. Testing on a store that does not fail appends exactly these results,
after the record that the document is valid.
-/
namespace DataQuality

open Markup (Node Place)

namespace Markup.Node

variable {n c : Node} {name value : String}

theorem isNamed_iff : n.isNamed name = true ↔ ∃ attributes cs, n = .element name attributes cs := by
  cases n <;> simp [isNamed, elementName?]

/-- An element begins with the text that is its first child. -/
theorem leadingText?_eq_some_iff (h : n.isNamed name = true) :
    n.leadingText? = some value ↔ ∃ rest, n.children = .text value :: rest := by
  obtain ⟨attributes, cs, rfl⟩ := isNamed_iff.1 h
  unfold leadingText? children
  cases cs with
  | nil => simp
  | cons first rest => cases first <;> simp

/-- The first attribute of this name that belongs to no namespace has this value. -/
def Declares (n : Node) (name value : String) : Prop :=
  ∃ before after, n.attributes = before ++ ⟨none, name, value⟩ :: after ∧
    ∀ other, ⟨none, name, other⟩ ∉ before

theorem attribute?_eq_some_iff : n.attribute? name = some value ↔ n.Declares name value := by
  unfold attribute? Declares
  rw [Option.map_eq_some_iff]
  simp only [List.find?_eq_some_iff_append]
  constructor
  · rintro ⟨⟨space, own, content⟩, ⟨hmatch, before, after, hsplit, hbefore⟩, rfl⟩
    obtain ⟨rfl, rfl⟩ : space = none ∧ own = name := by simpa using hmatch
    exact ⟨before, after, hsplit, fun other hother => by simpa using hbefore _ hother⟩
  · rintro ⟨before, after, hsplit, hbefore⟩
    refine ⟨⟨none, name, value⟩, ⟨by simp, before, after, hsplit, fun a ha => ?_⟩, rfl⟩
    obtain ⟨space, own, content⟩ := a
    by_contra hmatch
    obtain ⟨rfl, rfl⟩ : space = none ∧ own = name := by simpa using hmatch
    exact hbefore content ha

/-- The first child element of this name. -/
theorem child?_eq_some_iff :
    n.child? name = some c ↔ c.isNamed name = true ∧ ∃ before after,
      n.children = before ++ c :: after ∧
        ∀ attributes cs, .element name attributes cs ∉ before := by
  unfold child?
  rw [List.find?_eq_some_iff_append]
  refine and_congr_right fun _ => exists_congr fun before => exists_congr fun after =>
    and_congr_right fun _ => ⟨fun h attributes cs hmem => ?_, fun h m hm => ?_⟩
  · simpa [isNamed, elementName?] using h _ hmem
  · rw [Bool.not_eq_true', Bool.eq_false_iff]
    intro hnamed
    obtain ⟨attributes, cs, rfl⟩ := isNamed_iff.1 hnamed
    exact h attributes cs hm

end Markup.Node

def RunContext.madeUp (c : RunContext) (n : Nat) : RunContext := { c with missing := c.missing + n }

namespace TestPlan

/-- What results are about: an organisation, and an activity of it or not. An unnamed
activity fails every rule. -/
structure Subject where
  organisationId : OrganisationId
  identifier : Option String
  hierarchy : Int64
  unnamed : Bool

/-- The code that is kept when a rule has been evaluated; none if it could not decide. -/
def keptCode? : Except EvalError Truth → Option Code
  | .ok .holds => some .pass
  | .ok .fails => some .fail
  | .ok .unknown => none
  | .error _ => some .error

def resultsAt (c : RunContext) (subject : Subject) (document : Node) (rules : List CompiledRule)
    (unit : Place) : List TestResult :=
  rules.filterMap fun r =>
    let code? := if subject.unnamed then some .fail else keptCode? (r.predicate.evaluate document unit)
    code?.map fun code =>
      ⟨c.runtimeId, c.packageId, r.definition.id, code, subject.identifier, subject.hierarchy,
        some subject.organisationId⟩

/-- The first identifier element of an activity begins with this text, which is not empty. -/
def Identifies (activity : Node) (name : String) : Prop :=
  name ≠ "" ∧ ∃ before attributes rest after,
    activity.children =
      before ++ .element "iati-identifier" attributes (.text name :: rest) :: after ∧
    ∀ as cs, .element "iati-identifier" as cs ∉ before

theorem identifies_iff {activity : Node} {name : String} :
    Identifies activity name ↔ identifier? activity = some name := by
  unfold identifier? Node.childText? Identifies
  rw [Option.filter_eq_some_iff, Option.bind_eq_some_iff, and_comm]
  refine and_congr ⟨?_, ?_⟩ (by simp)
  · rintro ⟨before, attributes, rest, after, hsplit, hbefore⟩
    exact ⟨_, Node.child?_eq_some_iff.2
      ⟨Node.isNamed_iff.2 ⟨attributes, _, rfl⟩, before, after, hsplit, hbefore⟩, rfl⟩
  · rintro ⟨c, hchild, htext⟩
    obtain ⟨hnamed, before, after, hsplit, hbefore⟩ := Node.child?_eq_some_iff.1 hchild
    obtain ⟨rest, hrest⟩ := (Node.leadingText?_eq_some_iff hnamed).1 htext
    obtain ⟨attributes, cs, rfl⟩ := Node.isNamed_iff.1 hnamed
    obtain rfl : cs = .text name :: rest := hrest
    exact ⟨before, attributes, rest, after, hsplit, hbefore⟩

/-- The hierarchy attribute of an activity spells this number; it is zero if the attribute is missing
or spells none. -/
def HasHierarchy (activity : Node) (h : Int64) : Prop :=
  (∃ value, activity.Declares "hierarchy" value ∧ Decimal.SpellsInt64 value.toList h) ∨
    h = 0 ∧ ∀ value, activity.Declares "hierarchy" value →
      ∀ i, ¬ Decimal.SpellsInt64 value.toList i

theorem hasHierarchy_iff {activity : Node} {h : Int64} :
    HasHierarchy activity h ↔ hierarchy activity = h := by
  unfold HasHierarchy hierarchy
  simp only [← Node.attribute?_eq_some_iff, ← Decimal.readInt64?_trimChars_eq_some_iff]
  have hzero : h = 0 ↔ 0 = h := eq_comm
  cases activity.attribute? "hierarchy" with
  | none => simp [hzero]
  | some value =>
    cases hread : Decimal.readInt64? (Text.trimChars value.toList) with
    | none => simp [hread, hzero]
    | some i => simp [hread]

/-- The activity as a subject. Without an identifier it is given the next made-up one. -/
def activitySubject (c : RunContext) (o : OrganisationId) (activity : Node) : Subject :=
  match identifier? activity with
  | some name => ⟨o, some name, hierarchy activity, false⟩
  | none => ⟨o, some ("MISSING-" ++ Decimal.ofNat (c.missing + 1)), hierarchy activity, true⟩

/-- How many of some activities have no identifier. -/
def unnamedIn (activities : List Place) : Nat :=
  activities.countP fun a => (identifier? a.node).isNone

/-- The activities of an organisation, if their selector can be read. -/
def activitiesOf (document : Node) (t : Target) : List Place :=
  match Selector.parse t.activitiesSelector with
  | .ok s => s.selectPlaces document (.top document)
  | .error _ => []

/-- How many activities of some organisations have no identifier. -/
def unnamedOf (document : Node) (targets : List Target) : Nat :=
  (targets.map fun t => unnamedIn (activitiesOf document t)).sum

variable (plan : TestPlan) (document : Node)

def activityResults (c : RunContext) (o : OrganisationId) (activity : Place) : List TestResult :=
  let subject := activitySubject c o activity.node
  let transactions := activity.children.filter (·.node.isNamed "transaction")
  resultsAt c subject document (plan.rules.forLevel .activity) activity ++
    transactions.flatMap (resultsAt c subject document (plan.rules.forLevel .transaction))

/-- The results of some activities, one after the other. -/
def activitiesResults (o : OrganisationId) : RunContext → List Place → List TestResult
  | _, [] => []
  | c, a :: rest =>
    plan.activityResults document c o a ++ activitiesResults o (c.madeUp (unnamedIn [a])) rest

def organisationResults (c : RunContext) (o : OrganisationId) (node : Place) : List TestResult :=
  resultsAt c ⟨o, none, 0, false⟩ document (plan.rules.forLevel .organisation) node

/-- The results of what belongs to an organisation. -/
def targetResults (nodes : List Place) (c : RunContext) (t : Target) : List TestResult :=
  plan.activitiesResults document t.organisationId c (activitiesOf document t) ++
    nodes.flatMap (plan.organisationResults document c t.organisationId)

/-- The results of what belongs to each organisation. -/
def targetsResults (nodes : List Place) : RunContext → List Target → List TestResult
  | _, [] => []
  | c, t :: rest =>
    plan.targetResults document nodes c t ++
      targetsResults nodes (c.madeUp (unnamedIn (activitiesOf document t))) rest

/-- The commits of some activities: one for each that has results. -/
def activitiesCommits (o : OrganisationId) : RunContext → List Place → List (List Write)
  | _, [] => []
  | c, a :: rest =>
    batchCommits (plan.activityResults document c o a) ++
      activitiesCommits o (c.madeUp (unnamedIn [a])) rest

/-- The commits of the metrics of a level at a place: one for each. -/
def metricsCommits (c : RunContext) (o : OrganisationId) (level : Level) (place : Place) :
    List (List Write) :=
  (plan.metrics.forLevel level).map fun b =>
    [.replaceInfo ⟨c.runtimeId, c.packageId, o, b.infoId, plan.metricValue c.now document place b.metric⟩]

/-- The commits of an organisation node: those of its metrics, and one for its results if
it has any. -/
def nodeCommits (c : RunContext) (o : OrganisationId) (node : Place) : List (List Write) :=
  plan.metricsCommits document c o .organisation node ++
    batchCommits (plan.organisationResults document c o node)

/-- The commits of what belongs to an organisation. -/
def targetCommits (nodes : List Place) (c : RunContext) (t : Target) : List (List Write) :=
  plan.activitiesCommits document t.organisationId c (activitiesOf document t) ++
    ((if (activitiesOf document t).isEmpty then []
      else plan.metricsCommits document c t.organisationId .activity (.top document)) ++
      nodes.flatMap (plan.nodeCommits document c t.organisationId))

/-- The commits of what belongs to each organisation. -/
def targetsCommits (nodes : List Place) : RunContext → List Target → List (List Write)
  | _, [] => []
  | c, t :: rest =>
    plan.targetCommits document nodes c t ++
      targetsCommits nodes (c.madeUp (unnamedIn (activitiesOf document t))) rest

/-- How many info values are written for what belongs to an organisation. -/
def infoCount (nodes : List Place) (t : Target) : Nat :=
  (if (activitiesOf document t).isEmpty then 0 else (plan.metrics.forLevel .activity).length) +
    nodes.length * (plan.metrics.forLevel .organisation).length

section Batches

variable (c : RunContext) (forced : Bool) (identifier : Option String) (h : Int64) (o : OrganisationId)

theorem code?_verdict (p : Predicate) (unit : Place) :
    (if forced then Verdict.fail else verdict document unit p).code? =
      if forced then some .fail else keptCode? (p.evaluate document unit) := by
  cases forced with
  | true => rfl
  | false =>
    simp only [Bool.false_eq_true, if_false, verdict]
    rcases p.evaluate document unit with e | truth
    · rfl
    · cases truth <;> rfl

/-- The verdicts of some rules on one unit are kept as its results. -/
theorem results_verdicts (rules : List CompiledRule) (unit : Place) :
    results c identifier h o (verdicts forced document unit rules) =
      resultsAt c ⟨o, identifier, h, forced⟩ document rules unit := by
  unfold results verdicts resultsAt
  rw [List.filterMap_map]
  refine List.filterMap_congr fun r _ => ?_
  simp only [Function.comp, code?_verdict]

/-- The verdicts on an activity and its transactions are kept as their results. -/
theorem results_activityVerdicts (activity : Place) :
    results c identifier h o (plan.activityVerdicts forced document activity) =
      resultsAt c ⟨o, identifier, h, forced⟩ document (plan.rules.forLevel .activity) activity ++
        (activity.children.filter (·.node.isNamed "transaction")).flatMap
          (resultsAt c ⟨o, identifier, h, forced⟩ document (plan.rules.forLevel .transaction)) := by
  have hsplit (xs ys : List (RuleId × Verdict)) :
      results c identifier h o (xs ++ ys) = results c identifier h o xs ++ results c identifier h o ys :=
    List.filterMap_append
  unfold activityVerdicts
  rw [hsplit, results_verdicts]
  congr 1
  induction activity.children.filter (·.node.isNamed "transaction") with
  | nil => rfl
  | cons t rest ih => rw [List.flatMap_cons, List.flatMap_cons, hsplit, results_verdicts, ih]

end Batches

end TestPlan

namespace Completes

variable {σ : Type} [Datastore σ] {After : List (List Write) → σ → Prop} (hstore : Reliable σ After)
  (plan : TestPlan) (document : Node) {c : RunContext} (o : OrganisationId)
include hstore

open TestPlan

theorem testActivity (activity : Place) :
    Completes After (plan.testActivity o document activity) c
      (plan.activityResults document c o activity).length (c.madeUp (unnamedIn [activity]))
      (batchCommits (plan.activityResults document c o activity)) := by
  cases hname : identifier? activity.node with
  | some name =>
    have hbatch : results c (some name) (hierarchy activity.node) o
        (plan.activityVerdicts false document activity) =
        plan.activityResults document c o activity := by
      unfold activityResults activitySubject
      rw [hname]
      exact results_activityVerdicts plan document c false _ _ _ activity
    have hcontext : c.madeUp (unnamedIn [activity]) = c := by
      simp [RunContext.madeUp, unnamedIn, hname]
    unfold TestPlan.testActivity
    rw [hname, ← hbatch, hcontext]
    exact (Completes.pure name).after (Completes.context.after (flush hstore _ _))
  | none =>
    have hbatch : results c.nextMissing.2 (some c.nextMissing.1) (hierarchy activity.node) o
        (plan.activityVerdicts true document activity) =
        plan.activityResults document c o activity := by
      unfold activityResults activitySubject
      rw [hname]
      exact results_activityVerdicts plan document c.nextMissing.2 true _ _ _ activity
    have hcontext : c.madeUp (unnamedIn [activity]) = c.nextMissing.2 := by
      simp [RunContext.madeUp, RunContext.nextMissing, unnamedIn, hname]
    unfold TestPlan.testActivity
    rw [hname, ← hbatch, hcontext]
    exact Completes.nextMissing.after (Completes.context.after (flush hstore _ _))

/-- Identifiers are counted on from one activity to the next. -/
theorem testActivities (activities : List Place) :
    Completes After (Testing.sum (plan.testActivity o document) activities) c
      (plan.activitiesResults document o c activities).length (c.madeUp (unnamedIn activities))
      (plan.activitiesCommits document o c activities) := by
  induction activities generalizing c with
  | nil => exact .pure 0
  | cons a rest ih =>
    have hcontext : (c.madeUp (unnamedIn [a])).madeUp (unnamedIn rest) =
        c.madeUp (unnamedIn (a :: rest)) := by
      simp [RunContext.madeUp, unnamedIn, List.countP_cons]
      omega
    rw [Testing.sum, activitiesResults, activitiesCommits, List.length_append, ← hcontext]
    refine (testActivity hstore plan document o a).bind (ih.giving ?_)
    rfl

theorem testOrganisation (node : Place) :
    Completes After (plan.testOrganisation o document node) c
      (plan.organisationResults document c o node).length c
      (batchCommits (plan.organisationResults document c o node)) := by
  have hbatch : results c none 0 o
      (verdicts false document node (plan.rules.forLevel .organisation)) =
      plan.organisationResults document c o node := results_verdicts document c false none 0 o _ node
  unfold TestPlan.testOrganisation
  rw [← hbatch]
  exact Completes.context.after (flush hstore _ _)

theorem runMetric (place : Place) (b : MetricBinding) :
    Completes After (plan.runMetric o document place b) c 1 c
      [[.replaceInfo ⟨c.runtimeId, c.packageId, o, b.infoId,
        plan.metricValue c.now document place b.metric⟩]] := by
  unfold TestPlan.runMetric
  refine Completes.context.after fun t => ?_
  exact (Makes.stage hstore _).bind ((Makes.commit hstore _).bind (.pure 1))

theorem runMetrics (level : Level) (place : Place) :
    Completes After (plan.runMetrics o level document place) c (plan.metrics.forLevel level).length c
      (plan.metricsCommits document c o level place) := by
  unfold TestPlan.runMetrics metricsCommits
  induction plan.metrics.forLevel level with
  | nil => exact .pure 0
  | cons b rest ih =>
    rw [Testing.sum, List.length_cons, Nat.add_comm, List.map_cons]
    refine (runMetric hstore plan document o place b).bind (ih.giving ?_)
    rfl

theorem testNode (node : Place) :
    Completes After (plan.testNode o document node) c
      ((plan.organisationResults document c o node).length,
        (plan.metrics.forLevel .organisation).length) c (plan.nodeCommits document c o node) := by
  unfold TestPlan.testNode
  refine (runMetrics hstore plan document o .organisation node).bind
    ((testOrganisation hstore plan document o node).giving ?_)
  rfl

theorem testNodes (written : Nat × Nat) (nodes : List Place) :
    Completes After (plan.testNodes o document written nodes) c
      (written.1 + (nodes.flatMap (plan.organisationResults document c o)).length,
        written.2 + nodes.length * (plan.metrics.forLevel .organisation).length) c
      (nodes.flatMap (plan.nodeCommits document c o)) := by
  induction nodes generalizing written with
  | nil =>
    rw [List.flatMap_nil, List.flatMap_nil, List.length_nil, List.length_nil, Nat.zero_mul]
    exact .pure written
  | cons node rest ih =>
    rw [TestPlan.testNodes, List.flatMap_cons, List.length_append, ← Nat.add_assoc,
      List.length_cons, Nat.succ_mul, Nat.add_comm (rest.length * _), ← Nat.add_assoc,
      List.flatMap_cons]
    exact (testNode hstore plan document o node).bind (ih _)

theorem testTarget (organisations : Selector) (t : Target) {activities : Selector}
    (ht : Selector.parse t.activitiesSelector = .ok activities) :
    let nodes := organisations.selectPlaces document (.top document)
    Completes After (plan.testTarget organisations document t) c
      ((plan.targetResults document nodes c t).length, plan.infoCount document nodes t)
      (c.madeUp (unnamedIn (activitiesOf document t)))
      (plan.targetCommits document nodes c t) := by
  intro nodes
  have hactivities : activitiesOf document t = activities.selectPlaces document (.top document) := by
    unfold activitiesOf
    rw [ht]
  have hinfos := runMetrics hstore plan document (c := c.madeUp (unnamedIn (activitiesOf document t)))
    t.organisationId .activity (.top document)
  unfold TestPlan.testTarget targetResults targetCommits infoCount
  rw [ht, List.length_append]
  dsimp only
  rw [← hactivities]
  refine (testActivities hstore plan document t.organisationId _).bind ?_
  by_cases hempty : (activitiesOf document t).isEmpty = true
  · rw [if_pos hempty, if_pos hempty, if_pos hempty]
    exact (Completes.pure 0).bind (testNodes hstore plan document t.organisationId _ _)
  · rw [if_neg hempty, if_neg hempty, if_neg hempty]
    exact hinfos.bind (testNodes hstore plan document t.organisationId _ _)

theorem testTargets (organisations : Selector) (written : Nat × Nat) (targets : List Target)
    (htargets : ∀ t ∈ targets, ∃ s, Selector.parse t.activitiesSelector = .ok s) :
    let nodes := organisations.selectPlaces document (.top document)
    Completes After (plan.testTargets organisations document written targets) c
      (written.1 + (plan.targetsResults document nodes c targets).length,
        written.2 + (targets.map (plan.infoCount document nodes)).sum)
      (c.madeUp (unnamedOf document targets)) (plan.targetsCommits document nodes c targets) := by
  intro nodes
  induction targets generalizing c written with
  | nil => exact .pure written
  | cons t rest ih =>
    obtain ⟨s, hs⟩ := htargets t List.mem_cons_self
    have hcontext : (c.madeUp (unnamedIn (activitiesOf document t))).madeUp
        (unnamedOf document rest) = c.madeUp (unnamedOf document (t :: rest)) := by
      simp only [RunContext.madeUp, unnamedOf, List.map_cons, List.sum_cons, Nat.add_assoc]
    rw [TestPlan.testTargets, targetsResults, List.length_append, ← Nat.add_assoc, List.map_cons,
      List.sum_cons, ← Nat.add_assoc, targetsCommits, ← hcontext]
    refine (testTarget hstore plan document organisations t hs).bind (ih (written.1 + _, written.2 + _) ?_)
    exact fun u hu => htargets u (List.mem_cons_of_mem t hu)

end Completes

/-- The last commit of a package: its results are counted, and it is marked as tested. -/
def closingCommit (c : RunContext) (t : Tables) : List Write :=
  [.putAggregates c.runtimeId c.packageId (t.aggregate c.runtimeId c.packageId),
    .setStatus c.packageId .tested]

namespace Makes

variable {σ : Type} [Datastore σ] {After : List (List Write) → σ → Prop} (hstore : Reliable σ After)
  {c : RunContext}
include hstore

open TestPlan

theorem concludePackage (t : Tables) :
    Makes After TestPlan.concludePackage ⟨c, .ofTables t⟩ (t.aggregate c.runtimeId c.packageId)
      ⟨c, .ofTables (t.applyAll (closingCommit c t))⟩ [closingCommit c t] := by
  refine Makes.context.bind ((Makes.aggregate hstore _ _).bind ?_)
  exact (Makes.stage hstore _).bind ((Makes.commit hstore _).bind (.pure _))

theorem checkDocument (plan : TestPlan) (document : Node) {organisations : Selector} (t : Tables)
    (horganisations : Selector.parse plan.organisationSelector = .ok organisations)
    {targets : List Target} (htargets : t.organisationsOf c.packageId = targets)
    (hne : targets ≠ [])
    (hselectors : ∀ g ∈ targets, ∃ s, Selector.parse g.activitiesSelector = .ok s) :
    let nodes := organisations.selectPlaces document (.top document)
    let commits := plan.targetsCommits document nodes c targets
    let tested := t.applyAll commits.flatten
    Makes After (plan.checkDocument document) ⟨c, .ofTables t⟩
      (.tested (plan.targetsResults document nodes c targets).length
        (targets.map (plan.infoCount document nodes)).sum
        (tested.aggregate c.runtimeId c.packageId).length)
      ⟨c.madeUp (unnamedOf document targets), .ofTables (tested.applyAll (closingCommit c tested))⟩
      (commits ++ [closingCommit c tested]) := by
  intro nodes commits tested
  have hall := Completes.testTargets hstore plan document (c := c) organisations (0, 0) targets
    hselectors t
  simp only [Nat.zero_add] at hall
  have hlast := concludePackage hstore (c := c.madeUp (unnamedOf document targets)) tested
  have hcall : Makes After (Testing.onStore (Datastore.organisationsOf c.packageId))
      ⟨c, .ofTables t⟩ (.ok targets) ⟨c, .ofTables t⟩ [] := by
    rw [← htargets]
    exact Makes.organisationsOf hstore c.packageId
  unfold TestPlan.checkDocument
  refine Makes.context.bind (hcall.bind ?_)
  cases targets with
  | nil => exact absurd rfl hne
  | cons g rest =>
    dsimp only
    rw [horganisations]
    exact hall.bind (hlast.bind (.pure _))

/-- A record of validity is committed together with what is staged before it. -/
theorem recordValidity (code : Code) (l : Ledger) :
    let writes := l.staged ++ [.saveResult (validity c code)]
    Makes After (TestPlan.recordValidity code) ⟨c, l⟩ ()
      ⟨c, .ofTables (l.tables.applyAll writes)⟩ [writes] := by
  have hne : [validity c code] ≠ [] := by simp
  exact Makes.context.bind ((Makes.flush hstore hne _).bind (.pure ()))

/-- What testing a text does if it is that of a document. -/
theorem checkText (plan : TestPlan) {text : String} {document : Node} {organisations : Selector}
    (l : Ledger) (hdocument : Markup.parse? text = some document)
    (horganisations : Selector.parse plan.organisationSelector = .ok organisations)
    {targets : List Target} (htargets : l.tables.organisationsOf c.packageId = targets)
    (hne : targets ≠ [])
    (hselectors : ∀ g ∈ targets, ∃ s, Selector.parse g.activitiesSelector = .ok s) :
    let nodes := organisations.selectPlaces document (.top document)
    let first := l.staged ++ [.saveResult (validity c .pass)]
    let commits := plan.targetsCommits document nodes c targets
    let tested := (l.tables.applyAll first).applyAll commits.flatten
    Makes After (plan.checkText text) ⟨c, l⟩
      (.tested (plan.targetsResults document nodes c targets).length
        (targets.map (plan.infoCount document nodes)).sum
        (tested.aggregate c.runtimeId c.packageId).length)
      ⟨c.madeUp (unnamedOf document targets), .ofTables (tested.applyAll (closingCommit c tested))⟩
      ([first] ++ (commits ++ [closingCommit c tested])) := by
  intro nodes first commits tested
  have hsame : (l.tables.applyAll first).organisationsOf c.packageId = targets := by
    unfold Tables.organisationsOf
    rw [Tables.organisations_applyAll]
    exact htargets
  unfold TestPlan.checkText
  rw [hdocument]
  exact (recordValidity hstore .pass l).bind
    (checkDocument hstore plan document _ horganisations hsame hne hselectors)

end Makes

/-- Carrying out these writes appends these results to the table of results. -/
def Appends (writes : List Write) (results : List TestResult) : Prop :=
  ∀ t : Tables, (t.applyAll writes).results = t.results ++ results

namespace Appends

variable {xs ys : List Write} {as bs : List TestResult}

theorem nil : Appends [] [] := fun t => (List.append_nil t.results).symm

theorem append (hx : Appends xs as) (hy : Appends ys bs) : Appends (xs ++ ys) (as ++ bs) := by
  intro t
  rw [Tables.applyAll_append, hy, hx, List.append_assoc]

theorem saved (r : TestResult) : Appends [.saveResult r] [r] := fun _ => rfl

theorem batch (results : List TestResult) : Appends (results.map .saveResult) results := by
  induction results with
  | nil => exact nil
  | cons r rest ih => exact (saved r).append ih

theorem closing (c : RunContext) (t : Tables) : Appends (closingCommit c t) [] :=
  fun u => (List.append_nil u.results).symm

variable (plan : TestPlan) (document : Node) (c : RunContext) (o : OrganisationId)

open TestPlan

theorem metrics (level : Level) (place : Place) :
    Appends (plan.metricsCommits document c o level place).flatten [] := by
  unfold metricsCommits
  induction plan.metrics.forLevel level with
  | nil => exact nil
  | cons b rest ih => exact fun t => ih (t.apply (.replaceInfo _))

theorem activities (activities : List Place) :
    Appends (plan.activitiesCommits document o c activities).flatten
      (plan.activitiesResults document o c activities) := by
  induction activities generalizing c with
  | nil => exact nil
  | cons a rest ih =>
    rw [activitiesCommits, activitiesResults, List.flatten_append, flatten_batchCommits]
    exact (batch _).append (ih _)

theorem nodes (nodes : List Place) :
    Appends (nodes.flatMap (plan.nodeCommits document c o)).flatten
      (nodes.flatMap (plan.organisationResults document c o)) := by
  induction nodes with
  | nil => exact nil
  | cons node rest ih =>
    rw [List.flatMap_cons, List.flatMap_cons, List.flatten_append, nodeCommits,
      List.flatten_append, flatten_batchCommits]
    exact ((metrics plan document c o .organisation node).append (batch _)).append ih

theorem target (nodes : List Place) (t : Target) :
    Appends (plan.targetCommits document nodes c t).flatten
      (plan.targetResults document nodes c t) := by
  have hnodes := Appends.nodes plan document c t.organisationId nodes
  unfold targetCommits targetResults
  rw [List.flatten_append, List.flatten_append]
  refine (activities plan document c t.organisationId _).append ?_
  split
  · exact nil.append hnodes
  · exact (metrics plan document c t.organisationId .activity (.top document)).append hnodes

theorem targets (nodes : List Place) (targets : List Target) :
    Appends (plan.targetsCommits document nodes c targets).flatten
      (plan.targetsResults document nodes c targets) := by
  induction targets generalizing c with
  | nil => exact nil
  | cons t rest ih =>
    rw [targetsCommits, targetsResults, List.flatten_append]
    exact (target plan document c nodes t).append (ih _)

end Appends

namespace TestPlan

section Owner

variable {plan : TestPlan} {document : Node} {c : RunContext} {o : OrganisationId} {r : TestResult}

/-- The result is one of the run and the package, for an organisation. -/
def BelongsTo (c : RunContext) (o : OrganisationId) (r : TestResult) : Prop :=
  r.runtimeId = c.runtimeId ∧ r.packageId = c.packageId ∧ r.organisationId = some o

theorem belongsTo_resultsAt {subject : Subject} {rules : List CompiledRule} {unit : Place}
    (hr : r ∈ resultsAt c subject document rules unit) : BelongsTo c subject.organisationId r := by
  obtain ⟨rule, -, hcode⟩ := List.mem_filterMap.1 hr
  obtain ⟨code, -, rfl⟩ := Option.map_eq_some_iff.1 hcode
  exact ⟨rfl, rfl, rfl⟩

theorem belongsTo_activityResults {activity : Place}
    (hr : r ∈ plan.activityResults document c o activity) : BelongsTo c o r := by
  have hsubject : (activitySubject c o activity.node).organisationId = o := by
    unfold activitySubject
    split <;> rfl
  rw [← hsubject]
  rcases List.mem_append.1 hr with hr | hr
  · exact belongsTo_resultsAt hr
  · obtain ⟨t, -, hr⟩ := List.mem_flatMap.1 hr
    exact belongsTo_resultsAt hr

theorem belongsTo_activitiesResults {activities : List Place}
    (hr : r ∈ plan.activitiesResults document o c activities) : BelongsTo c o r := by
  induction activities generalizing c with
  | nil => cases hr
  | cons a rest ih =>
    rw [activitiesResults] at hr
    rcases List.mem_append.1 hr with hr | hr
    · exact belongsTo_activityResults hr
    · exact ih (c := c.madeUp _) hr

/-- Every result is one of the run and the package, for an organisation that is tested. -/
theorem belongsTo_targetsResults {nodes : List Place} {targets : List Target}
    (hr : r ∈ plan.targetsResults document nodes c targets) :
    ∃ t ∈ targets, BelongsTo c t.organisationId r := by
  induction targets generalizing c with
  | nil => cases hr
  | cons t rest ih =>
    rw [targetsResults] at hr
    rcases List.mem_append.1 hr with hr | hr
    · refine ⟨t, List.mem_cons_self, ?_⟩
      rcases List.mem_append.1 hr with hr | hr
      · exact belongsTo_activitiesResults hr
      · obtain ⟨node, -, hr⟩ := List.mem_flatMap.1 hr
        exact belongsTo_resultsAt hr
    · obtain ⟨u, hu, hbelongs⟩ := ih (c := c.madeUp _) hr
      exact ⟨u, List.mem_cons_of_mem t hu, hbelongs⟩

end Owner

/-- The activities of an organisation come in document order. -/
theorem activitiesOf_sublist (document : Node) (t : Target) :
    (activitiesOf document t).Sublist (Place.top document).descendantsOrSelf := by
  unfold activitiesOf
  split
  · exact Selector.selectPlaces_sublist _ rfl
  · exact List.nil_sublist _

section Results

variable {σ : Type} [Datastore σ] {After : List (List Write) → σ → Prop}

/-- Testing a document on a store that does not fail appends the record that it is valid
and the results of its organisations, after whatever was staged before, and counts
these results. They belong to the package and the run, and come in document order. The rules of
a level are its active definitions in their order, with the predicates of their identifiers; the
identifier and the hierarchy of an activity are those that its elements and attributes give. -/
theorem checkText_appends (hstore : Reliable σ After) (plan : TestPlan) (c : RunContext)
    {done : List (List Write)} {s : σ} (hs : After done s) {text : String} {document : Node}
    (hdocument : Markup.parse? text = some document) {organisations : Selector}
    (horganisations : Selector.parse plan.organisationSelector = .ok organisations)
    {targets : List Target}
    (htargets : (Datastore.ledger s).tables.organisationsOf c.packageId = targets)
    (hne : targets ≠ [])
    (hselectors : ∀ t ∈ targets, ∃ a, Selector.parse t.activitiesSelector = .ok a) :
    let before := (Datastore.ledger s).settle.tables
    let nodes := organisations.selectPlaces document (.top document)
    let ruleResults := plan.targetsResults document nodes c targets
    let added := ⟨c.runtimeId, c.packageId, ⟨0⟩, .pass, none, 0, none⟩ :: ruleResults
    (∃ infos rows c' s', (plan.checkText text).run ⟨c, s⟩ =
        (.ok (.tested ruleResults.length infos rows), ⟨c', s'⟩) ∧
      (Datastore.ledger s').staged = [] ∧
      (Datastore.ledger s').tables.results = before.results ++ added ∧
      (Datastore.ledger s').tables.resultsOf c.packageId =
        before.resultsOf c.packageId ++ added) ∧
    (∀ r ∈ ruleResults, ∃ t ∈ targets, BelongsTo c t.organisationId r) ∧
    (nodes.Sublist (Place.top document).descendantsOrSelf ∧
      ∀ t ∈ targets, (activitiesOf document t).Sublist (Place.top document).descendantsOrSelf) ∧
    (∀ l, (plan.rules.forLevel l).map (·.definition) =
        plan.rules.definitions.filter (fun d => d.active && d.level == l) ∧
      ∀ r ∈ plan.rules.forLevel l, plan.rules.get? r.definition.id = some r.predicate) ∧
    ∀ activity : Node,
      (∀ name, identifier? activity = some name ↔ Identifies activity name) ∧
        ∀ h, hierarchy activity = h ↔ HasHierarchy activity h := by
  intro before nodes ruleResults added
  have hbelongs : ∀ r ∈ ruleResults, ∃ t ∈ targets, BelongsTo c t.organisationId r :=
    fun r hr => belongsTo_targetsResults hr
  refine ⟨?_, hbelongs,
    ⟨Selector.selectPlaces_sublist _ rfl, fun t _ => activitiesOf_sublist document t⟩,
    fun l => ⟨plan.rules.agree.definitions_forLevel l, fun r => RuleIndexes.get?_of_mem_forLevel⟩,
    fun activity => ⟨fun name => identifies_iff.symm, fun h => hasHierarchy_iff.symm⟩⟩
  obtain ⟨s', hrun, -, hl⟩ := Makes.checkText hstore plan (Datastore.ledger s) hdocument
    horganisations htargets hne hselectors done s hs rfl
  have hresults : (Datastore.ledger s').tables.results = before.results ++ added := by
    rw [hl]
    change (Tables.applyAll _ _).results = _
    rw [Appends.closing, List.append_nil, Appends.targets, Tables.applyAll_append,
      Appends.saved, List.append_assoc]
    rfl
  refine ⟨_, _, _, s', hrun, congrArg Ledger.staged hl, hresults, ?_⟩
  have hadded : added.filter (·.packageId == c.packageId) = added := by
    rw [List.filter_eq_self]
    intro r hr
    rcases List.mem_cons.1 hr with rfl | hr
    · exact beq_self_eq_true _
    · obtain ⟨t, -, -, hp, -⟩ := hbelongs r hr
      exact beq_iff_eq.2 hp
  unfold Tables.resultsOf
  rw [hresults, List.filter_append, hadded]

end Results

/-- A document with one activity, which has no identifier. -/
def unnamedDocument : Node := .root [.element "r" [] [.element "a" [] []]]

/-- A plan with one rule, whose selector cannot be read. -/
def unreadablePlan : TestPlan :=
  let rule : CompiledRule := ⟨⟨⟨1⟩, "( exists?", .activity, true⟩, .isPresent (.error ⟨"(", 0, .noName⟩)⟩
  ⟨.ofRules [rule] [] (List.nodup_singleton _), false, "//b", .empty, none⟩

/-- A document with a named activity of hierarchy 2, an unnamed one, and an organisation node. -/
def levelsDocument : Node :=
  .root [.element "r" [] [
    .element "a" [⟨none, "hierarchy", " 2 "⟩] [
      .element "iati-identifier" [] [.text "GB-1"],
      .element "transaction" [] [.element "v" [] []],
      .element "transaction" [] []],
    .element "a" [] [.element "transaction" [] []],
    .element "b" [] []]]

/-- The text of the document. -/
def levelsText : String :=
  "<r><a hierarchy=\" 2 \"><iati-identifier>GB-1</iati-identifier><transaction><v/></transaction>" ++
    "<transaction/></a><a><transaction/></a><b/></r>"

set_option maxRecDepth 4000 in
theorem parse?_levelsText : Markup.parse? levelsText = some levelsDocument := by rfl

def childSelector (name : String) : Selector := ⟨name, [.mk false [.mk .child (.name name) []]]⟩

/-- A plan with rules of all levels. One is not active, one has a selector that cannot be read, and
one is never decided. -/
def levelsPlan : TestPlan :=
  let rules : List CompiledRule := [
    ⟨⟨⟨1⟩, "v exists?", .transaction, true⟩, .isPresent (.ok (childSelector "v"))⟩,
    ⟨⟨⟨2⟩, "transaction exists?", .activity, true⟩,
      .isPresent (.ok (childSelector "transaction"))⟩,
    ⟨⟨⟨3⟩, "v exists?", .activity, false⟩, .isPresent (.ok (childSelector "v"))⟩,
    ⟨⟨⟨4⟩, "( exists?", .activity, true⟩, .isPresent (.error ⟨"(", 0, .noName⟩)⟩,
    ⟨⟨⟨5⟩, "v is an iso date?", .activity, true⟩, .isIsoDate (.ok (childSelector "v"))⟩,
    ⟨⟨⟨6⟩, "v exists?", .organisation, true⟩, .isPresent (.ok (childSelector "v"))⟩]
  ⟨.ofRules rules [] (by decide), false, "//b", .empty, none⟩

/-- Two organisations, of which one takes the organisation node for an activity. -/
def levelsTargets : List Target := [⟨⟨5⟩, "//a"⟩, ⟨⟨6⟩, "//b"⟩]

/-- The results of the document, in their order. -/
def levelsResults : List TestResult := [
  ⟨⟨1⟩, ⟨7⟩, ⟨2⟩, .pass, some "GB-1", 2, some ⟨5⟩⟩,
  ⟨⟨1⟩, ⟨7⟩, ⟨4⟩, .error, some "GB-1", 2, some ⟨5⟩⟩,
  ⟨⟨1⟩, ⟨7⟩, ⟨1⟩, .pass, some "GB-1", 2, some ⟨5⟩⟩,
  ⟨⟨1⟩, ⟨7⟩, ⟨1⟩, .fail, some "GB-1", 2, some ⟨5⟩⟩,
  ⟨⟨1⟩, ⟨7⟩, ⟨2⟩, .fail, some "MISSING-1", 0, some ⟨5⟩⟩,
  ⟨⟨1⟩, ⟨7⟩, ⟨4⟩, .fail, some "MISSING-1", 0, some ⟨5⟩⟩,
  ⟨⟨1⟩, ⟨7⟩, ⟨5⟩, .fail, some "MISSING-1", 0, some ⟨5⟩⟩,
  ⟨⟨1⟩, ⟨7⟩, ⟨1⟩, .fail, some "MISSING-1", 0, some ⟨5⟩⟩,
  ⟨⟨1⟩, ⟨7⟩, ⟨6⟩, .fail, none, 0, some ⟨5⟩⟩,
  ⟨⟨1⟩, ⟨7⟩, ⟨2⟩, .fail, some "MISSING-2", 0, some ⟨6⟩⟩,
  ⟨⟨1⟩, ⟨7⟩, ⟨4⟩, .fail, some "MISSING-2", 0, some ⟨6⟩⟩,
  ⟨⟨1⟩, ⟨7⟩, ⟨5⟩, .fail, some "MISSING-2", 0, some ⟨6⟩⟩,
  ⟨⟨1⟩, ⟨7⟩, ⟨6⟩, .fail, none, 0, some ⟨6⟩⟩]

def levelsOrganisations : Selector := ⟨"//b", [.mk true [.everywhere, .mk .child (.name "b") []]]⟩

theorem targetsResults_levels :
    let nodes := levelsOrganisations.selectPlaces levelsDocument (.top levelsDocument)
    levelsPlan.targetsResults levelsDocument nodes (.start ⟨1⟩ ⟨7⟩ ⟨0, 0⟩) levelsTargets =
      levelsResults := by
  cbv

/-- The results in the order in which they are appended, in a store in memory. -/
theorem checkText_appends_levels :
    let c := RunContext.start ⟨1⟩ ⟨7⟩ ⟨0, 0⟩
    let s := MemoryStore.empty.withOrganisations ⟨7⟩ levelsTargets
    Markup.parse? levelsText = some levelsDocument ∧
      ∃ infos rows c' s', (levelsPlan.checkText levelsText).run ⟨c, s⟩ =
          (.ok (.tested 13 infos rows), ⟨c', s'⟩) ∧
        (Datastore.ledger s').staged = [] ∧
        (Datastore.ledger s').tables.results =
          ⟨⟨1⟩, ⟨7⟩, ⟨0⟩, .pass, none, 0, none⟩ :: levelsResults := by
  intro c s
  have horganisations : Selector.parse levelsPlan.organisationSelector = .ok levelsOrganisations :=
    rfl
  have htargets : s.ledger.tables.organisationsOf c.packageId = levelsTargets := rfl
  have hselectors : ∀ t ∈ levelsTargets, ∃ a, Selector.parse t.activitiesSelector = .ok a := by
    simp only [levelsTargets, List.forall_mem_cons]
    exact ⟨⟨_, rfl⟩, ⟨_, rfl⟩, List.forall_mem_nil _⟩
  have hs : s.commits = 0 + ([] : List (List Write)).length := rfl
  obtain ⟨⟨infos, rows, c', s', hrun, hstaged, hresults, -⟩, -⟩ :=
    checkText_appends (reliable_memoryStore 0) levelsPlan c hs parse?_levelsText horganisations
      htargets (List.cons_ne_nil _ _) hselectors
  rw [targetsResults_levels] at hrun hresults
  exact ⟨parse?_levelsText, infos, rows, c', s', hrun, hstaged, hresults⟩

end TestPlan

end DataQuality
