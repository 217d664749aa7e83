import DataQuality.Proofs.Testing.Results

/-!
# Silent rules

A sentence that asks for a date is never decided, and every other sentence always is. A rule gives no
result if it is not active, or if it is such a sentence on organisation nodes; in all other places a
rule has a result at least where an activity has no identifier. Without the rules that give no result
a document is tested in the same way.
-/
namespace DataQuality

open Markup (Node Place)

namespace Predicate

/-- The predicate is never decided. -/
def isUndecided : Predicate → Bool
  | .isIsoDate _ => true
  | _ => false

/-- An evaluation that is not left open. -/
def Decided (x : Except EvalError Truth) : Prop := x ≠ .ok .unknown

theorem decided_error (e : EvalError) : Decided (.error e) := by simp [Decided]

theorem decided_holds : Decided (.ok .holds) := by simp [Decided]

theorem decided_ofBool (b : Bool) : Decided (.ok (Truth.ofBool b)) := by
  cases b <;> simp [Decided, Truth.ofBool]

theorem decided_map (x : Except EvalError Bool) : Decided (x.map Truth.ofBool) := by
  cases x with
  | error e => exact decided_error e
  | ok b => exact decided_ofBool b

/-- An evaluation is decided if it is whatever its first part gives. -/
theorem decided_bind {α : Type} {x : Except EvalError α} {k : α → Except EvalError Truth}
    (h : ∀ a, Decided (k a)) : Decided (x >>= k) := by
  cases x with
  | error e => exact decided_error e
  | ok a => exact h a

/-- Only dates are left open. -/
theorem evaluate_eq_unknown_iff (document : Node) (unit : Place) (p : Predicate) :
    p.evaluate document unit = .ok .unknown ↔ p.isUndecided = true := by
  suffices h : p.isUndecided = false → Decided (p.evaluate document unit) by
    refine ⟨fun hunknown => ?_, fun hp => ?_⟩
    · by_contra hp
      exact h (by simpa using hp) hunknown
    · cases p <;> first | rfl | cases hp
  intro hp
  cases p with
  | isPresent s => exact decided_map _
  | eitherPresent s t =>
    refine decided_bind fun found => ?_
    cases found with
    | true => exact decided_holds
    | false => exact decided_map _
  | exactlyOnePresent s t => exact decided_bind fun _ => decided_bind fun _ => decided_ofBool _
  | presentTimes s times => exact decided_bind fun _ => decided_bind fun _ => decided_ofBool _
  | presentMoreThan s times => exact decided_bind fun _ => decided_bind fun _ => decided_ofBool _
  | longerThan s length => exact decided_bind fun _ => decided_bind fun _ => decided_ofBool _
  | sumsTo s total =>
    dsimp only [evaluate]
    cases Decimal.readTrimmed? total with
    | none => exact decided_error _
    | some expected => exact decided_bind fun _ => decided_bind fun _ => decided_ofBool _
  | isInteger s => exact decided_bind fun _ => decided_ofBool _
  | isIsoDate s => cases hp
  | isOther s kind => exact decided_error _

end Predicate

/-- The rule gives no result: it is not active, or asks about organisation nodes what is never
decided. An activity without an identifier fails all other rules. -/
def CompiledRule.isSilent (r : CompiledRule) : Bool :=
  !r.definition.active || (r.definition.level == .organisation && r.predicate.isUndecided)

/-- The rules that may give results. -/
def RuleSet.loud (s : RuleSet) : RuleSet :=
  .ofRules (s.rules.filter fun r => !r.isSilent) s.faults
    (s.agree.nodup_rules.sublist (List.filter_sublist.map _))

@[simp] theorem RuleSet.rules_loud (s : RuleSet) :
    s.loud.rules = s.rules.filter fun r => !r.isSilent := rules_ofRules _

theorem RuleSet.forLevel_loud (s : RuleSet) {l : Level} (h : l ≠ .organisation) :
    s.loud.forLevel l = s.forLevel l := by
  rw [RuleIndexes.forLevel_eq, RuleIndexes.forLevel_eq, rules_loud, List.filter_filter]
  refine List.filter_congr fun r _ => ?_
  by_cases hlevel : r.definition.level = l
  · have hother : (l == Level.organisation) = false := by simpa using h
    cases hactive : r.definition.active <;> simp [CompiledRule.isSilent, hlevel, hother, hactive]
  · simp [hlevel]

namespace TestPlan

theorem keptCode?_eq_none_iff {x : Except EvalError Truth} :
    keptCode? x = none ↔ x = .ok .unknown := by
  rcases x with e | _ | _ | _ <;> simp [keptCode?]

/-- A rule gives a result on a unit unless it is never decided, and always where all rules fail. -/
theorem exists_mem_resultsAt {rules : List CompiledRule} {r : CompiledRule} (hr : r ∈ rules)
    {subject : Subject} (h : subject.unnamed = true ∨ r.predicate.isUndecided = false)
    (c : RunContext) (document : Node) (unit : Place) :
    ∃ x ∈ resultsAt c subject document rules unit, x.testId = r.definition.id := by
  obtain ⟨code, hcode⟩ : ∃ code, (if subject.unnamed then some Code.fail
      else keptCode? (r.predicate.evaluate document unit)) = some code := by
    refine Option.ne_none_iff_exists'.1 fun hnone => ?_
    split at hnone
    · cases hnone
    · next hnamed =>
      have hopen := (Predicate.evaluate_eq_unknown_iff document unit r.predicate).1
        (keptCode?_eq_none_iff.1 hnone)
      simp [hnamed, hopen] at h
  refine ⟨⟨c.runtimeId, c.packageId, r.definition.id, code, subject.identifier, subject.hierarchy,
    some subject.organisationId⟩, List.mem_filterMap.2 ⟨r, hr, ?_⟩, rfl⟩
  dsimp only
  rw [hcode]
  rfl

/-- The plan without the rules that give no result. -/
def loud (plan : TestPlan) : TestPlan := { plan with rules := plan.rules.loud }

section Loud

variable (plan : TestPlan) (document : Node) (o : OrganisationId) {σ : Type} [Datastore σ]

/-- Silent rules give organisation nodes no results. -/
theorem resultsAt_loud (c : RunContext) (identifier : Option String) (h : Int64) (node : Place) :
    resultsAt c ⟨o, identifier, h, false⟩ document (plan.loud.rules.forLevel .organisation) node =
      resultsAt c ⟨o, identifier, h, false⟩ document (plan.rules.forLevel .organisation) node := by
  unfold resultsAt loud
  rw [RuleIndexes.forLevel_eq, RuleIndexes.forLevel_eq, RuleSet.rules_loud, List.filterMap_filter,
    List.filterMap_filter, List.filterMap_filter]
  refine List.filterMap_congr fun r _ => ?_
  cases hsilent : r.isSilent with
  | false => simp
  | true =>
    -- a silent rule that is asked here is not decided
    by_cases hasked : (r.definition.active && r.definition.level == .organisation) = true
    · obtain ⟨hactive, hlevel⟩ := Bool.and_eq_true_iff.1 hasked
      have hp : r.predicate.isUndecided = true := by
        simpa [CompiledRule.isSilent, hactive, hlevel] using hsilent
      have hnone : keptCode? (r.predicate.evaluate document node) = none :=
        keptCode?_eq_none_iff.2 ((Predicate.evaluate_eq_unknown_iff document node _).2 hp)
      simp [hasked, hnone]
    · simp [hasked]

theorem testActivity_loud (activity : Place) :
    plan.loud.testActivity (σ := σ) o document activity = plan.testActivity o document activity := by
  have hrules (forced : Bool) : plan.loud.activityVerdicts forced document activity =
      plan.activityVerdicts forced document activity := by
    unfold activityVerdicts
    rw [show plan.loud.rules = plan.rules.loud from rfl, RuleSet.forLevel_loud _ (by simp),
      RuleSet.forLevel_loud _ (by simp)]
  unfold testActivity
  simp only [hrules]

theorem testOrganisation_loud (node : Place) :
    plan.loud.testOrganisation (σ := σ) o document node = plan.testOrganisation o document node := by
  unfold testOrganisation
  simp only [results_verdicts, resultsAt_loud]

theorem testNodes_loud (written : Nat × Nat) (nodes : List Place) :
    plan.loud.testNodes (σ := σ) o document written nodes =
      plan.testNodes o document written nodes := by
  induction nodes generalizing written with
  | nil => rfl
  | cons node rest ih =>
    unfold testNodes testNode
    rw [testOrganisation_loud]
    simp only [ih]
    rfl

theorem testTargets_loud (organisations : Selector) (written : Nat × Nat) (targets : List Target) :
    plan.loud.testTargets (σ := σ) organisations document written targets =
      plan.testTargets organisations document written targets := by
  induction targets generalizing written with
  | nil => rfl
  | cons t rest ih =>
    have hactivity : plan.loud.testActivity (σ := σ) t.organisationId document =
        plan.testActivity t.organisationId document :=
      funext fun activity => testActivity_loud plan document t.organisationId activity
    unfold testTargets testTarget
    simp only [hactivity, testNodes_loud, ih]
    rfl

/-- Without the silent rules, a document is tested in the same way. -/
theorem checkDocument_loud :
    plan.loud.checkDocument (σ := σ) document = plan.checkDocument document := by
  unfold checkDocument
  simp only [testTargets_loud]
  rfl

end Loud

end TestPlan

end DataQuality
