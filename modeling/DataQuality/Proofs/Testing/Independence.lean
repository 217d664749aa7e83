import DataQuality.Proofs.RuleSet
import DataQuality.Proofs.Testing.Results

/-!
# Rules do not interfere

The results of one rule are the same whatever other rules are tested with it. Rules that
compile have different identifiers, and each compiles on its own to what it compiles to
among others. Results are written down rule by rule, unit by unit; what the units are, how
identifiers are made up for them, and where testing ends early does not depend on the rules.
-/
namespace DataQuality

open Markup (Node Place)

namespace RuleSet

/-- The rules have different identifiers, and each is what its definition compiles to. -/
structure Sound (levels : List Level) (s : RuleSet) : Prop where
  ids : (s.rules.map (·.definition.id)).Nodup
  alone : ∀ r ∈ s.rules, (compile levels [r.definition]).rules = [r]

theorem sound_compile (levels : List Level) (definitions : List RuleDefinition) :
    Sound levels (compile levels definitions) where
  ids := (compile levels definitions).agree.nodup_rules
  alone _ hr := rules_compile_singleton (of_mem_compile hr).1 (of_mem_compile hr).2

/-- Both sets have the same active rules of this identifier, at each level. -/
def AgreeOn (i : RuleId) (s₁ s₂ : RuleSet) : Prop :=
  ∀ l, (s₁.forLevel l).filter (·.definition.id == i) = (s₂.forLevel l).filter (·.definition.id == i)

/-- Compiled alone, the definition of a rule gives the same rule. -/
theorem agreeOn_compile_singleton {levels : List Level} {definitions : List RuleDefinition}
    {r : CompiledRule} (hr : r ∈ (compile levels definitions).rules) :
    AgreeOn r.definition.id (compile levels definitions) (compile levels [r.definition]) := by
  intro l
  have hsound := sound_compile levels definitions
  have hself : [r].filter (·.definition.id == r.definition.id) = [r] := by simp
  rw [RuleIndexes.forLevel_eq, RuleIndexes.forLevel_eq, hsound.alone r hr, List.filter_comm,
    filter_id_eq hsound.ids hr, List.filter_comm, hself]

end RuleSet

namespace TestPlan

def resultsOfTest (i : RuleId) (results : List TestResult) : List TestResult :=
  results.filter (·.testId == i)

theorem resultsOfTest_append (i : RuleId) (xs ys : List TestResult) :
    resultsOfTest i (xs ++ ys) = resultsOfTest i xs ++ resultsOfTest i ys := List.filter_append _ _

theorem resultsOfTest_flatMap {α : Type} (i : RuleId) {f g : α → List TestResult}
    (h : ∀ a, resultsOfTest i (f a) = resultsOfTest i (g a)) (items : List α) :
    resultsOfTest i (items.flatMap f) = resultsOfTest i (items.flatMap g) := by
  induction items with
  | nil => rfl
  | cons a rest ih =>
    rw [List.flatMap_cons, List.flatMap_cons, resultsOfTest_append, resultsOfTest_append, h, ih]

/-- The results of a rule on a unit come from the rules of its identifier. -/
theorem resultsOfTest_resultsAt (i : RuleId) (c : RunContext) (subject : Subject) (document : Node)
    (rules : List CompiledRule) (unit : Place) :
    resultsOfTest i (resultsAt c subject document rules unit) =
      resultsAt c subject document (rules.filter (·.definition.id == i)) unit := by
  unfold resultsOfTest resultsAt
  rw [List.filter_filterMap, List.filterMap_filter]
  refine List.filterMap_congr fun r _ => ?_
  generalize (if subject.unnamed then some Code.fail
    else keptCode? (r.predicate.evaluate document unit)) = code?
  by_cases hid : r.definition.id = i
  · cases code? <;> simp [hid]
  · cases code? <;> simp [hid]

section Agreement

variable {plan₁ plan₂ : TestPlan} {i : RuleId} (h : plan₁.rules.AgreeOn i plan₂.rules)
  (document : Node) (o : OrganisationId)
include h

theorem resultsOfTest_resultsAt_eq (c : RunContext) (subject : Subject) (l : Level) (unit : Place) :
    resultsOfTest i (resultsAt c subject document (plan₁.rules.forLevel l) unit) =
      resultsOfTest i (resultsAt c subject document (plan₂.rules.forLevel l) unit) := by
  rw [resultsOfTest_resultsAt, resultsOfTest_resultsAt, h l]

theorem resultsOfTest_activitiesResults (c : RunContext) (activities : List Place) :
    resultsOfTest i (plan₁.activitiesResults document o c activities) =
      resultsOfTest i (plan₂.activitiesResults document o c activities) := by
  induction activities generalizing c with
  | nil => rfl
  | cons a rest ih =>
    have htransactions := resultsOfTest_flatMap i
      (resultsOfTest_resultsAt_eq h document c (activitySubject c o a.node) .transaction)
      (a.children.filter (·.node.isNamed "transaction"))
    unfold activitiesResults activityResults
    rw [resultsOfTest_append, resultsOfTest_append, resultsOfTest_append, resultsOfTest_append,
      htransactions, resultsOfTest_resultsAt_eq h, ih]

theorem resultsOfTest_targetsResults (nodes : List Place) (c : RunContext) (targets : List Target) :
    resultsOfTest i (plan₁.targetsResults document nodes c targets) =
      resultsOfTest i (plan₂.targetsResults document nodes c targets) := by
  induction targets generalizing c with
  | nil => rfl
  | cons t rest ih =>
    have hnodes : resultsOfTest i (nodes.flatMap (plan₁.organisationResults document c _)) =
        resultsOfTest i (nodes.flatMap (plan₂.organisationResults document c _)) :=
      resultsOfTest_flatMap i (fun node => resultsOfTest_resultsAt_eq h document c
        ⟨t.organisationId, none, 0, false⟩ .organisation node) nodes
    unfold targetsResults targetResults
    rw [resultsOfTest_append, resultsOfTest_append, resultsOfTest_append, resultsOfTest_append,
      resultsOfTest_activitiesResults h, hnodes, ih]

end Agreement

/-- The organisations before the first one whose selector cannot be read. -/
def readable (targets : List Target) : List Target :=
  targets.takeWhile fun t => (Selector.parse t.activitiesSelector).isOk

theorem readable_of_ok {t : Target} {s : Selector} (h : Selector.parse t.activitiesSelector = .ok s)
    (rest : List Target) : readable (t :: rest) = t :: readable rest :=
  List.takeWhile_cons_of_pos (by rw [h]; rfl)

theorem readable_of_error {t : Target} {e : Selector.Error}
    (h : Selector.parse t.activitiesSelector = .error e) (rest : List Target) :
    readable (t :: rest) = [] :=
  List.takeWhile_cons_of_neg (by rw [h]; exact Bool.false_ne_true)

theorem readable_eq_self {targets : List Target}
    (h : ∀ t ∈ targets, ∃ s, Selector.parse t.activitiesSelector = .ok s) :
    readable targets = targets := by
  induction targets with
  | nil => rfl
  | cons t rest ih =>
    obtain ⟨s, hs⟩ := h t List.mem_cons_self
    rw [readable_of_ok hs, ih fun u hu => h u (List.mem_cons_of_mem t hu)]

/-- Whether a document can be tested for these organisations: there are some, and all selectors can be
read. -/
def canTest (plan : TestPlan) (targets : List Target) : Bool :=
  !targets.isEmpty && (Selector.parse plan.organisationSelector).isOk &&
    targets.all fun t => (Selector.parse t.activitiesSelector).isOk

theorem canTest_iff {plan : TestPlan} {targets : List Target} :
    plan.canTest targets = true ↔ targets ≠ [] ∧
      (∃ s, Selector.parse plan.organisationSelector = .ok s) ∧
      ∀ t ∈ targets, ∃ s, Selector.parse t.activitiesSelector = .ok s := by
  have hisOk (text : String) : (Selector.parse text).isOk = true ↔ ∃ s, Selector.parse text = .ok s := by
    cases Selector.parse text <;> simp [Except.isOk, Except.toBool]
  unfold canTest
  simp only [Bool.and_eq_true, Bool.not_eq_true', List.isEmpty_eq_false_iff, List.all_eq_true, hisOk,
    and_assoc]

/-- The results of the rules in a document, if these organisations are to be tested. -/
def documentResults (plan : TestPlan) (c : RunContext) (targets : List Target) (document : Node) :
    List TestResult :=
  match Selector.parse plan.organisationSelector with
  | .error _ => []
  | .ok organisations =>
    let nodes := organisations.selectPlaces document (.top document)
    plan.targetsResults document nodes c (readable targets)

/-- What testing a text adds to the results, if these organisations are to be tested. -/
def addedResults (plan : TestPlan) (c : RunContext) (targets : List Target) (text : String) :
    List TestResult :=
  match Markup.parse? text with
  | none => [validity c .fail]
  | some document => validity c .pass :: plan.documentResults c targets document

/-- The writes that testing a document commits before it is concluded, if these organisations are to
be tested. -/
def documentWrites (plan : TestPlan) (c : RunContext) (targets : List Target) (document : Node) :
    List Write :=
  match Selector.parse plan.organisationSelector with
  | .error _ => []
  | .ok organisations =>
    let nodes := organisations.selectPlaces document (.top document)
    (plan.targetsCommits document nodes c (readable targets)).flatten

/-- The writes that testing a text commits before its document is concluded. -/
def textWrites (plan : TestPlan) (c : RunContext) (targets : List Target) (text : String) :
    List Write :=
  match Markup.parse? text with
  | none => [.saveResult (validity c .fail)]
  | some document => .saveResult (validity c .pass) :: plan.documentWrites c targets document

theorem appends_documentWrites (plan : TestPlan) (c : RunContext) (targets : List Target)
    (document : Node) :
    Appends (plan.documentWrites c targets document) (plan.documentResults c targets document) := by
  unfold documentWrites documentResults
  cases Selector.parse plan.organisationSelector with
  | error e => exact .nil
  | ok organisations => exact .targets plan document c _ _

/-- These writes append the results of the text. -/
theorem appends_textWrites (plan : TestPlan) (c : RunContext) (targets : List Target) (text : String) :
    Appends (plan.textWrites c targets text) (plan.addedResults c targets text) := by
  unfold textWrites addedResults
  cases Markup.parse? text with
  | none => exact .saved _
  | some document =>
    exact (Appends.saved (validity c .pass)).append (appends_documentWrites plan c targets document)

section Agreement

variable {plan₁ plan₂ : TestPlan} {i : RuleId} (h : plan₁.rules.AgreeOn i plan₂.rules)
  (hselector : plan₁.organisationSelector = plan₂.organisationSelector) (c : RunContext)
  (targets : List Target)
include h hselector

theorem resultsOfTest_documentResults (document : Node) :
    resultsOfTest i (plan₁.documentResults c targets document) =
      resultsOfTest i (plan₂.documentResults c targets document) := by
  unfold documentResults
  rw [hselector]
  cases Selector.parse plan₂.organisationSelector with
  | error e => rfl
  | ok organisations => exact resultsOfTest_targetsResults h document _ c _

/-- Plans with the same rules of an identifier add the same results of it. -/
theorem resultsOfTest_addedResults (text : String) :
    resultsOfTest i (plan₁.addedResults c targets text) =
      resultsOfTest i (plan₂.addedResults c targets text) := by
  unfold addedResults
  cases Markup.parse? text with
  | none => rfl
  | some document =>
    have hcons (results : List TestResult) : resultsOfTest i (validity c .pass :: results) =
        resultsOfTest i [validity c .pass] ++ resultsOfTest i results :=
      resultsOfTest_append i [validity c .pass] results
    have hdocument := resultsOfTest_documentResults h hselector c targets document
    exact (hcons _).trans ((congrArg _ hdocument).trans (hcons _).symm)

end Agreement

end TestPlan

/-- Begun with this context and ledger, a part of testing ends so, leaves that context and
ledger, and makes these commits. -/
def Ends {σ α : Type} [Datastore σ] (After : List (List Write) → σ → Prop) (m : Testing σ α)
    (start : TestState Ledger) (r : Except TestingError α) (finish : TestState Ledger)
    (commits : List (List Write)) : Prop :=
  ∀ done s, After done s → Datastore.ledger s = start.store →
    ∃ s', m.run ⟨start.context, s⟩ = (r, ⟨finish.context, s'⟩) ∧ After (done ++ commits) s' ∧
      Datastore.ledger s' = finish.store

namespace Ends

variable {σ α β : Type} [Datastore σ] {After : List (List Write) → σ → Prop}
  {start middle finish : TestState Ledger}

theorem throw (e : TestingError) :
    Ends (α := α) After (MonadExcept.throw e) start (.error e) start [] := by
  intro done s hs hl
  rw [List.append_nil]
  exact ⟨s, rfl, hs, hl⟩

/-- After a part that succeeds, the rest decides how testing ends. -/
theorem bind {m : Testing σ α} {k : α → Testing σ β} {a : α} {r : Except TestingError β}
    {first second : List (List Write)} (h : Makes After m start a middle first)
    (hk : Ends After (k a) middle r finish second) :
    Ends After (m >>= k) start r finish (first ++ second) := by
  intro done s hs hl
  obtain ⟨s₁, hrun₁, hs₁, hl₁⟩ := h done s hs hl
  obtain ⟨s₂, hrun₂, hs₂, hl₂⟩ := hk (done ++ first) s₁ hs₁ hl₁
  refine ⟨s₂, ?_, ?_, hl₂⟩
  · rw [run_bind, hrun₁]
    exact hrun₂
  · rwa [← List.append_assoc]

/-- A part that fails ends testing. -/
theorem stop {m : Testing σ α} {k : α → Testing σ β} {e : TestingError}
    {commits : List (List Write)} (h : Ends After m start (.error e) finish commits) :
    Ends After (m >>= k) start (.error e) finish commits := by
  intro done s hs hl
  obtain ⟨s', hrun, hs', hl'⟩ := h done s hs hl
  exact ⟨s', by rw [run_bind, hrun], hs', hl'⟩

section Parts

variable (hstore : Reliable σ After) (plan : TestPlan) {c : RunContext}
include hstore

open TestPlan

/-- Where the selector of an organisation cannot be read, those before it have been tested. -/
theorem testTargets (document : Node) (organisations : Selector) (written : Nat × Nat)
    {targets : List Target} (t : Tables)
    (h : ¬ ∀ g ∈ targets, ∃ s, Selector.parse g.activitiesSelector = .ok s) :
    let nodes := organisations.selectPlaces document (.top document)
    let commits := plan.targetsCommits document nodes c (readable targets)
    ∃ e c', Ends After (plan.testTargets organisations document written targets) ⟨c, .ofTables t⟩
      (.error e) ⟨c', .ofTables (t.applyAll commits.flatten)⟩ commits := by
  intro nodes commits
  induction targets generalizing c written t with
  | nil => exact absurd (fun g hg => by cases hg) h
  | cons g rest ih =>
    cases hg : Selector.parse g.activitiesSelector with
    | error e =>
      have hnone : commits = [] := by
        unfold commits
        rw [readable_of_error hg]
        rfl
      have htarget : plan.testTarget (σ := σ) organisations document g =
          MonadExcept.throw (.invalidActivitiesSelector g.organisationId e) := by
        unfold TestPlan.testTarget
        rw [hg]
      refine ⟨.invalidActivitiesSelector g.organisationId e, c, ?_⟩
      rw [hnone, TestPlan.testTargets, htarget]
      exact (throw _).stop
    | ok activities =>
      have hrest : ¬ ∀ u ∈ rest, ∃ s, Selector.parse u.activitiesSelector = .ok s := by
        intro hall
        refine h fun u hu => ?_
        rcases List.mem_cons.1 hu with rfl | hu
        · exact ⟨activities, hg⟩
        · exact hall u hu
      have hfirst := Completes.testTarget hstore plan document (c := c) organisations g hg t
      obtain ⟨e, c', hends⟩ := ih (c := c.madeUp (unnamedIn (activitiesOf document g)))
        (written.1 + (plan.targetResults document nodes c g).length,
          written.2 + plan.infoCount document nodes g)
        (t.applyAll (plan.targetCommits document nodes c g).flatten) hrest
      refine ⟨e, c', ?_⟩
      unfold commits
      rw [readable_of_ok hg, targetsCommits, TestPlan.testTargets, List.flatten_append,
        Tables.applyAll_append]
      exact bind hfirst hends

/-- However testing a document ends, what belongs to the organisations whose selectors can be
read is committed and nothing is left staged. The package is concluded if and only if testing
succeeds, which is when the document can be tested. -/
theorem checkDocument (document : Node) (t : Tables) {targets : List Target}
    (htargets : t.organisationsOf c.packageId = targets) :
    let writes := plan.documentWrites c targets document
    ∃ r c' commits, Ends After (plan.checkDocument document) ⟨c, .ofTables t⟩ r
        ⟨c', .ofTables (t.applyAll commits.flatten)⟩ commits ∧
      r.isOk = plan.canTest targets ∧
      (r.isOk = true → c'.runtimeId = c.runtimeId ∧ c'.packageId = c.packageId) ∧
      commits.flatten =
        writes ++ if plan.canTest targets then closingCommit c (t.applyAll writes) else [] := by
  intro writes
  have hcall : Makes After (Testing.onStore (Datastore.organisationsOf c.packageId))
      ⟨c, .ofTables t⟩ (Except.ok targets) ⟨c, .ofTables t⟩ [] := by
    rw [← htargets]
    exact Makes.organisationsOf hstore c.packageId
  rcases targets with _ | ⟨g, rest⟩
  · have hnone : writes = [] := by
      unfold writes documentWrites
      cases Selector.parse plan.organisationSelector <;> rfl
    refine ⟨_, c, _, bind .context (bind hcall (throw _)), rfl, fun h => (by cases h), ?_⟩
    rw [hnone]
    rfl
  cases horganisations : Selector.parse plan.organisationSelector with
  | error e =>
    have hnone : writes = [] := by
      unfold writes documentWrites
      rw [horganisations]
    have hcannot : plan.canTest (g :: rest) = false := by
      refine Bool.eq_false_iff.2 fun hcan => ?_
      obtain ⟨s, hs⟩ := (canTest_iff.1 hcan).2.1
      cases horganisations.symm.trans hs
    have hends : Ends After (plan.checkDocument document) ⟨c, .ofTables t⟩
        (.error (.invalidOrganisationSelector e)) ⟨c, .ofTables t⟩ [] := by
      refine bind .context (bind hcall ?_)
      dsimp only
      rw [horganisations]
      exact throw _
    refine ⟨_, c, [], hends, hcannot.symm, fun h => (by cases h), ?_⟩
    rw [hnone, hcannot]
    rfl
  | ok organisations =>
    let nodes := organisations.selectPlaces document (.top document)
    let commits := plan.targetsCommits document nodes c (readable (g :: rest))
    have hwrites : writes = commits.flatten := by
      unfold writes documentWrites
      rw [horganisations]
    by_cases hselectors : ∀ u ∈ g :: rest, ∃ s, Selector.parse u.activitiesSelector = .ok s
    · have hcan : plan.canTest (g :: rest) = true :=
        canTest_iff.2 ⟨List.cons_ne_nil g rest, ⟨organisations, horganisations⟩, hselectors⟩
      have hmakes := Makes.checkDocument hstore (c := c) plan document t horganisations htargets
        (List.cons_ne_nil g rest) hselectors
      have hsame : plan.targetsCommits document nodes c (g :: rest) = commits := by
        unfold commits
        rw [readable_eq_self hselectors]
      dsimp only at hmakes
      rw [hsame, ← hwrites, ← Tables.applyAll_append] at hmakes
      have hflatten : (commits ++ [closingCommit c (t.applyAll writes)]).flatten =
          writes ++ closingCommit c (t.applyAll writes) := by
        rw [List.flatten_append, ← hwrites, List.flatten_singleton]
      rw [← hflatten] at hmakes
      refine ⟨_, _, _, hmakes, hcan.symm, fun _ => ⟨rfl, rfl⟩, ?_⟩
      rw [hcan]
      exact hflatten
    · have hcannot : plan.canTest (g :: rest) = false :=
        Bool.eq_false_iff.2 fun hcan => hselectors (canTest_iff.1 hcan).2.2
      obtain ⟨e, c', hends⟩ := testTargets hstore plan (c := c) document organisations (0, 0) t hselectors
      have hlast : Ends After (plan.checkDocument document) ⟨c, .ofTables t⟩ (.error e)
          ⟨c', .ofTables (t.applyAll commits.flatten)⟩ commits := by
        refine bind .context (bind hcall ?_)
        dsimp only
        rw [horganisations]
        exact hends.stop
      refine ⟨.error e, c', commits, hlast, hcannot.symm, fun h => (by cases h), ?_⟩
      rw [hcannot, hwrites]
      exact (List.append_nil _).symm

/-- However testing a text ends, what is staged is carried out first, then what belongs to the
text is committed, and nothing is left staged. -/
theorem checkText_writes (text : String) (l : Ledger) :
    let tested := l.settle.tables.applyAll
      (plan.textWrites c (l.tables.organisationsOf c.packageId) text)
    ∃ r c' t' commits, Ends After (plan.checkText text) ⟨c, l⟩ r ⟨c', .ofTables t'⟩ commits ∧
      (t' = tested ∨ t' = tested.applyAll (closingCommit c tested)) := by
  intro tested
  have hvalidity (code : Code) := Makes.recordValidity hstore (c := c) code l
  dsimp only at hvalidity
  simp only [Tables.applyAll_append] at hvalidity
  unfold TestPlan.checkText
  cases hdocument : Markup.parse? text with
  | none =>
    have htested : tested = l.settle.tables.applyAll [.saveResult (validity c .fail)] := by
      unfold tested textWrites
      rw [hdocument]
    exact ⟨_, _, _, _, bind (hvalidity .fail) (Makes.pure _), .inl htested.symm⟩
  | some document =>
    obtain ⟨r, c', commits, hends, -, -, hcommits⟩ := checkDocument hstore plan (c := c) document
      (l.settle.tables.applyAll [.saveResult (validity c .pass)]) rfl
    have hsame : (l.settle.tables.applyAll [.saveResult (validity c .pass)]).organisationsOf
        c.packageId = l.tables.organisationsOf c.packageId := by
      unfold Tables.organisationsOf
      rw [Tables.organisations_applyAll, Ledger.settle, Tables.organisations_applyAll]
    have htested : tested = (l.settle.tables.applyAll [.saveResult (validity c .pass)]).applyAll
        (plan.documentWrites c (l.tables.organisationsOf c.packageId) document) := by
      unfold tested textWrites
      rw [hdocument]
      rfl
    rw [hsame] at hcommits
    refine ⟨r, c', _, _, bind (hvalidity .pass) hends, ?_⟩
    rw [hcommits, Tables.applyAll_append, ← htested]
    split
    · exact .inr rfl
    · exact .inl rfl

/-- However testing a text ends, the results of the text are added to those that there are when
what is staged has been carried out, and nothing is left staged. -/
theorem checkText (text : String) (l : Ledger) :
    ∃ r c' t' commits, Ends After (plan.checkText text) ⟨c, l⟩ r ⟨c', .ofTables t'⟩ commits ∧
      t'.results = l.settle.tables.results ++
        plan.addedResults c (l.tables.organisationsOf c.packageId) text := by
  obtain ⟨r, c', t', commits, hends, ht'⟩ := checkText_writes hstore plan (c := c) text l
  refine ⟨r, c', t', commits, hends, ?_⟩
  rw [← appends_textWrites plan c _ text l.settle.tables]
  rcases ht' with rfl | rfl
  · rfl
  · rw [Appends.closing, List.append_nil]

end Parts

end Ends

namespace TestPlan

/-- If no call of the store fails, testing a text with some rules adds to the results of the
package the same results of each rule, in the same order, as testing it with nothing but
the definition of that rule: whatever the document and the organisations, whatever the
store holds and has staged, and however testing ends. -/
theorem resultsOfTest_checkText {σ : Type} [Datastore σ] {After : List (List Write) → σ → Prop}
    (hstore : Reliable σ After) (plan : TestPlan) (c : RunContext) {done : List (List Write)} {s : σ}
    (hs : After done s) (text : String) (levels : List Level) (definitions : List RuleDefinition)
    {r : CompiledRule} (hr : r ∈ (RuleSet.compile levels definitions).rules) :
    let among := { plan with rules := RuleSet.compile levels definitions }
    let alone := { plan with rules := RuleSet.compile levels [r.definition] }
    let afterAmong := Datastore.ledger ((among.checkText text).run ⟨c, s⟩).2.store
    let afterAlone := Datastore.ledger ((alone.checkText text).run ⟨c, s⟩).2.store
    let before := (Datastore.ledger s).settle.tables.results
    ∃ addedAmong addedAlone,
      afterAmong.staged = [] ∧ afterAmong.tables.results = before ++ addedAmong ∧
      afterAlone.staged = [] ∧ afterAlone.tables.results = before ++ addedAlone ∧
      addedAmong.filter (·.testId == r.definition.id) =
        addedAlone.filter (·.testId == r.definition.id) := by
  intro among alone afterAmong afterAlone before
  have hends (plan : TestPlan) :
      (Datastore.ledger ((plan.checkText text).run ⟨c, s⟩).2.store).staged = [] ∧
      (Datastore.ledger ((plan.checkText text).run ⟨c, s⟩).2.store).tables.results =
        before ++ plan.addedResults c ((Datastore.ledger s).tables.organisationsOf c.packageId) text := by
    obtain ⟨e, c', t', commits, hends, hresults⟩ := Ends.checkText hstore plan (c := c) text
      (Datastore.ledger s)
    obtain ⟨s', hrun, -, hledger⟩ := hends done s hs rfl
    rw [hrun, hledger]
    exact ⟨rfl, hresults⟩
  obtain ⟨hstagedAmong, hamong⟩ := hends among
  obtain ⟨hstagedAlone, halone⟩ := hends alone
  have hagree : among.rules.AgreeOn r.definition.id alone.rules :=
    RuleSet.agreeOn_compile_singleton hr
  refine ⟨_, _, hstagedAmong, hamong, hstagedAlone, halone, ?_⟩
  exact resultsOfTest_addedResults hagree rfl c _ text

/-- The rules `( exists?`, whose selector cannot be read, and `b exists?`. -/
def brokenAndPresent : List RuleDefinition :=
  [⟨⟨1⟩, "( exists?", .activity, true⟩, ⟨⟨2⟩, "b exists?", .activity, true⟩]

/-- The second rule has the same results as without the first one, in a store in memory. -/
theorem resultsOfTest_checkText_beside_broken :
    ∃ r ∈ (RuleSet.compile [.activity] brokenAndPresent).rules, r.definition.id = ⟨2⟩ ∧
      let c := RunContext.start ⟨1⟩ ⟨7⟩ ⟨0, 0⟩
      let s := MemoryStore.empty.withOrganisations ⟨7⟩ [⟨⟨5⟩, "//a"⟩]
      let among := { unreadablePlan with rules := RuleSet.compile [.activity] brokenAndPresent }
      let alone := { unreadablePlan with rules := RuleSet.compile [.activity] [r.definition] }
      let afterAmong := Datastore.ledger ((among.checkText "<r><a/></r>").run ⟨c, s⟩).2.store
      let afterAlone := Datastore.ledger ((alone.checkText "<r><a/></r>").run ⟨c, s⟩).2.store
      ∃ addedAmong addedAlone,
        afterAmong.tables.results = addedAmong ∧ afterAlone.tables.results = addedAlone ∧
        addedAmong.filter (·.testId == ⟨2⟩) = addedAlone.filter (·.testId == ⟨2⟩) := by
  obtain ⟨r, hr, hid⟩ : ∃ r ∈ (RuleSet.compile [.activity] brokenAndPresent).rules,
      r.definition.id = ⟨2⟩ := ⟨_, List.mem_cons_of_mem _ List.mem_cons_self, rfl⟩
  refine ⟨r, hr, hid, ?_⟩
  intro c s among alone afterAmong afterAlone
  have hs : s.commits = 0 + ([] : List (List Write)).length := rfl
  obtain ⟨addedAmong, addedAlone, -, hamong, -, halone, hsame⟩ :=
    resultsOfTest_checkText (reliable_memoryStore 0) unreadablePlan c hs "<r><a/></r>" [.activity]
      brokenAndPresent hr
  rw [hid] at hsame
  exact ⟨addedAmong, addedAlone, hamong, halone, hsame⟩

end TestPlan

end DataQuality
