import DataQuality.Proofs.Store.LastWrites
import DataQuality.Proofs.Testing.Independence

/-!
# Rules and metrics kept apart

The results of a document depend on the rules and not on the metrics, its info values on the
metrics and not on the rules, and those of one identifier only on the binding of that identifier.
Of several values under one identifier for one organisation, the last one is kept. It is the value
of the metric at the last place where it is computed, or zero if it fails there.
-/
namespace DataQuality

open Markup (Node Place)

namespace TestPlan

variable (plan : TestPlan) (document : Node) (nodes : List Place) (c : RunContext)

/-- The places where the metrics of a level are computed for an organisation. Those of activities
are computed once, for all activities together. -/
def metricPlaces (t : Target) : Level → List Place
  | .activity => if (activitiesOf document t).isEmpty then [] else [.top document]
  | .organisation => nodes
  | .transaction => []

def infoAt (o : OrganisationId) (place : Place) (b : MetricBinding) : InfoResult :=
  ⟨c.runtimeId, c.packageId, o, b.infoId, plan.metricValue c.now document place b.metric⟩

/-- The values of the metrics of a level for an organisation, place by place. -/
def levelInfos (t : Target) (level : Level) : List InfoResult :=
  (metricPlaces document nodes t level).flatMap fun place =>
    (plan.metrics.forLevel level).map (plan.infoAt document c t.organisationId place)

/-- The values of all metrics for an organisation. -/
def targetInfos (t : Target) : List InfoResult :=
  plan.levelInfos document nodes c t .activity ++ plan.levelInfos document nodes c t .organisation

theorem infosOf_metricsCommits (o : OrganisationId) (level : Level) (place : Place) :
    Write.infosOf (plan.metricsCommits document c o level place).flatten =
      (plan.metrics.forLevel level).map (plan.infoAt document c o place) := by
  unfold metricsCommits
  induction plan.metrics.forLevel level with
  | nil => rfl
  | cons b rest ih => exact congrArg (plan.infoAt document c o place b :: ·) ih

theorem infosOf_batchCommits (batch : List TestResult) :
    Write.infosOf (batchCommits batch).flatten = [] := by
  rw [flatten_batchCommits, Write.infosOf_saveResults]

theorem infosOf_activitiesCommits (o : OrganisationId) (activities : List Place) :
    Write.infosOf (plan.activitiesCommits document o c activities).flatten = [] := by
  induction activities generalizing c with
  | nil => rfl
  | cons a rest ih =>
    rw [activitiesCommits, List.flatten_append, Write.infosOf_append, infosOf_batchCommits, ih]
    rfl

theorem infosOf_nodesCommits (o : OrganisationId) :
    Write.infosOf (nodes.flatMap (plan.nodeCommits document c o)).flatten =
      nodes.flatMap fun node =>
        (plan.metrics.forLevel .organisation).map (plan.infoAt document c o node) := by
  induction nodes with
  | nil => rfl
  | cons node rest ih =>
    rw [List.flatMap_cons, List.flatMap_cons, List.flatten_append, Write.infosOf_append, ih,
      nodeCommits, List.flatten_append, Write.infosOf_append, infosOf_batchCommits,
      infosOf_metricsCommits, List.append_nil]

theorem infosOf_targetCommits (t : Target) :
    Write.infosOf (plan.targetCommits document nodes c t).flatten =
      plan.targetInfos document nodes c t := by
  unfold targetCommits targetInfos levelInfos metricPlaces
  rw [List.flatten_append, List.flatten_append, Write.infosOf_append, Write.infosOf_append,
    infosOf_activitiesCommits, infosOf_nodesCommits, List.nil_append]
  by_cases hempty : (activitiesOf document t).isEmpty = true
  · rw [if_pos hempty, if_pos hempty]
    rfl
  · rw [if_neg hempty, if_neg hempty, infosOf_metricsCommits, List.flatMap_singleton]

/-- The info values do not depend on the identifiers that have been made up. -/
theorem infosOf_targetsCommits (targets : List Target) :
    Write.infosOf (plan.targetsCommits document nodes c targets).flatten =
      targets.flatMap (plan.targetInfos document nodes c) := by
  induction targets generalizing c with
  | nil => rfl
  | cons t rest ih =>
    rw [targetsCommits, List.flatten_append, Write.infosOf_append, infosOf_targetCommits, ih]
    rfl

/-- The info values of a text, if these organisations are to be tested. -/
def textInfos (targets : List Target) (text : String) : List InfoResult :=
  match Markup.parse? text, Selector.parse plan.organisationSelector with
  | some document, .ok organisations =>
    let nodes := organisations.selectPlaces document (.top document)
    (readable targets).flatMap (plan.targetInfos document nodes c)
  | _, _ => []

theorem infosOf_textWrites (targets : List Target) (text : String) :
    Write.infosOf (plan.textWrites c targets text) = plan.textInfos c targets text := by
  unfold textWrites textInfos documentWrites
  cases Markup.parse? text with
  | none => rfl
  | some document =>
    cases Selector.parse plan.organisationSelector with
    | error e => rfl
    | ok organisations => exact infosOf_targetsCommits plan document _ c _

section Registry

variable {plan₁ plan₂ : TestPlan} {i : InfoId}
  (hmetrics : plan₁.metrics.bindings.filter (·.infoId == i) =
    plan₂.metrics.bindings.filter (·.infoId == i))
  (hcodelist : plan₁.codelist = plan₂.codelist)
include hmetrics hcodelist

/-- The values under an identifier come from its binding. -/
theorem filter_levelInfos (t : Target) (level : Level) :
    (plan₁.levelInfos document nodes c t level).filter (·.infoId == i) =
      (plan₂.levelInfos document nodes c t level).filter (·.infoId == i) := by
  have hfilter (plan : TestPlan) (place : Place) :
      ((plan.metrics.forLevel level).map (plan.infoAt document c t.organisationId place)).filter
          (·.infoId == i) =
        ((plan.metrics.bindings.filter (·.infoId == i)).filter (·.level == level)).map
          (plan.infoAt document c t.organisationId place) := by
    rw [List.filter_map, plan.metrics.agree.forLevel_eq, List.filter_comm]
    rfl
  have hinfo : plan₁.infoAt document c t.organisationId = plan₂.infoAt document c t.organisationId := by
    funext place b
    unfold infoAt metricValue
    rw [hcodelist]
  unfold levelInfos
  rw [List.filter_flatMap, List.filter_flatMap]
  refine List.flatMap_congr fun place _ => ?_
  rw [hfilter, hfilter, hmetrics, hinfo]

theorem filter_textInfos (hselector : plan₁.organisationSelector = plan₂.organisationSelector)
    (targets : List Target) (text : String) :
    (plan₁.textInfos c targets text).filter (·.infoId == i) =
      (plan₂.textInfos c targets text).filter (·.infoId == i) := by
  unfold textInfos
  rw [hselector]
  cases Markup.parse? text with
  | none => rfl
  | some document =>
    cases Selector.parse plan₂.organisationSelector with
    | error e => rfl
    | ok organisations =>
      dsimp only
      rw [List.filter_flatMap, List.filter_flatMap]
      refine List.flatMap_congr fun t _ => ?_
      unfold targetInfos
      rw [List.filter_append, List.filter_append, filter_levelInfos document _ c hmetrics hcodelist,
        filter_levelInfos document _ c hmetrics hcodelist]

end Registry

section Binding

variable {plan} {b : MetricBinding}
  (hb : plan.metrics.bindings.filter (·.infoId == b.infoId) = [b]) (t : Target) (o : OrganisationId)
include hb

/-- Under the identifier of a binding its values are kept, at the places of its level. -/
theorem filter_levelInfos_binding (level : Level) :
    (plan.levelInfos document nodes c t level).filter
        (fun x => x.infoId == b.infoId && x.organisationId == o) =
      if t.organisationId = o ∧ b.level = level then
        (metricPlaces document nodes t level).map fun place => plan.infoAt document c o place b
      else [] := by
  have hone : (plan.metrics.forLevel level).filter (·.infoId == b.infoId) =
      if b.level = level then [b] else [] := by
    rw [plan.metrics.agree.forLevel_eq, List.filter_comm, hb]
    simp [List.filter_singleton]
  have hplace (place : Place) :
      ((plan.metrics.forLevel level).map (plan.infoAt document c t.organisationId place)).filter
          (fun x => x.infoId == b.infoId && x.organisationId == o) =
        if t.organisationId = o ∧ b.level = level then [plan.infoAt document c o place b] else [] := by
    have hkey : (fun b' => (plan.infoAt document c t.organisationId place b').infoId == b.infoId &&
        (plan.infoAt document c t.organisationId place b').organisationId == o) =
        fun b' => b'.infoId == b.infoId && t.organisationId == o := rfl
    rw [List.filter_map]
    unfold Function.comp
    rw [hkey, ← List.filter_filter, List.filter_comm, hone]
    by_cases ho : t.organisationId = o
    · by_cases hlevel : b.level = level <;> simp [ho, hlevel]
    · simp [ho]
  unfold levelInfos
  rw [List.filter_flatMap]
  simp only [hplace]
  split
  · induction metricPlaces document nodes t level with
    | nil => rfl
    | cons place rest ih => exact congrArg (plan.infoAt document c o place b :: ·) ih
  · exact List.flatMap_eq_nil_iff.2 fun _ _ => rfl

theorem filter_targetInfos_binding :
    (plan.targetInfos document nodes c t).filter
        (fun x => x.infoId == b.infoId && x.organisationId == o) =
      if t.organisationId = o then
        (metricPlaces document nodes t b.level).map fun place => plan.infoAt document c o place b
      else [] := by
  unfold targetInfos
  rw [List.filter_append, filter_levelInfos_binding document nodes c hb,
    filter_levelInfos_binding document nodes c hb]
  by_cases ho : t.organisationId = o
  · cases hlevel : b.level <;> simp [ho, metricPlaces]
  · simp [ho]

end Binding

/-- Wherever the metrics of a level are computed for several organisations, the last place is the
same one. -/
theorem getLast?_metricPlaces {t u : Target} {level : Level} {place : Place}
    (h : (metricPlaces document nodes t level).getLast? = some place) :
    metricPlaces document nodes u level = [] ∨
      (metricPlaces document nodes u level).getLast? = some place := by
  cases level with
  | activity =>
    simp only [metricPlaces] at h ⊢
    split at h
    · cases h
    · split
      · exact .inl rfl
      · exact .inr h
  | organisation => exact .inr h
  | transaction => exact .inl rfl

end TestPlan

/-- Lists that end in the same item, if they are not empty, end in it together. -/
theorem getLast?_flatMap {α β : Type} {f : α → List β} {x : β} {items : List α}
    (hall : ∀ a ∈ items, f a = [] ∨ (f a).getLast? = some x) (hne : items.flatMap f ≠ []) :
    (items.flatMap f).getLast? = some x := by
  induction items with
  | nil => exact absurd rfl hne
  | cons a rest ih =>
    rw [List.flatMap_cons] at hne ⊢
    by_cases hrest : rest.flatMap f = []
    · rw [hrest, List.append_nil] at hne ⊢
      exact (hall a List.mem_cons_self).resolve_left hne
    · rw [List.getLast?_append, ih (fun b hb => hall b (List.mem_cons_of_mem a hb)) hrest]
      rfl

namespace TestPlan

section Binding

variable {plan : TestPlan} {document : Node} {organisations : Selector} {b : MetricBinding}

/-- The last value under the identifier of a binding for an organisation is the one at the last
place of its level. -/
theorem getLast?_textInfos (c : RunContext) {targets : List Target} {text : String}
    (hb : plan.metrics.bindings.filter (·.infoId == b.infoId) = [b])
    (hdocument : Markup.parse? text = some document)
    (horganisations : Selector.parse plan.organisationSelector = .ok organisations) {t : Target}
    (ht : t ∈ readable targets) {place : Place}
    (hplace : (metricPlaces document (organisations.selectPlaces document (.top document)) t
      b.level).getLast? = some place) :
    ((plan.textInfos c targets text).filter
        fun x => x.infoId == b.infoId && x.organisationId == t.organisationId).getLast? =
      some (plan.infoAt document c t.organisationId place b) := by
  unfold textInfos
  rw [hdocument, horganisations]
  dsimp only
  generalize organisations.selectPlaces document (.top document) = nodes at *
  rw [List.filter_flatMap]
  refine getLast?_flatMap (fun u _ => ?_) ?_
  · rw [filter_targetInfos_binding document nodes c hb]
    by_cases ho : u.organisationId = t.organisationId
    · rw [if_pos ho]
      rcases getLast?_metricPlaces document nodes (u := u) hplace with hu | hu
      · rw [hu]
        exact .inl rfl
      · rw [List.getLast?_map, hu]
        exact .inr rfl
    · rw [if_neg ho]
      exact .inl rfl
  · intro hnone
    have hself := List.flatMap_eq_nil_iff.1 hnone t ht
    rw [filter_targetInfos_binding document nodes c hb, if_pos rfl, List.map_eq_nil_iff] at hself
    rw [hself] at hplace
    cases hplace

end Binding

section Rules

variable {plan₁ plan₂ : TestPlan} (h : plan₁.rules = plan₂.rules) (document : Node)
include h

theorem activitiesResults_congr (o : OrganisationId) (c : RunContext) (activities : List Place) :
    plan₁.activitiesResults document o c activities =
      plan₂.activitiesResults document o c activities := by
  induction activities generalizing c with
  | nil => rfl
  | cons a rest ih => rw [activitiesResults, activitiesResults, activityResults, activityResults, h, ih]

/-- Results depend on nothing of a plan but its rules, once the organisation nodes are found. -/
theorem targetsResults_congr (nodes : List Place) (c : RunContext) (targets : List Target) :
    plan₁.targetsResults document nodes c targets =
      plan₂.targetsResults document nodes c targets := by
  have hnode (c : RunContext) (o : OrganisationId) :
      plan₁.organisationResults document c o = plan₂.organisationResults document c o := by
    funext node
    rw [organisationResults, organisationResults, h]
  induction targets generalizing c with
  | nil => rfl
  | cons t rest ih =>
    rw [targetsResults, targetsResults, targetResults, targetResults,
      activitiesResults_congr h document, hnode, ih]

theorem addedResults_congr (hselector : plan₁.organisationSelector = plan₂.organisationSelector)
    (c : RunContext) (targets : List Target) (text : String) :
    plan₁.addedResults c targets text = plan₂.addedResults c targets text := by
  unfold addedResults documentResults
  rw [hselector]
  cases Markup.parse? text with
  | none => rfl
  | some document =>
    cases Selector.parse plan₂.organisationSelector with
    | error e => rfl
    | ok organisations => exact congrArg (validity c .pass :: ·) (targetsResults_congr h document _ c _)

end Rules

section Separation

variable {σ : Type} [Datastore σ] {After : List (List Write) → σ → Prop}

/-- Testing a text adds its results and puts its info values, and these are all. -/
theorem tables_checkText (hstore : Reliable σ After) (plan : TestPlan) (c : RunContext)
    {done : List (List Write)} {s : σ} (hs : After done s) (text : String) :
    let before := (Datastore.ledger s).settle.tables
    let targets := (Datastore.ledger s).tables.organisationsOf c.packageId
    let after := Datastore.ledger ((plan.checkText text).run ⟨c, s⟩).2.store
    after.staged = [] ∧
      after.tables.results = before.results ++ plan.addedResults c targets text ∧
      after.tables.infoResults = (plan.textInfos c targets text).foldl InfoResult.putIn
        before.infoResults := by
  intro before targets after
  obtain ⟨r, c', t', commits, hends, ht'⟩ := Ends.checkText_writes hstore plan (c := c) text
    (Datastore.ledger s)
  obtain ⟨s', hrun, -, hledger⟩ := hends done s hs rfl
  have hafter : after = .ofTables t' := by
    unfold after
    rw [hrun]
    exact hledger
  have htested : t'.results = (before.applyAll (plan.textWrites c targets text)).results ∧
      t'.infoResults = (before.applyAll (plan.textWrites c targets text)).infoResults := by
    rcases ht' with rfl | rfl <;> exact ⟨rfl, rfl⟩
  rw [hafter, ← infosOf_textWrites, ← Tables.infoResults_applyAll, ← appends_textWrites plan]
  exact ⟨rfl, htested⟩

/-- Rules and metrics are tested apart from each other, if no call of the store fails: whatever the
text and the organisations, whatever the store holds and has staged. The results do not depend on
the registry of metrics. The info values do not depend on the rules, and those under one identifier
not on the bindings of others. Under the identifier of a binding, one value is kept for each
organisation for which its metric is computed: the one at the last place where it is, and zero if
the metric fails there. -/
theorem checkText_separates (hstore : Reliable σ After) (plan : TestPlan) (c : RunContext)
    {done : List (List Write)} {s : σ} (hs : After done s) (text : String) :
    let targets := (Datastore.ledger s).tables.organisationsOf c.packageId
    let after (rules : RuleSet) (metrics : MetricRegistry) :=
      let plan := { plan with rules := rules, metrics := metrics }
      Datastore.ledger ((plan.checkText text).run ⟨c, s⟩).2.store
    (∀ rules metrics, (after rules metrics).staged = []) ∧
    (∀ rules metrics metrics',
      (after rules metrics).tables.results = (after rules metrics').tables.results) ∧
    (∀ rules rules' metrics,
      (after rules metrics).tables.infoResults = (after rules' metrics).tables.infoResults) ∧
    (∀ i rules rules' metrics metrics',
      metrics.bindings.filter (·.infoId == i) = metrics'.bindings.filter (·.infoId == i) →
      (after rules metrics).tables.infoResults.filter (·.infoId == i) =
        (after rules' metrics').tables.infoResults.filter (·.infoId == i)) ∧
    (∀ rules metrics document organisations b place, ∀ t ∈ readable targets,
      Markup.parse? text = some document →
      Selector.parse plan.organisationSelector = .ok organisations →
      metrics.bindings.filter (·.infoId == b.infoId) = [b] →
      (metricPlaces document (organisations.selectPlaces document (.top document)) t
        b.level).getLast? = some place →
      (after rules metrics).tables.infoResults.filter
          (fun x => x.infoId == b.infoId && x.organisationId == t.organisationId) =
        [⟨c.runtimeId, c.packageId, t.organisationId, b.infoId,
          (b.metric.evaluate ⟨c.now, plan.codelist⟩ document place).toOption.getD 0⟩]) := by
  intro targets after
  let planOf (rules : RuleSet) (metrics : MetricRegistry) : TestPlan :=
    { plan with rules := rules, metrics := metrics }
  have htables (rules : RuleSet) (metrics : MetricRegistry) :=
    tables_checkText hstore (planOf rules metrics) c hs text
  refine ⟨fun rules metrics => (htables rules metrics).1, fun rules metrics metrics' => ?_,
    fun rules rules' metrics => ?_, fun i rules rules' metrics metrics' hi => ?_,
    fun rules metrics document organisations b place t ht hdocument horganisations hb hplace => ?_⟩
  · have hrules : (planOf rules metrics).rules = (planOf rules metrics').rules := rfl
    rw [(htables rules metrics).2.1, (htables rules metrics').2.1,
      addedResults_congr hrules rfl c targets text]
  · rw [(htables rules metrics).2.2, (htables rules' metrics).2.2]
    rfl
  · have hkept : ∀ x y : InfoResult, x.replaces y = true → (y.infoId == i) = (x.infoId == i) := by
      intro x y hreplaces
      rw [(InfoResult.replaces_iff.1 hreplaces).1]
    have hbindings : (planOf rules metrics).metrics.bindings.filter (·.infoId == i) =
        (planOf rules' metrics').metrics.bindings.filter (·.infoId == i) := hi
    rw [(htables rules metrics).2.2, (htables rules' metrics').2.2,
      InfoResult.filter_foldl_putIn hkept, InfoResult.filter_foldl_putIn hkept,
      filter_textInfos c hbindings rfl rfl targets text]
  · have hbinding : (planOf rules metrics).metrics.bindings.filter (·.infoId == b.infoId) = [b] := hb
    have hlast := getLast?_textInfos c hbinding hdocument horganisations ht hplace
    have hvalue : metricValue (planOf rules metrics) c.now document place b.metric =
        (b.metric.evaluate ⟨c.now, plan.codelist⟩ document place).toOption.getD 0 := by
      change metricValue plan c.now document place b.metric = _
      unfold metricValue
      cases b.metric.evaluate ⟨c.now, plan.codelist⟩ document place <;> rfl
    rw [(htables rules metrics).2.2, InfoResult.filter_foldl_putIn_of_last _ hlast, ← hvalue]
    rfl

end Separation

/-- A metric that fails is kept as zero, in a store in memory, and a metric beside it changes neither
that nor the results. -/
theorem checkText_separates_without_sectors :
    let c := RunContext.start ⟨1⟩ ⟨7⟩ ⟨0, 0⟩
    let s := MemoryStore.empty.withOrganisations ⟨7⟩ [⟨⟨5⟩, "//a"⟩]
    let papers : MetricBinding := ⟨⟨3⟩, .sectorStrategyPapers, .activity⟩
    let budgets : MetricBinding := ⟨⟨4⟩, .totalBudgetsAvailable, .activity⟩
    let alone : MetricRegistry := .insert .empty papers rfl
    let both : MetricRegistry := .insert (.insert .empty budgets rfl) papers rfl
    let after (metrics : MetricRegistry) :=
      let plan := { unreadablePlan with metrics := metrics }
      (Datastore.ledger ((plan.checkText "<r><a/></r>").run ⟨c, s⟩).2.store).tables
    (after alone).results = (after both).results ∧
      (after alone).infoResults.filter (·.infoId == ⟨3⟩) =
        (after both).infoResults.filter (·.infoId == ⟨3⟩) ∧
      (after both).infoResults.filter
          (fun x => x.infoId == ⟨3⟩ && x.organisationId == ⟨5⟩) = [⟨⟨1⟩, ⟨7⟩, ⟨5⟩, ⟨3⟩, 0⟩] := by
  intro c s papers budgets alone both after
  have hs : s.commits = 0 + ([] : List (List Write)).length := rfl
  obtain ⟨-, hresults, -, hinfos, hvalue⟩ :=
    checkText_separates (reliable_memoryStore 0) unreadablePlan c hs "<r><a/></r>"
  refine ⟨hresults _ _ _, hinfos ⟨3⟩ _ _ alone both rfl, ?_⟩
  have hdocument : Markup.parse? "<r><a/></r>" = some unnamedDocument := by rfl
  obtain ⟨organisations, horganisations⟩ : ∃ s, Selector.parse "//b" = .ok s := ⟨_, rfl⟩
  have hreadable : (⟨⟨5⟩, "//a"⟩ : Target) ∈ readable
      ((Datastore.ledger s).tables.organisationsOf c.packageId) := by
    rw [readable_eq_self]
    · exact List.mem_singleton_self _
    · intro t ht
      obtain rfl := List.mem_singleton.1 ht
      exact ⟨_, rfl⟩
  have hplace : (metricPlaces unnamedDocument (organisations.selectPlaces unnamedDocument
      (.top unnamedDocument)) ⟨⟨5⟩, "//a"⟩ papers.level).getLast? = some (.top unnamedDocument) := by
    have hparse : Selector.parse "//a" = .ok ⟨"//a", [Metric.everyElement "a" []]⟩ := by rfl
    have hactivities : (activitiesOf unnamedDocument ⟨⟨5⟩, "//a"⟩).isEmpty = false := by
      unfold activitiesOf
      rw [hparse]
      cbv
    simp only [metricPlaces, papers, hactivities]
    rfl
  have hfails : papers.metric.evaluate ⟨c.now, unreadablePlan.codelist⟩ unnamedDocument
      (.top unnamedDocument) = .error .noSectors := by
    have hnone : Metric.elements unnamedDocument (.top unnamedDocument)
        [Metric.everyElement "total-budget" []] = [] := by cbv
    change Metric.sectorPapers _ _ _ = _
    unfold Metric.sectorPapers Metric.sectorYears
    rw [hnone]
    rfl
  have hkept := hvalue unreadablePlan.rules both unnamedDocument organisations papers
    (.top unnamedDocument) _ hreadable hdocument horganisations (by decide) hplace
  rw [hfails] at hkept
  exact hkept

end TestPlan

end DataQuality
