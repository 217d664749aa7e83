import DataQuality.Proofs.Testing.Independence

/-!
# The commits of a document

What is tested by itself, an activity or an organisation node, is a unit. Testing a document commits
the record that it is valid, the results of each unit that has any, each value of a metric, and the
conclusion, each by itself and nothing else. The commits between the first one and the last one are
divided into those of single metric values and the rest, and the rest are the results of the units,
one after the other. So a store in memory counts as many commits as that. What each of them held is
seen on a store that keeps a record, which otherwise does the same.
-/
namespace DataQuality

open Markup (Node Place)

/-- Something that is tested by itself for an organisation, with the context in which it is: an
activity together with its transactions, or an organisation node. -/
inductive TestedUnit
  | activity (c : RunContext) (o : OrganisationId) (place : Place)
  | node (c : RunContext) (o : OrganisationId) (place : Place)

def TestedUnit.results (plan : TestPlan) (document : Node) : TestedUnit → List TestResult
  | .activity c o place => plan.activityResults document c o place
  | .node c o place => plan.organisationResults document c o place

namespace TestPlan

def activityUnits (o : OrganisationId) : RunContext → List Place → List TestedUnit
  | _, [] => []
  | c, a :: rest => .activity c o a :: activityUnits o (c.madeUp (unnamedIn [a])) rest

/-- The units of an organisation: its activities, and then the organisation nodes. -/
def targetUnits (document : Node) (nodes : List Place) (c : RunContext) (t : Target) :
    List TestedUnit :=
  activityUnits t.organisationId c (activitiesOf document t) ++ nodes.map (.node c t.organisationId)

/-- The units of each organisation. -/
def targetsUnits (document : Node) (nodes : List Place) : RunContext → List Target → List TestedUnit
  | _, [] => []
  | c, t :: rest =>
    targetUnits document nodes c t ++
      targetsUnits document nodes (c.madeUp (unnamedIn (activitiesOf document t))) rest

def documentUnits (plan : TestPlan) (c : RunContext) (targets : List Target) (document : Node) :
    List TestedUnit :=
  match Selector.parse plan.organisationSelector with
  | .error _ => []
  | .ok organisations =>
    targetsUnits document (organisations.selectPlaces document (.top document)) c targets

end TestPlan

/-- A commit of one value of a metric and nothing else. -/
def isInfoCommit : List Write → Bool
  | [.replaceInfo _] => true
  | _ => false

/-- Apart from so many commits of single metric values, these commits are those of the batches that
are not empty: one for each, in order, with the results of that batch only. -/
structure OnePerBatch (commits : List (List Write)) (batches : List (List TestResult))
    (infos : Nat) : Prop where
  batches : commits.filter (!isInfoCommit ·) =
    (batches.filter (!·.isEmpty)).map (·.map .saveResult)
  infos : (commits.filter isInfoCommit).length = infos

namespace OnePerBatch

open TestPlan

theorem nil : OnePerBatch [] [] 0 := ⟨rfl, rfl⟩

theorem append {xs ys : List (List Write)} {as bs : List (List TestResult)} {n m : Nat}
    (hx : OnePerBatch xs as n) (hy : OnePerBatch ys bs m) :
    OnePerBatch (xs ++ ys) (as ++ bs) (n + m) where
  batches := by
    rw [List.filter_append, List.filter_append, List.map_append, hx.batches, hy.batches]
  infos := by rw [List.filter_append, List.length_append, hx.infos, hy.infos]

theorem length {commits : List (List Write)} {batches : List (List TestResult)} {infos : Nat}
    (h : OnePerBatch commits batches infos) :
    commits.length = (batches.filter (!·.isEmpty)).length + infos := by
  rw [List.length_eq_length_filter_add isInfoCommit, h.infos, h.batches, List.length_map,
    Nat.add_comm]

/-- A batch is committed once if it is not empty. -/
theorem batch (results : List TestResult) : OnePerBatch (batchCommits results) [results] 0 := by
  unfold batchCommits
  cases results with
  | nil => exact ⟨rfl, rfl⟩
  | cons r rest => exact ⟨rfl, rfl⟩

variable (plan : TestPlan) (document : Node) (c : RunContext) (o : OrganisationId)

theorem metrics (level : Level) (place : Place) :
    OnePerBatch (plan.metricsCommits document c o level place) []
      (plan.metrics.forLevel level).length := by
  unfold metricsCommits
  induction plan.metrics.forLevel level with
  | nil => exact nil
  | cons b rest ih =>
    have hfirst : OnePerBatch
        [[.replaceInfo ⟨c.runtimeId, c.packageId, o, b.infoId,
          plan.metricValue c.now document place b.metric⟩]] [] 1 := ⟨rfl, rfl⟩
    rw [List.length_cons, Nat.add_comm]
    exact hfirst.append ih

theorem activities (activities : List Place) :
    OnePerBatch (plan.activitiesCommits document o c activities)
      ((activityUnits o c activities).map (·.results plan document)) 0 := by
  induction activities generalizing c with
  | nil => exact nil
  | cons a rest ih => exact (batch _).append (ih _)

theorem nodes (nodes : List Place) :
    OnePerBatch (nodes.flatMap (plan.nodeCommits document c o))
      (nodes.map (plan.organisationResults document c o))
      (nodes.length * (plan.metrics.forLevel .organisation).length) := by
  induction nodes with
  | nil =>
    rw [List.length_nil, Nat.zero_mul]
    exact nil
  | cons node rest ih =>
    rw [List.length_cons, Nat.succ_mul, Nat.add_comm]
    exact ((metrics plan document c o .organisation node).append (batch _)).append ih

theorem target (nodes : List Place) (t : Target) :
    OnePerBatch (plan.targetCommits document nodes c t)
      ((targetUnits document nodes c t).map (·.results plan document))
      (plan.infoCount document nodes t) := by
  have hinfos : OnePerBatch (if (activitiesOf document t).isEmpty then []
      else plan.metricsCommits document c t.organisationId .activity (.top document)) []
      (if (activitiesOf document t).isEmpty then 0
        else (plan.metrics.forLevel .activity).length) := by
    split
    · exact nil
    · exact metrics plan document c t.organisationId .activity (.top document)
  have hnodes := hinfos.append (OnePerBatch.nodes plan document c t.organisationId nodes)
  have hall := (activities plan document c t.organisationId (activitiesOf document t)).append hnodes
  rw [Nat.zero_add] at hall
  unfold targetUnits
  rw [List.map_append, List.map_map]
  exact hall

theorem targets (nodes : List Place) (targets : List Target) :
    OnePerBatch (plan.targetsCommits document nodes c targets)
      ((targetsUnits document nodes c targets).map (·.results plan document))
      (targets.map (plan.infoCount document nodes)).sum := by
  induction targets generalizing c with
  | nil => exact nil
  | cons t rest ih =>
    rw [targetsCommits, targetsUnits, List.map_append, List.map_cons, List.sum_cons]
    exact (target plan document c nodes t).append (ih _)

end OnePerBatch

/-- A store that keeps a record is as reliable as the store inside, and records what is committed. -/
theorem reliable_recordedStore {σ : Type} [Datastore σ] {After : List (List Write) → σ → Prop}
    (h : Reliable σ After) :
    Reliable (RecordedStore σ) fun done s => s.commits = done ∧ After done s.inner := by
  have hcall {γ : Type} {s : RecordedStore σ} {act : StoreM σ γ} {a : γ} {l : Ledger}
      {done : List (List Write)} (hdone : s.commits = done)
      (hact : ∃ s₁, act.run s.inner = (.ok a, s₁) ∧ After done s₁ ∧ Datastore.ledger s₁ = l) :
      ∃ s', (RecordedStore.call act).run s = (.ok a, s') ∧
        (s'.commits = done ∧ After done s'.inner) ∧ Datastore.ledger s' = l := by
    obtain ⟨s₁, hrun, hafter, hl⟩ := hact
    refine ⟨{ s with inner := s₁ }, ?_, ⟨hdone, hafter⟩, hl⟩
    rw [RecordedStore.call_run, hrun]
  constructor
  · exact fun hs w => hcall hs.1 (h.stage hs.2 w)
  · exact fun hs r p => hcall hs.1 (h.aggregate hs.2 r p)
  · exact fun hs p => hcall hs.1 (h.organisationsOf hs.2 p)
  · intro done s hs message
    obtain ⟨s₁, hrun, hafter, hl⟩ := h.commit hs.2 message
    refine ⟨⟨s₁, s.commits ++ [(Datastore.ledger s.inner).staged]⟩, ?_, ⟨?_, hafter⟩, hl⟩
    · change RecordedStore.commit message s = _
      unfold RecordedStore.commit
      rw [hrun]
    · rw [hs.1]
      rfl

namespace Makes

variable {α : Type} {s : MemoryStore} {c : RunContext} {a : α} {finish : TestState Ledger}
  {commits : List (List Write)}

/-- A store in memory is known by its ledger and the number of its commits. -/
theorem run_memoryStore {m : Testing MemoryStore α}
    (h : Makes (fun done s' => s'.commits = s.commits + done.length) m ⟨c, s.ledger⟩ a finish
      commits) :
    m.run ⟨c, s⟩ = (.ok a, ⟨finish.context, ⟨finish.store, s.commits + commits.length⟩⟩) := by
  obtain ⟨⟨l, n⟩, hrun, hcommits, hledger⟩ := h [] s rfl rfl
  obtain rfl : l = finish.store := hledger
  obtain rfl : n = s.commits + commits.length := hcommits
  exact hrun

theorem run_around {m : Testing (RecordedStore MemoryStore) α}
    (h : Makes (fun done s' => s'.commits = done ∧ s'.inner.commits = s.commits + done.length) m
      ⟨c, s.ledger⟩ a finish commits) :
    m.run ⟨c, .around s⟩ =
      (.ok a, ⟨finish.context, ⟨⟨finish.store, s.commits + commits.length⟩, commits⟩⟩) := by
  obtain ⟨⟨⟨l, n⟩, record⟩, hrun, ⟨hrecord, hcommits⟩, hledger⟩ :=
    h [] (RecordedStore.around s) ⟨rfl, rfl⟩ rfl
  obtain rfl : l = finish.store := hledger
  obtain rfl : n = s.commits + commits.length := hcommits
  obtain rfl : record = commits := hrecord
  exact hrun

end Makes

namespace TestPlan

/-- A text is tested to the end only if it is that of a document that can be tested. -/
theorem canTest_of_checkText (plan : TestPlan) (text : String) {c : RunContext} {s : MemoryStore}
    {results infos rows : Nat} {after : TestState MemoryStore}
    (h : (plan.checkText text).run ⟨c, s⟩ = (.ok (.tested results infos rows), after)) :
    (∃ document, Markup.parse? text = some document) ∧
      plan.canTest (s.ledger.tables.organisationsOf c.packageId) = true := by
  have hstore := reliable_memoryStore s.commits
  have hrecord (code : Code) := Makes.recordValidity hstore (c := c) code s.ledger
  dsimp only at hrecord
  cases hdocument : Markup.parse? text with
  | none =>
    have hends : ∃ finish commits, Ends (fun done (s' : MemoryStore) =>
        s'.commits = s.commits + done.length) (plan.checkText text) ⟨c, s.ledger⟩
        (.ok .invalidDocument) finish commits := by
      unfold checkText
      rw [hdocument]
      exact ⟨_, _, Ends.bind (hrecord .fail) (Makes.pure _)⟩
    obtain ⟨finish, commits, hends⟩ := hends
    obtain ⟨s', hrun, -⟩ := hends [] s rfl rfl
    cases h.symm.trans hrun
  | some document =>
    obtain ⟨r, c', commits, hlast, hr, -⟩ := Ends.checkDocument hstore plan (c := c) document
      (s.ledger.tables.applyAll (s.ledger.staged ++ [.saveResult (validity c .pass)])) rfl
    have hends : ∃ finish commits, Ends (fun done (s' : MemoryStore) =>
        s'.commits = s.commits + done.length) (plan.checkText text) ⟨c, s.ledger⟩
        r finish commits := by
      unfold checkText
      rw [hdocument]
      exact ⟨_, _, Ends.bind (hrecord .pass) hlast⟩
    obtain ⟨finish, commits, hends⟩ := hends
    obtain ⟨s', hrun, -⟩ := hends [] s rfl rfl
    obtain rfl : Except.ok (.tested results infos rows) = r := congrArg Prod.fst (h.symm.trans hrun)
    unfold Tables.organisationsOf at hr
    rw [Tables.organisations_applyAll] at hr
    exact ⟨⟨document, rfl⟩, hr.symm⟩

/-- When a text has been tested on a store in memory on which nothing was staged, the store has made
two commits more, for the validity and the conclusion, and one for each unit of the document that has
results and one for each metric value, and nothing is left staged. The record of the same run shows
the commits between the first and the last: apart from those of single metric values, each holds the
results of one unit and nothing else. -/
theorem checkText_commits (plan : TestPlan) (text : String) (c : RunContext) {s : MemoryStore}
    (hstaged : s.ledger.staged = []) {results infos rows : Nat} {after : TestState MemoryStore}
    (h : (plan.checkText text).run ⟨c, s⟩ = (.ok (.tested results infos rows), after)) :
    ∃ document, Markup.parse? text = some document ∧
      let targets := s.ledger.tables.organisationsOf c.packageId
      let batches := (plan.documentUnits c targets document).map (·.results plan document)
      after.store.commits = s.commits + 2 + (batches.filter (!·.isEmpty)).length + infos ∧
      after.store.ledger.staged = [] ∧
      ∃ between tested, OnePerBatch between batches infos ∧
        (plan.checkText text).run ⟨c, RecordedStore.around s⟩ =
          (.ok (.tested results infos rows), ⟨after.context, ⟨after.store,
            [.saveResult (validity c .pass)] :: (between ++ [closingCommit c tested])⟩⟩) := by
  obtain ⟨⟨document, hdocument⟩, hcan⟩ := plan.canTest_of_checkText text h
  obtain ⟨hne, ⟨organisations, horganisations⟩, hselectors⟩ := canTest_iff.1 hcan
  obtain ⟨⟨tables, staged⟩, n⟩ := s
  obtain rfl : staged = [] := hstaged
  refine ⟨document, hdocument, ?_⟩
  intro targets batches
  let nodes := organisations.selectPlaces document (.top document)
  have hbatches : OnePerBatch (plan.targetsCommits document nodes c targets) batches
      (targets.map (plan.infoCount document nodes)).sum := by
    unfold batches documentUnits
    rw [horganisations]
    exact .targets plan document c nodes targets
  have hstore := reliable_memoryStore n
  have hplain := Makes.run_memoryStore (s := ⟨⟨tables, []⟩, n⟩)
    (Makes.checkText hstore plan _ hdocument horganisations rfl hne hselectors)
  have hrecorded := Makes.run_around (s := ⟨⟨tables, []⟩, n⟩)
    (Makes.checkText (reliable_recordedStore hstore) plan _ hdocument horganisations rfl hne
      hselectors)
  obtain ⟨houtcome, rfl⟩ := Prod.mk.inj (h.symm.trans hplain)
  obtain ⟨rfl, rfl, rfl⟩ := PackageOutcome.tested.inj (Except.ok.inj houtcome)
  refine ⟨?_, rfl, _, _, hbatches, hrecorded⟩
  change n + ([_] ++ (plan.targetsCommits document nodes c targets ++ [_])).length =
    n + 2 + (batches.filter (!·.isEmpty)).length + (targets.map (plan.infoCount document nodes)).sum
  simp only [List.length_append, List.length_singleton, hbatches.length]
  omega

/-- A document with one activity, in a store that knows one organisation. -/
theorem checkText_commits_unnamed :
    let c := RunContext.start ⟨1⟩ ⟨7⟩ ⟨0, 0⟩
    let s := MemoryStore.empty.withOrganisations ⟨7⟩ [⟨⟨5⟩, "//a"⟩]
    s.ledger.staged = [] ∧ ∃ results infos rows after,
      (unreadablePlan.checkText "<r><a/></r>").run ⟨c, s⟩ =
        (.ok (.tested results infos rows), after) ∧
      ∃ document, Markup.parse? "<r><a/></r>" = some document ∧
        let batches := (unreadablePlan.documentUnits c [⟨⟨5⟩, "//a"⟩] document).map
          (·.results unreadablePlan document)
        after.store.commits = 2 + (batches.filter (!·.isEmpty)).length + infos ∧
        ∃ between tested, OnePerBatch between batches infos ∧
          (unreadablePlan.checkText "<r><a/></r>").run ⟨c, RecordedStore.around s⟩ =
            (.ok (.tested results infos rows), ⟨after.context, ⟨after.store,
              [.saveResult (validity c .pass)] :: (between ++ [closingCommit c tested])⟩⟩) := by
  intro c s
  have hdocument : Markup.parse? "<r><a/></r>" = some unnamedDocument := by rfl
  obtain ⟨organisations, horganisations⟩ : ∃ s, Selector.parse "//b" = .ok s := ⟨_, rfl⟩
  have hselectors : ∀ t ∈ [(⟨⟨5⟩, "//a"⟩ : Target)],
      ∃ a, Selector.parse t.activitiesSelector = .ok a := by
    intro t ht
    obtain rfl := List.mem_singleton.1 ht
    exact ⟨_, rfl⟩
  have hrun := Makes.run_memoryStore (s := s) (c := c) (Makes.checkText (reliable_memoryStore 0)
    unreadablePlan _ hdocument horganisations rfl (List.cons_ne_nil _ _) hselectors)
  obtain ⟨document, hparse, hcommits, -, hbetween⟩ :=
    checkText_commits unreadablePlan "<r><a/></r>" c (s := s) rfl hrun
  rw [show s.commits + 2 = 2 from rfl] at hcommits
  exact ⟨rfl, _, _, _, _, hrun, document, hparse, hcommits, hbetween⟩

/-- The activity is the only unit, and has one result. -/
example :
    let units := unreadablePlan.documentUnits (.start ⟨1⟩ ⟨7⟩ ⟨0, 0⟩) [⟨⟨5⟩, "//a"⟩] unnamedDocument
    units.map (fun u => (u.results unreadablePlan unnamedDocument).length) = [1] := by
  cbv

end TestPlan

end DataQuality
