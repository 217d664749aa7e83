import DataQuality.Proofs.Store.LastWrites
import DataQuality.Proofs.Testing.Faults

/-!
# The conclusion of a package

A package is marked as tested in the same commit that replaces its aggregation. Before it, only
outcomes are committed, which touch neither; so if any call fails, both are as they were. If none
fails, the aggregation counts all results that the package has in the run by then.
-/
namespace DataQuality

open Markup (Node Place)

namespace TestPlan

variable {plan : TestPlan} {c : RunContext}

/-- Outcomes are results added to those there are, and info values. -/
theorem applyAll_outcomes (t : Tables) {ws : List Write} (h : ∀ w ∈ ws, plan.IsOutcome c w) :
    (∃ added, (t.applyAll ws).results = t.results ++ added) ∧
      (t.applyAll ws).statuses = t.statuses ∧ (t.applyAll ws).aggregates = t.aggregates := by
  induction ws generalizing t with
  | nil => exact ⟨⟨[], (List.append_nil _).symm⟩, rfl, rfl⟩
  | cons w rest ih =>
    obtain ⟨⟨added, hresults⟩, hrest⟩ := ih (t.apply w) fun v hv => h v (List.mem_cons_of_mem w hv)
    have hw := h w List.mem_cons_self
    cases w with
    | saveResult x =>
      refine ⟨⟨x :: added, hresults.trans ?_⟩, hrest⟩
      exact List.append_assoc t.results [x] added
    | replaceInfo x => exact ⟨⟨added, hresults⟩, hrest⟩
    | _ => exact hw.elim

/-- A document has been tested: outcomes are committed, and then the package is concluded,
unless testing has failed. -/
def Concludes (plan : TestPlan) (c : RunContext) (t : Tables) (r : Except TestingError PackageOutcome)
    (s : TestState Ledger) : Prop :=
  ∃ n ws, (∀ w ∈ ws, plan.IsOutcome c w) ∧
    let tested := t.applyAll ws
    (∃ results infos,
      r = .ok (.tested results infos (tested.aggregate c.runtimeId c.packageId).length) ∧
      s = ⟨c.madeUp n, .ofTables (tested.applyAll (closingCommit c tested))⟩) ∨
    (∃ e, r = .error e) ∧ s = ⟨c.madeUp n, .ofTables tested⟩

namespace Concludes

variable {t : Tables} {r : Except TestingError PackageOutcome} {s : TestState Ledger}

theorem staged (h : plan.Concludes c t r s) : s.store.staged = [] := by
  obtain ⟨n, ws, -, ⟨results, infos, -, rfl⟩ | ⟨-, rfl⟩⟩ := h <;> rfl

/-- A package that has been tested is counted anew, and marked. -/
theorem counted (h : plan.Concludes c t r s) {results infos rows : Nat}
    (hr : r = .ok (.tested results infos rows)) :
    let after := s.store.tables
    let counts := after.aggregatesOf c.runtimeId c.packageId
    (∃ added, after.results = t.results ++ added) ∧
    Tables.IsCount c.runtimeId c.packageId (after.resultsIn c.runtimeId c.packageId) counts ∧
    rows = counts.length ∧
    (∀ r p, (r, p) ≠ (c.runtimeId, c.packageId) → after.aggregatesOf r p = t.aggregatesOf r p) ∧
    after.statusOf? c.packageId = some .tested ∧
    ∀ p, p ≠ c.packageId → after.statusOf? p = t.statusOf? p := by
  intro after counts
  obtain ⟨n, ws, hws, hend⟩ := h
  obtain ⟨hresults, hstatuses, haggregates⟩ := applyAll_outcomes t hws
  generalize t.applyAll ws = tested at *
  obtain ⟨results', infos', hr', rfl⟩ | ⟨⟨e, he⟩, -⟩ := hend
  · obtain ⟨-, -, rfl⟩ := PackageOutcome.tested.inj (Except.ok.inj (hr.symm.trans hr'))
    have hcount := tested.isCount_aggregate c.runtimeId c.packageId
    have hcounts : counts = tested.aggregate c.runtimeId c.packageId :=
      tested.aggregatesOf_put_self hcount.belongs
    rw [hcounts]
    refine ⟨hresults, hcount, rfl, fun r p hne => ?_, ?_, fun p hp => ?_⟩
    · refine (tested.aggregatesOf_put_of_ne hcount.belongs hne).trans ?_
      unfold Tables.aggregatesOf
      rw [haggregates]
    · exact Keyed.get?_insert_self _ _ _ _
    · refine (Keyed.get?_insert_of_ne hp _ _).trans ?_
      change Keyed.get? p tested.statuses = _
      rw [hstatuses]
      rfl
  · rw [he] at hr
    cases hr

/-- One that has not been tested keeps its rows and its status. -/
theorem unchanged (h : plan.Concludes c t r s)
    (hr : ∀ results infos rows, r ≠ .ok (.tested results infos rows)) :
    s.store.tables.statuses = t.statuses ∧ s.store.tables.aggregates = t.aggregates := by
  obtain ⟨n, ws, hws, ⟨results, infos, hr', -⟩ | ⟨-, rfl⟩⟩ := h
  · exact absurd hr' (hr _ _ _)
  · exact (applyAll_outcomes t hws).2

end Concludes

variable {σ : Type} [Datastore σ] [LawfulStore σ]

theorem endsIn_checkDocument (plan : TestPlan) (document : Node) (c : RunContext) (t : Tables) :
    EndsIn (σ := σ) (plan.checkDocument document) ⟨c, .ofTables t⟩ (plan.Concludes c t) := by
  have hfail (e : TestingError) : EndsIn (σ := σ) (α := PackageOutcome) (throw e) ⟨c, .ofTables t⟩
      (plan.Concludes c t) := by
    refine (EndsIn.throw e).mono fun r s hs => ⟨0, [], by simp, .inr ⟨⟨e, hs.1⟩, hs.2⟩⟩
  unfold checkDocument
  refine EndsIn.withContext ?_
  refine EndsIn.after_onStore (LawfulStore.organisationsOf c.packageId) _ _ c _ ?_ fun e => hfail _
  dsimp only
  cases (Ledger.ofTables t).tables.organisationsOf c.packageId with
  | nil => exact hfail _
  | cons g rest =>
    dsimp only
    cases Selector.parse plan.organisationSelector with
    | error e => exact hfail _
    | ok organisations =>
      refine (adds_testTargets plan document organisations (0, 0) (g :: rest) c t).bind
        (fun written s hs => ?_) fun e s hs => ?_
      · obtain ⟨n, ws, hws, rfl⟩ := hs
        refine (EndsIn.concludePackage (c.madeUp n) (t.applyAll ws)).after_whole ?_ fun e => ?_
        · exact (EndsIn.pure _).mono fun r s hs => ⟨n, ws, hws, .inl ⟨_, _, hs⟩⟩
        · exact ⟨n, ws, hws, .inr ⟨⟨e, rfl⟩, rfl⟩⟩
      · obtain ⟨n, ws, hws, rfl⟩ := hs
        exact ⟨n, ws, hws, .inr ⟨⟨e, rfl⟩, rfl⟩⟩

/-- The validity of a text is recorded first, together with what is staged. If the text is that of
a document, and recording does not fail, the document is tested. -/
theorem endsIn_checkText_after (plan : TestPlan) (text : String) (c : RunContext) (l : Ledger) :
    EndsIn (σ := σ) (plan.checkText text) ⟨c, l⟩ fun r s =>
      plan.Concludes c (l.settle.tables.apply (.saveResult (validity c .pass))) r s ∨
      (r = .ok .invalidDocument ∧
        s = ⟨c, .ofTables (l.settle.tables.apply (.saveResult (validity c .fail)))⟩) ∨
      (∃ e, r = .error e) ∧ s = ⟨c, .ofTables l.tables⟩ := by
  have hrecord (code : Code) : EndsIn (σ := σ) (recordValidity code) ⟨c, l⟩
      (Whole () ⟨c, .ofTables (l.settle.tables.apply (.saveResult (validity c code)))⟩
        ⟨c, .ofTables l.tables⟩) := by
    rw [← l.settle_stage]
    exact EndsIn.recordValidity c l code
  unfold checkText
  cases Markup.parse? text with
  | none =>
    refine (hrecord .fail).after_whole ?_ fun e => .inr (.inr ⟨⟨e, rfl⟩, rfl⟩)
    exact (EndsIn.pure _).mono fun r s hs => .inr (.inl hs)
  | some document =>
    refine (hrecord .pass).after_whole ?_ fun e => .inr (.inr ⟨⟨e, rfl⟩, rfl⟩)
    exact (endsIn_checkDocument plan document c _).mono fun r s hs => .inl hs

theorem endsIn_checkText (plan : TestPlan) (text : String) (c : RunContext) (t : Tables) :
    EndsIn (σ := σ) (plan.checkText text) ⟨c, .ofTables t⟩ fun r s =>
      plan.Concludes c (t.apply (.saveResult (validity c .pass))) r s ∨
      (∀ results infos rows, r ≠ .ok (.tested results infos rows)) ∧
        (s = ⟨c, .ofTables t⟩ ∨ s = ⟨c, .ofTables (t.apply (.saveResult (validity c .fail)))⟩) := by
  refine (endsIn_checkText_after plan text c (.ofTables t)).mono fun r s hs => ?_
  obtain hs | ⟨rfl, rfl⟩ | ⟨⟨e, rfl⟩, rfl⟩ := hs
  · exact .inl hs
  · exact .inr ⟨by simp, .inr rfl⟩
  · exact .inr ⟨by simp, .inl rfl⟩

/-- Testing a text, while any calls of the store but the dropping of writes fail, marks the package
as tested exactly when it replaces its aggregation. If the package has been tested, its rows in the
run count all results that it has in the run by then, the record of validity and those of earlier
tests among them; the rows of other packages and runs stay as they are, and so do the other
statuses. However else testing ends, no status and no row has changed. -/
theorem checkText_concludes (plan : TestPlan) (c : RunContext) (s : FaultyStore σ)
    (hdrop : ∀ n, (StoreCall.rollback, n) ∉ s.plan) (hs : (Datastore.ledger s).staged = [])
    (text : String) :
    let before := (Datastore.ledger s).tables
    let ending := (plan.checkText text).run ⟨c, s⟩
    let after := (Datastore.ledger ending.2.store).tables
    let rowsOf (t : Tables) := t.aggregatesOf c.runtimeId c.packageId
    (Datastore.ledger ending.2.store).staged = [] ∧
    (∀ results infos rows, ending.1 = .ok (.tested results infos rows) →
      (∃ added, after.results = before.results ++ validity c .pass :: added) ∧
      Tables.IsCount c.runtimeId c.packageId (after.resultsIn c.runtimeId c.packageId) (rowsOf after) ∧
      rows = (rowsOf after).length ∧
      (∀ r p, (r, p) ≠ (c.runtimeId, c.packageId) → after.aggregatesOf r p = before.aggregatesOf r p) ∧
      after.statusOf? c.packageId = some .tested ∧
      ∀ p, p ≠ c.packageId → after.statusOf? p = before.statusOf? p) ∧
    ((∀ results infos rows, ending.1 ≠ .ok (.tested results infos rows)) →
      after.statuses = before.statuses ∧ after.aggregates = before.aggregates) := by
  intro before ending after rowsOf
  have hledger : Datastore.ledger s = .ofTables before := by
    change _ = (⟨(Datastore.ledger s).tables, []⟩ : Ledger)
    rw [← hs]
  obtain ⟨outcome, finish, hrun, -, hend⟩ := endsIn_checkText plan text c before s hdrop hledger
  obtain ⟨rfl, rfl⟩ : outcome = ending.1 ∧ finish = ending.2 := Prod.mk.inj hrun.symm
  rcases hend with hend | ⟨hother, hend⟩
  · refine ⟨hend.staged, fun results infos rows hr => ?_, hend.unchanged⟩
    obtain ⟨⟨added, hresults⟩, hrest⟩ := hend.counted hr
    exact ⟨⟨added, hresults.trans (List.append_assoc before.results [_] added)⟩, hrest⟩
  · have hafter : Datastore.ledger ending.2.store = .ofTables before ∨
        Datastore.ledger ending.2.store = .ofTables (before.apply (.saveResult (validity c .fail))) :=
      hend.imp (congrArg TestState.store) (congrArg TestState.store)
    have hsame : (Datastore.ledger ending.2.store).staged = [] ∧
        (Datastore.ledger ending.2.store).tables.statuses = before.statuses ∧
        (Datastore.ledger ending.2.store).tables.aggregates = before.aggregates := by
      rcases hafter with hl | hl <;> rw [hl] <;> exact ⟨rfl, rfl, rfl⟩
    exact ⟨hsame.1, fun _ _ _ h => absurd h (hother _ _ _), fun _ => hsame.2⟩

/-- A package with one activity, in a store whose first commit fails and in one where none does. -/
theorem checkText_concludes_unnamed :
    let c := RunContext.start ⟨1⟩ ⟨7⟩ ⟨0, 0⟩
    let organisations := MemoryStore.empty.withOrganisations ⟨7⟩ [⟨⟨5⟩, "//a"⟩]
    let after (failing : List (StoreCall × Nat)) :=
      (Datastore.ledger ((unreadablePlan.checkText "<r><a/></r>").run
        ⟨c, FaultyStore.around organisations failing⟩).2.store).tables
    (after [(.commit, 1)]).statuses = [] ∧ (after [(.commit, 1)]).aggregates = [] ∧
      (after []).statusOf? ⟨7⟩ = some .tested ∧
      Tables.IsCount ⟨1⟩ ⟨7⟩ ((after []).resultsIn ⟨1⟩ ⟨7⟩) ((after []).aggregatesOf ⟨1⟩ ⟨7⟩) := by
  intro c organisations after
  have hfailing := checkText_concludes unreadablePlan c (FaultyStore.around organisations [(.commit, 1)])
    (by simp [FaultyStore.around]) rfl "<r><a/></r>"
  have hfirst : ((unreadablePlan.checkText "<r><a/></r>").run
      ⟨c, FaultyStore.around organisations [(.commit, 1)]⟩).1 =
      .error (.store (.other (FaultyStore.faultText .commit 1))) := by rfl
  obtain ⟨hstatuses, haggregates⟩ := hfailing.2.2 (by rw [hfirst]; simp)
  have hclean := checkText_concludes unreadablePlan c (FaultyStore.around organisations [])
    (by simp [FaultyStore.around]) rfl "<r><a/></r>"
  have hdocument : Markup.parse? "<r><a/></r>" = some unnamedDocument := by rfl
  obtain ⟨nodes, hnodes⟩ : ∃ s, Selector.parse "//b" = .ok s := ⟨_, rfl⟩
  have hselectors : ∀ t ∈ [(⟨⟨5⟩, "//a"⟩ : Target)],
      ∃ a, Selector.parse t.activitiesSelector = .ok a := by
    intro t ht
    obtain rfl := List.mem_singleton.1 ht
    exact ⟨_, rfl⟩
  obtain ⟨s, hrun, -⟩ := Makes.checkText (reliable_faultyStore (reliable_memoryStore 0)) unreadablePlan
    (c := c) (.ofTables organisations.ledger.tables) hdocument hnodes rfl (List.cons_ne_nil _ _)
    hselectors [] (FaultyStore.around organisations []) ⟨rfl, rfl⟩ rfl
  obtain ⟨-, hcount, -, -, hstatus, -⟩ := hclean.2.1 _ _ _ (congrArg Prod.fst hrun)
  exact ⟨hstatuses, haggregates, hstatus, hcount⟩

end TestPlan

end DataQuality
