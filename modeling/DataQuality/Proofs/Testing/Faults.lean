import DataQuality.Proofs.Testing.Interruption
import DataQuality.Proofs.Testing.Validity

/-!
# Testing while calls fail

Any calls on the store may fail while a package is tested, except the dropping of what is staged.
A part of testing then ends in one of several ways, and these are determined by the context of the
run and the ledger it begins with. A step that is committed is done as a whole or not at all. What
a sequence of such steps commits are outcomes of the rules and metrics of the plan.
-/
namespace DataQuality

open Markup (Node Place)
open Testing

variable {σ α β : Type} [Datastore σ]

/-- What is staged can always be dropped. -/
def FaultyStore.CanDrop (s : FaultyStore σ) : Prop := ∀ n, (StoreCall.rollback, n) ∉ s.plan

theorem FaultyStore.ledger_eq (s : FaultyStore σ) : Datastore.ledger s = Datastore.ledger s.inner := rfl

/-- A store of which no call is to fail is as reliable as the store inside. -/
theorem reliable_faultyStore {After : List (List Write) → σ → Prop} (h : Reliable σ After) :
    Reliable (FaultyStore σ) fun done s => s.plan = [] ∧ After done s.inner := by
  have hcall {γ : Type} {s : FaultyStore σ} (hplan : s.plan = []) (kind : StoreCall)
      (note : Option String) {act : StoreM σ γ} {a : γ} {done : List (List Write)} {l : Ledger}
      (hact : ∃ s₁, act.run s.inner = (.ok a, s₁) ∧ After done s₁ ∧ Datastore.ledger s₁ = l) :
      ∃ s', (FaultyStore.call kind note act).run s = (.ok a, s') ∧
        (s'.plan = [] ∧ After done s'.inner) ∧ Datastore.ledger s' = l := by
    obtain ⟨s₁, hrun, hafter, hl⟩ := hact
    obtain ⟨s', hplan', hinner, hcall⟩ := FaultyStore.call_run_of_not_planned
      (c := kind) (s := s) (fun n => by simp [hplan]) note act
    rw [hrun] at hinner hcall
    exact ⟨s', hcall, ⟨hplan'.trans hplan, by rwa [hinner]⟩, by rw [FaultyStore.ledger_eq, hinner, hl]⟩
  constructor
  · exact fun hs w => hcall hs.1 _ _ (h.stage hs.2 w)
  · exact fun hs r p => hcall hs.1 _ _ (h.aggregate hs.2 r p)
  · exact fun hs p => hcall hs.1 _ _ (h.organisationsOf hs.2 p)
  · exact fun hs message => hcall hs.1 _ _ (h.commit hs.2 message)

section Calls

variable {act : StoreM σ α} {does : Ledger → α × Ledger}

/-- A call is carried out, or it fails and the ledger stays as it is. -/
theorem FaultyStore.call_cases (h : Obeys act does) (kind : StoreCall) (note : Option String)
    {s : FaultyStore σ} (hdrop : s.CanDrop) :
    ∃ r s', (FaultyStore.call kind note act).run s = (r, s') ∧ s'.CanDrop ∧
      ((r = .ok (does (Datastore.ledger s)).1 ∧
          Datastore.ledger s' = (does (Datastore.ledger s)).2) ∨
        (∃ e, r = .error e) ∧ Datastore.ledger s' = Datastore.ledger s) := by
  obtain ⟨s', hplan, hcase⟩ := FaultyStore.call_run kind note act s
  have hdrop' : s'.CanDrop := by
    unfold FaultyStore.CanDrop
    rw [hplan]
    exact hdrop
  obtain ⟨-, hinner, e, hcall⟩ | ⟨hinner, hcall⟩ := hcase
  · refine ⟨_, s', hcall, hdrop', .inr ⟨⟨e, rfl⟩, ?_⟩⟩
    rw [FaultyStore.ledger_eq, hinner, ← FaultyStore.ledger_eq]
  · refine ⟨_, s', hcall, hdrop', ?_⟩
    rw [FaultyStore.ledger_eq s', hinner, FaultyStore.ledger_eq s]
    obtain ⟨a, ha, hdoes⟩ | ⟨he, hsame⟩ := h s.inner
    · rw [hdoes]
      exact .inl ⟨ha, rfl⟩
    · exact .inr ⟨he, hsame⟩

theorem FaultyStore.rollback_run [LawfulStore σ] {s : FaultyStore σ} (hdrop : s.CanDrop) :
    let s' := ((Datastore.rollback : StoreM (FaultyStore σ) Unit).run s).2
    s'.CanDrop ∧ Datastore.ledger s' = (Datastore.ledger s).discard := by
  obtain ⟨s', hplan, hinner, hcall⟩ := FaultyStore.call_run_of_not_planned hdrop (some "rollback")
    (Datastore.rollback : StoreM σ Unit)
  change ((FaultyStore.call .rollback (some "rollback") Datastore.rollback).run s).2.CanDrop ∧
    Datastore.ledger ((FaultyStore.call .rollback (some "rollback") Datastore.rollback).run s).2 = _
  rw [hcall]
  constructor
  · unfold FaultyStore.CanDrop
    rw [hplan]
    exact hdrop
  · rw [FaultyStore.ledger_eq, hinner, LawfulStore.rollback]
    rfl

end Calls

/-- Begun with this context and ledger, a part of testing can only end in these ways. -/
def EndsIn (m : Testing (FaultyStore σ) α) (start : TestState Ledger)
    (ways : Except TestingError α → TestState Ledger → Prop) : Prop :=
  ∀ s : FaultyStore σ, s.CanDrop → Datastore.ledger s = start.store →
    ∃ r s', m.run ⟨start.context, s⟩ = (r, s') ∧ s'.store.CanDrop ∧
      ways r ⟨s'.context, Datastore.ledger s'.store⟩

/-- A step is done, or it fails and nothing of it is done. -/
def Whole (a : α) (done undone : TestState Ledger) (r : Except TestingError α)
    (s : TestState Ledger) : Prop :=
  (r = .ok a ∧ s = done) ∨ (∃ e, r = .error e) ∧ s = undone

namespace EndsIn

variable {start middle done undone : TestState Ledger}
  {ways ways' : Except TestingError α → TestState Ledger → Prop}

theorem pure (a : α) :
    EndsIn (σ := σ) (Pure.pure a) start fun r s => r = .ok a ∧ s = start := by
  rintro s hdrop hl
  exact ⟨.ok a, ⟨start.context, s⟩, rfl, hdrop, rfl, by rw [hl]⟩

theorem throw (e : TestingError) : EndsIn (σ := σ) (α := α) (MonadExcept.throw e) start
    fun r s => r = .error e ∧ s = start := by
  rintro s hdrop hl
  exact ⟨.error e, ⟨start.context, s⟩, rfl, hdrop, rfl, by rw [hl]⟩

theorem context : EndsIn (σ := σ) Testing.context start
    fun r s => r = .ok start.context ∧ s = start := by
  rintro s hdrop hl
  exact ⟨.ok start.context, ⟨start.context, s⟩, rfl, hdrop, rfl, by rw [hl]⟩

theorem nextMissing : EndsIn (σ := σ) Testing.nextMissing start
    fun _ s => s = ⟨start.context.nextMissing.2, start.store⟩ := by
  rintro s hdrop hl
  exact ⟨_, ⟨start.context.nextMissing.2, s⟩, rfl, hdrop, by rw [hl]⟩

theorem mono {m : Testing (FaultyStore σ) α} (h : EndsIn m start ways)
    (hways : ∀ r s, ways r s → ways' r s) : EndsIn m start ways' := by
  intro s hdrop hl
  obtain ⟨r, s', hrun, hdrop', hend⟩ := h s hdrop hl
  exact ⟨r, s', hrun, hdrop', hways _ _ hend⟩

/-- A sequence ends as its second part does, or as its first part does if that fails. -/
theorem bind {m : Testing (FaultyStore σ) α} {k : α → Testing (FaultyStore σ) β}
    {last : Except TestingError β → TestState Ledger → Prop} (h : EndsIn m start ways)
    (hok : ∀ a s, ways (.ok a) s → EndsIn (k a) s last)
    (herror : ∀ e s, ways (.error e) s → last (.error e) s) : EndsIn (m >>= k) start last := by
  intro s hdrop hl
  obtain ⟨r, s', hrun, hdrop', hend⟩ := h s hdrop hl
  rw [run_bind, hrun]
  cases r with
  | error e => exact ⟨.error e, s', rfl, hdrop', herror e _ hend⟩
  | ok a => exact hok a _ hend s'.store hdrop' rfl

/-- A part that looks at the context begins where it is begun. -/
theorem withContext {k : RunContext → Testing (FaultyStore σ) α}
    (h : EndsIn (k start.context) start ways) : EndsIn (Testing.context >>= k) start ways := by
  refine context.bind (fun c s hs => ?_) fun e s hs => (by cases hs.1)
  obtain ⟨hc, rfl⟩ := hs
  obtain rfl := Except.ok.inj hc
  exact h

/-- After a step, the rest decides how the sequence ends, unless the step fails. -/
theorem after_whole {m : Testing (FaultyStore σ) α} {k : α → Testing (FaultyStore σ) β} {a : α}
    {last : Except TestingError β → TestState Ledger → Prop}
    (h : EndsIn m start (Whole a middle undone)) (hk : EndsIn (k a) middle last)
    (hfail : ∀ e, last (.error e) undone) : EndsIn (m >>= k) start last := by
  refine h.bind (fun a' s hs => ?_) fun e s hs => ?_
  · obtain ⟨ha, rfl⟩ | ⟨⟨e, he⟩, -⟩ := hs
    · obtain rfl := Except.ok.inj ha
      exact hk
    · cases he
  · obtain ⟨ha, -⟩ | ⟨-, rfl⟩ := hs
    · cases ha
    · exact hfail e

/-- Steps that go back to the same state when they fail are one step. -/
theorem whole_bind {m : Testing (FaultyStore σ) α} {k : α → Testing (FaultyStore σ) β} {a : α} {b : β}
    (h : EndsIn m start (Whole a middle undone)) (hk : EndsIn (k a) middle (Whole b done undone)) :
    EndsIn (m >>= k) start (Whole b done undone) :=
  h.after_whole hk fun e => .inr ⟨⟨e, rfl⟩, rfl⟩

theorem whole_pure (a : α) : EndsIn (σ := σ) (Pure.pure a) start (Whole a start undone) :=
  (pure a).mono fun _ _ => .inl

/-- What is staged is dropped, and testing ends. -/
theorem abort [LawfulStore σ] (e : StoreError) (c : RunContext) (l : Ledger) :
    EndsIn (σ := σ) (α := α) (Testing.abort e) ⟨c, l⟩
      fun r s => r = .error (.store e) ∧ s = ⟨c, .ofTables l.tables⟩ := by
  rintro s hdrop rfl
  obtain ⟨hdrop', hledger⟩ := FaultyStore.rollback_run hdrop
  exact ⟨_, _, Interruption.run_abort e _, hdrop', rfl, congrArg (TestState.mk c) hledger⟩

section Calls

variable {act : StoreM σ α} {does : Ledger → α × Ledger} (h : Obeys act does)
  (kind : StoreCall) (note : Option String) (c : RunContext) (l : Ledger)
include h

/-- A call is carried out, or it fails and the ledger stays as it is. -/
theorem onStore : EndsIn (onStore (FaultyStore.call kind note act)) ⟨c, l⟩ fun r s =>
    (r = .ok (.ok (does l).1) ∧ s = ⟨c, (does l).2⟩) ∨ (∃ e, r = .ok (.error e)) ∧ s = ⟨c, l⟩ := by
  rintro s hdrop rfl
  obtain ⟨r, s', hcall, hdrop', hcase⟩ := FaultyStore.call_cases h kind note hdrop
  refine ⟨_, _, Interruption.run_onStore _ _, ?_⟩
  dsimp only
  rw [hcall]
  refine ⟨hdrop', ?_⟩
  obtain ⟨rfl, hl⟩ | ⟨⟨e, rfl⟩, hl⟩ := hcase
  · exact .inl ⟨rfl, by rw [hl]⟩
  · exact .inr ⟨⟨e, rfl⟩, by rw [hl]⟩

/-- After a call, the rest decides how the sequence ends, whether it fails or not. -/
theorem after_onStore {k : Except StoreError α → Testing (FaultyStore σ) β}
    {last : Except TestingError β → TestState Ledger → Prop}
    (hok : EndsIn (k (.ok (does l).1)) ⟨c, (does l).2⟩ last)
    (herror : ∀ e, EndsIn (k (.error e)) ⟨c, l⟩ last) :
    EndsIn (Testing.onStore (FaultyStore.call kind note act) >>= k) ⟨c, l⟩ last := by
  refine (onStore h kind note c l).bind (fun r s hs => ?_) fun e s hs => ?_
  · obtain ⟨hr, rfl⟩ | ⟨⟨e, hr⟩, rfl⟩ := hs
    · obtain rfl := Except.ok.inj hr
      exact hok
    · obtain rfl := Except.ok.inj hr
      exact herror e
  · obtain ⟨hr, -⟩ | ⟨⟨e', hr⟩, -⟩ := hs <;> cases hr

/-- A call is carried out, or it fails and what is staged is dropped. -/
theorem orAbort [LawfulStore σ] : EndsIn (Testing.orAbort (FaultyStore.call kind note act)) ⟨c, l⟩
    (Whole (does l).1 ⟨c, (does l).2⟩ ⟨c, .ofTables l.tables⟩) :=
  after_onStore h kind note c l (whole_pure _) fun e =>
    (abort e c l).mono fun _ _ hs => .inr ⟨⟨_, hs.1⟩, hs.2⟩

end Calls

section Steps

variable [LawfulStore σ] (c : RunContext) (l : Ledger) (t : Tables)

theorem stage (w : Write) : EndsIn (σ := σ) (Testing.orAbort (Datastore.stage w)) ⟨c, l⟩
    (Whole () ⟨c, l.stage w⟩ ⟨c, .ofTables l.tables⟩) :=
  orAbort (LawfulStore.stage w) _ _ c l

theorem commit (message : String) : EndsIn (σ := σ) (Testing.commit message) ⟨c, l⟩
    (Whole () ⟨c, l.settle⟩ ⟨c, .ofTables l.tables⟩) :=
  orAbort (LawfulStore.commit message) _ _ c l

theorem aggregate (r : RuntimeId) (p : PackageId) :
    EndsIn (σ := σ) (Testing.orAbort (Datastore.aggregate r p)) ⟨c, l⟩
      (Whole (l.tables.aggregate r p) ⟨c, (l.aggregate r p).2⟩ ⟨c, .ofTables l.tables⟩) :=
  orAbort (LawfulStore.aggregate r p) _ _ c l

/-- Writes are staged one after the other; if one of the calls fails, all are dropped. -/
theorem stageAll (ws : List Write) : EndsIn (σ := σ) (Testing.stageAll ws) ⟨c, l⟩
    (Whole () ⟨c, ⟨l.tables, l.staged ++ ws⟩⟩ ⟨c, .ofTables l.tables⟩) := by
  induction ws generalizing l with
  | nil =>
    rw [List.append_nil]
    exact whole_pure ()
  | cons w rest ih =>
    have hrest := ih (l.stage w)
    rw [Ledger.stage, List.append_assoc] at hrest
    exact (stage c l w).whole_bind hrest

/-- A batch of results is committed as a whole, with what is staged before it. -/
theorem flush_after {batch : List TestResult} (h : batch ≠ []) (message : String) :
    EndsIn (σ := σ) (Testing.flush batch message) ⟨c, l⟩
      (Whole batch.length ⟨c, (⟨l.tables, l.staged ++ batch.map .saveResult⟩ : Ledger).settle⟩
        ⟨c, .ofTables l.tables⟩) := by
  have hsome : ¬ batch.isEmpty = true := by simpa using h
  unfold Testing.flush
  rw [if_neg hsome]
  exact (stageAll c l _).whole_bind ((commit c _ message).whole_bind (whole_pure _))

theorem flush (batch : List TestResult) (message : String) :
    EndsIn (σ := σ) (Testing.flush batch message) ⟨c, .ofTables t⟩
      (Whole batch.length ⟨c, .ofTables (t.applyAll (batch.map .saveResult))⟩ ⟨c, .ofTables t⟩) := by
  cases batch with
  | nil => exact whole_pure 0
  | cons x rest => exact flush_after c (.ofTables t) (List.cons_ne_nil x rest) message

/-- So is the value of a metric. -/
theorem runMetric (plan : TestPlan) (o : OrganisationId) (document : Node) (place : Place)
    (b : MetricBinding) :
    EndsIn (σ := σ) (plan.runMetric o document place b) ⟨c, .ofTables t⟩
      (Whole 1 ⟨c, .ofTables (t.apply (.replaceInfo ⟨c.runtimeId, c.packageId, o, b.infoId,
        plan.metricValue c.now document place b.metric⟩))⟩ ⟨c, .ofTables t⟩) :=
  withContext ((stage c (.ofTables t) _).whole_bind ((commit c _ _).whole_bind (whole_pure 1)))

theorem recordValidity (code : Code) :
    EndsIn (σ := σ) (TestPlan.recordValidity code) ⟨c, l⟩
      (Whole () ⟨c, (l.stage (.saveResult (TestPlan.validity c code))).settle⟩
        ⟨c, .ofTables l.tables⟩) :=
  withContext ((flush_after c l (List.cons_ne_nil _ _) _).whole_bind (whole_pure ()))

/-- The aggregation and the status of a package are committed together. -/
theorem concludePackage :
    EndsIn (σ := σ) TestPlan.concludePackage ⟨c, .ofTables t⟩
      (Whole (t.aggregate c.runtimeId c.packageId) ⟨c, .ofTables (t.applyAll (closingCommit c t))⟩
        ⟨c, .ofTables t⟩) := by
  refine withContext ((aggregate c (.ofTables t) _ _).whole_bind ?_)
  exact (stage c _ _).whole_bind ((commit c _ _).whole_bind (whole_pure _))

end Steps

end EndsIn

namespace TestPlan

/-- A write that keeps an outcome of testing a package in a run: a result of a rule of the
plan, or the value of a metric. -/
def IsOutcome (plan : TestPlan) (c : RunContext) : Write → Prop
  | .saveResult x => x.runtimeId = c.runtimeId ∧ x.packageId = c.packageId ∧ plan.HasRule x
  | .replaceInfo x => x.runtimeId = c.runtimeId ∧ x.packageId = c.packageId
  | _ => False

/-- Outcomes have been committed, and identifiers made up. -/
def HasAdded (plan : TestPlan) (c : RunContext) (t : Tables) (s : TestState Ledger) : Prop :=
  ∃ n ws, (∀ w ∈ ws, plan.IsOutcome c w) ∧ s = ⟨c.madeUp n, .ofTables (t.applyAll ws)⟩

variable {plan : TestPlan} {c : RunContext} {t : Tables} {s s' : TestState Ledger}

theorem HasAdded.refl : plan.HasAdded c t ⟨c, .ofTables t⟩ := ⟨0, [], by simp, rfl⟩

theorem HasAdded.trans {n : Nat} {ws : List Write} (hws : ∀ w ∈ ws, plan.IsOutcome c w)
    (h : plan.HasAdded (c.madeUp n) (t.applyAll ws) s) : plan.HasAdded c t s := by
  obtain ⟨m, vs, hvs, rfl⟩ := h
  refine ⟨n + m, ws ++ vs, fun w hw => ?_, ?_⟩
  · rcases List.mem_append.1 hw with hw | hw
    · exact hws w hw
    · exact hvs w hw
  · rw [Tables.applyAll_append, RunContext.madeUp, RunContext.madeUp, RunContext.madeUp, Nat.add_assoc]

/-- However it ends, the part has committed outcomes and nothing else. -/
def Adds (plan : TestPlan) (m : Testing (FaultyStore σ) α) : Prop :=
  ∀ c t, EndsIn m ⟨c, .ofTables t⟩ fun _ s => plan.HasAdded c t s

namespace Adds

theorem pure (a : α) : plan.Adds (σ := σ) (Pure.pure a) :=
  fun _ _ => (EndsIn.pure a).mono fun _ _ hs => hs.2 ▸ .refl

theorem throw (e : TestingError) : plan.Adds (σ := σ) (α := α) (MonadExcept.throw e) :=
  fun _ _ => (EndsIn.throw e).mono fun _ _ hs => hs.2 ▸ .refl

theorem bind {m : Testing (FaultyStore σ) α} {k : α → Testing (FaultyStore σ) β}
    (h : plan.Adds m) (hk : ∀ a, plan.Adds (k a)) : plan.Adds (m >>= k) := by
  intro c t
  refine (h c t).bind (fun a s hs => ?_) fun e s hs => hs
  obtain ⟨n, ws, hws, rfl⟩ := hs
  exact (hk a _ _).mono fun r s hs => hs.trans hws

/-- Parts that are added up are looked at one by one. -/
theorem sum {γ : Type} {part : γ → Testing (FaultyStore σ) Nat} (h : ∀ a, plan.Adds (part a))
    (items : List γ) : plan.Adds (Testing.sum part items) := by
  induction items with
  | nil => exact pure 0
  | cons a rest ih => exact (h a).bind fun n => ih.bind fun m => pure (n + m)

end Adds

/-- The results that are kept of an activity and its transactions are outcomes. -/
theorem isOutcome_of_mem_activityVerdicts {forced : Bool} {document : Node} {activity : Place}
    {identifier : Option String} {h : Int64} {o : OrganisationId} {x : TestResult}
    (hx : x ∈ results c identifier h o (plan.activityVerdicts forced document activity)) :
    plan.IsOutcome c (.saveResult x) := by
  rw [results_activityVerdicts] at hx
  rcases List.mem_append.1 hx with hx | hx
  · obtain ⟨hrun, hpackage, -⟩ := belongsTo_resultsAt hx
    exact ⟨hrun, hpackage, hasRule_of_mem_resultsAt hx⟩
  · obtain ⟨transaction, -, hx⟩ := List.mem_flatMap.1 hx
    obtain ⟨hrun, hpackage, -⟩ := belongsTo_resultsAt hx
    exact ⟨hrun, hpackage, hasRule_of_mem_resultsAt hx⟩

/-- So are those of an organisation node. -/
theorem isOutcome_of_mem_verdicts {document : Node} {node : Place} {o : OrganisationId}
    {x : TestResult} {l : Level}
    (hx : x ∈ results c none 0 o (verdicts false document node (plan.rules.forLevel l))) :
    plan.IsOutcome c (.saveResult x) := by
  rw [results_verdicts] at hx
  obtain ⟨hrun, hpackage, -⟩ := belongsTo_resultsAt hx
  exact ⟨hrun, hpackage, hasRule_of_mem_resultsAt hx⟩

section Parts

variable [LawfulStore σ] (plan) (o : OrganisationId) (document : Node)

theorem endsIn_flush (c : RunContext) (t : Tables) {batch : List TestResult}
    (hbatch : ∀ x ∈ batch, plan.IsOutcome c (.saveResult x)) (message : String) :
    EndsIn (σ := σ) (Testing.flush batch message) ⟨c, .ofTables t⟩
      fun _ s => plan.HasAdded c t s := by
  refine (EndsIn.flush c t batch message).mono fun r s hs => ?_
  obtain ⟨-, rfl⟩ | ⟨-, rfl⟩ := hs
  · refine ⟨0, batch.map .saveResult, fun w hw => ?_, rfl⟩
    obtain ⟨x, hx, rfl⟩ := List.mem_map.1 hw
    exact hbatch x hx
  · exact .refl

theorem adds_testActivity (activity : Place) :
    plan.Adds (σ := σ) (plan.testActivity o document activity) := by
  intro c t
  have hflush (c : RunContext) (name : String) (forced : Bool) :
      EndsIn (σ := σ) (Testing.flush (results c (some name) (hierarchy activity.node) o
        (plan.activityVerdicts forced document activity)) ("Test activity " ++ name))
        ⟨c, .ofTables t⟩ fun _ s => plan.HasAdded c t s :=
    endsIn_flush plan c t (fun _ => isOutcome_of_mem_activityVerdicts) _
  unfold TestPlan.testActivity
  cases identifier? activity.node with
  | some name =>
    refine (EndsIn.pure name).bind (fun name' s hs => ?_) fun e s hs => (by cases hs.1)
    obtain ⟨-, rfl⟩ := hs
    exact EndsIn.withContext (hflush c name' false)
  | none =>
    refine EndsIn.nextMissing.bind (fun name s hs => ?_) fun e s hs => ?_
    · subst hs
      refine EndsIn.withContext ((hflush c.nextMissing.2 name true).mono fun r s hs => ?_)
      have hnone : ∀ w ∈ ([] : List Write), plan.IsOutcome c w := by simp
      exact HasAdded.trans (n := 1) hnone hs
    · subst hs
      exact ⟨1, [], by simp, rfl⟩

theorem adds_testOrganisation (node : Place) :
    plan.Adds (σ := σ) (plan.testOrganisation o document node) :=
  fun c t => EndsIn.withContext (endsIn_flush plan c t (fun _ => isOutcome_of_mem_verdicts) _)

theorem adds_runMetric (place : Place) (b : MetricBinding) :
    plan.Adds (σ := σ) (plan.runMetric o document place b) := by
  intro c t
  refine (EndsIn.runMetric c t plan o document place b).mono fun r s hs => ?_
  obtain ⟨-, rfl⟩ | ⟨-, rfl⟩ := hs
  · refine ⟨0, [.replaceInfo _], fun w hw => ?_, rfl⟩
    obtain rfl := List.mem_singleton.1 hw
    exact ⟨rfl, rfl⟩
  · exact .refl

theorem adds_runMetrics (level : Level) (place : Place) :
    plan.Adds (σ := σ) (plan.runMetrics o level document place) :=
  Adds.sum (adds_runMetric plan o document place) _

theorem adds_testNode (node : Place) : plan.Adds (σ := σ) (plan.testNode o document node) := by
  refine (adds_runMetrics plan o document .organisation node).bind fun infos => ?_
  exact (adds_testOrganisation plan o document node).bind fun results => .pure (results, infos)

theorem adds_testNodes (written : Nat × Nat) (nodes : List Place) :
    plan.Adds (σ := σ) (plan.testNodes o document written nodes) := by
  induction nodes generalizing written with
  | nil => exact .pure written
  | cons node rest ih => exact (adds_testNode plan o document node).bind fun n => ih _

theorem adds_testTarget (organisations : Selector) (g : Target) :
    plan.Adds (σ := σ) (plan.testTarget organisations document g) := by
  unfold TestPlan.testTarget
  cases Selector.parse g.activitiesSelector with
  | error e => exact .throw _
  | ok selector =>
    refine (Adds.sum (adds_testActivity plan g.organisationId document) _).bind fun results => ?_
    have hinfos := adds_runMetrics (σ := σ) plan g.organisationId document .activity (.top document)
    split
    · exact (Adds.pure 0).bind fun infos => adds_testNodes plan _ document _ _
    · exact hinfos.bind fun infos => adds_testNodes plan _ document _ _

theorem adds_testTargets (organisations : Selector) (written : Nat × Nat) (targets : List Target) :
    plan.Adds (σ := σ) (plan.testTargets organisations document written targets) := by
  induction targets generalizing written with
  | nil => exact .pure written
  | cons g rest ih => exact (adds_testTarget plan document organisations g).bind fun n => ih _

end Parts

end TestPlan

end DataQuality
