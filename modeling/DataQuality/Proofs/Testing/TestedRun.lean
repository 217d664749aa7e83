import DataQuality.Proofs.Testing.Freshness
import DataQuality.Proofs.Testing.Packages

/-!
# The record of the tested run

When a file has been tested, the run is recorded as the one in which the package was last tested. This
takes two calls on the store, and whether they fail does not change how the test ends. All that comes
before is put together from calls of its own: what it does depends on which of these calls fail, and
on no others. It records no run, so a run is recorded by these two calls or not at all.
-/
namespace DataQuality

open Markup (Node Place)

variable {σ α β : Type}

section Programs

variable [Datastore σ]

/-- A part of testing that is put together from calls on the store and the names it makes up. -/
inductive IsProgram : {α : Type} → Testing σ α → Prop
  | pure {α : Type} (a : α) : IsProgram (Pure.pure a : Testing σ α)
  | throw {α : Type} (e : TestingError) : IsProgram (MonadExcept.throw e : Testing σ α)
  | bind {α β : Type} {m : Testing σ α} {k : α → Testing σ β} (h : IsProgram m)
      (hk : ∀ a, IsProgram (k a)) : IsProgram (m >>= k)
  | context : IsProgram (Testing.context : Testing σ RunContext)
  | nextMissing : IsProgram (Testing.nextMissing : Testing σ String)
  | stage (w : Write) : IsProgram (Testing.onStore (Datastore.stage w : StoreM σ Unit))
  | commit (message : String) :
    IsProgram (Testing.onStore (Datastore.commit message : StoreM σ Unit))
  | rollback : IsProgram (Testing.onStore (Datastore.rollback : StoreM σ Unit))
  | organisationsOf (p : PackageId) :
    IsProgram (Testing.onStore (Datastore.organisationsOf p : StoreM σ (List Target)))
  | aggregate (r : RuntimeId) (p : PackageId) :
    IsProgram (Testing.onStore (Datastore.aggregate r p : StoreM σ (List AggregateRow)))

namespace IsProgram

theorem abort (e : StoreError) : IsProgram (Testing.abort e : Testing σ α) :=
  rollback.bind fun _ => throw (.store e)

theorem orAbort {call : StoreM σ α} (h : IsProgram (Testing.onStore call)) :
    IsProgram (Testing.orAbort call) := by
  refine h.bind fun r => ?_
  cases r with
  | ok a => exact pure a
  | error e => exact abort e

theorem commitAll (message : String) : IsProgram (Testing.commit message : Testing σ Unit) :=
  orAbort (commit message)

theorem sum {γ : Type} {part : γ → Testing σ Nat} (h : ∀ a, IsProgram (part a)) (items : List γ) :
    IsProgram (Testing.sum part items) := by
  induction items with
  | nil => exact pure 0
  | cons a rest ih => exact (h a).bind fun n => ih.bind fun m => pure (n + m)

theorem stageAll (ws : List Write) : IsProgram (Testing.stageAll ws : Testing σ Unit) := by
  induction ws with
  | nil => exact pure ()
  | cons w rest ih => exact (orAbort (stage w)).bind fun _ => ih

theorem flush (batch : List TestResult) (message : String) :
    IsProgram (Testing.flush batch message : Testing σ Nat) := by
  unfold Testing.flush
  split
  · exact pure 0
  · exact (stageAll _).bind fun _ => (commitAll message).bind fun _ => pure _

theorem recordValidity (code : Code) :
    IsProgram (TestPlan.recordValidity code : Testing σ Unit) :=
  context.bind fun _ => (flush _ _).bind fun _ => pure ()

theorem concludePackage : IsProgram (TestPlan.concludePackage : Testing σ (List AggregateRow)) := by
  refine context.bind fun c => (orAbort (aggregate _ _)).bind fun rows => ?_
  exact (orAbort (stage _)).bind fun _ => (commitAll _).bind fun _ => pure rows

variable (plan : TestPlan) (o : OrganisationId) (document : Node)

theorem testActivity (activity : Place) :
    IsProgram (plan.testActivity o document activity : Testing σ Nat) := by
  have hflush (batch : RunContext → List TestResult) (message : String) :
      IsProgram (Testing.context >>= fun c => Testing.flush (batch c) message : Testing σ Nat) :=
    context.bind fun c => flush (batch c) message
  unfold TestPlan.testActivity
  cases TestPlan.identifier? activity.node with
  | some name => exact (pure name).bind fun name => hflush _ _
  | none => exact nextMissing.bind fun name => hflush _ _

theorem testOrganisation (node : Place) :
    IsProgram (plan.testOrganisation o document node : Testing σ Nat) :=
  context.bind fun _ => flush _ _

theorem runMetrics (level : Level) (place : Place) :
    IsProgram (plan.runMetrics o level document place : Testing σ Nat) :=
  sum (fun _ => context.bind fun _ => (orAbort (stage _)).bind fun _ =>
    (commitAll _).bind fun _ => pure 1) _

theorem testNodes (written : Nat × Nat) (nodes : List Place) :
    IsProgram (plan.testNodes o document written nodes : Testing σ (Nat × Nat)) := by
  induction nodes generalizing written with
  | nil => exact pure written
  | cons node rest ih =>
    have hnode : IsProgram (plan.testNode o document node : Testing σ (Nat × Nat)) :=
      (runMetrics plan o document .organisation node).bind fun infos =>
        (testOrganisation plan o document node).bind fun results => pure (results, infos)
    exact hnode.bind fun n => ih _

theorem testTarget (organisations : Selector) (t : Target) :
    IsProgram (plan.testTarget organisations document t : Testing σ (Nat × Nat)) := by
  unfold TestPlan.testTarget
  cases Selector.parse t.activitiesSelector with
  | error e => exact throw _
  | ok selector =>
    refine (sum (testActivity plan t.organisationId document) _).bind fun results => ?_
    have hinfos := runMetrics (σ := σ) plan t.organisationId document .activity (.top document)
    split
    · exact (pure 0).bind fun infos => testNodes plan _ document _ _
    · exact hinfos.bind fun infos => testNodes plan _ document _ _

theorem testTargets (organisations : Selector) (written : Nat × Nat) (targets : List Target) :
    IsProgram (plan.testTargets organisations document written targets : Testing σ (Nat × Nat)) := by
  induction targets generalizing written with
  | nil => exact pure written
  | cons t rest ih => exact (testTarget plan document organisations t).bind fun n => ih _

theorem checkDocument : IsProgram (plan.checkDocument document : Testing σ PackageOutcome) := by
  refine context.bind fun c => (organisationsOf c.packageId).bind fun r => ?_
  rcases r with e | _ | ⟨t, rest⟩
  · exact throw _
  · exact throw _
  dsimp only
  cases Selector.parse plan.organisationSelector with
  | error e => exact throw _
  | ok organisations =>
    refine (testTargets plan document organisations _ _).bind fun written => ?_
    exact concludePackage.bind fun rows => pure _

theorem checkContent (text? : Option String) :
    IsProgram (plan.checkContent text? : Testing σ PackageOutcome) := by
  unfold TestPlan.checkContent TestPlan.checkText
  cases text? with
  | none => exact (recordValidity .fail).bind fun _ => pure _
  | some text =>
    dsimp only
    cases Markup.parse? text with
    | none => exact (recordValidity .fail).bind fun _ => pure _
    | some document => exact (recordValidity .pass).bind fun _ => checkDocument plan document

theorem clearResults : IsProgram (plan.clearResults : Testing σ Unit) := by
  unfold TestPlan.clearResults
  split
  · exact context.bind fun _ => (orAbort (stage _)).bind fun _ => commitAll _
  · exact pure ()

end IsProgram

end Programs

namespace FaultyStore

/-- The store, if these calls were to fail. -/
def withPlan (s : FaultyStore σ) (plan : List (StoreCall × Nat)) : FaultyStore σ :=
  { s with plan := plan }

/-- Of the calls that are made after some and up to others, the same ones fail under either plan. -/
def Alike (plan plan' : List (StoreCall × Nat)) (before after : List StoreCall) : Prop :=
  ∀ kind n, before.count kind < n → n ≤ after.count kind → ((kind, n) ∈ plan ↔ (kind, n) ∈ plan')

theorem calls_call (kind : StoreCall) (note : Option String) (act : StoreM σ α)
    (s : FaultyStore σ) : ((call kind note act).run s).2.calls = kind :: s.calls := by
  change (if _ then _ else _ : Except StoreError α × FaultyStore σ).2.calls = _
  split <;> rfl

/-- A call fails under both plans, or it is made on the inner store under both. -/
theorem call_withPlan {kind : StoreCall} {s : FaultyStore σ} {plan' : List (StoreCall × Nat)}
    (note : Option String) (act : StoreM σ α)
    (h : (kind, s.calls.count kind + 1) ∈ s.plan ↔ (kind, s.calls.count kind + 1) ∈ plan') :
    (call kind note act).run (s.withPlan plan') =
      (((call kind note act).run s).1, ((call kind note act).run s).2.withPlan plan') := by
  have hcontains : plan'.contains (kind, s.calls.count kind + 1) =
      s.plan.contains (kind, s.calls.count kind + 1) := by
    rw [Bool.eq_iff_iff, List.contains_iff_mem, List.contains_iff_mem, h]
  change (if plan'.contains (kind, s.calls.count kind + 1) = true then _ else _) =
    ((if s.plan.contains (kind, s.calls.count kind + 1) = true then _ else _ :
        Except StoreError α × FaultyStore σ).1,
      (if s.plan.contains (kind, s.calls.count kind + 1) = true then _ else _ :
        Except StoreError α × FaultyStore σ).2.withPlan plan')
  rw [hcontains]
  split <;> rfl

end FaultyStore

/-- The state, if these calls were to fail. -/
def TestState.withPlan (t : TestState (FaultyStore σ)) (plan : List (StoreCall × Nat)) :
    TestState (FaultyStore σ) :=
  ⟨t.context, t.store.withPlan plan⟩

/-- A part of testing keeps the plan of failing calls, and does the same under every plan that agrees
on the calls it makes. -/
structure SeesOwnCalls (m : Testing (FaultyStore σ) α) : Prop where
  plan (t : TestState (FaultyStore σ)) : (m.run t).2.store.plan = t.store.plan
  calls (t : TestState (FaultyStore σ)) : t.store.calls <:+ (m.run t).2.store.calls
  alike (t : TestState (FaultyStore σ)) (plan' : List (StoreCall × Nat))
    (h : FaultyStore.Alike t.store.plan plan' t.store.calls (m.run t).2.store.calls) :
    m.run (t.withPlan plan') = ((m.run t).1, (m.run t).2.withPlan plan')

namespace SeesOwnCalls

/-- A part that looks at the context alone makes no calls. -/
theorem of_context {m : Testing (FaultyStore σ) α} (result : RunContext → Except TestingError α)
    (next : RunContext → RunContext)
    (h : ∀ t, m.run t = (result t.context, ⟨next t.context, t.store⟩)) : SeesOwnCalls m where
  plan t := by rw [h]
  calls t := by rw [h]
  alike t plan' _ := by
    rw [h, h]
    rfl

theorem bind {m : Testing (FaultyStore σ) α} {k : α → Testing (FaultyStore σ) β}
    (h : SeesOwnCalls m) (hk : ∀ a, SeesOwnCalls (k a)) : SeesOwnCalls (m >>= k) := by
  constructor
  · intro t
    have hplan := h.plan t
    rw [run_bind]
    rcases hm : m.run t with ⟨e | a, t₁⟩
    · rw [hm] at hplan
      exact hplan
    · rw [hm] at hplan
      exact ((hk a).plan t₁).trans hplan
  · intro t
    have hcalls := h.calls t
    rw [run_bind]
    rcases hm : m.run t with ⟨e | a, t₁⟩
    · rw [hm] at hcalls
      exact hcalls
    · rw [hm] at hcalls
      exact hcalls.trans ((hk a).calls t₁)
  · intro t plan' hsame
    have hplan := h.plan t
    have hcalls := h.calls t
    have halike := h.alike t plan'
    rw [run_bind] at hsame ⊢
    rw [run_bind]
    rcases hm : m.run t with ⟨e | a, t₁⟩
    · rw [hm] at halike hsame
      rw [halike hsame]
    · -- both parts make calls of the whole
      rw [hm] at halike hsame hcalls hplan
      have hcalls₁ := (hk a).calls t₁
      have hfirst : FaultyStore.Alike t.store.plan plan' t.store.calls t₁.store.calls :=
        fun kind n hn hle => hsame kind n hn (hle.trans (hcalls₁.sublist.count_le kind))
      have hsecond : FaultyStore.Alike t₁.store.plan plan' t₁.store.calls
          ((k a).run t₁).2.store.calls := by
        intro kind n hn hle
        rw [hplan]
        exact hsame kind n ((hcalls.sublist.count_le kind).trans_lt hn) hle
      rw [halike hfirst]
      exact (hk a).alike t₁ plan' hsecond

theorem onStore (kind : StoreCall) (note : Option String) (act : StoreM σ α) :
    SeesOwnCalls (Testing.onStore (FaultyStore.call kind note act)) := by
  constructor
  · intro t
    obtain ⟨s', hplan, ⟨-, -, e, hrun⟩ | ⟨-, hrun⟩⟩ := FaultyStore.call_run kind note act t.store
    · rw [Interruption.run_onStore, hrun]
      exact hplan
    · rw [Interruption.run_onStore, hrun]
      exact hplan
  · intro t
    rw [Interruption.run_onStore]
    exact FaultyStore.calls_call kind note act t.store ▸ List.suffix_cons kind t.store.calls
  · intro t plan' hsame
    have hown : (kind, t.store.calls.count kind + 1) ∈ t.store.plan ↔
        (kind, t.store.calls.count kind + 1) ∈ plan' := by
      refine hsame kind _ (Nat.lt_succ_self _) ?_
      rw [Interruption.run_onStore, FaultyStore.calls_call, List.count_cons_self]
    rw [Interruption.run_onStore, Interruption.run_onStore]
    unfold TestState.withPlan
    rw [FaultyStore.call_withPlan note act hown]

variable [Datastore σ]

theorem of_isProgram {m : Testing (FaultyStore σ) α} (h : IsProgram m) : SeesOwnCalls m := by
  induction h with
  | pure a => exact of_context (fun _ => .ok a) id fun _ => rfl
  | throw e => exact of_context (fun _ => .error e) id fun _ => rfl
  | bind _ _ ih ihk => exact ih.bind ihk
  | context => exact of_context .ok id fun _ => rfl
  | nextMissing =>
    exact of_context (fun c => .ok c.nextMissing.1) (fun c => c.nextMissing.2) fun _ => rfl
  | stage w => exact onStore _ _ _
  | commit message => exact onStore _ _ _
  | rollback => exact onStore _ _ _
  | organisationsOf p => exact onStore _ _ _
  | aggregate r p => exact onStore _ _ _

end SeesOwnCalls

namespace TestPlan

variable (plan : TestPlan)

/-- Tests a file, up to the record of the tested run. -/
def testFile [Datastore σ] (read : σ → Option String) : Testing σ PackageOutcome :=
  plan.clearResults >>= fun _ => get >>= fun s => plan.checkContent (read s.store)

/-- The run is recorded at the end, if the test has not failed. -/
theorem checkFile_eq_testFile [Datastore σ] (read : σ → Option String) :
    plan.checkFile read =
      plan.testFile read >>= fun outcome => recordTestrun >>= fun _ => pure outcome := by
  simp only [checkFile_eq, testFile, checkRead_eq, bind_assoc]

theorem seesOwnCalls_testFile [Datastore σ] (read : σ → Option String) :
    SeesOwnCalls (plan.testFile fun s : FaultyStore σ => read s.inner) := by
  refine (SeesOwnCalls.of_isProgram (.clearResults plan)).bind fun _ => ?_
  have hcontent (text? : Option String) :
      SeesOwnCalls (σ := σ) (plan.checkContent text?) := .of_isProgram (.checkContent plan text?)
  exact ⟨fun t => (hcontent _).plan t, fun t => (hcontent _).calls t,
    fun t plan' h => (hcontent _).alike t plan' h⟩

/-- The tables have been changed, but no run has been recorded in them. -/
def KeepsMarks (c : RunContext) (t : Tables) (s : TestState Ledger) : Prop :=
  ∃ n t', t'.tested = t.tested ∧ s = ⟨c.madeUp n, .ofTables t'⟩

variable {plan} {c : RunContext} {t : Tables} {s : TestState Ledger}

theorem KeepsMarks.committed {t' : Tables} (ht : t'.tested = t.tested) :
    KeepsMarks c t ⟨c, .ofTables t'⟩ := ⟨0, t', ht, rfl⟩

theorem KeepsMarks.of_eq {t' : Tables} (ht : t'.tested = t.tested) (h : KeepsMarks c t' s) :
    KeepsMarks c t s := by
  obtain ⟨n, t'', ht', hs⟩ := h
  exact ⟨n, t'', ht'.trans ht, hs⟩

/-- Outcomes leave the recorded runs as they are. -/
theorem tested_applyAll {ws : List Write} (h : ∀ w ∈ ws, plan.IsOutcome c w) (t : Tables) :
    (t.applyAll ws).tested = t.tested := by
  induction ws generalizing t with
  | nil => rfl
  | cons w rest ih =>
    refine (ih (fun v hv => h v (List.mem_cons_of_mem w hv)) (t.apply w)).trans ?_
    have hw := h w List.mem_cons_self
    cases w with
    | saveResult x => rfl
    | replaceInfo x => rfl
    | _ => exact hw.elim

/-- So does the conclusion of a package. -/
theorem Concludes.keepsMarks {r : Except TestingError PackageOutcome} (h : plan.Concludes c t r s) :
    KeepsMarks c t s := by
  obtain ⟨n, ws, hws, ⟨_, _, -, rfl⟩ | ⟨-, rfl⟩⟩ := h
  · exact ⟨n, (t.applyAll ws).applyAll (closingCommit c _), tested_applyAll hws t, rfl⟩
  · exact ⟨n, t.applyAll ws, tested_applyAll hws t, rfl⟩

section Ends

variable [Datastore σ] [LawfulStore σ] (plan)

theorem endsIn_checkContent (text? : Option String) (c : RunContext) (t : Tables) :
    EndsIn (σ := σ) (plan.checkContent text?) ⟨c, .ofTables t⟩ fun _ s => KeepsMarks c t s := by
  cases text? with
  | some text =>
    refine (endsIn_checkText_after plan text c (.ofTables t)).mono fun r s hs => ?_
    obtain hs | ⟨-, rfl⟩ | ⟨-, rfl⟩ := hs
    · exact hs.keepsMarks.of_eq rfl
    · exact .committed rfl
    · exact .committed rfl
  | none =>
    refine (EndsIn.recordValidity c (.ofTables t) .fail).after_whole ?_ fun e => .committed rfl
    refine (EndsIn.pure _).mono fun r s hs => ?_
    rw [hs.2]
    exact .committed rfl

/-- Before the record of the tested run, no run is recorded. -/
theorem endsIn_testFile (read : FaultyStore σ → Option String) (c : RunContext) (t : Tables) :
    EndsIn (plan.testFile read) ⟨c, .ofTables t⟩ fun _ s => KeepsMarks c t s := by
  have hrest (t : Tables) : EndsIn (MonadState.get >>= fun s => plan.checkContent (read s.store))
      ⟨c, .ofTables t⟩ fun _ s => KeepsMarks c t s :=
    EndsIn.get fun s => endsIn_checkContent plan (read s.store) c t
  unfold testFile clearResults
  cases plan.removeResults with
  | false => exact hrest t
  | true =>
    refine EndsIn.after_whole (EndsIn.withContext ((EndsIn.stage c (.ofTables t) _).whole_bind
      (EndsIn.commit c _ _))) ?_ fun e => .committed rfl
    exact (hrest _).mono fun r s hs => hs.of_eq rfl

end Ends

/-- What staging the record of the tested run gives, and the store after it. -/
def stageMark [Datastore σ] (c : RunContext) (s : σ) : Except StoreError Unit × σ :=
  (Datastore.stage (.recordTestrun c.packageId c.runtimeId) : StoreM σ Unit).run s

/-- What committing the record gives, and the store after it. -/
def commitMark [Datastore σ] (c : RunContext) (s : σ) : Except StoreError Unit × σ :=
  (Datastore.commit "Record tested run" : StoreM σ Unit).run (stageMark c s).2

/-- Neither of the two calls that record the tested run fails. -/
def IsMarked [Datastore σ] (c : RunContext) (s : σ) : Prop :=
  (stageMark c s).1 = .ok () ∧ (commitMark c s).1 = .ok ()

/-- The record of the tested run never fails. Its second call is made if the first has not failed. -/
theorem recordTestrun_run [Datastore σ] (t : TestState σ) :
    (recordTestrun (σ := σ)).run t =
      (.ok (), match stageMark t.context t.store with
        | (.error _, s) => { t with store := s }
        | (.ok _, s) => ((Testing.commit "Record tested run").run { t with store := s }).2) := by
  have hcontext : Testing.context.run t = (.ok t.context, t) := rfl
  unfold recordTestrun
  rw [run_bind, hcontext]
  dsimp only
  rw [run_quietly, run_bind, Interruption.run_onStore]
  congr 1
  unfold stageMark
  generalize (Datastore.stage _ : StoreM σ Unit).run t.store = staged
  rcases staged with ⟨e | u, s⟩ <;> rfl

theorem run_orAbort [Datastore σ] (call : StoreM σ α) (t : TestState σ) :
    (Testing.orAbort call).run t =
      match call.run t.store with
      | (.ok a, s) => (.ok a, { t with store := s })
      | (.error e, s) => (.error (.store e), { t with
          store := ((Datastore.rollback : StoreM σ Unit).run s).2 }) := by
  unfold Testing.orAbort
  rw [run_bind, Interruption.run_onStore]
  rcases call.run t.store with ⟨e | a, s⟩
  · exact Interruption.run_abort e _
  · rfl

section Mark

variable [Datastore σ] [LawfulStore σ] {tables : Tables}

/-- After the record of the tested run, the run is recorded if neither of its calls has failed, and
nothing has changed otherwise. -/
theorem ledger_recordTestrun {c : RunContext} {s : FaultyStore σ} (hdrop : s.CanDrop)
    (hl : Datastore.ledger s = .ofTables tables) :
    let after := Datastore.ledger ((recordTestrun (σ := FaultyStore σ)).run ⟨c, s⟩).2.store
    (IsMarked c s → after = .ofTables (tables.apply (.recordTestrun c.packageId c.runtimeId))) ∧
      (¬ IsMarked c s → after = .ofTables tables) := by
  obtain ⟨r, s₁, hstage, hdrop₁, hcase⟩ := FaultyStore.call_cases
    (LawfulStore.stage (.recordTestrun c.packageId c.runtimeId)) _ none hdrop
  have hstaged : stageMark c s = (r, s₁) := hstage
  rw [recordTestrun_run, hstaged]
  rw [hl] at hcase
  obtain ⟨rfl, hl₁⟩ | ⟨⟨e, rfl⟩, hl₁⟩ := hcase
  · obtain ⟨r, s₂, hcommit, hdrop₂, hcase⟩ := FaultyStore.call_cases
      (LawfulStore.commit "Record tested run") .commit (some "commit Record tested run") hdrop₁
    have hrun : (Datastore.commit "Record tested run").run s₁ = (r, s₂) := hcommit
    have hcommitted : commitMark c s = (r, s₂) := by
      unfold commitMark
      rw [hstaged, hrun]
    dsimp only
    unfold Testing.commit
    rw [run_orAbort, hrun]
    rw [hl₁] at hcase
    obtain ⟨rfl, hl₂⟩ | ⟨⟨e, rfl⟩, hl₂⟩ := hcase
    · have hmarked : IsMarked c s := ⟨by rw [hstaged], by rw [hcommitted]⟩
      exact ⟨fun _ => hl₂, fun h => absurd hmarked h⟩
    · have hnot : ¬ IsMarked c s := by
        rintro ⟨-, h⟩
        rw [hcommitted] at h
        cases h
      refine ⟨fun h => absurd h hnot, fun _ => ?_⟩
      exact (FaultyStore.rollback_run hdrop₂).2.trans (by rw [hl₂]; rfl)
  · have hnot : ¬ IsMarked c s := by
      rintro ⟨h, -⟩
      rw [hstaged] at h
      cases h
    exact ⟨fun h => absurd h hnot, fun _ => hl₁⟩

end Mark

/-- The outcome is decided before the run is recorded. -/
theorem checkFile_run [Datastore σ] (plan : TestPlan) (read : σ → Option String) (t : TestState σ) :
    (plan.checkFile read).run t =
      match (plan.testFile read).run t with
      | (.error e, u) => (.error e, u)
      | (.ok outcome, u) => (.ok outcome, ((recordTestrun (σ := σ)).run u).2) := by
  rw [checkFile_eq_testFile, run_bind]
  rcases (plan.testFile read).run t with ⟨e | outcome, u⟩
  · rfl
  · dsimp only
    rw [run_bind, recordTestrun_run]
    rfl

theorem checkFile_result [Datastore σ] (plan : TestPlan) (read : σ → Option String)
    (t : TestState σ) : ((plan.checkFile read).run t).1 = ((plan.testFile read).run t).1 := by
  rw [checkFile_run]
  rcases (plan.testFile read).run t with ⟨e | outcome, u⟩ <;> rfl

/-- The two calls that record the tested run, by their numbers on this store. -/
def markCalls (s : FaultyStore σ) : List (StoreCall × Nat) :=
  [(.recordTestrun, s.calls.count .recordTestrun + 1), (.commit, s.calls.count .commit + 1)]

/-- The calls of the record come after all that were made before. -/
theorem lt_of_mem_markCalls {s : FaultyStore σ} {kind : StoreCall} {n : Nat}
    (h : (kind, n) ∈ markCalls s) : s.calls.count kind < n := by
  simp only [markCalls, List.mem_cons, Prod.mk.injEq, List.not_mem_nil, or_false] at h
  rcases h with ⟨rfl, rfl⟩ | ⟨rfl, rfl⟩ <;> exact Nat.lt_succ_self _

/-- Whatever calls fail while a file is tested, but the dropping of writes: the test ends as it would
if other calls of the two that record the tested run were to fail, or none. If it has not failed, and
neither of the two has, the run is the one in which the package was last tested. Otherwise that is the
run it was before, and so it is for every other package. -/
theorem checkFile_records_testedRun [Datastore σ] [LawfulStore σ] (plan : TestPlan) (c : RunContext)
    (s : FaultyStore σ) (read : σ → Option String)
    (hdrop : ∀ n, (StoreCall.rollback, n) ∉ s.plan) (hs : (Datastore.ledger s).staged = []) :
    let check (s : FaultyStore σ) := (plan.checkFile fun s => read s.inner).run ⟨c, s⟩
    let tested := ((plan.testFile fun s : FaultyStore σ => read s.inner).run ⟨c, s⟩).2.store
    let before := (Datastore.ledger s).tables
    let after := (Datastore.ledger (check s).2.store).tables
    (∀ fails, (∀ call, call ∉ markCalls tested → (call ∈ fails ↔ call ∈ s.plan)) →
      (check (s.withPlan fails)).1 = (check s).1) ∧
    ((check s).1.isOk = true → IsMarked c tested →
      after.lastTestedRun? c.packageId = some c.runtimeId) ∧
    (¬ ((check s).1.isOk = true ∧ IsMarked c tested) →
      after.lastTestedRun? c.packageId = before.lastTestedRun? c.packageId) ∧
    ∀ p, p ≠ c.packageId → after.lastTestedRun? p = before.lastTestedRun? p := by
  intro check tested before after
  have hsettled : Datastore.ledger s = .ofTables before := by
    unfold before Ledger.ofTables
    rw [← hs]
  obtain ⟨r, u, hrun, hdrop', n, t, ht, hu⟩ := endsIn_testFile plan
    (fun s : FaultyStore σ => read s.inner) c before s hdrop hsettled
  obtain ⟨hcontext, hledger⟩ := TestState.mk.inj hu
  have htested : tested = u.store := congrArg (fun x => x.2.store) hrun
  have hsame (p : PackageId) : t.lastTestedRun? p = before.lastTestedRun? p := by
    unfold Tables.lastTestedRun?
    rw [ht]
  have hcheck : check s = _ := checkFile_run plan _ ⟨c, s⟩
  rw [hrun] at hcheck
  refine ⟨fun fails hfails => ?_, ?_⟩
  · have halike := (seesOwnCalls_testFile plan read).alike ⟨c, s⟩ fails fun kind n _ hle =>
      (hfails (kind, n) fun hmem => absurd (lt_of_mem_markCalls hmem) (not_lt.2 hle)).symm
    calc (check (s.withPlan fails)).1
        = ((plan.testFile fun s => read s.inner).run (TestState.withPlan ⟨c, s⟩ fails)).1 :=
          checkFile_result plan _ _
      _ = ((plan.testFile fun s => read s.inner).run ⟨c, s⟩).1 := by rw [halike]
      _ = (check s).1 := (checkFile_result plan _ _).symm
  cases r with
  | error e =>
    have hafter : after = t := by
      unfold after
      rw [hcheck, hledger]
      rfl
    rw [hcheck, hafter]
    exact ⟨fun hok => (by cases hok), fun _ => hsame _, fun p _ => hsame p⟩
  | ok outcome =>
    obtain ⟨hmarked, hunmarked⟩ := ledger_recordTestrun (c := u.context) hdrop' hledger
    have hafter : after =
        (Datastore.ledger ((recordTestrun : Testing (FaultyStore σ) Unit).run u).2.store).tables := by
      unfold after
      rw [hcheck]
    have hiff : IsMarked u.context u.store ↔ IsMarked c tested := by
      rw [hcontext, htested]
      rfl
    rw [hcheck]
    by_cases h : IsMarked c tested
    · rw [hafter, hmarked (hiff.2 h), hcontext]
      refine ⟨fun _ _ => Keyed.get?_insert_self _ _ _ _, fun hnot => absurd ⟨rfl, h⟩ hnot,
        fun p hp => ?_⟩
      exact (Keyed.get?_insert_of_ne hp _ _).trans (hsame p)
    · rw [hafter, hunmarked (hiff.not.2 h)]
      exact ⟨fun _ hmark => absurd hmark h, fun _ => hsame _, fun p _ => hsame p⟩

/-- A file without a text is tested, and the commit of the record fails: the second one of all. -/
theorem checkFile_records_testedRun_unmarked :
    let plan : TestPlan := ⟨.empty, false, "//b", .empty, none⟩
    let c := RunContext.start ⟨3⟩ ⟨9⟩ ⟨0, 0⟩
    let s : FaultyStore MemoryStore := .around .empty [(.commit, 2)]
    let check (s : FaultyStore MemoryStore) := (plan.checkFile fun _ => none).run ⟨c, s⟩
    let after := (Datastore.ledger (check s).2.store).tables
    (∀ n, (StoreCall.rollback, n) ∉ s.plan) ∧ (Datastore.ledger s).staged = [] ∧
      (check s).1 = .ok .invalidDocument ∧ (check (s.withPlan [])).1 = (check s).1 ∧
      after.lastTestedRun? c.packageId = none := by
  intro plan c s check after
  have hdrop : ∀ n, (StoreCall.rollback, n) ∉ s.plan := by simp [s, FaultyStore.around]
  obtain ⟨hsame, -, hunmarked, -⟩ := checkFile_records_testedRun plan c s (fun _ => none) hdrop rfl
  let tested := ((plan.testFile fun _ : FaultyStore MemoryStore => none).run ⟨c, s⟩).2.store
  have hcalls : markCalls tested = [(.recordTestrun, 1), (.commit, 2)] := by decide +kernel
  have hoff : ¬ IsMarked c tested := by
    rintro ⟨-, h⟩
    revert h
    decide +kernel
  refine ⟨hdrop, rfl, by decide +kernel, hsame [] fun call hcall => ?_, hunmarked fun h => hoff h.2⟩
  change call ∉ markCalls tested at hcall
  rw [hcalls] at hcall
  simp only [List.mem_cons, List.not_mem_nil, or_false, not_or] at hcall
  simp [s, FaultyStore.around, hcall]

end TestPlan

end DataQuality
