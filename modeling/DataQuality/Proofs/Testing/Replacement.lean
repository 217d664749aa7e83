import DataQuality.Proofs.Testing.Packages

/-!
# Retesting

When earlier results are to be removed, testing a file replaces the results of its package. What it
leaves does not depend on what was there: it is the same as if the results had been removed before.
The results of all other packages stay, and so do the runs and the organisations.
-/
namespace DataQuality

open Markup (Node Place)

namespace Write

/-- The results that some writes save, in order. -/
def savedResults (ws : List Write) : List TestResult :=
  ws.filterMap fun
    | .saveResult x => some x
    | _ => none

/-- What is saved by writes about a package are results of it. -/
theorem packageId_of_mem_savedResults {p : PackageId} {ws : List Write} (h : ∀ w ∈ ws, w.IsAbout p)
    {x : TestResult} (hx : x ∈ savedResults ws) : x.packageId = p := by
  obtain ⟨w, hw, hsaved⟩ := List.mem_filterMap.1 hx
  cases w with
  | saveResult y =>
    obtain rfl := Option.some.inj hsaved
    exact h _ hw
  | _ => cases hsaved

end Write

namespace Tables

/-- Results that have been deleted cannot be deleted again. -/
theorem deleteResults_deleteResults (t : Tables) (p : PackageId) :
    (t.apply (.deleteResults p)).apply (.deleteResults p) = t.apply (.deleteResults p) := by
  have hresults : (t.results.filter (·.packageId != p)).filter (·.packageId != p) =
      t.results.filter (·.packageId != p) := by
    rw [List.filter_filter]
    simp only [Bool.and_self]
  exact congrArg (fun results => { t with results := results }) hresults

/-- Without deletions, what is saved comes after what is there. -/
theorem results_applyAll {ws : List Write} (h : ∀ w ∈ ws, ∀ p, w ≠ .deleteResults p) (t : Tables) :
    (t.applyAll ws).results = t.results ++ Write.savedResults ws := by
  induction ws generalizing t with
  | nil => exact (List.append_nil _).symm
  | cons w rest ih =>
    refine (ih (fun v hv => h v (List.mem_cons_of_mem w hv)) (t.apply w)).trans ?_
    cases w with
    | saveResult x => exact List.append_assoc t.results [x] _
    | deleteResults p => exact absurd rfl (h _ List.mem_cons_self p)
    | _ => rfl

/-- If a package has no results, it has those that are saved for it. -/
theorem resultsOf_applyAll_of_none {t : Tables} {p : PackageId} {ws : List Write}
    (hnone : t.resultsOf p = []) (habout : ∀ w ∈ ws, w.IsAbout p)
    (hkeep : ∀ w ∈ ws, ∀ q, w ≠ .deleteResults q) :
    (t.applyAll ws).resultsOf p = Write.savedResults ws := by
  have hall : (Write.savedResults ws).filter (·.packageId == p) = Write.savedResults ws :=
    List.filter_eq_self.2 fun x hx => beq_iff_eq.2 (Write.packageId_of_mem_savedResults habout hx)
  unfold resultsOf at hnone ⊢
  rw [results_applyAll hkeep, List.filter_append, hnone, hall, List.nil_append]

end Tables

namespace TestPlan

/-- The test of a file deletes nothing once earlier results have been removed. -/
theorem ne_deleteResults_of_mem_fileWrites {plan : TestPlan} {c : RunContext} {targets : List Target}
    {t : Tables} {document? : Option Node} {w : Write}
    (hw : w ∈ plan.fileWrites c targets t document?) (p : PackageId) : w ≠ .deleteResults p := by
  rintro rfl
  rcases List.mem_append.1 hw with hw | hw
  · cases document? with
    | none => cases List.mem_singleton.1 hw
    | some document =>
      have hfound : Write.deleteResults p ∉
          Write.saveResult (validity c .pass) :: plan.documentWrites c targets document := by
        intro hmem
        rcases List.mem_cons.1 hmem with h | h
        · cases h
        · exact isOutcome_of_mem_documentWrites h
      unfold contentWrites at hw
      dsimp only at hw
      split at hw
      · rcases List.mem_append.1 hw with hw | hw
        · exact hfound hw
        · simp [closingCommit] at hw
      · exact hfound hw
  · split at hw
    · cases List.mem_singleton.1 hw
    · cases hw

end TestPlan

/-- The removal of earlier results is one commit. -/
theorem Makes.removeResults {σ : Type} [Datastore σ] {After : List (List Write) → σ → Prop}
    (hstore : Reliable σ After) {plan : TestPlan} (hremove : plan.removeResults = true) {c : RunContext}
    (t : Tables) :
    Makes After plan.clearResults ⟨c, .ofTables t⟩ ()
      ⟨c, .ofTables (t.apply (.deleteResults c.packageId))⟩ [[.deleteResults c.packageId]] := by
  unfold TestPlan.clearResults
  rw [hremove, if_pos rfl]
  exact Makes.context.bind ((Makes.stage hstore _).bind (Makes.commit hstore _))

namespace TestPlan

section Replacement

variable {σ : Type} [Datastore σ] {After : List (List Write) → σ → Prop}

/-- Begun with nothing staged, a test that removes the earlier results goes on with the tables
without them. -/
theorem checkFile_of_removed (hstore : Reliable σ After) {plan : TestPlan}
    (hremove : plan.removeResults = true) {c : RunContext} {done : List (List Write)} {s : σ}
    (hs : After done s) {t : Tables} (hl : Datastore.ledger s = .ofTables t) (read : σ → Option String) :
    let cleared := (plan.clearResults.run ⟨c, s⟩).2.store
    After (done ++ [[.deleteResults c.packageId]]) cleared ∧
      Datastore.ledger cleared = .ofTables (t.apply (.deleteResults c.packageId)) ∧
      (plan.checkFile read).run ⟨c, s⟩ = (plan.checkRead (read cleared)).run ⟨c, cleared⟩ := by
  obtain ⟨s₁, hrun, hs₁, hl₁⟩ := Makes.removeResults hstore hremove (c := c) t done s hs hl
  rw [checkFile_eq, run_bind, hrun]
  exact ⟨hs₁, hl₁, rfl⟩

/-- If earlier results are to be removed, no call of the store fails and nothing is staged, testing a
file ends as it does on a store from which the results of the package have been removed before, and
leaves the same there: the results of the package are those that this test has saved, which are the
validity of the file and what the rules find in it. The results of every other package stay, and so
do all runs and organisations. -/
theorem checkFile_replaces (hstore : Reliable σ After) (plan : TestPlan)
    (hremove : plan.removeResults = true) (c : RunContext) {done done' : List (List Write)} {s s' : σ}
    (hs : After done s) (hstaged : (Datastore.ledger s).staged = []) (hs' : After done' s')
    (hremoved : Datastore.ledger s' =
      .ofTables ((Datastore.ledger s).tables.apply (.deleteResults c.packageId)))
    (read : σ → Option String)
    (hfile : read (plan.clearResults.run ⟨c, s'⟩).2.store =
      read (plan.clearResults.run ⟨c, s⟩).2.store) :
    let document? := (read (plan.clearResults.run ⟨c, s⟩).2.store).bind Markup.parse?
    let before := (Datastore.ledger s).tables
    let retested := (plan.checkFile read).run ⟨c, s⟩
    let anew := (plan.checkFile read).run ⟨c, s'⟩
    let after := Datastore.ledger retested.2.store
    retested.1.isOk = plan.succeeds (before.organisationsOf c.packageId) document? ∧
    anew.1 = retested.1 ∧ anew.2.context = retested.2.context ∧
    Datastore.ledger anew.2.store = after ∧ after.staged = [] ∧
    (∃ commits, After (done ++ commits) retested.2.store ∧
      after.tables.resultsOf c.packageId = Write.savedResults commits.flatten) ∧
    after.tables.resultsOf c.packageId =
      plan.contentResults c (before.organisationsOf c.packageId) document? ∧
    (∀ q, q ≠ c.packageId → after.tables.resultsOf q = before.resultsOf q) ∧
    after.tables.runs = before.runs ∧ after.tables.organisations = before.organisations := by
  intro document? before retested anew after
  let p := c.packageId
  let removed := before.apply (.deleteResults p)
  have hl : Datastore.ledger s = .ofTables before := congrArg (Ledger.mk before) hstaged
  obtain ⟨hs₁, hl₁, hcheck⟩ := checkFile_of_removed hstore hremove (c := c) hs hl read
  obtain ⟨hs₁', hl₁', hcheck'⟩ := checkFile_of_removed hstore hremove (c := c) hs' hremoved read
  rw [before.deleteResults_deleteResults p] at hl₁'
  rw [hfile] at hcheck'
  -- both tests go on with the same tables and the same text
  let targets := before.organisationsOf p
  let writes := plan.fileWrites c targets removed document?
  have htargets : (Ledger.ofTables removed).tables.organisationsOf p = targets := rfl
  obtain ⟨r, c', commits, hends, hok, hcommits⟩ := Ends.checkRead_writes hstore plan
    (read (plan.clearResults.run ⟨c, s⟩).2.store) (.ofTables removed) htargets
  obtain ⟨s₂, hrun, hs₂, hl₂⟩ := hends _ _ hs₁ hl₁
  obtain ⟨s₂', hrun', -, hl₂'⟩ := hends _ _ hs₁' hl₁'
  have hwrites : commits.flatten = writes := hcommits
  have habout : ∀ w ∈ writes, w.IsAbout p := fun w => isAbout_of_mem_fileWrites
  have hdelete : (Write.deleteResults p).IsAbout p := rfl
  rw [hrun] at hcheck
  rw [hrun'] at hcheck'
  have hafter : after = .ofTables (removed.applyAll writes) := by
    unfold after retested
    rw [hcheck, hl₂, hwrites]
    rfl
  have hsame : Datastore.ledger anew.2.store = after := by
    unfold anew
    rw [hafter, hcheck', hl₂', hwrites]
    rfl
  have hretested : retested = (r, ⟨c', s₂⟩) := hcheck
  have hanew : anew = (r, ⟨c', s₂'⟩) := hcheck'
  rw [hsame, hafter, hretested, hanew]
  refine ⟨hok, rfl, rfl, rfl, rfl, ⟨[.deleteResults p] :: commits, ?_, ?_⟩, ?_, fun q hq => ?_, ?_, ?_⟩
  · rw [List.append_assoc] at hs₂
    exact hs₂
  · have hgone : removed.resultsOf p = [] :=
      congrArg PackageRecord.results (before.recordOf_deleteResults p)
    have hsaved : Write.savedResults ([.deleteResults p] :: commits).flatten =
        Write.savedResults writes := by
      rw [List.flatten_cons, hwrites]
      rfl
    rw [hsaved]
    exact Tables.resultsOf_applyAll_of_none hgone habout fun w => ne_deleteResults_of_mem_fileWrites
  · have hremoved : plan.clearedTables c before = removed := if_pos hremove
    have hrecord : (removed.applyAll writes).recordOf p =
        plan.recordAfter c targets (before.recordOf p) document? := by
      rw [← recordOf_fileWrites before document?, hremoved]
    refine (congrArg PackageRecord.results hrecord).trans ?_
    rw [results_recordAfter, if_pos hremove, List.nil_append]
  · have hothers : (removed.applyAll writes).recordOf q = before.recordOf q :=
      (Tables.recordOf_applyAll_of_ne habout hq).trans (Tables.recordOf_apply_of_ne hdelete hq)
    exact congrArg PackageRecord.results hothers
  · exact (Tables.runs_applyAll_of_isAbout habout).trans (Tables.runs_apply_of_isAbout hdelete)
  · exact Tables.organisations_applyAll removed writes

end Replacement

/-- The earlier results of the package, of the same run and of another one, give way to those of the
test, and the result of another package stays, in a store in memory. -/
theorem checkFile_replaces_earlier_results :
    let plan := { unreadablePlan with removeResults := true }
    let context (r : RuntimeId) (p : PackageId) := RunContext.start r p ⟨0, 0⟩
    let c := context ⟨2⟩ ⟨7⟩
    let kept := validity (context ⟨1⟩ ⟨8⟩) .pass
    let earlier := [validity (context ⟨1⟩ ⟨7⟩) .fail, kept, validity c .pass]
    let tables (results : List TestResult) : Tables :=
      { Tables.empty with results := results, organisations := [(⟨7⟩, [⟨⟨5⟩, "//a"⟩])] }
    let read (_ : MemoryStore) : Option String := some "<r><a/></r>"
    let retested := (plan.checkFile read).run ⟨c, ⟨.ofTables (tables earlier), 0⟩⟩
    let anew := (plan.checkFile read).run ⟨c, ⟨.ofTables (tables [kept]), 0⟩⟩
    let after := Datastore.ledger retested.2.store
    retested.1.isOk = true ∧ anew.1 = retested.1 ∧ Datastore.ledger anew.2.store = after ∧
      after.tables.resultsOf ⟨7⟩ = plan.contentResults c [⟨⟨5⟩, "//a"⟩] (some unnamedDocument) ∧
      after.tables.resultsOf ⟨8⟩ = [kept] := by
  intro plan context c kept earlier tables read retested anew after
  let s : MemoryStore := ⟨.ofTables (tables earlier), 0⟩
  let s' : MemoryStore := ⟨.ofTables (tables [kept]), 0⟩
  have hs : s.commits = 0 + ([] : List (List Write)).length := rfl
  have hs' : s'.commits = 0 + ([] : List (List Write)).length := rfl
  have hdocument : Markup.parse? "<r><a/></r>" = some unnamedDocument := by rfl
  have horganisations : ∃ s, Selector.parse "//b" = .ok s := ⟨_, rfl⟩
  have hactivities : ∃ s, Selector.parse "//a" = .ok s := ⟨_, rfl⟩
  have hcan : plan.canTest [⟨⟨5⟩, "//a"⟩] = true := by
    refine canTest_iff.2 ⟨List.cons_ne_nil _ _, horganisations, fun t ht => ?_⟩
    obtain rfl := List.mem_singleton.1 ht
    exact hactivities
  obtain ⟨hok, houtcome, -, hledger, -, -, hresults, hothers, -⟩ :=
    checkFile_replaces (reliable_memoryStore 0) plan rfl c hs rfl hs' rfl read rfl
  change retested.1.isOk = plan.succeeds [⟨⟨5⟩, "//a"⟩] (Markup.parse? "<r><a/></r>") at hok
  change after.tables.resultsOf ⟨7⟩ =
    plan.contentResults c [⟨⟨5⟩, "//a"⟩] (Markup.parse? "<r><a/></r>") at hresults
  rw [hdocument] at hok hresults
  exact ⟨hok.trans hcan, houtcome, hledger, hresults, hothers ⟨8⟩ (by decide)⟩

end TestPlan

end DataQuality
