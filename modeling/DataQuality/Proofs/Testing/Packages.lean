import DataQuality.Proofs.Store.Packages
import DataQuality.Proofs.Testing.Conclusion

/-!
# The record of a tested package

Testing what was read of a file, on a store that does not fail, is determined by the record of the
package, its organisations and the context of the run. All writes are about the package: what is held
of other packages stays as it is.
-/
namespace DataQuality

open Markup (Node Place)

namespace TestPlan

variable (plan : TestPlan) (c : RunContext) (targets : List Target)

/-- The results of a package whose file holds this document, or none. -/
def contentResults : Option Node → List TestResult
  | none => [validity c .fail]
  | some document => validity c .pass :: plan.documentResults c targets document

def succeeds : Option Node → Bool
  | none => true
  | some _ => plan.canTest targets

/-- The writes of what is found in a file, and of the conclusion of the package. -/
def contentWrites (t : Tables) : Option Node → List Write
  | none => [.saveResult (validity c .fail)]
  | some document =>
    let writes := .saveResult (validity c .pass) :: plan.documentWrites c targets document
    if plan.canTest targets then writes ++ closingCommit c (t.applyAll writes) else writes

def fileWrites (t : Tables) (document? : Option Node) : List Write :=
  plan.contentWrites c targets t document? ++
    if plan.succeeds targets document? then [.recordTestrun c.packageId c.runtimeId] else []

/-- Tests what was read of a file, up to the record of the tested run. -/
def checkContent {σ : Type} [Datastore σ] (text? : Option String) : Testing σ PackageOutcome :=
  match text? with
  | some text => plan.checkText text
  | none => recordValidity .fail >>= fun _ => pure .invalidDocument

theorem checkRead_eq {σ : Type} [Datastore σ] (text? : Option String) :
    plan.checkRead (σ := σ) text? =
      plan.checkContent text? >>= fun outcome => recordTestrun >>= fun _ => pure outcome := by
  unfold checkRead checkContent
  cases text? with
  | none => simp only [bind_assoc]
  | some text => rfl

/-- The record of a package after its file has been tested. -/
def recordAfter (record : PackageRecord) (document? : Option Node) : PackageRecord :=
  let cleared := if plan.removeResults then record.clear else record
  let found := cleared.add (plan.contentResults c targets document?)
  match document? with
  | none => found.mark c.runtimeId
  | some _ => if plan.canTest targets then (found.conclude c.runtimeId).mark c.runtimeId else found

end TestPlan

section Exactly

variable {σ : Type} [Datastore σ] {After : List (List Write) → σ → Prop} (hstore : Reliable σ After)
  (plan : TestPlan) {c : RunContext}
include hstore

open TestPlan

/-- The part of a test that comes before the record of the tested run. -/
theorem Ends.checkContent (text? : Option String) (l : Ledger) {targets : List Target}
    (htargets : l.tables.organisationsOf c.packageId = targets) :
    let document? := text?.bind Markup.parse?
    ∃ r c' commits, Ends After (plan.checkContent text?) ⟨c, l⟩ r
        ⟨c', .ofTables (l.tables.applyAll commits.flatten)⟩ commits ∧
      r.isOk = plan.succeeds targets document? ∧
      (r.isOk = true → c'.runtimeId = c.runtimeId ∧ c'.packageId = c.packageId) ∧
      commits.flatten = l.staged ++ plan.contentWrites c targets l.settle.tables document? := by
  have hvalidity (code : Code) := Makes.recordValidity hstore (c := c) code l
  let failure := [l.staged ++ [.saveResult (validity c .fail)]]
  have hinvalid : Ends After (recordValidity .fail >>= fun _ => pure .invalidDocument) ⟨c, l⟩
      (.ok PackageOutcome.invalidDocument) ⟨c, .ofTables (l.tables.applyAll failure.flatten)⟩ failure := by
    rw [List.flatten_singleton]
    exact (hvalidity .fail).bind (.pure _)
  unfold TestPlan.checkContent
  cases text? with
  | none => exact ⟨_, c, failure, hinvalid, rfl, fun _ => ⟨rfl, rfl⟩, List.flatten_singleton⟩
  | some text =>
    dsimp only
    unfold TestPlan.checkText
    rw [Option.bind_some]
    cases Markup.parse? text with
    | none => exact ⟨_, c, failure, hinvalid, rfl, fun _ => ⟨rfl, rfl⟩, List.flatten_singleton⟩
    | some document =>
      let recorded := l.tables.applyAll (l.staged ++ [.saveResult (validity c .pass)])
      have hsame : recorded.organisationsOf c.packageId = targets := by
        unfold recorded Tables.organisationsOf
        rw [Tables.organisations_applyAll]
        exact htargets
      obtain ⟨r, c', commits, hends, hok, hcontext, hcommits⟩ :=
        Ends.checkDocument hstore plan (c := c) document recorded hsame
      have hall := Ends.bind (k := fun _ => plan.checkDocument document) (hvalidity .pass) hends
      rw [← Tables.applyAll_append, ← List.flatten_cons] at hall
      refine ⟨r, c', _, hall, hok, hcontext, ?_⟩
      have hrecorded : recorded =
          l.settle.tables.applyAll [.saveResult (validity c .pass)] := Tables.applyAll_append _ _ _
      rw [List.flatten_cons, hcommits, hrecorded]
      unfold contentWrites
      dsimp only
      split <;> simp [Tables.applyAll, List.append_assoc]

/-- Testing what was read of a file first carries out what is staged, and then these writes. -/
theorem Ends.checkRead_writes (text? : Option String) (l : Ledger) {targets : List Target}
    (htargets : l.tables.organisationsOf c.packageId = targets) :
    let document? := text?.bind Markup.parse?
    ∃ r c' commits, Ends After (plan.checkRead text?) ⟨c, l⟩ r
        ⟨c', .ofTables (l.tables.applyAll commits.flatten)⟩ commits ∧
      r.isOk = plan.succeeds targets document? ∧
      commits.flatten = l.staged ++ plan.fileWrites c targets l.settle.tables document? := by
  intro document?
  obtain ⟨r, c', commits, hends, hok, hcontext, hcommits⟩ :=
    Ends.checkContent hstore plan (c := c) text? l htargets
  unfold fileWrites
  rw [checkRead_eq, ← List.append_assoc, ← hcommits, ← hok]
  cases r with
  | error e => exact ⟨.error e, c', commits, hends.stop, rfl, (List.append_nil _).symm⟩
  | ok outcome =>
    obtain ⟨hrun, hpackage⟩ := hcontext rfl
    have hchecked : Makes After (plan.checkContent text?) ⟨c, l⟩ outcome
        ⟨c', .ofTables (l.tables.applyAll commits.flatten)⟩ commits := hends
    have hall := hchecked.bind (k := fun outcome => TestPlan.recordTestrun >>= fun _ => pure outcome)
      (Makes.recordTestrun hstore outcome _)
    rw [hrun, hpackage] at hall
    have hflatten : (commits ++ [[Write.recordTestrun c.packageId c.runtimeId]]).flatten =
        commits.flatten ++ [.recordTestrun c.packageId c.runtimeId] := by
      rw [List.flatten_append, List.flatten_singleton]
    refine ⟨.ok outcome, c', commits ++ [[.recordTestrun c.packageId c.runtimeId]], ?_, rfl, hflatten⟩
    rw [hflatten, Tables.applyAll_append]
    exact hall

end Exactly

namespace TestPlan

section Writes

variable {plan : TestPlan} {document : Node} {c : RunContext} {o : OrganisationId} {w : Write}

theorem isOutcome_of_mem_batchCommits {batch : List TestResult}
    (hbatch : ∀ x ∈ batch, plan.IsOutcome c (.saveResult x)) (hw : w ∈ (batchCommits batch).flatten) :
    plan.IsOutcome c w := by
  rw [flatten_batchCommits] at hw
  obtain ⟨x, hx, rfl⟩ := List.mem_map.1 hw
  exact hbatch x hx

theorem isOutcome_of_mem_activitiesCommits {activities : List Place}
    (hw : w ∈ (plan.activitiesCommits document o c activities).flatten) : plan.IsOutcome c w := by
  induction activities generalizing c with
  | nil => cases hw
  | cons a rest ih =>
    rw [activitiesCommits, List.flatten_append] at hw
    rcases List.mem_append.1 hw with hw | hw
    · refine isOutcome_of_mem_batchCommits (fun x hx => ?_) hw
      obtain ⟨hrun, hpackage, -⟩ := belongsTo_activityResults hx
      exact ⟨hrun, hpackage, hasRule_of_mem_activityResults hx⟩
    · exact ih (c := c.madeUp _) hw

theorem isOutcome_of_mem_metricsCommits {level : Level} {place : Place}
    (hw : w ∈ (plan.metricsCommits document c o level place).flatten) : plan.IsOutcome c w := by
  obtain ⟨commit, hcommit, hw⟩ := List.mem_flatten.1 hw
  obtain ⟨b, -, rfl⟩ := List.mem_map.1 hcommit
  obtain rfl := List.mem_singleton.1 hw
  exact ⟨rfl, rfl⟩

theorem isOutcome_of_mem_nodeCommits {node : Place}
    (hw : w ∈ (plan.nodeCommits document c o node).flatten) : plan.IsOutcome c w := by
  rw [nodeCommits, List.flatten_append] at hw
  rcases List.mem_append.1 hw with hw | hw
  · exact isOutcome_of_mem_metricsCommits hw
  · refine isOutcome_of_mem_batchCommits (fun x hx => ?_) hw
    obtain ⟨hrun, hpackage, -⟩ := belongsTo_resultsAt hx
    exact ⟨hrun, hpackage, hasRule_of_mem_resultsAt hx⟩

theorem isOutcome_of_mem_targetCommits {nodes : List Place} {t : Target}
    (hw : w ∈ (plan.targetCommits document nodes c t).flatten) : plan.IsOutcome c w := by
  rw [targetCommits, List.flatten_append, List.flatten_append] at hw
  rcases List.mem_append.1 hw with hw | hw
  · exact isOutcome_of_mem_activitiesCommits hw
  rcases List.mem_append.1 hw with hw | hw
  · split at hw
    · cases hw
    · exact isOutcome_of_mem_metricsCommits hw
  · obtain ⟨commit, hcommit, hw⟩ := List.mem_flatten.1 hw
    obtain ⟨node, -, hcommit⟩ := List.mem_flatMap.1 hcommit
    exact isOutcome_of_mem_nodeCommits (List.mem_flatten.2 ⟨commit, hcommit, hw⟩)

theorem isOutcome_of_mem_targetsCommits {nodes : List Place} {targets : List Target}
    (hw : w ∈ (plan.targetsCommits document nodes c targets).flatten) : plan.IsOutcome c w := by
  induction targets generalizing c with
  | nil => cases hw
  | cons t rest ih =>
    rw [targetsCommits, List.flatten_append] at hw
    rcases List.mem_append.1 hw with hw | hw
    · exact isOutcome_of_mem_targetCommits hw
    · exact ih (c := c.madeUp _) hw

/-- What testing a document commits before it is concluded are outcomes. -/
theorem isOutcome_of_mem_documentWrites {targets : List Target}
    (hw : w ∈ plan.documentWrites c targets document) : plan.IsOutcome c w := by
  unfold documentWrites at hw
  split at hw
  · cases hw
  · exact isOutcome_of_mem_targetsCommits hw

theorem IsOutcome.isAbout (h : plan.IsOutcome c w) : w.IsAbout c.packageId := by
  cases w with
  | saveResult x => exact h.2.1
  | replaceInfo x => exact h.2
  | _ => exact h.elim

theorem isAbout_of_mem_closingCommit {t : Tables} (hw : w ∈ closingCommit c t) :
    w.IsAbout c.packageId := by
  rcases List.mem_cons.1 hw with rfl | hw
  · have hrows := (t.isCount_aggregate c.runtimeId c.packageId).belongs
    exact ⟨rfl, fun row hrow => (hrows row hrow).2⟩
  · obtain rfl := List.mem_singleton.1 hw
    rfl

/-- All writes of the test of a file are about its package. -/
theorem isAbout_of_mem_fileWrites {targets : List Target} {t : Tables} {document? : Option Node}
    (hw : w ∈ plan.fileWrites c targets t document?) : w.IsAbout c.packageId := by
  rcases List.mem_append.1 hw with hw | hw
  · cases document? with
    | none =>
      obtain rfl := List.mem_singleton.1 hw
      rfl
    | some document =>
      have hfound : ∀ v ∈ Write.saveResult (validity c .pass) :: plan.documentWrites c targets document,
          v.IsAbout c.packageId := by
        intro v hv
        rcases List.mem_cons.1 hv with rfl | hv
        · rfl
        · exact (isOutcome_of_mem_documentWrites hv).isAbout
      unfold contentWrites at hw
      dsimp only at hw
      split at hw
      · exact (List.mem_append.1 hw).elim (hfound w) isAbout_of_mem_closingCommit
      · exact hfound w hw
  · split at hw
    · obtain rfl := List.mem_singleton.1 hw
      rfl
    · cases hw

end Writes

section Record

variable {plan : TestPlan} {c : RunContext} {targets : List Target}

/-- The removal of earlier results leaves the organisations alone. -/
theorem organisations_clearedTables (t : Tables) :
    (plan.clearedTables c t).organisations = t.organisations := by
  unfold clearedTables
  split <;> rfl

theorem recordOf_clearedTables (t : Tables) :
    (plan.clearedTables c t).recordOf c.packageId =
      if plan.removeResults then (t.recordOf c.packageId).clear else t.recordOf c.packageId := by
  unfold clearedTables
  split
  · exact t.recordOf_deleteResults c.packageId
  · rfl

theorem recordOf_clearedTables_of_ne {p : PackageId} (hp : p ≠ c.packageId) (t : Tables) :
    (plan.clearedTables c t).recordOf p = t.recordOf p := by
  have habout : (Write.deleteResults c.packageId).IsAbout c.packageId := rfl
  unfold clearedTables
  split
  · exact Tables.recordOf_apply_of_ne habout hp
  · rfl

/-- Outcomes change nothing in the record of a package but its results. -/
theorem recordOf_applyAll_outcomes {ws : List Write} (hws : ∀ w ∈ ws, plan.IsOutcome c w) (t : Tables)
    (p : PackageId) :
    (t.applyAll ws).recordOf p = { t.recordOf p with results := (t.applyAll ws).resultsOf p } := by
  induction ws generalizing t with
  | nil => rfl
  | cons w rest ih =>
    refine (ih (fun v hv => hws v (List.mem_cons_of_mem w hv)) (t.apply w)).trans ?_
    have hw := hws w List.mem_cons_self
    cases w with
    | saveResult x => rfl
    | replaceInfo x => rfl
    | _ => exact hw.elim

/-- The results in a document are all of its package. -/
theorem resultsOf_documentWrites (document : Node) (t : Tables) :
    (t.applyAll (plan.documentWrites c targets document)).resultsOf c.packageId =
      t.resultsOf c.packageId ++ plan.documentResults c targets document := by
  have hbelongs : ∀ x ∈ plan.documentResults c targets document, x.packageId = c.packageId := by
    intro x hx
    unfold documentResults at hx
    split at hx
    · cases hx
    · obtain ⟨u, -, -, hpackage, -⟩ := belongsTo_targetsResults hx
      exact hpackage
  have hall : (plan.documentResults c targets document).filter (·.packageId == c.packageId) =
      plan.documentResults c targets document :=
    List.filter_eq_self.2 fun x hx => beq_iff_eq.2 (hbelongs x hx)
  unfold Tables.resultsOf
  rw [appends_documentWrites, List.filter_append, hall]

theorem recordOf_saveResult (t : Tables) (x : TestResult) :
    (t.apply (.saveResult x)).recordOf x.packageId = (t.recordOf x.packageId).add [x] := by
  have hself : [x].filter (·.packageId == x.packageId) = [x] := by simp
  have hresults : (t.apply (.saveResult x)).resultsOf x.packageId =
      t.resultsOf x.packageId ++ [x] := by
    change List.filter _ (t.results ++ [x]) = _
    rw [List.filter_append, hself]
    rfl
  unfold Tables.recordOf
  rw [hresults]
  rfl

theorem recordOf_found (document : Node) (t : Tables) :
    (t.applyAll (.saveResult (validity c .pass) :: plan.documentWrites c targets document)).recordOf
        c.packageId =
      (t.recordOf c.packageId).add (validity c .pass :: plan.documentResults c targets document) := by
  let recorded := t.apply (.saveResult (validity c .pass))
  have hrecorded : recorded.recordOf c.packageId = (t.recordOf c.packageId).add [validity c .pass] :=
    recordOf_saveResult t (validity c .pass)
  have houtcomes : ∀ w ∈ plan.documentWrites c targets document, plan.IsOutcome c w :=
    fun w => isOutcome_of_mem_documentWrites
  have hwritten := recordOf_applyAll_outcomes houtcomes recorded c.packageId
  rw [resultsOf_documentWrites, hrecorded] at hwritten
  have hresults : recorded.resultsOf c.packageId = t.resultsOf c.packageId ++ [validity c .pass] :=
    congrArg PackageRecord.results hrecorded
  rw [hresults, List.append_assoc] at hwritten
  exact hwritten

/-- What the test of a file makes of the record of its package. -/
theorem recordOf_fileWrites (t : Tables) (document? : Option Node) :
    ((plan.clearedTables c t).applyAll
        (plan.fileWrites c targets (plan.clearedTables c t) document?)).recordOf c.packageId =
      plan.recordAfter c targets (t.recordOf c.packageId) document? := by
  unfold recordAfter
  rw [← recordOf_clearedTables]
  generalize plan.clearedTables c t = t
  unfold fileWrites
  rw [Tables.applyAll_append]
  cases document? with
  | none =>
    exact (Tables.recordOf_recordTestrun _ _ _).trans
      (congrArg (PackageRecord.mark · c.runtimeId) (recordOf_saveResult t (validity c .fail)))
  | some document =>
    have hends : plan.succeeds targets (some document) = plan.canTest targets := rfl
    unfold contentWrites contentResults
    dsimp only
    rw [hends, ← recordOf_found document t]
    by_cases hcan : plan.canTest targets = true
    · rw [if_pos hcan, if_pos hcan, if_pos hcan, Tables.applyAll_append]
      refine (Tables.recordOf_recordTestrun _ _ _).trans (congrArg (PackageRecord.mark · c.runtimeId) ?_)
      exact Tables.recordOf_concluded _ _ _
    · rw [if_neg hcan, if_neg hcan, if_neg hcan]
      rfl

theorem results_recordAfter (record : PackageRecord) (document? : Option Node) :
    (plan.recordAfter c targets record document?).results =
      (if plan.removeResults then [] else record.results) ++
        plan.contentResults c targets document? := by
  have hfound : ((if plan.removeResults then record.clear else record).add
      (plan.contentResults c targets document?)).results =
      (if plan.removeResults then [] else record.results) ++
        plan.contentResults c targets document? := by
    cases plan.removeResults <;> rfl
  rw [← hfound]
  cases document? with
  | none => rfl
  | some document =>
    unfold recordAfter
    dsimp only
    split <;> rfl

end Record

end TestPlan

end DataQuality
