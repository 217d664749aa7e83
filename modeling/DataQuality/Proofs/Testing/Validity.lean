import DataQuality.Proofs.Testing.Independence

/-!
# The record of validity

Whatever a file holds, testing it on a store that does not fail first deletes the earlier results of
the package, if that is wanted, and then records once whether the file is a document. If it is none,
nothing else changes but the run in which the package was last tested.
-/
namespace DataQuality

open Markup (Node Place)

namespace TestPlan

variable (plan : TestPlan)

def HasRule (r : TestResult) : Prop := ∃ rule ∈ plan.rules.rules, r.testId = rule.definition.id

section Rules

variable {plan} {document : Node} {c : RunContext} {r : TestResult}

theorem hasRule_of_mem_resultsAt {subject : Subject} {level : Level} {unit : Place}
    (h : r ∈ resultsAt c subject document (plan.rules.forLevel level) unit) : plan.HasRule r := by
  obtain ⟨rule, hrule, hr⟩ := List.mem_filterMap.1 h
  obtain ⟨code, -, rfl⟩ := Option.map_eq_some_iff.1 hr
  exact ⟨rule, (RuleIndexes.mem_forLevel.1 hrule).1, rfl⟩

theorem hasRule_of_mem_activityResults {o : OrganisationId} {activity : Place}
    (h : r ∈ plan.activityResults document c o activity) : plan.HasRule r := by
  obtain h | h := List.mem_append.1 h
  · exact hasRule_of_mem_resultsAt h
  · obtain ⟨transaction, -, h⟩ := List.mem_flatMap.1 h
    exact hasRule_of_mem_resultsAt h

theorem hasRule_of_mem_activitiesResults {o : OrganisationId} {activities : List Place}
    (h : r ∈ plan.activitiesResults document o c activities) : plan.HasRule r := by
  induction activities generalizing c with
  | nil => cases h
  | cons a rest ih =>
    obtain h | h := List.mem_append.1 h
    · exact hasRule_of_mem_activityResults h
    · exact ih h

theorem hasRule_of_mem_targetsResults {nodes : List Place} {targets : List Target}
    (h : r ∈ plan.targetsResults document nodes c targets) : plan.HasRule r := by
  induction targets generalizing c with
  | nil => cases h
  | cons t rest ih =>
    obtain h | h := List.mem_append.1 h
    · obtain h | h := List.mem_append.1 h
      · exact hasRule_of_mem_activitiesResults h
      · obtain ⟨node, -, h⟩ := List.mem_flatMap.1 h
        exact hasRule_of_mem_resultsAt h
    · exact ih h

/-- All results in a document are results of rules. -/
theorem hasRule_of_mem_documentResults {targets : List Target}
    (h : r ∈ plan.documentResults c targets document) : plan.HasRule r := by
  unfold documentResults at h
  split at h
  · cases h
  · exact hasRule_of_mem_targetsResults h

end Rules

variable {σ : Type} [Datastore σ]

/-- Deletes the earlier results of the package, if that is wanted. -/
def clearResults : Testing σ Unit := do
  if plan.removeResults then
    let c ← Testing.context
    Testing.orAbort (Datastore.stage (.deleteResults c.packageId))
    Testing.commit ("Remove results for package " ++ c.packageId.text)

def checkRead (text? : Option String) : Testing σ PackageOutcome := do
  let outcome ←
    match text? with
    | some text => plan.checkText text
    | none => do
      recordValidity .fail
      pure .invalidDocument
  recordTestrun
  pure outcome

/-- A file is read when the earlier results have been deleted. -/
theorem checkFile_eq (read : σ → Option String) :
    plan.checkFile read =
      plan.clearResults >>= fun _ => get >>= fun s => plan.checkRead (read s.store) := by
  unfold checkFile clearResults
  cases plan.removeResults with
  | false => rfl
  | true =>
    simp only [if_true, bind_assoc]
    rfl

/-- The tables without the earlier results of the package, if these are to be deleted. -/
def clearedTables (c : RunContext) (t : Tables) : Tables :=
  if plan.removeResults then t.apply (.deleteResults c.packageId) else t

end TestPlan

/-- A part that succeeds is not changed by what is done about its errors. -/
theorem Makes.quietly {σ : Type} [Datastore σ] {After : List (List Write) → σ → Prop}
    {m : Testing σ Unit} {start finish : TestState Ledger} {commits : List (List Write)}
    (h : Makes After m start () finish commits) :
    Makes After (tryCatch m fun _ => Pure.pure ()) start () finish commits := by
  intro done s hs hl
  obtain ⟨s', hrun, hs', hl'⟩ := h done s hs hl
  refine ⟨s', ?_, hs', hl'⟩
  rw [run_quietly, hrun]

section Parts

variable {σ : Type} [Datastore σ] {After : List (List Write) → σ → Prop} (hstore : Reliable σ After)
  (plan : TestPlan) {c : RunContext}
include hstore

open TestPlan

theorem Makes.clearResults (l : Ledger) :
    ∃ l' commits, Makes After plan.clearResults ⟨c, l⟩ () ⟨c, l'⟩ commits ∧
      l'.settle = .ofTables (plan.clearedTables c l.settle.tables) := by
  unfold TestPlan.clearResults clearedTables
  cases plan.removeResults with
  | false => exact ⟨l, [], .pure (), rfl⟩
  | true =>
    refine ⟨_, _, Makes.context.bind ((Makes.stage hstore _).bind (Makes.commit hstore _)), ?_⟩
    simp only [Ledger.settle, Ledger.stage, Tables.applyAll_append]
    rfl

/-- The run is recorded, and the outcome given, at the end. -/
theorem Makes.recordTestrun (outcome : PackageOutcome) (t : Tables) :
    Makes After (TestPlan.recordTestrun >>= fun _ => Pure.pure outcome) ⟨c, .ofTables t⟩ outcome
      ⟨c, .ofTables (t.apply (.recordTestrun c.packageId c.runtimeId))⟩
      [[.recordTestrun c.packageId c.runtimeId]] := by
  have hstage (w : Write) : Makes After (Testing.onStore (Datastore.stage w)) ⟨c, .ofTables t⟩
      (.ok ()) ⟨c, (Ledger.ofTables t).stage w⟩ [] := by
    refine Makes.onStore fun done s hs hl => ?_
    obtain ⟨s', hrun, hs', hl'⟩ := hstore.stage hs w
    rw [List.append_nil]
    exact ⟨s', hrun, hs', by rw [hl', hl]⟩
  have hrecord : Makes After TestPlan.recordTestrun ⟨c, .ofTables t⟩ ()
      ⟨c, .ofTables (t.apply (.recordTestrun c.packageId c.runtimeId))⟩
      [[.recordTestrun c.packageId c.runtimeId]] :=
    Makes.context.bind ((hstage _).bind (Makes.commit hstore _)).quietly
  exact hrecord.bind (.pure outcome)

/-- What is recorded of a text that is no document, and of a file without a text. -/
theorem Makes.checkRead {text? : Option String} (l : Ledger)
    (h : text?.bind Markup.parse? = none) :
    ∃ commits, Makes After (plan.checkRead text?) ⟨c, l⟩ .invalidDocument
      ⟨c, .ofTables ((l.settle.tables.apply (.saveResult (validity c .fail))).apply
        (.recordTestrun c.packageId c.runtimeId))⟩ commits := by
  have hvalidity := Makes.recordValidity hstore (c := c) .fail l
  dsimp only at hvalidity
  rw [Tables.applyAll_append] at hvalidity
  have hrest := Makes.recordTestrun hstore (c := c) .invalidDocument
    (l.settle.tables.apply (.saveResult (validity c .fail)))
  unfold TestPlan.checkRead
  cases text? with
  | none => exact ⟨_, hvalidity.bind ((Makes.pure PackageOutcome.invalidDocument).bind hrest)⟩
  | some text =>
    have hparse : Markup.parse? text = none := h
    dsimp only
    unfold TestPlan.checkText
    rw [hparse]
    exact ⟨_, (hvalidity.bind (.pure PackageOutcome.invalidDocument)).bind hrest⟩

/-- What is recorded of a document: that it is one, and results of rules. -/
theorem Ends.checkRead {text : String} {document : Node}
    (h : Markup.parse? text = some document) (l : Ledger) :
    ∃ r c' t' commits added, Ends After (plan.checkRead (some text)) ⟨c, l⟩ r
        ⟨c', .ofTables t'⟩ commits ∧
      t'.results = l.settle.tables.results ++ validity c .pass :: added ∧
      ∀ result ∈ added, plan.HasRule result := by
  obtain ⟨r, c', t', commits, hends, hresults⟩ := Ends.checkText hstore plan (c := c) text l
  unfold addedResults at hresults
  rw [h] at hresults
  cases r with
  | error e =>
    exact ⟨.error e, c', t', commits, _, Ends.stop hends, hresults,
      fun result => hasRule_of_mem_documentResults⟩
  | ok outcome =>
    exact ⟨.ok outcome, c', _, _, _, Ends.bind hends (Makes.recordTestrun hstore outcome t'), hresults,
      fun result => hasRule_of_mem_documentResults⟩

end Parts

namespace TestPlan

end TestPlan

end DataQuality
