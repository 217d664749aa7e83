import DataQuality.Config
import DataQuality.Proofs.Testing.Conclusion
import DataQuality.Proofs.Testing.Silence

/-!
# The reserved identifier

The validity of a document is recorded under the identifier zero. A plain rule source numbers its
rules from one, but the rules of an array bring their own identifiers, and nobody looks whether one
of them is zero. A rule of that identifier does no harm only if it never gives a result.
-/
namespace DataQuality

open Markup (Node Place)

namespace TestPlan

/-- Outcomes leave the results alone that no rule of the plan can have. -/
theorem resultsOfTest_applyAll_outcomes {plan : TestPlan} {c : RunContext} {i : RuleId}
    {ws : List Write} (hws : ∀ w ∈ ws, plan.IsOutcome c w)
    (hrules : ∀ r ∈ plan.rules.rules, r.definition.id ≠ i) (t : Tables) :
    resultsOfTest i (t.applyAll ws).results = resultsOfTest i t.results := by
  induction ws generalizing t with
  | nil => rfl
  | cons w rest ih =>
    have hw := hws w List.mem_cons_self
    refine (ih (fun v hv => hws v (List.mem_cons_of_mem w hv)) (t.apply w)).trans ?_
    cases w with
    | saveResult x =>
      obtain ⟨-, -, rule, hrule, hid⟩ := hw
      have hother : ¬ (x.testId == i) = true := by
        rw [hid, beq_iff_eq]
        exact hrules rule hrule
      have hnone : resultsOfTest i [x] = [] := List.filter_cons_of_neg hother
      have happend := resultsOfTest_append i t.results [x]
      rw [hnone, List.append_nil] at happend
      exact happend
    | replaceInfo x => rfl
    | _ => exact hw.elim

end TestPlan

/-- A text that is tested as the document of a package in a run. -/
structure TextCheck where
  plan : TestPlan
  context : RunContext
  text : String

namespace TextCheck

variable {σ : Type} [Datastore σ]

/-- Whether the text is that of a document. -/
def code (k : TextCheck) : Code := if (Markup.parse? k.text).isSome then .pass else .fail

/-- What remains when the validity has been recorded. -/
def rest (k : TextCheck) : Testing σ PackageOutcome :=
  match Markup.parse? k.text with
  | none => pure .invalidDocument
  | some document => k.plan.checkDocument document

/-- Testing a text begins with the record of its validity. -/
theorem checkText_eq (k : TextCheck) :
    k.plan.checkText (σ := σ) k.text = TestPlan.recordValidity k.code >>= fun _ => k.rest := by
  unfold TestPlan.checkText code rest
  cases Markup.parse? k.text <;> rfl

/-- Tests the text. -/
def perform (k : TextCheck) (s : σ) : σ := ((k.plan.checkText k.text).run ⟨k.context, s⟩).2.store

/-- What is recorded of the validity of the text: nothing if recording fails. -/
def recorded (k : TextCheck) (s : σ) : List TestResult :=
  match ((TestPlan.recordValidity k.code).run ⟨k.context, s⟩).1 with
  | .ok _ => [TestPlan.validity k.context k.code]
  | .error _ => []

theorem length_recorded_le (k : TextCheck) (s : σ) : (k.recorded s).length ≤ 1 := by
  unfold recorded
  split <;> simp

/-- Tests texts one after the other. -/
def performAll : List TextCheck → σ → σ
  | [], s => s
  | k :: rest, s => performAll rest (k.perform s)

def recordedAll : List TextCheck → σ → List TestResult
  | [], _ => []
  | k :: rest, s => k.recorded s ++ recordedAll rest (k.perform s)

end TextCheck

/-- Committed or not, what is staged leaves these results under the reserved identifier. -/
def Ledger.Reserves (l : Ledger) (results : List TestResult) : Prop :=
  TestPlan.resultsOfTest validDocumentId l.tables.results = results ∧
    TestPlan.resultsOfTest validDocumentId l.settle.tables.results = results

namespace TextCheck

open TestPlan

variable {σ : Type} [Datastore σ] [LawfulStore σ] {k : TextCheck} {s : FaultyStore σ}
  {results : List TestResult}

/-- After the record of validity nothing is added under the reserved identifier, if only silent
rules have it. -/
theorem endsIn_rest
    (hrules : ∀ r ∈ k.plan.rules.rules, r.definition.id = validDocumentId → r.isSilent = true)
    {t : Tables} (ht : resultsOfTest validDocumentId t.results = results) :
    EndsIn (σ := σ) k.rest ⟨k.context, .ofTables t⟩ fun _ s => s.store.Reserves results := by
  have hloud : ∀ r ∈ k.plan.loud.rules.rules, r.definition.id ≠ validDocumentId := by
    intro r hr hid
    rw [show k.plan.loud.rules = k.plan.rules.loud from rfl, RuleSet.rules_loud] at hr
    obtain ⟨hmem, hkept⟩ := List.mem_filter.1 hr
    rw [hrules r hmem hid] at hkept
    cases hkept
  unfold rest
  cases Markup.parse? k.text with
  | none =>
    refine (EndsIn.pure _).mono fun r s hs => ?_
    rw [hs.2]
    exact ⟨ht, ht⟩
  | some document =>
    dsimp only
    rw [← checkDocument_loud]
    refine (endsIn_checkDocument k.plan.loud document k.context t).mono fun r s hs => ?_
    obtain ⟨n, ws, hws, hend⟩ := hs
    have htested := (resultsOfTest_applyAll_outcomes hws hloud t).trans ht
    obtain ⟨_, _, -, rfl⟩ | ⟨-, rfl⟩ := hend <;> exact ⟨htested, htested⟩

/-- A text adds to the results of the reserved identifier what is recorded of its validity. -/
theorem reserves_perform
    (hrules : ∀ r ∈ k.plan.rules.rules, r.definition.id = validDocumentId → r.isSilent = true)
    (hdrop : s.CanDrop) (h : (Datastore.ledger s).Reserves results) :
    (k.perform s).CanDrop ∧
      (Datastore.ledger (k.perform s)).Reserves (results ++ k.recorded s) := by
  obtain ⟨r, s₁, hrun, hdrop₁, hend⟩ :=
    EndsIn.recordValidity (σ := σ) k.context (Datastore.ledger s) k.code s hdrop rfl
  unfold perform recorded
  rw [checkText_eq, run_bind, hrun]
  obtain ⟨rfl, hs₁⟩ | ⟨⟨e, rfl⟩, hs₁⟩ := hend
  · have hadded := resultsOfTest_append validDocumentId (Datastore.ledger s).settle.tables.results
      [validity k.context k.code]
    rw [h.2] at hadded
    rw [Ledger.settle_stage] at hs₁
    obtain ⟨r', s', hrun', hdrop', hreserves⟩ :=
      endsIn_rest (σ := σ) hrules hadded s₁.store hdrop₁ (congrArg TestState.store hs₁)
    have hcontext : s₁.context = k.context := congrArg TestState.context hs₁
    dsimp only
    rw [show s₁ = ⟨k.context, s₁.store⟩ by rw [← hcontext], hrun']
    exact ⟨hdrop', hreserves⟩
  · have hledger : Datastore.ledger s₁.store = .ofTables (Datastore.ledger s).tables :=
      congrArg TestState.store hs₁
    refine ⟨hdrop₁, ?_⟩
    rw [hledger, List.append_nil]
    exact ⟨h.1, h.1⟩

/-- So do texts that are tested one after the other. -/
theorem reserves_performAll {checks : List TextCheck}
    (hrules : ∀ k ∈ checks, ∀ r ∈ k.plan.rules.rules,
      r.definition.id = validDocumentId → r.isSilent = true)
    (hdrop : s.CanDrop) (h : (Datastore.ledger s).Reserves results) :
    (Datastore.ledger (performAll checks s)).Reserves (results ++ recordedAll checks s) := by
  induction checks generalizing s results with
  | nil =>
    unfold recordedAll performAll
    rwa [List.append_nil]
  | cons k rest ih =>
    obtain ⟨hdrop', h'⟩ := reserves_perform (hrules k List.mem_cons_self) hdrop h
    unfold recordedAll performAll
    rw [← List.append_assoc]
    exact ih (fun k' hk' => hrules k' (List.mem_cons_of_mem k hk')) hdrop' h'

end TextCheck

/-- The reserved identifier is left to the record of validity: after any texts have been tested with
these rules, whatever else belongs to the plans and whatever calls fail, a store that had no results
has committed under that identifier what was recorded of the validity of the texts, and nothing
else. -/
def RuleSet.LeavesReserved (rules : RuleSet) : Prop :=
  ∀ (σ : Type) [Datastore σ] [LawfulStore σ] (checks : List TextCheck) (s : FaultyStore σ),
    (∀ k ∈ checks, k.plan.rules = rules) → s.CanDrop →
    (Datastore.ledger s).tables.results = [] → (Datastore.ledger s).settle.tables.results = [] →
    TestPlan.resultsOfTest validDocumentId
      (Datastore.ledger (TextCheck.performAll checks s)).tables.results =
        TextCheck.recordedAll checks s

theorem RuleSet.leavesReserved_of_silent {rules : RuleSet}
    (h : ∀ r ∈ rules.rules, r.definition.id = validDocumentId → r.isSilent = true) :
    rules.LeavesReserved := by
  intro σ _ _ checks s hplans hdrop htables hsettled
  have hnone : (Datastore.ledger s).Reserves [] :=
    ⟨by rw [htables]; rfl, by rw [hsettled]; rfl⟩
  have hrules : ∀ k ∈ checks, ∀ r ∈ k.plan.rules.rules,
      r.definition.id = validDocumentId → r.isSilent = true := by
    intro k hk
    rw [hplans k hk]
    exact h
  exact (TextCheck.reserves_performAll hrules hdrop hnone).1

namespace TestPlan

/-- A document with one activity, which has no identifier, and a transaction in it. -/
def nestedDocument : Node :=
  .root [.element "r" [] [.element "a" [] [.element "transaction" [] []]]]

theorem parse?_nestedDocument :
    Markup.parse? "<r><a><transaction/></a></r>" = some nestedDocument := by rfl

/-- The activity of the document. -/
def nestedActivity : Place := ⟨[0, 0], .element "a" [] [.element "transaction" [] []]⟩

/-- A test of the document in which its activity is the organisation node, too. -/
def nestedCheck (rules : RuleSet) : TextCheck where
  plan := ⟨rules, false, "//a", .empty, none⟩
  context := .start ⟨1⟩ ⟨7⟩ ⟨0, 0⟩
  text := "<r><a><transaction/></a></r>"

/-- The results of the rules in the document. -/
theorem documentResults_nestedCheck (rules : RuleSet) :
    let k := nestedCheck rules
    let subject := activitySubject k.context ⟨5⟩ nestedActivity.node
    k.plan.documentResults k.context [⟨⟨5⟩, "//a"⟩] nestedDocument =
      (resultsAt k.context subject nestedDocument (rules.forLevel .activity) nestedActivity ++
        resultsAt k.context subject nestedDocument (rules.forLevel .transaction)
          ⟨[0, 0, 0], .element "transaction" [] []⟩) ++
      resultsAt k.context ⟨⟨5⟩, none, 0, false⟩ nestedDocument (rules.forLevel .organisation)
        nestedActivity := by
  let selector : Selector := ⟨"//a", [Metric.everyElement "a" []]⟩
  have hselector : Selector.parse "//a" = .ok selector := by rfl
  have hnodes : selector.selectPlaces nestedDocument (.top nestedDocument) = [nestedActivity] := by
    cbv
  have hactivities : activitiesOf nestedDocument ⟨⟨5⟩, "//a"⟩ = [nestedActivity] := by
    unfold activitiesOf
    rw [hselector]
    exact hnodes
  intro k subject
  change documentResults ⟨rules, false, "//a", .empty, none⟩ k.context _ _ = _
  unfold documentResults
  dsimp only
  rw [hselector, readable_of_ok hselector]
  dsimp only
  rw [hnodes]
  have htransactions : nestedActivity.children.filter (·.node.isNamed "transaction") =
      [⟨[0, 0, 0], .element "transaction" [] []⟩] := by rfl
  unfold targetsResults targetResults
  rw [hactivities]
  simp only [activitiesResults, activityResults, organisationResults, htransactions, readable,
    targetsResults, List.takeWhile_nil, List.flatMap_singleton, List.append_nil]
  rfl

/-- Every rule that is not silent has a result there. -/
theorem exists_mem_nestedCheck {rules : RuleSet} {r : CompiledRule} (hr : r ∈ rules.rules)
    (hsilent : r.isSilent = false) :
    ∃ x ∈ (nestedCheck rules).plan.documentResults (nestedCheck rules).context [⟨⟨5⟩, "//a"⟩]
      nestedDocument, x.testId = r.definition.id := by
  obtain ⟨hactive, hdecided⟩ : r.definition.active = true ∧
      (r.definition.level = .organisation → r.predicate.isUndecided = false) := by
    simpa [CompiledRule.isSilent] using hsilent
  have hlevel : r ∈ rules.forLevel r.definition.level :=
    RuleIndexes.mem_forLevel.2 ⟨hr, hactive, rfl⟩
  have hunnamed (c : RunContext) : (activitySubject c ⟨5⟩ nestedActivity.node).unnamed = true := rfl
  have hdocument := documentResults_nestedCheck rules
  dsimp only at hdocument
  rw [hdocument]
  simp only [List.mem_append, or_and_right, exists_or]
  cases hcase : r.definition.level <;> rw [hcase] at hlevel
  case activity => exact .inl (.inl (exists_mem_resultsAt hlevel (.inl (hunnamed _)) _ _ _))
  case transaction => exact .inl (.inr (exists_mem_resultsAt hlevel (.inl (hunnamed _)) _ _ _))
  case organisation => exact .inr (exists_mem_resultsAt hlevel (.inr (hdecided hcase)) _ _ _)

end TestPlan

def TextCheck.nestedStore : FaultyStore MemoryStore :=
  .around (MemoryStore.empty.withOrganisations ⟨7⟩ [⟨⟨5⟩, "//a"⟩]) []

/-- The results that are committed of the test. -/
theorem TextCheck.results_nestedStore (rules : RuleSet) :
    let k := TestPlan.nestedCheck rules
    (Datastore.ledger (k.perform nestedStore)).tables.results =
      TestPlan.validity k.context .pass ::
        k.plan.documentResults k.context [⟨⟨5⟩, "//a"⟩] TestPlan.nestedDocument := by
  intro k
  obtain ⟨outcome, c', t', commits, hends, hresults⟩ := Ends.checkText
    (reliable_faultyStore (reliable_memoryStore 0)) k.plan (c := k.context) k.text
    (Datastore.ledger nestedStore)
  obtain ⟨s', hrun, -, hledger⟩ := hends [] nestedStore ⟨rfl, rfl⟩ rfl
  have hparse : Markup.parse? k.text = some TestPlan.nestedDocument := TestPlan.parse?_nestedDocument
  unfold perform
  rw [hrun]
  dsimp only
  rw [hledger]
  change t'.results = _
  rw [hresults]
  unfold TestPlan.addedResults
  rw [hparse]
  rfl

/-- Rules of the reserved identifier are silent if they leave it to the record of validity. -/
theorem RuleSet.silent_of_leavesReserved {rules : RuleSet} (h : rules.LeavesReserved)
    {r : CompiledRule} (hr : r ∈ rules.rules) (hid : r.definition.id = validDocumentId) :
    r.isSilent = true := by
  by_contra hsounds
  let k := TestPlan.nestedCheck rules
  obtain ⟨x, hx, hxid⟩ := TestPlan.exists_mem_nestedCheck hr (by simpa using hsounds)
  let added := k.plan.documentResults k.context [⟨⟨5⟩, "//a"⟩] TestPlan.nestedDocument
  have hmem : x ∈ TestPlan.resultsOfTest validDocumentId added :=
    List.mem_filter.2 ⟨hx, beq_iff_eq.2 (hxid.trans hid)⟩
  have hrecorded := h MemoryStore [k] TextCheck.nestedStore (by simp [k, TestPlan.nestedCheck])
    (by simp [FaultyStore.CanDrop, TextCheck.nestedStore, FaultyStore.around]) rfl rfl
  change TestPlan.resultsOfTest validDocumentId (Datastore.ledger (k.perform _)).tables.results =
    k.recorded _ ++ [] at hrecorded
  rw [TextCheck.results_nestedStore, List.append_nil] at hrecorded
  -- the result of the rule stands beside the one record that there can be
  have hone := k.length_recorded_le TextCheck.nestedStore
  have hmore := List.length_pos_of_mem hmem
  rw [← hrecorded] at hone
  change (TestPlan.resultsOfTest validDocumentId added).length + 1 ≤ 1 at hone
  omega

namespace RuleDefinition

/-- No line of a plain source has the reserved identifier. -/
theorem id_ne_of_mem_ofLines {source : String} (h : (ofLines source).length < 2 ^ 64)
    {d : RuleDefinition} (hd : d ∈ ofLines source) : d.id ≠ validDocumentId := by
  unfold ofLines at h hd
  rw [length_numberFrom] at h
  exact id_ne_of_mem_numberFrom hd (.inl ⟨Nat.one_pos, by omega⟩)

end RuleDefinition

/-- The rules of a file, compiled for any levels, leave the reserved identifier to the record of
validity exactly if every rule that has it is silent: no rule of a plain source has it, but one in an
array may. -/
theorem RuleSet.leavesReserved_iff {t : Files.Tree} {folder : Files.Path} {path : String}
    {definitions : List RuleDefinition} (h : RuleDefinition.load t folder path = .ok definitions)
    (levels : List Level) :
    let rules := compile levels definitions
    (rules.LeavesReserved ↔
      ∀ r ∈ rules.rules, r.definition.id = validDocumentId → r.isSilent = true) ∧
    ((⟨folder, path⟩ : Files.Route).isJson = false → definitions.length < 2 ^ 64 →
      rules.LeavesReserved) := by
  refine ⟨⟨fun hreserved r hr => silent_of_leavesReserved hreserved hr, leavesReserved_of_silent⟩,
    fun hplain hshort => leavesReserved_of_silent fun r hr hid => ?_⟩
  obtain ⟨text, -, htext⟩ := (Files.load_eq_ok_iff _ _ _ _).1 h
  rw [hplain] at htext
  obtain rfl := Option.some.inj htext
  exact absurd hid (RuleDefinition.id_ne_of_mem_ofLines hshort (definition_mem_of_mem_compile hr))

/-- A folder with a plain source and an array of one rule. -/
def TextCheck.ruleTree : Files.Tree where
  entries := [
    (["rules.txt"], .file "b exists?\n".toUTF8),
    (["rules.json"], .file
      "[\x7b\"id\":0,\"text\":\"b exists?\",\"level\":\"activity\"\x7d]".toUTF8)]

/-- The plain source leaves the identifier alone. -/
theorem RuleSet.leavesReserved_iff_plain :
    RuleDefinition.load TextCheck.ruleTree [] "rules.txt" =
        .ok [⟨⟨1⟩, "b exists?", .activity, true⟩] ∧
      (compile [.activity] [⟨⟨1⟩, "b exists?", .activity, true⟩]).LeavesReserved := by
  have hload : RuleDefinition.load TextCheck.ruleTree [] "rules.txt" =
      .ok [⟨⟨1⟩, "b exists?", .activity, true⟩] := by decide +kernel
  exact ⟨hload, (leavesReserved_iff hload [.activity]).2 (by decide +kernel) (by decide)⟩

/-- The rule of the array takes it: the failure of an activity stands beside the validity of the
document. -/
theorem RuleSet.not_leavesReserved_zero :
    let rules := compile [.activity] [⟨⟨0⟩, "b exists?", .activity, true⟩]
    let k := TestPlan.nestedCheck rules
    let s := TextCheck.nestedStore
    RuleDefinition.load TextCheck.ruleTree [] "rules.json" =
        .ok [⟨⟨0⟩, "b exists?", .activity, true⟩] ∧
      k.recorded s = [⟨⟨1⟩, ⟨7⟩, ⟨0⟩, .pass, none, 0, none⟩] ∧
      (Datastore.ledger (k.perform s)).tables.results =
        [⟨⟨1⟩, ⟨7⟩, ⟨0⟩, .pass, none, 0, none⟩,
          ⟨⟨1⟩, ⟨7⟩, ⟨0⟩, .fail, some "MISSING-1", 0, some ⟨5⟩⟩] ∧
      ¬ rules.LeavesReserved := by
  intro rules k s
  refine ⟨by decide +kernel, by decide +kernel, ?_, fun hreserved => ?_⟩
  · rw [TextCheck.results_nestedStore, TestPlan.documentResults_nestedCheck]
    decide +kernel
  · obtain ⟨r, hr, hid, hsounds⟩ : ∃ r ∈ rules.rules,
        r.definition.id = validDocumentId ∧ r.isSilent = false := by decide +kernel
    rw [silent_of_leavesReserved hreserved hr hid] at hsounds
    cases hsounds

end DataQuality
