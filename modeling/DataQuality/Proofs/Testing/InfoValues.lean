import DataQuality.Proofs.Json.Doubles
import DataQuality.Proofs.Metric.Values
import DataQuality.Proofs.Store.Durability
import DataQuality.Proofs.Testing.Results

/-!
# Values of metrics in a journal

Testing commits the value of each metric by itself. The commit succeeds whatever the value
is, but a value that is not finite is written as `null`, and a journal with such a line is
not replayed: the store goes on, and cannot be opened again. What decides is the sum of the
percentages of the lines of total budgets, where the value of a metric rests on it; that is
finite if the document gives no amount below zero.
-/
namespace DataQuality

open Files (Path Route)
open Markup (Node Place)

theorem isSome_mapM_iff {α β : Type} {f : α → Option β} (xs : List α) :
    (xs.mapM f).isSome = true ↔ ∀ x ∈ xs, (f x).isSome = true := by
  induction xs with
  | nil => simp
  | cons x rest ih =>
    rw [List.mapM_cons, List.forall_mem_cons, ← ih]
    cases f x with
    | none => simp
    | some y => cases rest.mapM f <;> simp

namespace Tables

/-- What a journal is replayed as when the lines of some commits are added to it, from
what it was replayed as before. -/
def replayedAfter (replayed : Option Tables) (commits : List (List Write)) : Option Tables :=
  commits.foldl (fun replayed writes => replayed.bind (·.replayed? writes)) replayed

/-- A journal can still be replayed exactly if each write that is added to it is read. -/
theorem isSome_replayedAfter_iff (replayed : Option Tables) (commits : List (List Write)) :
    (replayedAfter replayed commits).isSome = true ↔
      replayed.isSome = true ∧ ∀ writes ∈ commits, ∀ w ∈ writes, w.reread?.isSome = true := by
  induction commits generalizing replayed with
  | nil => simp [replayedAfter]
  | cons writes rest ih =>
    have hstep : (replayed.bind (·.replayed? writes)).isSome = true ↔
        replayed.isSome = true ∧ ∀ w ∈ writes, w.reread?.isSome = true := by
      rw [← isSome_mapM_iff]
      cases replayed <;> simp [replayed?]
    rw [replayedAfter, List.foldl_cons, List.forall_mem_cons, ← and_assoc, ← hstep]
    exact ih _

end Tables

namespace DirectoryStore

/-- Calls of testing succeed on a store in a directory, and each commit is added to its
journal. -/
theorem reliable_replays (directory : Route) (base : Path) (replayed : Option Tables) :
    Reliable DirectoryStore fun done s => s.directory = directory ∧
      ∃ journal, Replays s base journal (Tables.replayedAfter replayed done) where
  stage h _ := by
    obtain ⟨hdirectory, journal, hs⟩ := h
    exact ⟨_, rfl, ⟨hdirectory, journal, hs.withLedger rfl⟩, rfl⟩
  aggregate h _ _ := by
    obtain ⟨hdirectory, journal, hs⟩ := h
    exact ⟨_, rfl, ⟨hdirectory, journal, hs.withLedger rfl⟩, rfl⟩
  organisationsOf h _ := ⟨_, rfl, h, rfl⟩
  commit h _ := by
    obtain ⟨hdirectory, journal, hs⟩ := h
    obtain ⟨s', hrun, hsame, hledger, hafter⟩ := hs.commit
    refine ⟨s', hrun, ⟨hsame.trans hdirectory, ?_⟩, hledger⟩
    rw [Tables.replayedAfter, List.foldl_append]
    exact ⟨_, hafter⟩

end DirectoryStore

namespace TestPlan

open DataQuality.Metric (IsCountable NoneBelowZero RestsOnLines lineSum)

variable (plan : TestPlan) {now : Instant} {document : Node} {place : Place}

/-- The written form of the value that is kept of a metric is read unless the value is the
mean of percentages with an infinite sum. A metric without a value counts as zero. -/
theorem isSome_asFloat?_metricValue_iff (hcount : IsCountable ⟨now, plan.codelist⟩ document place)
    (m : Metric) :
    (Json.ofFloat (plan.metricValue now document place m)).asFloat?.isSome = true ↔
      (RestsOnLines ⟨now, plan.codelist⟩ document place m →
        (lineSum now document place).isFinite = true) := by
  unfold metricValue
  cases hvalue : m.evaluate ⟨now, plan.codelist⟩ document place with
  | ok x =>
    have hmoderate := fun hx => (Metric.isModerate_evaluate hcount hvalue hx).2
    exact (Json.isSome_asFloat?_ofFloat_iff hmoderate).trans
      (Metric.isFinite_evaluate hcount hvalue)
  | error e =>
    have hzero : (Json.ofFloat 0.0).asFloat?.isSome = true := by decide +kernel
    have hnot : ¬ RestsOnLines ⟨now, plan.codelist⟩ document place m := by
      cases m with
      | totalCountryBudgets => cases hvalue
      | totalSectorBudgets => cases hvalue
      | _ => exact id
    exact ⟨fun _ hrests => absurd hrests hnot, fun _ => hzero⟩

/-- The metrics of a level are computed and committed whatever their values are. If the
store could be opened before, it can be opened again exactly if each value is read from
its written form. -/
theorem runMetrics_opens_iff (plan : TestPlan) (c : RunContext) (o : OrganisationId) (level : Level)
    (document : Node) (place : Place) {s : DirectoryStore} {base : Path} {journal : String}
    {replayed : Option Tables} (hstore : DirectoryStore.Replays s base journal replayed)
    (hstaged : s.ledger.staged = []) :
    ∃ s', (plan.runMetrics o level document place).run ⟨c, s⟩ =
        (.ok (plan.metrics.forLevel level).length, ⟨c, s'⟩) ∧ s'.directory = s.directory ∧
      (s'.Opens ↔ s.Opens ∧ ∀ b ∈ plan.metrics.forLevel level,
        let value := plan.metricValue c.now document place b.metric
        (Json.ofFloat value).asFloat?.isSome = true) := by
  have hreliable := DirectoryStore.reliable_replays s.directory base replayed
  have hledger : s.ledger = .ofTables s.ledger.tables := by
    change s.ledger = ⟨s.ledger.tables, []⟩
    rw [← hstaged]
  obtain ⟨s', hrun, ⟨hdirectory, journal', hreplays⟩, -⟩ :=
    Completes.runMetrics hreliable plan document o level place s.ledger.tables [] s
      ⟨rfl, journal, hstore⟩ hledger
  refine ⟨s', hrun, hdirectory, ?_⟩
  rw [hreplays.opens_iff, hstore.opens_iff, List.nil_append, Tables.isSome_replayedAfter_iff,
    metricsCommits]
  simp [Write.reread?]

/-- The value of a metric is finite, and is written as a number that can be read again,
unless it is the mean of percentages with an infinite sum. That sum is finite if the
document gives no amount below zero. The values of a level are committed in any case; a
store that could be opened before can be opened again exactly if all of them are finite. -/
theorem finite_values_and_opens_iff (plan : TestPlan) (c : RunContext) (o : OrganisationId)
    (level : Level) {document : Node} {place : Place}
    (hcount : IsCountable ⟨c.now, plan.codelist⟩ document place)
    {s : DirectoryStore} {base : Path} {journal : String} {replayed : Option Tables}
    (hstore : DirectoryStore.Replays s base journal replayed) (hstaged : s.ledger.staged = []) :
    let setting : MetricSetting := ⟨c.now, plan.codelist⟩
    let sumIsFinite : Prop := (lineSum c.now document place).isFinite = true
    (∀ m x, m.evaluate setting document place = .ok x →
      (x.isFinite = true ↔ (RestsOnLines setting document place m → sumIsFinite)) ∧
        ((Json.ofFloat x).asFloat?.isSome = true ↔ x.isFinite = true)) ∧
    (NoneBelowZero document place → sumIsFinite) ∧
    ∃ s', (plan.runMetrics o level document place).run ⟨c, s⟩ =
        (.ok (plan.metrics.forLevel level).length, ⟨c, s'⟩) ∧ s'.directory = s.directory ∧
      (s'.Opens ↔ s.Opens ∧ ∀ b ∈ plan.metrics.forLevel level,
        RestsOnLines setting document place b.metric → sumIsFinite) := by
  intro setting sumIsFinite
  refine ⟨fun m x hvalue => ⟨Metric.isFinite_evaluate hcount hvalue, ?_⟩,
    Metric.isFinite_lineSum c.now, ?_⟩
  · exact Json.isSome_asFloat?_ofFloat_iff fun hx =>
      (Metric.isModerate_evaluate hcount hvalue hx).2
  · obtain ⟨s', hrun, hdirectory, hopens⟩ :=
      plan.runMetrics_opens_iff c o level document place hstore hstaged
    refine ⟨s', hrun, hdirectory, hopens.trans (and_congr_right fun _ => ?_)⟩
    exact forall₂_congr fun b _ => plan.isSome_asFloat?_metricValue_iff hcount b.metric

def oneLineBudget (total line : String) : Node :=
  .element "total-budget" [] [
    .element "period-end" [⟨none, "iso-date", "2020-01-01"⟩] [], .element "value" [] [.text total],
    .element "budget-line" [] [
      .element "narrative" [] [.text "n"], .element "value" [] [.text line]]]

def oneLineDocument (total line : String) : Node :=
  .root [.element "r" [] [oneLineBudget total line]]

theorem elements_oneLineDocument (total line : String) :
    Metric.elements (oneLineDocument total line) (.top (oneLineDocument total line))
      [Metric.everyElement "total-budget" []] = [oneLineBudget total line] := by
  cbv

theorem isCountable_oneLineDocument {total line : String}
    (hsectors : (Metric.sectorNames (Metric.offsets.map fun o =>
      [oneLineBudget total line].foldl (Metric.SectorYear.add (.ofOffset ⟨1577836800, 0⟩ o))
        Metric.SectorYear.none)).length < 2 ^ 64) :
    IsCountable ⟨⟨1577836800, 0⟩, none⟩ (oneLineDocument total line)
      (.top (oneLineDocument total line)) where
  sectors := by
    unfold Metric.sectorYears
    rw [elements_oneLineDocument]
    exact hsectors
  countries := by
    have hnone : Metric.elements (oneLineDocument total line) (.top (oneLineDocument total line))
        Metric.countryBudgetPaths = [] := by cbv
    unfold Metric.activeCountries
    rw [hnone]
    decide

/-- The sector budgets of organisations are computed, and nothing is tested. -/
def sectorPlan : TestPlan where
  rules := .empty
  removeResults := false
  organisationSelector := defaultOrganisationSelector
  metrics := .insert .empty ⟨⟨3⟩, .totalSectorBudgets, .organisation⟩ rfl
  codelist := none

def emptyStore : DirectoryStore :=
  ⟨{ entries := [(["store"], .folder)] }, ⟨[], "store"⟩, .ofTables (Tables.listing [])⟩

theorem replays_emptyStore :
    DirectoryStore.Replays emptyStore ["store"] "" (some (Tables.listing [])) := by
  have hhome : DirectoryStore.Home emptyStore.tree emptyStore.directory ["store"] :=
    .of_ungrouped rfl rfl rfl (by decide +kernel) (by decide +kernel) (by decide +kernel)
  refine ⟨hhome, ?_, .inr ⟨rfl, rfl⟩, Journal.isComplete_empty, rfl⟩
  unfold DirectoryStore.loadOrganisations
  rw [hhome.readText_of_none DirectoryStore.organisationsName_mem hhome.organisations rfl]
  rfl

/-- A line of half of the total budget. -/
theorem finite_values_and_opens_iff_half :
    let document := oneLineDocument "1000" "500"
    let c : RunContext := .start ⟨1⟩ ⟨7⟩ ⟨1577836800, 0⟩
    IsCountable ⟨c.now, sectorPlan.codelist⟩ document (.top document) ∧
      DirectoryStore.Replays emptyStore ["store"] "" (some (Tables.listing [])) ∧
      emptyStore.ledger.staged = [] ∧
      ∃ s', (sectorPlan.runMetrics ⟨5⟩ .organisation document (.top document)).run ⟨c, emptyStore⟩ =
          (.ok 1, ⟨c, s'⟩) ∧ s'.Opens := by
  intro document c
  have hcount : IsCountable ⟨c.now, sectorPlan.codelist⟩ document (.top document) :=
    isCountable_oneLineDocument (by decide +kernel)
  have hnone : NoneBelowZero document (.top document) := by
    have hamounts : ∀ record ∈ oneLineBudget "1000" "500" ::
        (oneLineBudget "1000" "500").childrenNamed "budget-line",
        ∀ x ∈ Metric.plainAmount? record, ¬ x < 0.0 := by decide +kernel
    unfold NoneBelowZero
    rw [elements_oneLineDocument]
    exact List.forall_mem_singleton.2 hamounts
  obtain ⟨-, hsum, s', hrun, -, hopens⟩ :=
    finite_values_and_opens_iff sectorPlan c ⟨5⟩ .organisation hcount replays_emptyStore rfl
  exact ⟨hcount, replays_emptyStore, rfl, s', hrun,
    hopens.2 ⟨replays_emptyStore.opens_iff.2 rfl, fun _ _ _ => hsum hnone⟩⟩

/-- A line that is far below zero, of a small total budget. -/
theorem not_finite_and_not_opens_far_below_zero :
    let document := oneLineDocument "0.001" "-1e308"
    let c : RunContext := .start ⟨1⟩ ⟨7⟩ ⟨1577836800, 0⟩
    IsCountable ⟨c.now, sectorPlan.codelist⟩ document (.top document) ∧
      DirectoryStore.Replays emptyStore ["store"] "" (some (Tables.listing [])) ∧
      emptyStore.ledger.staged = [] ∧ emptyStore.Opens ∧
      (∃ x, Metric.totalSectorBudgets.evaluate ⟨c.now, sectorPlan.codelist⟩ document
        (.top document) = .ok x ∧ ¬ x.isFinite = true) ∧
      ∃ s', (sectorPlan.runMetrics ⟨5⟩ .organisation document (.top document)).run ⟨c, emptyStore⟩ =
          (.ok 1, ⟨c, s'⟩) ∧ ¬ s'.Opens := by
  intro document c
  have hcount : IsCountable ⟨c.now, sectorPlan.codelist⟩ document (.top document) :=
    isCountable_oneLineDocument (by decide +kernel)
  have hvalue : ¬ (sectorPlan.metricValue c.now document (.top document)
      .totalSectorBudgets).isFinite = true := by
    change ¬ (Metric.sectorScore (Metric.sectorYears _ _ _)).isFinite = true
    unfold Metric.sectorYears
    rw [elements_oneLineDocument]
    decide +kernel
  obtain ⟨s', hrun, -, hopens⟩ := sectorPlan.runMetrics_opens_iff c ⟨5⟩ .organisation document
    (.top document) replays_emptyStore rfl
  refine ⟨hcount, replays_emptyStore, rfl, replays_emptyStore.opens_iff.2 rfl,
    ⟨_, rfl, hvalue⟩, s', hrun, fun hopen => ?_⟩
  have hread := (hopens.1 hopen).2 ⟨⟨3⟩, .totalSectorBudgets, .organisation⟩ (by decide +kernel)
  dsimp only at hread
  rw [Json.asFloat?_ofFloat_of_not_isFinite hvalue] at hread
  cases hread

end TestPlan

end DataQuality
