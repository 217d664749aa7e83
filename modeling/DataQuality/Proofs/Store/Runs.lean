import DataQuality.Proofs.Keyed
import DataQuality.Proofs.Store.Journal

/-!
# Runs

A new run is given the next number after those of the runs that were started, be they committed or
staged. The runs of what is recorded are not looked at.
-/
namespace DataQuality

namespace Tables

/-- Something that is recorded is of this run. -/
inductive Uses (t : Tables) : RuntimeId → Prop
  | result {x : TestResult} (h : x ∈ t.results) : Uses t x.runtimeId
  | info {x : InfoResult} (h : x ∈ t.infoResults) : Uses t x.runtimeId
  | row {a : AggregateRow} (h : a ∈ t.aggregates) : Uses t a.runtimeId
  | mark {p : PackageId} {r : RuntimeId} (h : (p, r) ∈ t.tested) : Uses t r

variable {t : Tables} {w : Write}

theorem mem_results_apply {x : TestResult} (h : x ∈ (t.apply w).results) :
    x ∈ t.results ∨ w = .saveResult x := by
  cases w with
  | saveResult y =>
    refine (List.mem_append.1 h).imp id fun h => ?_
    rw [List.mem_singleton.1 h]
  | deleteResults p => exact .inl (List.mem_of_mem_filter h)
  | _ => exact .inl h

theorem mem_infoResults_apply {x : InfoResult} (h : x ∈ (t.apply w).infoResults) :
    x ∈ t.infoResults ∨ w = .replaceInfo x := by
  cases w with
  | replaceInfo y =>
    refine (List.mem_append.1 h).imp List.mem_of_mem_filter fun h => ?_
    rw [List.mem_singleton.1 h]
  | _ => exact .inl h

theorem mem_aggregates_apply {a : AggregateRow} (h : a ∈ (t.apply w).aggregates) :
    a ∈ t.aggregates ∨ ∃ r p rows, w = .putAggregates r p rows ∧ a ∈ rows := by
  cases w with
  | putAggregates r p rows =>
    exact (List.mem_append.1 h).imp List.mem_of_mem_filter fun h => ⟨r, p, rows, rfl, h⟩
  | _ => exact .inl h

theorem mem_tested_apply {p : PackageId} {r : RuntimeId} (h : (p, r) ∈ (t.apply w).tested) :
    (p, r) ∈ t.tested ∨ w = .recordTestrun p r := by
  cases w with
  | recordTestrun p' r' =>
    refine (Keyed.mem_insert h).symm.imp id fun h => ?_
    obtain ⟨rfl, rfl⟩ := Prod.mk.inj h
    rfl
  | _ => exact .inl h

end Tables

/-- What the write records is of this run, and it starts none. -/
def Write.IsOf (r : RuntimeId) : Write → Prop
  | .saveResult x => x.runtimeId = r
  | .replaceInfo x => x.runtimeId = r
  | .putAggregates _ _ rows => ∀ a ∈ rows, a.runtimeId = r
  | .recordTestrun _ q => q = r
  | .startRun _ => False
  | _ => True

namespace Tables

variable {t : Tables} {q r : RuntimeId}

/-- A write of a run records nothing of others. -/
theorem Uses.of_apply {w : Write} (hw : w.IsOf r) (h : (t.apply w).Uses q) : t.Uses q ∨ q = r := by
  cases h with
  | result h =>
    obtain h | rfl := mem_results_apply h
    · exact .inl (.result h)
    · exact .inr hw
  | info h =>
    obtain h | rfl := mem_infoResults_apply h
    · exact .inl (.info h)
    · exact .inr hw
  | row h =>
    obtain h | ⟨_, _, rows, rfl, ha⟩ := mem_aggregates_apply h
    · exact .inl (.row h)
    · exact .inr (hw _ ha)
  | mark h =>
    obtain h | rfl := mem_tested_apply h
    · exact .inl (.mark h)
    · exact .inr hw

theorem runs_apply {w : Write} (hw : w.IsOf r) : (t.apply w).runs = t.runs := by
  cases w with
  | startRun run => exact hw.elim
  | _ => rfl

theorem Uses.of_applyAll {ws : List Write} (hws : ∀ w ∈ ws, w.IsOf r)
    (h : (t.applyAll ws).Uses q) : t.Uses q ∨ q = r := by
  induction ws generalizing t with
  | nil => exact .inl h
  | cons w rest ih =>
    rcases ih (t := t.apply w) (fun v hv => hws v (List.mem_cons_of_mem w hv)) h with h | h
    · exact h.of_apply (hws w List.mem_cons_self)
    · exact .inr h

theorem runs_applyAll {ws : List Write} (hws : ∀ w ∈ ws, w.IsOf r) : (t.applyAll ws).runs = t.runs := by
  induction ws generalizing t with
  | nil => rfl
  | cons w rest ih =>
    exact (ih (t := t.apply w) fun v hv => hws v (List.mem_cons_of_mem w hv)).trans
      (runs_apply (hws w List.mem_cons_self))

/-- Runs that are started record nothing. -/
theorem Uses.of_starts {ws : List Write} (hws : ∀ w ∈ ws, ∃ run, w = .startRun run)
    (h : (t.applyAll ws).Uses q) : t.Uses q := by
  induction ws generalizing t with
  | nil => exact h
  | cons w rest ih =>
    have hrest := ih (t := t.apply w) (fun v hv => hws v (List.mem_cons_of_mem w hv)) h
    obtain ⟨run, rfl⟩ := hws w List.mem_cons_self
    cases hrest with
    | result hx => exact .result hx
    | info hx => exact .info hx
    | row ha => exact .row ha
    | mark hr => exact .mark hr

/-- The runs after some writes are those before and those that the writes start. -/
theorem ids_applyAll (t : Tables) (ws : List Write) :
    (t.applyAll ws).runs.map (·.id) = t.runs.map (·.id) ++ startedRuns ws := by
  induction ws generalizing t with
  | nil => exact (List.append_nil _).symm
  | cons w rest ih =>
    refine (ih (t.apply w)).trans ?_
    cases w with
    | startRun run =>
      change (t.runs ++ [run]).map _ ++ _ = _
      rw [List.map_append, List.append_assoc]
      rfl
    | _ => rfl

end Tables

namespace Ledger

/-- The runs that were started, committed or staged. -/
def startedRuns (l : Ledger) : List RuntimeId :=
  l.tables.runs.map (·.id) ++ Tables.startedRuns l.staged

/-- The greatest number of a run that was started; zero if there is none. -/
def latestRun (l : Ledger) : Int := ((l.startedRuns.map Id.value).max?.getD 0).toInt

theorem max?_concat_of_lt {xs : List Int64} {x : Int64} (h : xs.max?.getD 0 < x) :
    (xs ++ [x]).max? = some x := by
  cases xs with
  | nil => rfl
  | cons y ys =>
    change some ((ys ++ [x]).foldl max y) = _
    rw [List.foldl_append]
    exact congrArg some (if_pos (Int64.le_of_lt h))

/-- A new run is given the next number. -/
theorem id_startRun (l : Ledger) (now : Instant) (h : l.latestRun + 1 < 2 ^ 63) :
    (l.startRun now).1.toInt = l.latestRun + 1 := by
  have hleast := Int64.le_toInt ((l.startedRuns.map Id.value).max?.getD 0)
  change (((l.startedRuns.map Id.value).max?.getD 0) + 1).toInt = _
  unfold latestRun at *
  rw [Int64.toInt_add, Int64.toInt_one]
  refine Int.bmod_eq_of_le ?_ ?_ <;> omega

theorem startedRuns_startRun (l : Ledger) (now : Instant) :
    (l.startRun now).2.startedRuns = l.startedRuns ++ [(l.startRun now).1] := by
  change _ ++ List.filterMap _ (l.staged ++ [_]) = _
  rw [List.filterMap_append, ← List.append_assoc]
  rfl

theorem latestRun_startRun (l : Ledger) (now : Instant) (h : l.latestRun + 1 < 2 ^ 63) :
    (l.startRun now).2.latestRun = l.latestRun + 1 := by
  have hid := id_startRun l now h
  have hlater : (l.startedRuns.map Id.value).max?.getD 0 < (l.startRun now).1.value := by
    rw [Int64.lt_iff_toInt_lt]
    change l.latestRun < (l.startRun now).1.toInt
    omega
  unfold latestRun
  rw [startedRuns_startRun, List.map_append, List.map_singleton, max?_concat_of_lt hlater]
  exact hid

/-- Carrying out what is staged starts no other runs. -/
theorem startedRuns_settle (l : Ledger) : l.settle.startedRuns = l.startedRuns := by
  change (l.tables.applyAll l.staged).runs.map (·.id) ++ [] = _
  rw [List.append_nil, Tables.ids_applyAll]
  rfl

theorem latestRun_settle (l : Ledger) : l.settle.latestRun = l.latestRun := by
  unfold latestRun
  rw [startedRuns_settle]

/-- Whatever is recorded is of a run up to the latest one, and only starts of runs are staged. -/
structure Grounded (l : Ledger) : Prop where
  used : ∀ r, l.tables.Uses r → r.toInt ≤ l.discard.latestRun
  starts : ∀ w ∈ l.staged, ∃ run, w = .startRun run
  later : l.discard.latestRun ≤ l.latestRun

namespace Grounded

variable {l : Ledger}

theorem of_settled (hstaged : l.staged = [])
    (h : ∀ r, l.tables.Uses r → r.toInt ≤ l.latestRun) : l.Grounded := by
  have hsame : l.discard = l := by
    unfold Ledger.discard
    rw [← hstaged]
  refine ⟨?_, by simp [hstaged], ?_⟩ <;> rw [hsame]
  exact h

/-- The next run is fresh. -/
theorem not_uses_startRun (h : l.Grounded) (now : Instant) (hbound : l.latestRun + 1 < 2 ^ 63) :
    ¬ l.tables.Uses (l.startRun now).1 := by
  intro hused
  have hid := l.id_startRun now hbound
  have hle := h.used _ hused
  have hlater := h.later
  omega

theorem startRun (h : l.Grounded) (now : Instant) (hbound : l.latestRun + 1 < 2 ^ 63) :
    (l.startRun now).2.Grounded := by
  refine ⟨h.used, fun w hw => ?_, ?_⟩
  · rcases List.mem_append.1 hw with hw | hw
    · exact h.starts w hw
    · exact ⟨_, List.mem_singleton.1 hw⟩
  · rw [l.latestRun_startRun now hbound]
    exact h.later.trans (by omega)

theorem discard (h : l.Grounded) : l.discard.Grounded :=
  .of_settled rfl h.used

theorem settle (h : l.Grounded) : l.settle.Grounded := by
  refine .of_settled rfl fun r hr => ?_
  rw [latestRun_settle]
  exact (h.used r (hr.of_starts h.starts)).trans h.later

/-- What is staged may be carried out, and then writes of a run that is not beyond the latest one. -/
theorem applyAll (h : l.Grounded) {r : RuntimeId} {ws : List Write} (hws : ∀ w ∈ ws, w.IsOf r)
    (hr : r.toInt ≤ l.latestRun) :
    (Ledger.ofTables (l.settle.tables.applyAll ws)).Grounded ∧
      (Ledger.ofTables (l.settle.tables.applyAll ws)).latestRun = l.latestRun := by
  have hruns : (Ledger.ofTables (l.settle.tables.applyAll ws)).startedRuns = l.settle.startedRuns := by
    change (l.settle.tables.applyAll ws).runs.map (·.id) ++ _ = _
    rw [Tables.runs_applyAll hws]
    rfl
  have hlatest : (Ledger.ofTables (l.settle.tables.applyAll ws)).latestRun = l.settle.latestRun := by
    unfold latestRun
    rw [hruns]
  refine ⟨.of_settled rfl fun q hq => ?_, hlatest.trans l.latestRun_settle⟩
  rw [hlatest]
  rcases Tables.Uses.of_applyAll hws hq with hq | rfl
  · exact h.settle.used q hq
  · rwa [latestRun_settle]

end Grounded

end Ledger

end DataQuality
