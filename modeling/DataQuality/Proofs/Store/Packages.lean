import DataQuality.Proofs.Store.Counting
import DataQuality.Proofs.Store.Journal

/-!
# Packages

What a store holds of a package are its results, its status, the run in which it was last tested, and
the rows that count its results. A write about one package leaves what is held of the others as it is,
and starts no run.
-/
namespace DataQuality

/-- What a store holds of one package. -/
structure PackageRecord where
  results : List TestResult
  status : Option PackageStatus
  /-- The run in which the package was last tested. -/
  lastRun : Option RuntimeId
  /-- The rows of all runs. -/
  rows : List AggregateRow
  deriving DecidableEq

namespace PackageRecord

def clear (record : PackageRecord) : PackageRecord := { record with results := [] }

def add (record : PackageRecord) (results : List TestResult) : PackageRecord :=
  { record with results := record.results ++ results }

/-- The count of the results that the package has in a run. -/
def count (record : PackageRecord) (r : RuntimeId) : List AggregateRow :=
  ((record.results.filter (·.runtimeId == r)).foldl Tables.countResult []).map (·.2)

/-- When the results in a run have been counted and the package has been marked as tested. -/
def conclude (record : PackageRecord) (r : RuntimeId) : PackageRecord :=
  { record with
    status := some .tested
    rows := record.rows.filter (·.runtimeId != r) ++ record.count r }

def mark (record : PackageRecord) (r : RuntimeId) : PackageRecord := { record with lastRun := some r }

end PackageRecord

/-- What the write changes is something of this package. -/
def Write.IsAbout (p : PackageId) : Write → Prop
  | .saveResult x => x.packageId = p
  | .deleteResults q => q = p
  | .replaceInfo x => x.packageId = p
  | .startRun _ => False
  | .recordTestrun q _ => q = p
  | .setStatus q _ => q = p
  | .putAggregates _ q rows => q = p ∧ ∀ row ∈ rows, row.packageId = p

namespace Tables

variable {t : Tables} {p q : PackageId}

def recordOf (t : Tables) (p : PackageId) : PackageRecord :=
  ⟨t.resultsOf p, t.statusOf? p, t.lastTestedRun? p, t.aggregates.filter (·.packageId == p)⟩

/-- Counting the results of a package in a run looks at the record of the package only. -/
theorem aggregate_eq_count (t : Tables) (r : RuntimeId) (p : PackageId) :
    t.aggregate r p = (t.recordOf p).count r := by
  unfold aggregate PackageRecord.count recordOf resultsOf
  rw [List.filter_filter]

theorem recordOf_deleteResults (t : Tables) (p : PackageId) :
    (t.apply (.deleteResults p)).recordOf p = (t.recordOf p).clear := by
  have hresults : (t.apply (.deleteResults p)).resultsOf p = [] := by
    refine List.filter_eq_nil_iff.2 fun x hx => ?_
    have hne : x.packageId ≠ p := by simpa using List.of_mem_filter hx
    simpa using hne
  unfold recordOf
  rw [hresults]
  rfl

theorem recordOf_recordTestrun (t : Tables) (p : PackageId) (r : RuntimeId) :
    (t.apply (.recordTestrun p r)).recordOf p = (t.recordOf p).mark r := by
  have hrun : (t.apply (.recordTestrun p r)).lastTestedRun? p = some r :=
    Keyed.get?_insert_self _ _ _ _
  unfold recordOf
  rw [hrun]
  rfl

/-- The rows of the package in a run are replaced, and it is marked as tested. -/
theorem recordOf_concluded (t : Tables) (r : RuntimeId) (p : PackageId) :
    (t.applyAll [.putAggregates r p (t.aggregate r p), .setStatus p .tested]).recordOf p =
      (t.recordOf p).conclude r := by
  let after := t.applyAll [.putAggregates r p (t.aggregate r p), .setStatus p .tested]
  have hstatus : after.statusOf? p = some .tested := Keyed.get?_insert_self _ _ _ _
  have hbelongs := (t.isCount_aggregate r p).belongs
  have hcounted : (t.aggregate r p).filter (·.packageId == p) = t.aggregate r p :=
    List.filter_eq_self.2 fun row hrow => beq_iff_eq.2 (hbelongs row hrow).2
  have hkept : (t.aggregates.filter fun a => !(a.runtimeId == r && a.packageId == p)).filter
      (·.packageId == p) = (t.aggregates.filter (·.packageId == p)).filter (·.runtimeId != r) := by
    rw [List.filter_filter, List.filter_filter]
    refine List.filter_congr fun row _ => ?_
    cases row.packageId == p <;> simp [bne]
  have hrows : after.aggregates.filter (·.packageId == p) =
      (t.recordOf p).rows.filter (·.runtimeId != r) ++ (t.recordOf p).count r := by
    rw [← aggregate_eq_count]
    change List.filter _ (List.filter _ _ ++ _) = _
    rw [List.filter_append, hcounted, hkept]
    rfl
  change after.recordOf p = _
  unfold PackageRecord.conclude
  rw [← hrows, ← hstatus]
  rfl

/-- A write about one package leaves the others alone. -/
theorem recordOf_apply_of_ne {w : Write} (h : w.IsAbout p) (hq : q ≠ p) :
    (t.apply w).recordOf q = t.recordOf q := by
  have hnone {α : Type} (packageId : α → PackageId) {xs : List α} (hxs : ∀ x ∈ xs, packageId x = p) :
      xs.filter (packageId · == q) = [] := by
    refine List.filter_eq_nil_iff.2 fun x hx => ?_
    rw [hxs x hx, beq_iff_eq]
    exact hq.symm
  cases w with
  | saveResult x =>
    have hadded : [x].filter (·.packageId == q) = [] :=
      hnone TestResult.packageId fun y hy => (List.mem_singleton.1 hy) ▸ h
    have hresults : (t.apply (.saveResult x)).resultsOf q = t.resultsOf q := by
      change List.filter _ (t.results ++ [x]) = _
      rw [List.filter_append, hadded, List.append_nil]
      rfl
    unfold recordOf
    rw [hresults]
    rfl
  | deleteResults p' =>
    obtain rfl := h
    have hresults : (t.apply (.deleteResults p')).resultsOf q = t.resultsOf q := by
      change List.filter _ (List.filter _ _) = _
      rw [List.filter_filter]
      refine List.filter_congr fun x _ => ?_
      by_cases hx : x.packageId = q
      · simp [hx, hq]
      · simp [hx]
    unfold recordOf
    rw [hresults]
    rfl
  | replaceInfo x => rfl
  | startRun run => exact h.elim
  | recordTestrun p' r =>
    obtain rfl := h
    have hrun : (t.apply (.recordTestrun p' r)).lastTestedRun? q = t.lastTestedRun? q :=
      Keyed.get?_insert_of_ne hq _ _
    unfold recordOf
    rw [hrun]
    rfl
  | setStatus p' s =>
    obtain rfl := h
    have hstatus : (t.apply (.setStatus p' s)).statusOf? q = t.statusOf? q :=
      Keyed.get?_insert_of_ne hq _ _
    unfold recordOf
    rw [hstatus]
    rfl
  | putAggregates r p' rows =>
    obtain ⟨rfl, hrows⟩ := h
    have hput : (t.apply (.putAggregates r p' rows)).aggregates.filter (·.packageId == q) =
        t.aggregates.filter (·.packageId == q) := by
      change List.filter _ (List.filter _ _ ++ rows) = _
      rw [List.filter_append, hnone AggregateRow.packageId hrows, List.append_nil, List.filter_filter]
      refine List.filter_congr fun row _ => ?_
      by_cases hrow : row.packageId = q
      · simp [hrow, hq]
      · simp [hrow]
    unfold recordOf
    rw [hput]
    rfl

theorem runs_apply_of_isAbout {w : Write} (h : w.IsAbout p) : (t.apply w).runs = t.runs := by
  cases w with
  | startRun run => exact h.elim
  | _ => rfl

theorem recordOf_applyAll_of_ne {ws : List Write} (h : ∀ w ∈ ws, w.IsAbout p) (hq : q ≠ p) :
    (t.applyAll ws).recordOf q = t.recordOf q := by
  induction ws generalizing t with
  | nil => rfl
  | cons w rest ih =>
    exact (ih (t := t.apply w) fun v hv => h v (List.mem_cons_of_mem w hv)).trans
      (recordOf_apply_of_ne (h w List.mem_cons_self) hq)

theorem runs_applyAll_of_isAbout {ws : List Write} (h : ∀ w ∈ ws, w.IsAbout p) :
    (t.applyAll ws).runs = t.runs := by
  induction ws generalizing t with
  | nil => rfl
  | cons w rest ih =>
    exact (ih (t := t.apply w) fun v hv => h v (List.mem_cons_of_mem w hv)).trans
      (runs_apply_of_isAbout (h w List.mem_cons_self))

end Tables

end DataQuality
