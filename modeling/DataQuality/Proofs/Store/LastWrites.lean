import DataQuality.Proofs.Store.Counting
import Mathlib.Data.List.Nodup

/-!
# Last writes

Of all info values that are put under one identifier for one organisation a store keeps the last
one, and of all aggregations of a package in a run the rows of the last one. Deleting results
changes neither.
-/
namespace DataQuality

namespace InfoResult

/-- The values are kept under one identifier for one organisation. -/
def replaces (x y : InfoResult) : Bool := y.infoId == x.infoId && y.organisationId == x.organisationId

/-- Puts a value after all others, in place of the one it replaces. -/
def putIn (infos : List InfoResult) (x : InfoResult) : List InfoResult :=
  infos.filter (fun y => !x.replaces y) ++ [x]

theorem replaces_iff {x y : InfoResult} :
    x.replaces y = true ↔ y.infoId = x.infoId ∧ y.organisationId = x.organisationId := by
  simp [replaces]

theorem mem_of_mem_foldl_putIn {infos xs : List InfoResult} {y : InfoResult}
    (h : y ∈ xs.foldl putIn infos) : y ∈ infos ∨ y ∈ xs := by
  induction xs generalizing infos with
  | nil => exact .inl h
  | cons x rest ih =>
    rcases ih h with h | h
    · rcases List.mem_append.1 h with h | h
      · exact .inl (List.mem_of_mem_filter h)
      · obtain rfl := List.mem_singleton.1 h
        exact .inr List.mem_cons_self
    · exact .inr (List.mem_cons_of_mem x h)

/-- What is kept elsewhere plays no part. -/
theorem filter_foldl_putIn {p : InfoResult → Bool} (hp : ∀ x y, x.replaces y = true → p y = p x)
    (infos xs : List InfoResult) :
    (xs.foldl putIn infos).filter p = (xs.filter p).foldl putIn (infos.filter p) := by
  induction xs generalizing infos with
  | nil => rfl
  | cons x rest ih =>
    rw [List.foldl_cons, ih]
    by_cases hx : p x = true
    · have hput : (putIn infos x).filter p = putIn (infos.filter p) x := by
        unfold putIn
        rw [List.filter_append, List.filter_comm, List.filter_cons_of_pos hx, List.filter_nil]
      rw [hput, List.filter_cons_of_pos hx, List.foldl_cons]
    · have hput : (putIn infos x).filter p = infos.filter p := by
        unfold putIn
        rw [List.filter_append, List.filter_filter, List.filter_cons_of_neg hx, List.filter_nil,
          List.append_nil]
        refine List.filter_congr fun y _ => ?_
        -- a value that is replaced is kept nowhere that the new one is not
        cases hreplaces : x.replaces y with
        | false => simp
        | true => simp [hp x y hreplaces, hx]
      rw [hput, List.filter_cons_of_neg hx]

/-- Of all values under one identifier for one organisation, the last one is kept. -/
theorem filter_foldl_putIn_of_last {i : InfoId} {o : OrganisationId} {x : InfoResult}
    (infos : List InfoResult) {xs : List InfoResult}
    (h : (xs.filter fun y => y.infoId == i && y.organisationId == o).getLast? = some x) :
    (xs.foldl putIn infos).filter (fun y => y.infoId == i && y.organisationId == o) = [x] := by
  have hp : ∀ x y : InfoResult, x.replaces y = true →
      (y.infoId == i && y.organisationId == o) = (x.infoId == i && x.organisationId == o) := by
    intro x y hreplaces
    obtain ⟨hi, ho⟩ := replaces_iff.1 hreplaces
    rw [hi, ho]
  obtain ⟨rest, hrest⟩ := List.getLast?_eq_some_iff.1 h
  have hkey {y : InfoResult} {ys : List InfoResult}
      (hy : y ∈ ys.filter fun y => y.infoId == i && y.organisationId == o) :
      y.infoId = i ∧ y.organisationId = o := by
    simpa using List.of_mem_filter hy
  obtain ⟨hi, ho⟩ := hkey (hrest ▸ List.mem_append_right rest (List.mem_singleton_self x))
  rw [filter_foldl_putIn hp, hrest, List.foldl_concat]
  unfold putIn
  rw [List.filter_eq_nil_iff.2, List.nil_append]
  intro y hy
  have hy' : y.infoId = i ∧ y.organisationId = o := by
    rcases mem_of_mem_foldl_putIn hy with hy | hy
    · exact hkey hy
    · exact hkey (hrest ▸ List.mem_append_left [x] hy)
  simp [replaces, hi, ho, hy'.1, hy'.2]

end InfoResult

namespace Write

/-- The info values that some writes put, in order. -/
def infosOf (ws : List Write) : List InfoResult :=
  ws.filterMap fun
    | .replaceInfo x => some x
    | _ => none

theorem infosOf_append (xs ys : List Write) : infosOf (xs ++ ys) = infosOf xs ++ infosOf ys :=
  List.filterMap_append

theorem infosOf_saveResults (results : List TestResult) : infosOf (results.map .saveResult) = [] := by
  induction results with
  | nil => rfl
  | cons r rest ih => exact ih

end Write

/-- Writes change the info values by those that they put. -/
theorem Tables.infoResults_applyAll (t : Tables) (ws : List Write) :
    (t.applyAll ws).infoResults = (Write.infosOf ws).foldl InfoResult.putIn t.infoResults := by
  induction ws generalizing t with
  | nil => rfl
  | cons w rest ih =>
    refine (ih (t.apply w)).trans ?_
    cases w <;> rfl

namespace Tables

variable {t t' : Tables} {ws : List Write}

/-- Where there were no info values, the last one under an identifier for an organisation is the only
one. -/
theorem infoUnder_applyAll (ht : t.infoResults = []) (ws : List Write) (i : InfoId)
    (o : OrganisationId) :
    (t.applyAll ws).infoResults.filter (fun x => x.infoId == i && x.organisationId == o) =
      ((Write.infosOf ws).filter fun x => x.infoId == i && x.organisationId == o).getLast?.toList := by
  rw [infoResults_applyAll, ht]
  cases hlast : ((Write.infosOf ws).filter fun x => x.infoId == i && x.organisationId == o).getLast? with
  | some x => exact InfoResult.filter_foldl_putIn_of_last [] hlast
  | none =>
    refine List.filter_eq_nil_iff.2 fun x hx hkey => ?_
    have hx : x ∈ Write.infosOf ws := (InfoResult.mem_of_mem_foldl_putIn hx).resolve_left (by simp)
    exact List.filter_eq_nil_iff.1 (List.getLast?_eq_none_iff.1 hlast) x hx hkey

/-- Rows that are put for a package in a run are its rows from then on. -/
theorem aggregatesOf_put_self (t : Tables) {r : RuntimeId} {p : PackageId} {rows : List AggregateRow}
    (h : ∀ row ∈ rows, row.runtimeId = r ∧ row.packageId = p) :
    (t.apply (.putAggregates r p rows)).aggregatesOf r p = rows := by
  have hrows : rows.filter (fun row => row.runtimeId == r && row.packageId == p) = rows := by
    refine List.filter_eq_self.2 fun row hrow => ?_
    obtain ⟨rfl, rfl⟩ := h row hrow
    simp
  change List.filter _ (List.filter _ _ ++ rows) = rows
  rw [List.filter_append, hrows, List.filter_filter]
  simp

/-- The rows of others stay as they are. -/
theorem aggregatesOf_put_of_ne (t : Tables) {r r' : RuntimeId} {p p' : PackageId}
    {rows : List AggregateRow} (h : ∀ row ∈ rows, row.runtimeId = r ∧ row.packageId = p)
    (hne : (r', p') ≠ (r, p)) :
    (t.apply (.putAggregates r p rows)).aggregatesOf r' p' = t.aggregatesOf r' p' := by
  have hrows : rows.filter (fun row => row.runtimeId == r' && row.packageId == p') = [] := by
    refine List.filter_eq_nil_iff.2 fun row hrow => ?_
    obtain ⟨rfl, rfl⟩ := h row hrow
    simp only [Bool.and_eq_true, beq_iff_eq]
    rintro ⟨rfl, rfl⟩
    exact hne rfl
  change List.filter _ (List.filter _ _ ++ rows) = _
  rw [List.filter_append, hrows, List.append_nil, List.filter_filter]
  refine List.filter_congr fun row _ => ?_
  by_cases hrow : row.runtimeId = r' ∧ row.packageId = p'
  · obtain ⟨rfl, rfl⟩ := hrow
    simpa [Prod.ext_iff, imp_iff_not_or] using hne
  · simp only [Bool.and_eq_left_iff_imp, Bool.and_eq_true, beq_iff_eq]
    exact fun h => absurd h hrow

end Tables

namespace Write

/-- The rows that some writes put for a package in a run, aggregation by aggregation. -/
def rowsFor (r : RuntimeId) (p : PackageId) (ws : List Write) : List (List AggregateRow) :=
  ws.filterMap fun
    | .putAggregates r' p' rows => if r' = r ∧ p' = p then some rows else none
    | _ => none

/-- Rows are put for the package and the run that they are of, and no key has two of them. -/
def PutsCount : Write → Prop
  | .putAggregates r p rows => ∃ results, Tables.IsCount r p results rows
  | _ => True

def isDeletion : Write → Bool
  | .deleteResults _ => true
  | _ => false

end Write

namespace Tables

variable {t t' : Tables} {ws : List Write}

/-- The rows of a package in a run are those of its last aggregation. -/
theorem aggregatesOf_applyAll (h : ∀ w ∈ ws, w.PutsCount) (t : Tables) (r : RuntimeId)
    (p : PackageId) :
    (t.applyAll ws).aggregatesOf r p = (Write.rowsFor r p ws).getLast?.getD (t.aggregatesOf r p) := by
  induction ws generalizing t with
  | nil => rfl
  | cons w rest ih =>
    obtain ⟨hw, hrest⟩ := List.forall_mem_cons.1 h
    refine (ih hrest (t.apply w)).trans ?_
    cases w with
    | putAggregates r' p' rows =>
      obtain ⟨results, hcount⟩ := hw
      by_cases hpair : r' = r ∧ p' = p
      · obtain ⟨rfl, rfl⟩ := hpair
        rw [t.aggregatesOf_put_self hcount.belongs]
        simp [Write.rowsFor, List.getLast?_cons]
      · have hne : (r, p) ≠ (r', p') := fun he => hpair ((Prod.mk.inj he).imp Eq.symm Eq.symm)
        rw [t.aggregatesOf_put_of_ne hcount.belongs hne]
        simp [Write.rowsFor, hpair]
    | _ => rfl

/-- If the rows of every package in every run have different keys, no two of all rows have the same
run, package and key. -/
theorem nodup_rowKeys (h : ∀ r p, ((t.aggregatesOf r p).map (·.countKey)).Nodup) :
    (t.aggregates.map fun row => (row.runtimeId, row.packageId, row.countKey)).Nodup := by
  refine List.nodup_iff_count_le_one.2 fun key => ?_
  obtain ⟨r, p, k⟩ := key
  have hone := List.nodup_iff_count_le_one.1 (h r p) k
  rw [List.count, List.countP_map, aggregatesOf, List.countP_filter] at hone
  rw [List.count, List.countP_map]
  refine le_trans (List.countP_mono_left fun row _ hrow => ?_) hone
  simp only [Function.comp_apply, beq_iff_eq, Prod.mk.injEq] at hrow
  simp [hrow.1, hrow.2.1, hrow.2.2]

/-- The tables hold the same info values and the same rows. -/
def SameValues (t t' : Tables) : Prop :=
  t.infoResults = t'.infoResults ∧ t.aggregates = t'.aggregates

theorem SameValues.apply (h : t.SameValues t') (w : Write) : (t.apply w).SameValues (t'.apply w) := by
  obtain ⟨hinfos, hrows⟩ := h
  cases w <;> simp [SameValues, Tables.apply, hinfos, hrows]

/-- Without its deletions, a run of writes leaves the same info values and the same rows. -/
theorem SameValues.applyAll_filter (h : t.SameValues t') (ws : List Write) :
    (t.applyAll ws).SameValues (t'.applyAll (ws.filter (!·.isDeletion))) := by
  induction ws generalizing t t' with
  | nil => exact h
  | cons w rest ih =>
    cases w with
    | deleteResults p => exact ih h
    | _ => exact ih (h.apply _)

end Tables

end DataQuality
