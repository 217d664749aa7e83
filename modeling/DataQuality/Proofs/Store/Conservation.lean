import DataQuality.Proofs.Store.Counting
import Mathlib.Algebra.BigOperators.Group.List.Basic
import Mathlib.Data.Prod.Lex
import Mathlib.Order.WithBot

/-!
# Aggregation conserves results

The rows of an aggregation are settled by how often each organisation and rule occurs with
each code, so the order in which a table holds its results makes no difference. No result
is lost and none is counted twice: the totals of the rows add up to the number of results.
-/
namespace DataQuality

namespace Tables

variable {r : RuntimeId} {p : PackageId} {results results' : List TestResult}
  {rows rows' : List AggregateRow}

/-- Where a key stands among others: by organisation, no organisation first, and then by
rule. -/
def CountKey.rank (k : CountKey) : WithBot ℤ ×ₗ ℤ :=
  toLex (k.1.elim ⊥ fun o => (o.toInt : WithBot ℤ), k.2.toInt)

theorem CountKey.before_iff_rank_lt (a b : CountKey) : a.before b = true ↔ a.rank < b.rank := by
  have hid {kind : IdKind} (i j : Id kind) : i.before j = true ↔ i.toInt < j.toInt := by
    simp [Id.before, Id.toInt, Int64.lt_iff_toInt_lt]
  have heq {kind : IdKind} (i j : Id kind) : i = j ↔ i.toInt = j.toInt := by
    rcases i with ⟨i⟩
    rcases j with ⟨j⟩
    simp [Id.toInt, Int64.toInt_inj]
  obtain ⟨o, i⟩ := a
  obtain ⟨o', i'⟩ := b
  unfold rank
  rw [Prod.Lex.toLex_lt_toLex]
  cases o with
  | none => cases o' <;> simp [before, hid]
  | some o =>
    cases o' with
    | none => simp [before]
    | some o' => simp [before, hid, heq]

/-- Every result that is counted under a key has one code. -/
theorem occurrences_add (results : List TestResult) (k : CountKey) :
    occurrences results k .pass + occurrences results k .fail + occurrences results k .error =
      (results.map (·.countKey)).count k := by
  induction results with
  | nil => rfl
  | cons x rest ih =>
    simp only [occurrences, List.countP_cons, List.map_cons, List.count_cons] at ih ⊢
    rw [← ih]
    by_cases hk : x.countKey = k
    · cases hcode : x.code <;> simp [hk] <;> omega
    · simp [hk]

theorem occurrences_le (results : List TestResult) (k : CountKey) (code : Code) :
    occurrences results k code ≤ results.length := List.countP_le_length

/-- Numbers of results do not change when the results are put in another order. -/
theorem occurrences_perm (h : results.Perm results') (k : CountKey) (code : Code) :
    occurrences results k code = occurrences results' k code := h.countP_eq _

namespace IsCount

/-- Each row is settled by its key. -/
theorem eq_map_rowOf (h : IsCount r p results rows) :
    rows = (rows.map (·.countKey)).map (rowOf r p results) := by
  rw [List.map_map]
  refine (List.map_id rows).symm.trans (List.map_congr_left fun row hrow => ?_)
  obtain ⟨hr, hp⟩ := h.belongs row hrow
  have hpass := h.pass row hrow
  have hfail := h.fail row hrow
  have herror := h.error row hrow
  cases row
  simp only [AggregateRow.countKey] at hr hp hpass hfail herror
  subst hr hp
  rw [id_eq, Function.comp_apply, rowOf, AggregateRow.countKey, ← hpass, ← hfail, ← herror]

/-- The rows that count results are the only ones, and the order of the results does not
matter. -/
theorem unique (h : IsCount r p results rows) (h' : IsCount r p results' rows')
    (hperm : results.Perm results') : rows = rows' := by
  have hmem (k : CountKey) : k ∈ rows.map (·.countKey) ↔ k ∈ rows'.map (·.countKey) := by
    rw [List.mem_map, List.mem_map, h.keys k, h'.keys k]
    exact exists_congr fun x => and_congr_left' hperm.mem_iff
  have hkeys : rows.map (·.countKey) = rows'.map (·.countKey) := by
    refine ((List.perm_ext_iff_of_nodup h.nodup_keys h'.nodup_keys).2 hmem).eq_of_pairwise
      (fun a b _ _ (hab : CountKey.before a b = true) hba => ?_)
      (List.pairwise_map.2 h.ordered) (List.pairwise_map.2 h'.ordered)
    have hself := CountKey.isOrder_before.trans hab hba
    rw [CountKey.isOrder_before.irrefl] at hself
    cases hself
  have hrow : rowOf r p results = rowOf r p results' := by
    funext k
    simp only [rowOf, occurrences_perm hperm]
  rw [h.eq_map_rowOf, h'.eq_map_rowOf, hkeys, hrow]

/-- The counts of a row are numbers of results, as long as these fit 64 bits. -/
theorem toNat_counts (h : IsCount r p results rows) (hsize : results.length < 2 ^ 64)
    {row : AggregateRow} (hrow : row ∈ rows) :
    row.pass.toNat = occurrences results row.countKey .pass ∧
      row.fail.toNat = occurrences results row.countKey .fail ∧
      row.error.toNat = occurrences results row.countKey .error := by
  have hfits (code : Code) : (UInt64.ofNat (occurrences results row.countKey code)).toNat =
      occurrences results row.countKey code :=
    UInt64.toNat_ofNat_of_lt' ((occurrences_le results row.countKey code).trans_lt hsize)
  rw [h.pass row hrow, h.fail row hrow, h.error row hrow]
  exact ⟨hfits .pass, hfits .fail, hfits .error⟩

/-- The total of a row is the number of results of its key. -/
theorem toNat_total (h : IsCount r p results rows) (hsize : results.length < 2 ^ 64)
    {row : AggregateRow} (hrow : row ∈ rows) :
    row.total.toNat = (results.map (·.countKey)).count row.countKey := by
  have hsum := occurrences_add results row.countKey
  have hfits : (results.map (·.countKey)).count row.countKey < 2 ^ 64 :=
    (List.count_le_length.trans_eq (List.length_map _)).trans_lt hsize
  rw [AggregateRow.total, h.pass row hrow, h.fail row hrow, h.error row hrow, ← UInt64.ofNat_add,
    ← UInt64.ofNat_add, hsum, UInt64.toNat_ofNat_of_lt' hfits]

/-- The totals of the rows add up to the number of results: each result has the key of one
row, and only of one. -/
theorem sum_total (h : IsCount r p results rows) (hsize : results.length < 2 ^ 64) :
    (rows.map (·.total.toNat)).sum = results.length := by
  have hcovered : ∀ k ∈ (results.map (·.countKey) : Multiset CountKey),
      k ∈ (rows.map (·.countKey)).toFinset := by
    intro k hk
    obtain ⟨x, hx, rfl⟩ := List.mem_map.1 hk
    obtain ⟨row, hrow, hkey⟩ := (h.keys x.countKey).2 ⟨x, hx, rfl⟩
    exact List.mem_toFinset.2 (List.mem_map.2 ⟨row, hrow, hkey⟩)
  calc (rows.map (·.total.toNat)).sum
      = (rows.map fun row => (results.map (·.countKey)).count row.countKey).sum := by
        rw [List.map_congr_left fun row hrow => h.toNat_total hsize hrow]
    _ = ((rows.map (·.countKey)).map fun k => (results.map (·.countKey)).count k).sum := by
        rw [List.map_map]
        rfl
    _ = (results.map (·.countKey)).length := by
        rw [← List.sum_toFinset _ h.nodup_keys]
        refine (Finset.sum_congr rfl fun k _ => ?_).trans (Multiset.sum_count_eq_card hcovered)
        -- keys are compared part by part on one side and by decision on the other
        rw [Multiset.coe_count]
        congr
        exact lawful_beq_subsingleton _ _
    _ = results.length := List.length_map _

end IsCount

/-- Aggregation conserves results. There is one row for each organisation and rule that a
result of the package in the run has, in ascending order, with no organisation before all
others. Each row says how many of its results have each code, and so the totals add up to
the number of results; the counts have 64 bits, which are enough for any table that fits
into memory. The order in which the table holds its results makes no difference. -/
theorem aggregate_conserves (t : Tables) (r : RuntimeId) (p : PackageId) :
    let results := t.resultsIn r p
    let rows := t.aggregate r p
    (rows.map (·.countKey.rank)).Pairwise (· < ·) ∧
    (∀ row ∈ rows, row.runtimeId = r ∧ row.packageId = p) ∧
    (∀ k, (∃ row ∈ rows, row.countKey = k) ↔ ∃ x ∈ results, x.countKey = k) ∧
    (results.length < 2 ^ 64 →
      (∀ row ∈ rows, row.pass.toNat = occurrences results row.countKey .pass ∧
        row.fail.toNat = occurrences results row.countKey .fail ∧
        row.error.toNat = occurrences results row.countKey .error) ∧
      (rows.map (·.total.toNat)).sum = results.length) ∧
    ∀ reordered, reordered.Perm t.results →
      ({ t with results := reordered } : Tables).aggregate r p = rows := by
  intro results rows
  have hcount : IsCount r p results rows := isCount_aggregate t r p
  refine ⟨?_, hcount.belongs, hcount.keys,
    fun hsize => ⟨fun row hrow => hcount.toNat_counts hsize hrow, hcount.sum_total hsize⟩,
    fun reordered hperm => ?_⟩
  · exact List.pairwise_map.2
      (hcount.ordered.imp fun hbefore => (CountKey.before_iff_rank_lt _ _).1 hbefore)
  · exact (isCount_aggregate { t with results := reordered } r p).unique hcount (hperm.filter _)

/-- Five results, one of them of another package, in a table and in another order of it. -/
theorem aggregate_conserves_two_organisations :
    let result (p : PackageId) (o : Option OrganisationId) (i : RuleId) (code : Code) : TestResult :=
      ⟨⟨1⟩, p, i, code, none, 0, o⟩
    let t : Tables := { empty with results := [result ⟨7⟩ (some ⟨5⟩) ⟨3⟩ .pass,
      result ⟨7⟩ (some ⟨-2⟩) ⟨4⟩ .error, result ⟨8⟩ (some ⟨5⟩) ⟨3⟩ .pass, result ⟨7⟩ none ⟨9⟩ .pass,
      result ⟨7⟩ (some ⟨5⟩) ⟨3⟩ .fail] }
    let rows : List AggregateRow := [⟨⟨1⟩, ⟨7⟩, none, ⟨9⟩, 1, 0, 0⟩,
      ⟨⟨1⟩, ⟨7⟩, some ⟨-2⟩, ⟨4⟩, 0, 0, 1⟩, ⟨⟨1⟩, ⟨7⟩, some ⟨5⟩, ⟨3⟩, 1, 1, 0⟩]
    t.aggregate ⟨1⟩ ⟨7⟩ = rows ∧ (t.resultsIn ⟨1⟩ ⟨7⟩).length = 4 ∧
      (rows.map (·.total.toNat)).sum = 4 ∧
      ({ t with results := t.results.reverse } : Tables).aggregate ⟨1⟩ ⟨7⟩ = rows := by
  intro result t rows
  have hrows : t.aggregate ⟨1⟩ ⟨7⟩ = rows := by decide +kernel
  have hlength : (t.resultsIn ⟨1⟩ ⟨7⟩).length = 4 := by decide +kernel
  obtain ⟨-, -, -, hexact, horder⟩ := aggregate_conserves t ⟨1⟩ ⟨7⟩
  obtain ⟨-, htotal⟩ := hexact (by rw [hlength]; decide)
  rw [hrows, hlength] at htotal
  exact ⟨hrows, hlength, htotal, (horder _ t.results.reverse_perm).trans hrows⟩

end Tables

end DataQuality
