import DataQuality.Proofs.Keyed
import DataQuality.Store.Tables

/-!
# Counted results

The rows of an aggregation are a count of the results of a package in a run: there is one
row for each organisation and rule that a result has, rows are in the order of these, and
each says how many of its results passed, failed and raised an error.
-/
namespace DataQuality

def TestResult.countKey (x : TestResult) : Tables.CountKey := (x.organisationId, x.testId)

/-- The organisation and the rule that a row counts the results of. -/
def AggregateRow.countKey (row : AggregateRow) : Tables.CountKey := (row.organisationId, row.testId)

namespace Tables

def resultsIn (t : Tables) (r : RuntimeId) (p : PackageId) : List TestResult :=
  t.results.filter fun x => x.runtimeId == r && x.packageId == p

def aggregatesOf (t : Tables) (r : RuntimeId) (p : PackageId) : List AggregateRow :=
  t.aggregates.filter fun row => row.runtimeId == r && row.packageId == p

def occurrences (results : List TestResult) (k : CountKey) (code : Code) : Nat :=
  results.countP fun x => x.countKey == k && x.code == code

/-- The rows count these results, which are those of a package in a run. -/
structure IsCount (r : RuntimeId) (p : PackageId) (results : List TestResult)
    (rows : List AggregateRow) : Prop where
  ordered : rows.Pairwise fun a b => a.countKey.before b.countKey = true
  belongs : ∀ row ∈ rows, row.runtimeId = r ∧ row.packageId = p
  keys : ∀ k, (∃ row ∈ rows, row.countKey = k) ↔ ∃ x ∈ results, x.countKey = k
  pass : ∀ row ∈ rows, row.pass = .ofNat (occurrences results row.countKey .pass)
  fail : ∀ row ∈ rows, row.fail = .ofNat (occurrences results row.countKey .fail)
  error : ∀ row ∈ rows, row.error = .ofNat (occurrences results row.countKey .error)

theorem CountKey.isOrder_before : Keyed.IsOrder CountKey.before where
  irrefl := by
    rintro ⟨_ | o, i⟩
    · exact (Id.isOrder_before .rule).irrefl i
    · simp [CountKey.before, (Id.isOrder_before _).irrefl]
  trans := by
    rintro ⟨_ | o₁, i₁⟩ ⟨_ | o₂, i₂⟩ ⟨_ | o₃, i₃⟩ h₁₂ h₂₃
    · exact (Id.isOrder_before .rule).trans h₁₂ h₂₃
    · rfl
    · cases h₂₃
    · rfl
    · cases h₁₂
    · cases h₁₂
    · cases h₂₃
    · simp only [CountKey.before, Bool.or_eq_true, Bool.and_eq_true, beq_iff_eq] at *
      rcases h₁₂ with h₁₂ | ⟨rfl, h₁₂⟩
      · rcases h₂₃ with h₂₃ | ⟨rfl, -⟩
        · exact .inl ((Id.isOrder_before .organisation).trans h₁₂ h₂₃)
        · exact .inl h₁₂
      · rcases h₂₃ with h₂₃ | ⟨rfl, h₂₃⟩
        · exact .inl h₂₃
        · exact .inr ⟨rfl, (Id.isOrder_before .rule).trans h₁₂ h₂₃⟩
  connex := by
    rintro ⟨_ | o₁, i₁⟩ ⟨_ | o₂, i₂⟩ hne h
    · exact (Id.isOrder_before .rule).connex (fun hi => hne (congrArg _ hi)) h
    · cases h
    · rfl
    · simp only [CountKey.before, Bool.or_eq_false_iff, Bool.or_eq_true, Bool.and_eq_true,
        beq_iff_eq] at *
      obtain ⟨ho, hi⟩ := h
      by_cases hsame : o₁ = o₂
      · subst hsame
        refine .inr ⟨rfl, (Id.isOrder_before .rule).connex (fun hi' => hne (by rw [hi'])) ?_⟩
        simpa using hi
      · exact .inl ((Id.isOrder_before .organisation).connex hsame ho)

/-- Keys are strictly ascending, so no key has two rows. -/
theorem IsCount.nodup_keys {r : RuntimeId} {p : PackageId} {results : List TestResult}
    {rows : List AggregateRow} (h : IsCount r p results rows) : (rows.map (·.countKey)).Nodup := by
  refine List.pairwise_map.2 (h.ordered.imp fun {a b} hbefore heq => ?_)
  rw [heq, CountKey.isOrder_before.irrefl] at hbefore
  cases hbefore

def rowOf (r : RuntimeId) (p : PackageId) (results : List TestResult) (k : CountKey) :
    AggregateRow :=
  ⟨r, p, k.1, k.2, .ofNat (occurrences results k .pass), .ofNat (occurrences results k .fail),
    .ofNat (occurrences results k .error)⟩

theorem occurrences_concat (results : List TestResult) (x : TestResult) (k : CountKey) (code : Code) :
    occurrences (results ++ [x]) k code =
      occurrences results k code + if x.countKey = k ∧ x.code = code then 1 else 0 := by
  simp [occurrences, List.countP_append, List.countP_singleton]

/-- One more result is counted in the row of its key. -/
theorem rowOf_concat_self (r : RuntimeId) (p : PackageId) (results : List TestResult)
    (x : TestResult) :
    rowOf r p (results ++ [x]) x.countKey = (rowOf r p results x.countKey).count x.code := by
  unfold rowOf
  simp only [occurrences_concat, true_and]
  cases x.code <;> simp [AggregateRow.count]

/-- It is not counted in any other row. -/
theorem rowOf_concat_of_ne (r : RuntimeId) (p : PackageId) (results : List TestResult)
    {x : TestResult} {k : CountKey} (h : k ≠ x.countKey) :
    rowOf r p (results ++ [x]) k = rowOf r p results k := by
  unfold rowOf
  simp [occurrences_concat, Ne.symm h]

/-- The key of each result leads to its row, and no other key leads to any. -/
structure Tallies (r : RuntimeId) (p : PackageId) (results : List TestResult)
    (pairs : List (CountKey × AggregateRow)) : Prop where
  ordered : Keyed.Ordered CountKey.before pairs
  rows : ∀ k, Keyed.get? k pairs =
    if k ∈ results.map (·.countKey) then some (rowOf r p results k) else none

/-- Counting one more result of the package in the run. -/
theorem Tallies.countResult {r : RuntimeId} {p : PackageId} {results : List TestResult}
    {pairs : List (CountKey × AggregateRow)} (h : Tallies r p results pairs) {x : TestResult}
    (hr : x.runtimeId = r) (hp : x.packageId = p) :
    Tallies r p (results ++ [x]) (Tables.countResult pairs x) := by
  refine ⟨h.ordered.insert CountKey.isOrder_before _ _, fun k => ?_⟩
  have hrow : (Keyed.get? x.countKey pairs).getD (.zero x.runtimeId x.packageId x.organisationId x.testId) =
      rowOf r p results x.countKey := by
    rw [h.rows, hr, hp]
    split
    · rfl
    · next hnew =>
      -- a key that no result has is counted zero times
      have hzero (code : Code) : occurrences results x.countKey code = 0 := by
        refine List.countP_eq_zero.2 fun y hy => ?_
        have hne : y.countKey ≠ x.countKey := fun he => hnew (List.mem_map.2 ⟨y, hy, he⟩)
        simp [hne]
      simp only [rowOf, hzero]
      rfl
  change Keyed.get? k (Keyed.insert CountKey.before x.countKey
    (((Keyed.get? x.countKey pairs).getD _).count x.code) pairs) = _
  rw [hrow]
  by_cases hk : k = x.countKey
  · subst hk
    rw [Keyed.get?_insert_self, if_pos (by simp), rowOf_concat_self]
  · rw [Keyed.get?_insert_of_ne hk, h.rows, rowOf_concat_of_ne r p results hk]
    simp [hk]

theorem tallies_foldl {r : RuntimeId} {p : PackageId} (results : List TestResult)
    (h : ∀ x ∈ results, x.runtimeId = r ∧ x.packageId = p) :
    Tallies r p results (results.foldl countResult []) := by
  induction results using List.reverseRecOn with
  | nil => exact ⟨List.Pairwise.nil, fun k => rfl⟩
  | append_singleton rest x ih =>
    obtain ⟨hr, hp⟩ := h x (by simp)
    rw [List.foldl_concat]
    exact (ih fun y hy => h y (by simp [hy])).countResult hr hp

/-- Aggregation counts the committed results of a package in a run. -/
theorem isCount_aggregate (t : Tables) (r : RuntimeId) (p : PackageId) :
    IsCount r p (t.resultsIn r p) (t.aggregate r p) := by
  have htallies := tallies_foldl (r := r) (p := p) (t.resultsIn r p) fun x hx => by
    simpa using (List.mem_filter.1 hx).2
  change IsCount r p (t.resultsIn r p) (((t.resultsIn r p).foldl countResult []).map (·.2))
  generalize t.resultsIn r p = results at htallies ⊢
  generalize results.foldl countResult [] = pairs at htallies ⊢
  have hpair : ∀ q ∈ pairs, q.1 ∈ results.map (·.countKey) ∧ q.2 = rowOf r p results q.1 := by
    intro q hq
    have hget := Keyed.get?_of_mem CountKey.isOrder_before htallies.ordered hq
    rw [htallies.rows] at hget
    split at hget
    · next hkey => exact ⟨hkey, (Option.some.inj hget).symm⟩
    · cases hget
  have hrow : ∀ row ∈ pairs.map (·.2), row = rowOf r p results row.countKey := by
    intro row hrow
    obtain ⟨q, hq, rfl⟩ := List.mem_map.1 hrow
    rw [(hpair q hq).2]
    rfl
  constructor
  · refine List.pairwise_map.2 (htallies.ordered.imp_of_mem fun {a b} ha hb hbefore => ?_)
    rw [(hpair a ha).2, (hpair b hb).2]
    exact hbefore
  · intro row hmem
    rw [hrow row hmem]
    exact ⟨rfl, rfl⟩
  · intro k
    constructor
    · rintro ⟨row, hmem, rfl⟩
      obtain ⟨q, hq, rfl⟩ := List.mem_map.1 hmem
      obtain ⟨hkey, hq'⟩ := hpair q hq
      rw [hq']
      exact List.mem_map.1 hkey
    · rintro ⟨x, hx, rfl⟩
      have hget := htallies.rows x.countKey
      rw [if_pos (List.mem_map.2 ⟨x, hx, rfl⟩)] at hget
      exact ⟨_, List.mem_map.2 ⟨_, Keyed.mem_of_get? hget, rfl⟩, rfl⟩
  · exact fun row hmem => congrArg AggregateRow.pass (hrow row hmem)
  · exact fun row hmem => congrArg AggregateRow.fail (hrow row hmem)
  · exact fun row hmem => congrArg AggregateRow.error (hrow row hmem)

end Tables

end DataQuality
