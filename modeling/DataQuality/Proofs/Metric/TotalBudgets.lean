import DataQuality.Proofs.Metric.Isolation
import DataQuality.Proofs.Metric.Windows

/-!
# The total budget of a year

A total budget counts for an offset if its period has a date of beginning and ends within the window of
the offset, and if it has an amount. Each one that counts takes the place of those before it, so the
budget of the year is that of the last one in the document.
-/
namespace DataQuality.Metric

open Markup Node Selector

/-- A total budget that counts for an offset, with its amount. -/
structure CountsFor (now : Instant) (offset : Nat) (budget : Node) (amount : Float) : Prop where
  named : budget.isNamed "total-budget" = true
  begins : ∃ text, budget.childAttribute? "period-start" "iso-date" = some text
  ends : ∃ text d, budget.childAttribute? "period-end" "iso-date" = some text ∧
    Date.read? text = some d ∧ InWindow now offset d
  reads : ∃ text, budget.childText? "value" = some text ∧ readAmount text = .ok amount

/-- The place in a document of the last total budget that counts for an offset, with its amount. -/
structure IsLastFor (now : Instant) (offset : Nat) (document : Node) (p : Place) (amount : Float) :
    Prop where
  mem : p ∈ Place.all document
  counts : CountsFor now offset p.node amount
  last : ∀ q ∈ Place.all document, ∀ x, CountsFor now offset q.node x →
    q = p ∨ locationBefore q.location p.location = true

/-- The amount of a budget, if it has both dates and ends in a window. -/
def amountIn? (w : Window) (budget : Node) : Option Float :=
  if (budget.childAttribute? "period-start" "iso-date").isSome && endsIn w budget then amount? budget
  else none

def countedAt? (w : Window) (p : Place) : Option Float :=
  if p.node.isNamed "total-budget" then amountIn? w p.node else none

section

variable {now : Instant} {offset : Nat} {document : Node} {context : Place}

theorem amount?_eq_some_iff {budget : Node} {x : Float} :
    amount? budget = some x ↔ ∃ text, budget.childText? "value" = some text ∧ readAmount text = .ok x := by
  unfold amount?
  rw [Option.bind_eq_some_iff]
  refine exists_congr fun text => and_congr_right fun _ => ?_
  cases readAmount text <;> simp [Except.toOption]

theorem countedAt?_eq_some_iff {p : Place} {x : Float} :
    countedAt? (.ofOffset now offset) p = some x ↔ CountsFor now offset p.node x := by
  unfold countedAt? amountIn?
  rw [Option.ite_none_right_eq_some, Option.ite_none_right_eq_some, Bool.and_eq_true,
    Option.isSome_iff_exists, endsIn_iff, amount?_eq_some_iff]
  exact ⟨fun ⟨hnamed, ⟨hbegins, hends⟩, hreads⟩ => ⟨hnamed, hbegins, hends, hreads⟩,
    fun h => ⟨h.named, ⟨h.begins, h.ends⟩, h.reads⟩⟩

theorem yearBudget_add_eq (w : Window) (year : YearBudget) (budget : Node) :
    year.add w budget = (amountIn? w budget).elim year fun x => ⟨true, x⟩ := by
  unfold YearBudget.add amountIn?
  split
  · cases amount? budget <;> rfl
  · rfl

/-- The last budget that counts is left over. -/
theorem foldl_yearBudget_add (w : Window) (budgets : List Node) (year : YearBudget) :
    budgets.foldl (YearBudget.add w) year =
      (budgets.reverse.findSome? (amountIn? w)).elim year fun x => ⟨true, x⟩ := by
  induction budgets using List.reverseRecOn with
  | nil => rfl
  | append_singleton rest budget ih =>
    rw [List.foldl_concat, yearBudget_add_eq, ih, List.reverse_append, List.reverse_singleton,
      List.singleton_append, List.findSome?_cons]
    cases amountIn? w budget <;> rfl

theorem amountIn?_of_not_hasEndDate {w : Window} {budget : Node} (h : budget.hasEndDate = false) :
    amountIn? w budget = none := by
  have hends : endsIn w budget = false := by
    by_contra hends
    obtain ⟨text, htext, -⟩ := (Option.any_eq_true _ _).1 (Bool.eq_true_of_not_eq_false hends)
    rw [hasEndDate_of_endDate? htext] at h
    cases h
  unfold amountIn?
  rw [hends, Bool.and_false]
  rfl

/-- The budget of a year is the last one of the document that counts. -/
theorem yearAt_eq (hcontext : context.LiesIn document) (ho : offset ∈ offsets) :
    yearAt (totalBudgets now document context) offset =
      ((Place.all document).reverse.findSome? (countedAt? (.ofOffset now offset))).elim
        YearBudget.none fun x => ⟨true, x⟩ := by
  have hyear : yearAt (totalBudgets now document context) offset =
      ((named "total-budget" document.inside).filter hasEndDate).foldl
        (YearBudget.add (.ofOffset now offset)) YearBudget.none := by
    rw [← elements_datedTotalBudget hcontext]
    unfold offsets at ho
    simp only [List.mem_cons, List.not_mem_nil, or_false] at ho
    rcases ho with rfl | rfl | rfl | rfl <;> rfl
  have hskip (nodes : List Node) :
      (nodes.filter hasEndDate).foldl (YearBudget.add (.ofOffset now offset)) YearBudget.none =
        nodes.foldl (YearBudget.add (.ofOffset now offset)) YearBudget.none := by
    refine foldl_filter_of_skip (fun year n hn => ?_) nodes _
    rw [yearBudget_add_eq, amountIn?_of_not_hasEndDate hn, Option.elim_none]
  rw [hyear, hskip, foldl_yearBudget_add, ← Place.map_node_descendants_top]
  unfold named
  rw [List.filter_map, ← List.map_reverse, List.findSome?_map, ← List.filter_reverse,
    ← List.head?_filterMap, List.filterMap_filter, List.head?_filterMap]
  rfl

/-- Looked for from the end, the first place to be found is the last one that counts. -/
theorem findSome?_countedAt?_iff {x : Float} :
    (Place.all document).reverse.findSome? (countedAt? (.ofOffset now offset)) = some x ↔
      ∃ p, IsLastFor now offset document p x := by
  let counts (q : Place) : Prop := ∃ y, CountsFor now offset q.node y
  have hnone {q : Place} : countedAt? (.ofOffset now offset) q = none ↔ ¬ counts q := by
    simp only [counts, ← countedAt?_eq_some_iff, ← Option.ne_none_iff_exists', not_not]
  have hlast {p : Place} (hp : CountsFor now offset p.node x) :=
    Place.exists_last_iff (Place.pairwise_all document) counts ⟨x, hp⟩
  rw [List.findSome?_eq_some_iff]
  constructor
  · rintro ⟨later, p, earlier, hsplit, hp, hlater⟩
    have hcounts := countedAt?_eq_some_iff.1 hp
    have hforward : Place.all document = earlier.reverse ++ p :: later.reverse := by
      rw [← List.reverse_reverse (Place.all document), hsplit]
      simp
    obtain ⟨hmem, hafter⟩ := (hlast hcounts).1 ⟨earlier.reverse, later.reverse, hforward,
      fun q hq => hnone.1 (hlater q (List.mem_reverse.1 hq))⟩
    exact ⟨p, hmem, hcounts, fun q hq y hy => hafter q hq ⟨y, hy⟩⟩
  · rintro ⟨p, hp⟩
    obtain ⟨front, rest, hsplit, hrest⟩ :=
      (hlast hp.counts).2 ⟨hp.mem, fun q hq ⟨y, hy⟩ => hp.last q hq y hy⟩
    refine ⟨rest.reverse, p, front.reverse, ?_, countedAt?_eq_some_iff.2 hp.counts, fun q hq => ?_⟩
    · rw [hsplit]
      simp
    · exact hnone.2 (hrest q (List.mem_reverse.1 hq))

end

/-- An offset has a total budget exactly if one in the document counts for it. Its amount is that of
the last one, or else zero. -/
theorem totalBudgets_last {now : Instant} {offset : Nat} {document : Node} {context : Place}
    (hcontext : context.LiesIn document) (ho : offset ∈ offsets) :
    let year := yearAt (totalBudgets now document context) offset
    (year.available = true ↔ ∃ p ∈ Place.all document, ∃ x, CountsFor now offset p.node x) ∧
      (∀ x, year.available = true ∧ year.amount = x ↔ ∃ p, IsLastFor now offset document p x) ∧
      (year.available = false → year.amount = 0.0) := by
  intro year
  have hyear : year = _ := yearAt_eq hcontext ho
  cases hlast : (Place.all document).reverse.findSome? (countedAt? (.ofOffset now offset)) with
  | none =>
    rw [hlast, Option.elim_none] at hyear
    have hnone : ∀ p ∈ Place.all document, ∀ x, ¬ CountsFor now offset p.node x := by
      intro p hp x hcounts
      have hcounted := List.findSome?_eq_none_iff.1 hlast p (List.mem_reverse.2 hp)
      rw [countedAt?_eq_some_iff.2 hcounts] at hcounted
      cases hcounted
    rw [hyear]
    refine ⟨⟨fun h => ?_, ?_⟩, fun x => ⟨fun h => ?_, ?_⟩, fun _ => rfl⟩
    · cases h
    · rintro ⟨p, hp, x, hcounts⟩
      exact absurd hcounts (hnone p hp x)
    · cases h.1
    · rintro ⟨p, hp⟩
      exact absurd hp.counts (hnone p hp.mem x)
  | some x =>
    rw [hlast, Option.elim_some] at hyear
    obtain ⟨p, hp⟩ := findSome?_countedAt?_iff.1 hlast
    rw [hyear]
    refine ⟨⟨fun _ => ⟨p, hp.mem, x, hp.counts⟩, fun _ => rfl⟩, fun y => ?_, fun h => ?_⟩
    · rw [← findSome?_countedAt?_iff, hlast, Option.some_inj]
      exact and_iff_right rfl
    · cases h

/-- A total budget for the year ahead that has no date of beginning. -/
def unbegunBudget : Node :=
  .element "total-budget" [] [
    attributeElement "period-end" "iso-date" "2021-01-01", textElement "value" "7"]

/-- A total budget for the year ahead, of a written amount. -/
def budgetWorth (amount : String) : Node :=
  .element "total-budget" [] [
    attributeElement "period-start" "iso-date" "2020-01-01",
    attributeElement "period-end" "iso-date" "2021-01-01", textElement "value" amount]

/-- The budget of another organisation comes later and takes the place of the first one, and those after
it do not count. -/
theorem totalBudgets_last_overwrites :
    let d := twoOrganisations [healthBudget] [budgetWorth "1,234.00", unbegunBudget, budgetWorth "much"]
    let here := firstOrganisation [healthBudget]
    let year := yearAt (totalBudgets sampleSetting.now d here) 1
    here.LiesIn d ∧ 1 ∈ offsets ∧ year.available = true ∧ year.amount = 1234.0 ∧
      ∃ p, IsLastFor sampleSetting.now 1 d p 1234.0 := by
  intro d here year
  have hhere : here.LiesIn d := rfl
  have ho : 1 ∈ offsets := by decide
  have hyear : year.available = true ∧ year.amount = 1234.0 := by
    simp only [year, totalBudgets, elements_datedTotalBudget hhere]
    decide +kernel
  exact ⟨hhere, ho, hyear.1, hyear.2, ((totalBudgets_last hhere ho).2.1 1234.0).1 hyear⟩

end DataQuality.Metric
