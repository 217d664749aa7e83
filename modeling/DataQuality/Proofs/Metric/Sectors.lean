import DataQuality.Proofs.Keyed
import DataQuality.Proofs.Metric.Categories

/-!
# The sectors of budget lines

A sector is named by a line of a total budget. The lines of a year are kept by their references, and
lines without a reference have the empty one, so a line takes the place of an earlier one of the same
year and reference. A sector is scored exactly if some line that names it is kept; so all sectors are
scored exactly if each line whose place is taken names a sector that a kept line names too.
-/
namespace DataQuality.Metric

open Markup Node Selector

/-- The reference of a line, and the line. It needs a name and a value. -/
def lineOf? (line : Node) : Option (String × BudgetLine) :=
  match line.childText? "narrative", plainAmount? line with
  | some name, some value => some ((line.attribute? "ref").getD "", ⟨name, value⟩)
  | _, _ => none

/-- The lines of a total budget, if it ends in a window and has an amount. -/
def linesOf (w : Window) (budget : Node) : List (String × BudgetLine) :=
  if endsIn w budget && (plainAmount? budget).isSome then
    (budget.childrenNamed "budget-line").filterMap lineOf?
  else []

/-- The lines of the total budgets of a document that end in a window. -/
def linesWithin (w : Window) (document : Node) : List (String × BudgetLine) :=
  (named "total-budget" document.inside).flatMap (linesOf w)

namespace SectorYear

/-- Lines put one after the other, each in the place of an earlier one of its reference. -/
def putAll (lines : List (String × BudgetLine)) (more : List (String × BudgetLine)) :
    List (String × BudgetLine) :=
  more.foldl (fun all l => Keyed.insert (fun a b => a < b) l.1 l.2 all) lines

theorem lines_addLine (year : SectorYear) (line : Node) :
    (year.addLine line).lines = putAll year.lines (lineOf? line).toList := by
  unfold addLine lineOf?
  cases line.childText? "narrative" with
  | none => rfl
  | some name => cases plainAmount? line <;> rfl

theorem lines_foldl_addLine (year : SectorYear) (lines : List Node) :
    (lines.foldl addLine year).lines = putAll year.lines (lines.filterMap lineOf?) := by
  induction lines generalizing year with
  | nil => rfl
  | cons line rest ih =>
    rw [List.foldl_cons, ih, lines_addLine]
    cases hline : lineOf? line <;> simp [hline, putAll]

theorem lines_add (w : Window) (year : SectorYear) (budget : Node) :
    (year.add w budget).lines = putAll year.lines (linesOf w budget) := by
  unfold add linesOf
  by_cases hends : endsIn w budget = true
  · cases hamount : plainAmount? budget with
    | none => simp [hends, putAll]
    | some total => simp [hends, lines_foldl_addLine]
  · simp [hends, putAll]

theorem lines_foldl_add (w : Window) (year : SectorYear) (budgets : List Node) :
    (budgets.foldl (add w) year).lines = putAll year.lines (budgets.flatMap (linesOf w)) := by
  induction budgets generalizing year with
  | nil => rfl
  | cons budget rest ih =>
    rw [List.foldl_cons, ih, lines_add, List.flatMap_cons]
    unfold putAll
    rw [List.foldl_append]

end SectorYear

/-- No line after this one has its reference. -/
def IsLast (lines : List (String × BudgetLine)) (l : String × BudgetLine) : Prop :=
  ∃ front rest, lines = front ++ l :: rest ∧ ∀ l' ∈ rest, l'.1 ≠ l.1

/-- Some line after this one has its reference. -/
def IsReplaced (lines : List (String × BudgetLine)) (l : String × BudgetLine) : Prop :=
  ∃ front rest, lines = front ++ l :: rest ∧ ∃ l' ∈ rest, l'.1 = l.1

/-- A total budget with an amount ends in one of the years, and a line of it with a value names the
sector. -/
def IsSector (now : Instant) (document : Node) (sector : String) : Prop :=
  ∃ o ∈ offsets, ∃ budget ∈ named "total-budget" document.inside,
    endsIn (.ofOffset now o) budget = true ∧ (plainAmount? budget).isSome ∧
      ∃ line ∈ budget.childrenNamed "budget-line",
        line.childText? "narrative" = some sector ∧ (plainAmount? line).isSome

/-- The sector is named by a line that is the last of its year and reference. -/
def IsKept (now : Instant) (document : Node) (sector : String) : Prop :=
  ∃ o ∈ offsets, ∃ l, IsLast (linesWithin (.ofOffset now o) document) l ∧ l.2.name = sector

section Lines

variable {now : Instant} {document : Node} {lines : List (String × BudgetLine)}
  {l : String × BudgetLine} {s : String}

theorem isLast_or_isReplaced (h : l ∈ lines) : IsLast lines l ∨ IsReplaced lines l := by
  obtain ⟨front, rest, hsplit⟩ := List.append_of_mem h
  by_cases hlater : ∃ l' ∈ rest, l'.1 = l.1
  · exact .inr ⟨front, rest, hsplit, hlater⟩
  · push Not at hlater
    exact .inl ⟨front, rest, hsplit, hlater⟩

theorem IsLast.mem (h : IsLast lines l) : l ∈ lines := by
  obtain ⟨front, rest, rfl, -⟩ := h
  simp

theorem IsReplaced.mem (h : IsReplaced lines l) : l ∈ lines := by
  obtain ⟨front, rest, rfl, -⟩ := h
  simp

/-- Some line is the last of its reference, if there are any lines. -/
theorem exists_isLast (h : lines ≠ []) : ∃ l, IsLast lines l := by
  obtain ⟨front, l, hsplit⟩ := List.eq_nil_or_concat lines |>.resolve_left h
  exact ⟨l, front, [], by rw [hsplit, List.concat_eq_append], by simp⟩

theorem lineOf?_name_eq_iff {line : Node} :
    (∃ l, lineOf? line = some l ∧ l.2.name = s) ↔
      line.childText? "narrative" = some s ∧ (plainAmount? line).isSome := by
  unfold lineOf?
  cases line.childText? "narrative" with
  | none => simp
  | some name => cases plainAmount? line <;> simp

/-- The sectors are those that the lines of the years name. -/
theorem isSector_iff :
    IsSector now document s ↔
      ∃ o ∈ offsets, ∃ l ∈ linesWithin (.ofOffset now o) document, l.2.name = s := by
  have hbudget (w : Window) (budget : Node) :
      (∃ l ∈ linesOf w budget, l.2.name = s) ↔
        endsIn w budget = true ∧ (plainAmount? budget).isSome ∧
          ∃ line ∈ budget.childrenNamed "budget-line",
            line.childText? "narrative" = some s ∧ (plainAmount? line).isSome := by
    unfold linesOf
    by_cases hscope : (endsIn w budget && (plainAmount? budget).isSome) = true
    · rw [if_pos hscope]
      rw [Bool.and_eq_true] at hscope
      simp only [hscope, true_and, ← lineOf?_name_eq_iff, List.mem_filterMap]
      constructor
      · rintro ⟨l, ⟨line, hline, hread⟩, hname⟩
        exact ⟨line, hline, l, hread, hname⟩
      · rintro ⟨line, hline, l, hread, hname⟩
        exact ⟨l, ⟨line, hline, hread⟩, hname⟩
    · rw [if_neg hscope]
      rw [Bool.and_eq_true] at hscope
      simp only [List.not_mem_nil, false_and, exists_false, false_iff]
      exact fun ⟨hends, hamount, _⟩ => hscope ⟨hends, hamount⟩
  unfold IsSector linesWithin
  simp only [List.mem_flatMap, ← hbudget]
  constructor
  · rintro ⟨o, ho, budget, hmem, l, hl, hname⟩
    exact ⟨o, ho, l, ⟨budget, hmem, hl⟩, hname⟩
  · rintro ⟨o, ho, l, ⟨budget, hmem, hl⟩, hname⟩
    exact ⟨o, ho, budget, hmem, l, hl, hname⟩

theorem IsKept.isSector (h : IsKept now document s) : IsSector now document s := by
  obtain ⟨o, ho, l, hl, hname⟩ := h
  exact isSector_iff.2 ⟨o, ho, l, hl.mem, hname⟩

/-- If there are sectors at all, then some are kept. -/
theorem exists_isKept (h : IsSector now document s) : ∃ s', IsKept now document s' := by
  obtain ⟨o, ho, l, hl, -⟩ := isSector_iff.1 h
  obtain ⟨last, hlast⟩ := exists_isLast (List.ne_nil_of_mem hl)
  exact ⟨last.2.name, o, ho, last, hlast, rfl⟩

/-- No sector is lost exactly if each line whose place is taken names one that is kept. -/
theorem isKept_iff_isSector :
    (∀ s, IsKept now document s ↔ IsSector now document s) ↔
      ∀ o ∈ offsets, ∀ l, IsReplaced (linesWithin (.ofOffset now o) document) l →
        IsKept now document l.2.name := by
  constructor
  · intro hall o ho l hl
    exact (hall l.2.name).2 (isSector_iff.2 ⟨o, ho, l, hl.mem, rfl⟩)
  · intro hreplaced s
    refine ⟨IsKept.isSector, fun hs => ?_⟩
    obtain ⟨o, ho, l, hl, rfl⟩ := isSector_iff.1 hs
    rcases isLast_or_isReplaced hl with hlast | hl
    · exact ⟨o, ho, l, hlast, rfl⟩
    · exact hreplaced o ho l hl

end Lines

section Scored

variable {document : Node} {context : Place}

theorem nodup_eraseDups (names : List String) : names.eraseDups.Nodup := by
  match names with
  | [] => simp
  | name :: rest =>
    rw [List.eraseDups_cons, List.nodup_cons]
    refine ⟨?_, nodup_eraseDups _⟩
    simp [List.mem_eraseDups]
  termination_by names.length
  decreasing_by exact Nat.lt_succ_of_le (List.length_filter_le _ _)

/-- The sectors that are scored are those that are kept. -/
theorem mem_sectorNames_iff (hcontext : context.LiesIn document) {now : Instant} {s : String} :
    s ∈ sectorNames (sectorYears now document context) ↔ IsKept now document s := by
  have hlines (w : Window) (l : String × BudgetLine) :
      l ∈ ((named "total-budget" document.inside).foldl (SectorYear.add w) SectorYear.none).lines ↔
        IsLast (linesWithin w document) l := by
    rw [SectorYear.lines_foldl_add]
    exact Keyed.mem_foldl_insert_iff Keyed.isOrder_string
  unfold sectorNames sectorYears IsKept
  rw [elements_totalBudget hcontext, List.mem_eraseDups]
  simp only [List.mem_flatMap, List.mem_map, exists_exists_and_eq_and, hlines]

theorem sectorNames_eq_nil_iff (hcontext : context.LiesIn document) (now : Instant) :
    sectorNames (sectorYears now document context) = [] ↔ ¬ ∃ s, IsSector now document s := by
  rw [List.eq_nil_iff_forall_not_mem]
  simp only [mem_sectorNames_iff hcontext]
  constructor
  · rintro hnone ⟨s, hs⟩
    obtain ⟨s', hs'⟩ := exists_isKept hs
    exact hnone s' hs'
  · exact fun hnone s hs => hnone ⟨s, hs.isSector⟩

/-- The metric scores the sectors that are kept, each once, and gives the percentage of them that a
considered title names. So it scores all sectors exactly if each line whose place another one of its
year and reference takes names a sector that is kept. There is no value exactly if there is no
sector. -/
theorem sectorPapers_scores_kept (hcontext : context.LiesIn document) (setting : MetricSetting) :
    let scored := sectorNames (sectorYears setting.now document context)
    let covered := coveredSectors setting document context
    (scored.Nodup ∧ ∀ s, s ∈ scored ↔ IsKept setting.now document s) ∧
    (covered.Nodup ∧ ∀ s, s ∈ covered ↔ s ∈ scored ∧ IsCovered document context s) ∧
    ((∀ s, s ∈ scored ↔ IsSector setting.now document s) ↔
      ∀ o ∈ offsets, ∀ l, IsReplaced (linesWithin (.ofOffset setting.now o) document) l →
        IsKept setting.now document l.2.name) ∧
    (sectorPapers setting document context = .error .noSectors ↔
      ¬ ∃ s, IsSector setting.now document s) ∧
    ((∃ s, IsSector setting.now document s) →
      sectorPapers setting document context =
        .ok (covered.length.toFloat / scored.length.toFloat * 100.0)) := by
  intro scored covered
  have hscored (s : String) : s ∈ scored ↔ IsKept setting.now document s :=
    mem_sectorNames_iff hcontext
  have hnodup : scored.Nodup := nodup_eraseDups _
  have hshare := sectorPapers_eq_share setting document context
  have hnil : scored = [] ↔ ¬ ∃ s, IsSector setting.now document s :=
    sectorNames_eq_nil_iff hcontext setting.now
  refine ⟨⟨hnodup, hscored⟩, ⟨hnodup.filter _, fun s => mem_coveredSectors hcontext⟩, ?_, ?_, ?_⟩
  · simp only [hscored]
    exact isKept_iff_isSector
  · rw [← hnil, hshare]
    dsimp only
    split
    · next hempty => exact iff_of_true rfl (List.isEmpty_iff.1 hempty)
    · next hempty => exact iff_of_false (by simp) fun h => hempty (List.isEmpty_iff.2 h)
  · intro hsector
    rw [hshare]
    exact if_neg fun hempty => hnil.1 (List.isEmpty_iff.1 hempty) hsector

end Scored

/-- A total budget for the year ahead with these lines. -/
def budgetOf (lines : List Node) : Node :=
  .element "total-budget" [] (attributeElement "period-end" "iso-date" "2021-01-01" ::
    textElement "value" "100" :: lines)

def lineFor (sector : String) (attributes : List Attribute) : Node :=
  .element "budget-line" attributes [textElement "narrative" sector, textElement "value" "50"]

/-- A sector whose line loses its place is kept for another line, which has a reference. -/
theorem sectorPapers_scores_kept_elsewhere :
    let held := [budgetOf [lineFor "Health" [], lineFor "Water" []],
      budgetOf [lineFor "Health" [⟨none, "ref", "110"⟩]], strategyPaper ["B11"]]
    let d := twoOrganisations held []
    (firstOrganisation held).LiesIn d ∧
      (∀ s, IsKept sampleSetting.now d s ↔ s ∈ ["Water", "Health"]) ∧
      (sectorPapers sampleSetting d (firstOrganisation held)).toOption = some 50.0 := by
  intro held d
  have hcontext : (firstOrganisation held).LiesIn d := rfl
  obtain ⟨⟨-, hscored⟩, -⟩ := sectorPapers_scores_kept hcontext sampleSetting
  have hnames : sectorNames (sectorYears sampleSetting.now d (firstOrganisation held)) =
      ["Water", "Health"] := by
    simp only [sectorYears, elements_totalBudget hcontext]
    decide +kernel
  refine ⟨hcontext, fun s => ?_, ?_⟩
  · rw [← hscored, hnames]
  · simp only [sectorPapers, sectorYears, any_sectorTitles hcontext, elements_totalBudget hcontext]
    decide +kernel

/-- Of two lines without references, the second one takes the place of the first one, and a sector
is lost. -/
theorem not_isSector_scored :
    let held := [budgetOf [lineFor "Water" [], lineFor "Health" []], strategyPaper ["B11"]]
    let d := twoOrganisations held []
    (sectorPapers sampleSetting d (firstOrganisation held)).toOption = some 100.0 ∧
      ¬ ∀ (setting : MetricSetting) (document : Node) (context : Place),
        context.LiesIn document → ∀ s, IsSector setting.now document s →
          s ∈ sectorNames (sectorYears setting.now document context) := by
  intro held d
  have hcontext : (firstOrganisation held).LiesIn d := rfl
  refine ⟨?_, fun hall => ?_⟩
  · simp only [sectorPapers, sectorYears, any_sectorTitles hcontext, elements_totalBudget hcontext]
    decide +kernel
  · have hwater : IsSector sampleSetting.now d "Water" := by
      refine ⟨1, by decide, budgetOf [lineFor "Water" [], lineFor "Health" []],
        List.mem_of_getElem? (i := 0) rfl, by decide +kernel, by decide +kernel, lineFor "Water" [],
        List.mem_of_getElem? (i := 0) rfl, rfl, by decide +kernel⟩
    have hscored := hall sampleSetting d (firstOrganisation held) hcontext "Water" hwater
    simp only [sectorYears, elements_totalBudget hcontext] at hscored
    revert hscored
    decide +kernel

end DataQuality.Metric
