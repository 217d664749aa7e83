import DataQuality.Proofs.Selector.Denotation
import DataQuality.Proofs.Selector.Union
import DataQuality.Proofs.Sentence.Grammar

/-!
# Sentences on presence

Sentences that ask whether or how often something is present depend on a selector only through the
things it finds that are not blank. A union of selectors finds what either of them does, each thing
once. So asking for one or the other is asking for the union.
-/
namespace DataQuality

open Markup Selector

/-- The things that a selector finds in a unit and that are not blank. -/
def Selector.present (document : Node) (unit : Place) (s : Selector) : Set Item :=
  {x | x ∈ s.selectUnit document unit ∧ x.isBlank = false}

namespace RuleSet

def evaluateSentence (id : RuleId) (document : Node) (unit : Place) (sentence : String) :
    Except SentenceFault (Except EvalError Truth) :=
  (compileSentence id sentence).map (Predicate.evaluate document unit)

/-- Sentences tell that this many things are present. -/
structure Counts (id : RuleId) (document : Node) (unit : Place) (path : String) (n : Nat) :
    Prop where
  any : evaluateSentence id document unit (path ++ " exists?") = .ok (.ok (.ofBool (0 < n)))
  times {times noun : String} {wanted : Int} (htimes : IsWord times) (hnoun : noun ∈ ["time", "times"])
    (hwanted : Predicate.count times = .ok wanted) :
    evaluateSentence id document unit (path ++ " exists " ++ times ++ " " ++ noun ++ "?") =
      .ok (.ok (.ofBool ((n : Int) == wanted)))
  moreThan {times noun : String} {limit : Int} (htimes : IsWord times)
    (hnoun : noun ∈ ["time", "times"]) (hlimit : Predicate.count times = .ok limit) :
    evaluateSentence id document unit (path ++ " exists more than " ++ times ++ " " ++ noun ++ "?") =
      .ok (.ok (.ofBool (limit < (n : Int))))

end RuleSet

section

variable {document : Node} {unit : Place} {a b : String} {p q r s : Selector}

theorem Selector.nodup_selectUnit (s : Selector) : (s.selectUnit document unit).Nodup :=
  (pairwise_inOrder _).imp fun hbefore heq => by
    subst heq
    exact lt_irrefl _ hbefore

theorem Selector.finite_present (s : Selector) : (s.present document unit).Finite :=
  (s.selectUnit document unit).finite_toSet.subset fun _ hx => hx.1

theorem Predicate.countPresent_eq (s : Selector) :
    countPresent document unit (.ok s) = .ok (s.present document unit).ncard := by
  classical
  let found := (s.selectUnit document unit).filter fun x => !x.isBlank
  have hset : s.present document unit = ↑found.toFinset := by
    ext x
    simp [present, found]
  have hlength : found.toFinset.card = found.length :=
    List.toFinset_card_of_nodup (s.nodup_selectUnit.filter _)
  rw [hset, Set.ncard_coe_finset, hlength, ← List.countP_eq_length_filter]
  rfl

theorem Predicate.findsAny_eq (s : Selector) :
    findsAny document unit (.ok s) = .ok (decide (0 < (s.present document unit).ncard)) := by
  unfold findsAny
  rw [countPresent_eq]
  rfl

/-- A union finds what one of its parts finds. -/
theorem Selector.present_of_branches (hunit : unit.LiesIn document)
    (hr : r.branches = p.branches ++ q.branches) :
    r.present document unit = p.present document unit ∪ q.present document unit := by
  have hmem (s : Selector) (x : Item) : x ∈ s.selectUnit document unit ↔
      ∃ path ∈ s.branches, path.Reaches (.ofUnit document unit) unit x :=
    ((within_ofUnit hunit).denotes_selectAll hunit s.branches).mem_iff x
  ext x
  have hunion : x ∈ r.selectUnit document unit ↔
      x ∈ p.selectUnit document unit ∨ x ∈ q.selectUnit document unit := by
    rw [hmem, hmem, hmem, hr]
    simp only [List.mem_append, or_and_right, exists_or]
  exact (and_congr_left' hunion).trans or_and_right

/-- What both parts find is counted once. -/
theorem Selector.ncard_present_add (hunit : unit.LiesIn document)
    (hr : r.branches = p.branches ++ q.branches) :
    (r.present document unit).ncard + (p.present document unit ∩ q.present document unit).ncard =
      (p.present document unit).ncard + (q.present document unit).ncard := by
  rw [present_of_branches hunit hr]
  exact Set.ncard_union_add_ncard_inter _ _ p.finite_present q.finite_present

theorem Selector.findsAny_union (hunit : unit.LiesIn document)
    (hr : r.branches = p.branches ++ q.branches) :
    decide (0 < (r.present document unit).ncard) =
      (decide (0 < (p.present document unit).ncard) ||
        decide (0 < (q.present document unit).ncard)) := by
  have hpos (s : Selector) : 0 < (s.present document unit).ncard ↔ (s.present document unit).Nonempty :=
    Set.ncard_pos s.finite_present
  rw [← Bool.decide_or, decide_eq_decide, hpos, hpos, hpos, present_of_branches hunit hr,
    Set.union_nonempty]

namespace RuleSet

theorem evaluateSentence_eq {id : RuleId} {t : Sentence.Template} {s : Sentence String} {text : String}
    (h : Sentence.Written t s text) :
    evaluateSentence id document unit text = .ok (s.compile.evaluate document unit) := by
  unfold evaluateSentence compileSentence
  rw [h.read?]
  rfl

theorem counts_of_parse (id : RuleId) (document : Node) (unit : Place) (ha : IsWord a)
    (hp : Selector.parse a = .ok p) : Counts id document unit a (p.present document unit).ncard := by
  constructor
  · rw [evaluateSentence_eq (.isPresent ha), Sentence.compile, Sentence.map, hp, Predicate.evaluate,
      Predicate.findsAny_eq]
    rfl
  · intro times noun wanted htimes hnoun hwanted
    rw [evaluateSentence_eq (.presentTimes ha htimes hnoun), Sentence.compile, Sentence.map, hp,
      Predicate.evaluate, Predicate.countPresent_eq, hwanted]
    rfl
  · intro times noun limit htimes hnoun hlimit
    rw [evaluateSentence_eq (.presentMoreThan ha htimes hnoun), Sentence.compile, Sentence.map, hp,
      Predicate.evaluate, Predicate.countPresent_eq, hlimit]
    rfl

theorem evaluateSentence_either {id : RuleId} (ha : IsWord a) (hb : IsWord b)
    (hp : Selector.parse a = .ok p) (hq : Selector.parse b = .ok q) :
    evaluateSentence id document unit (a ++ " or " ++ b ++ " exists?") =
      .ok (.ok (.ofBool (decide (0 < (p.present document unit).ncard) ||
        decide (0 < (q.present document unit).ncard)))) := by
  rw [evaluateSentence_eq (.eitherPresent ha hb), Sentence.compile, Sentence.map, hp, hq,
    Predicate.evaluate, Predicate.findsAny_eq, Predicate.findsAny_eq]
  cases decide (0 < (p.present document unit).ncard) <;> rfl

theorem evaluateSentence_exactlyOne {id : RuleId} (ha : IsWord a) (hb : IsWord b)
    (hp : Selector.parse a = .ok p) (hq : Selector.parse b = .ok q) :
    evaluateSentence id document unit ("only one of " ++ a ++ " or " ++ b ++ " exists?") =
      .ok (.ok (.ofBool (decide (0 < (p.present document unit).ncard) !=
        decide (0 < (q.present document unit).ncard)))) := by
  rw [evaluateSentence_eq (.exactlyOnePresent ha hb), Sentence.compile, Sentence.map, hp, hq,
    Predicate.evaluate, Predicate.findsAny_eq, Predicate.findsAny_eq]
  rfl

end RuleSet

theorem isWord_union (ha : IsWord a) (hb : IsWord b) : IsWord (a ++ "|" ++ b) := by
  intro c hc
  rw [String.toList_append, String.toList_append, List.mem_append, List.mem_append] at hc
  rcases hc with (hc | hc) | hc
  · exact ha c hc
  · obtain rfl := List.mem_singleton.1 hc
    rfl
  · exact hb c hc

end

namespace RuleSet

/-- Sentences on the presence of one or of two selectors agree with each other and with the union of
the two, none of them ends in an error or is undecided, and the numbers that the counting sentences
tell add up. -/
theorem presence_union (id : RuleId) {a b : String} {p q : Selector} {document : Node} {unit : Place}
    (ha : IsWord a) (hb : IsWord b) (hp : Selector.parse a = .ok p) (hq : Selector.parse b = .ok q)
    (hunit : unit.LiesIn document) :
    let outcome := evaluateSentence id document unit
    outcome (a ++ " or " ++ b ++ " exists?") = outcome (a ++ "|" ++ b ++ " exists?") ∧
      outcome (b ++ " or " ++ a ++ " exists?") = outcome (a ++ "|" ++ b ++ " exists?") ∧
      (outcome ("only one of " ++ a ++ " or " ++ b ++ " exists?") = .ok (.ok .holds) ↔
        outcome (a ++ " exists?") = .ok (.ok .holds) ∧ outcome (b ++ " exists?") = .ok (.ok .fails) ∨
        outcome (a ++ " exists?") = .ok (.ok .fails) ∧ outcome (b ++ " exists?") = .ok (.ok .holds)) ∧
      (∀ text ∈ [a ++ " exists?", b ++ " exists?", a ++ "|" ++ b ++ " exists?",
          a ++ " or " ++ b ++ " exists?", b ++ " or " ++ a ++ " exists?",
          "only one of " ++ a ++ " or " ++ b ++ " exists?"],
        outcome text = .ok (.ok .holds) ∨ outcome text = .ok (.ok .fails)) ∧
      ∃ r, Selector.parse (a ++ "|" ++ b) = .ok r ∧
        (r.present document unit).ncard + (p.present document unit ∩ q.present document unit).ncard =
          (p.present document unit).ncard + (q.present document unit).ncard ∧
        Counts id document unit a (p.present document unit).ncard ∧
        Counts id document unit b (q.present document unit).ncard ∧
        Counts id document unit (a ++ "|" ++ b) (r.present document unit).ncard := by
  intro outcome
  let r : Selector := ⟨a ++ "|" ++ b, p.branches ++ q.branches⟩
  have hr : Selector.parse (a ++ "|" ++ b) = .ok r := parse_union hp hq
  have hsum := ncard_present_add (r := r) hunit rfl
  have hany := findsAny_union (r := r) hunit rfl
  have hcounts := counts_of_parse id document unit ha hp
  have hcounts' := counts_of_parse id document unit hb hq
  have hcountsUnion := counts_of_parse id document unit (isWord_union ha hb) hr
  have hfirst : outcome (a ++ " exists?") = _ := hcounts.any
  have hsecond : outcome (b ++ " exists?") = _ := hcounts'.any
  have hboth : outcome (a ++ "|" ++ b ++ " exists?") = _ := hcountsUnion.any
  have heither : outcome (a ++ " or " ++ b ++ " exists?") = _ := evaluateSentence_either ha hb hp hq
  have hother : outcome (b ++ " or " ++ a ++ " exists?") = _ := evaluateSentence_either hb ha hq hp
  have hone : outcome ("only one of " ++ a ++ " or " ++ b ++ " exists?") = _ :=
    evaluateSentence_exactlyOne ha hb hp hq
  rw [hany] at hboth
  simp only [List.forall_mem_cons, hfirst, hsecond, hboth, heither, hother, hone]
  refine ⟨trivial, ?_, ?_, ?_, r, hr, hsum, hcounts, hcounts', hcountsUnion⟩
  · rw [Bool.or_comm]
  · generalize decide (0 < (p.present document unit).ncard) = first
    generalize decide (0 < (q.present document unit).ncard) = second
    cases first <;> cases second <;> simp [Truth.ofBool]
  · have hofBool (found : Bool) : (Except.ok (.ok (.ofBool found)) :
        Except SentenceFault (Except EvalError Truth)) = .ok (.ok .holds) ∨
          (Except.ok (.ok (.ofBool found)) : Except SentenceFault (Except EvalError Truth)) =
            .ok (.ok .fails) := by
      cases found
      · exact .inr rfl
      · exact .inl rfl
    exact ⟨hofBool _, hofBool _, hofBool _, hofBool _, hofBool _, hofBool _, by simp⟩

def titledUnit : Node := .element "a" [] [.element "title" [] [], .element "code" [] []]

def titledDocument : Node := .root [titledUnit]

/-- The selector `title` finds one of the two things that `*` finds. -/
theorem presence_union_titled :
    IsWord "title" ∧ IsWord "*" ∧ Place.LiesIn titledDocument ⟨[0], titledUnit⟩ ∧
      evaluateSentence ⟨1⟩ titledDocument ⟨[0], titledUnit⟩ ("title" ++ " or " ++ "*" ++ " exists?") =
        evaluateSentence ⟨1⟩ titledDocument ⟨[0], titledUnit⟩ ("title" ++ "|" ++ "*" ++ " exists?") := by
  have ha : IsWord "title" := by simp [IsWord, Text.isBlank]
  have hb : IsWord "*" := by simp [IsWord, Text.isBlank]
  have hp : Selector.parse "title" = .ok ⟨"title", [.mk false [.mk .child (.name "title") []]]⟩ := by
    cbv
  have hq : Selector.parse "*" = .ok ⟨"*", [.mk false [.mk .child .anyName []]]⟩ := by cbv
  have hunit : Place.LiesIn titledDocument ⟨[0], titledUnit⟩ := rfl
  exact ⟨ha, hb, hunit, (presence_union ⟨1⟩ ha hb hp hq hunit).1⟩

end RuleSet

end DataQuality
