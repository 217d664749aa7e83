import DataQuality.Proofs.Sentence.Grammar

/-!
# The order of the templates

A template fits a text if one of its sentences stands at the beginning of the text. At most one
template fits a text, so that it does not matter in which order the templates are tried: what is read,
and with it the predicate or the fault of a rule, is the same for every order.
-/
namespace DataQuality

namespace Sentence

namespace Template

/-- A sentence of the template stands at the beginning of the text. -/
def Fits (t : Template) (text : String) : Prop :=
  ∃ s sentence rest, Written t s sentence ∧ text = sentence ++ rest

/-- A template reads the texts that it fits. -/
theorem isSome_read?_iff {t : Template} {text : String} :
    (t.read? text.toList).isSome = true ↔ t.Fits text := by
  rw [Option.isSome_iff_exists]
  constructor
  · rintro ⟨s, hread⟩
    obtain ⟨sentence, rest, hwritten, htext⟩ := written_of_read? hread
    exact ⟨s, sentence, String.ofList rest, hwritten, String.toList_inj.1 (by simpa using htext)⟩
  · rintro ⟨s, sentence, rest, hwritten, rfl⟩
    obtain ⟨s', hread, -⟩ := hwritten.read?_append rest.toList
    exact ⟨s', by rwa [String.toList_append]⟩

theorem eq_of_fits {t u : Template} {text : String} (ht : t.Fits text) (hu : u.Fits text) :
    t = u := by
  obtain ⟨s, hread⟩ := Option.isSome_iff_exists.1 (isSome_read?_iff.2 ht)
  obtain ⟨s', hread'⟩ := Option.isSome_iff_exists.1 (isSome_read?_iff.2 hu)
  exact eq_of_read? hread hread'

end Template

theorem readBy?_eq_read? {templates : List Template} (hall : ∀ t, t ∈ templates) (text : String) :
    readBy? templates text = read? text := by
  refine Option.ext fun s => ?_
  rw [readBy?_eq_some_iff hall, read?_eq_some_iff]

end Sentence

namespace RuleSet

open Sentence

/-- The predicate of one sentence, if these templates are tried one after the other. -/
def compileSentenceBy (templates : List Template) (id : RuleId) (sentence : String) :
    Except SentenceFault Predicate :=
  match readBy? templates sentence with
  | some s => .ok s.compile
  | none => .error ⟨id, sentence⟩

theorem compileSentenceBy_all : compileSentenceBy Template.all = compileSentence := rfl

/-- At most one template reads a text, the one that fits it. So a rule has the same predicate or fault
for every order of the templates. -/
theorem compileSentenceBy_perm (text : String) :
    (∀ t : Template, (t.read? text.toList).isSome = true ↔ t.Fits text) ∧
    (∀ t u : Template, t.Fits text → u.Fits text → t = u) ∧
    ∀ (id : RuleId) (templates : List Template), templates.Perm Template.all →
      compileSentenceBy templates id text = compileSentence id text := by
  refine ⟨fun t => Template.isSome_read?_iff, fun t u => Template.eq_of_fits, ?_⟩
  intro id templates hperm
  have hall (t : Template) : t ∈ templates := hperm.mem_iff.2 t.mem_all
  rw [← compileSentenceBy_all]
  unfold compileSentenceBy
  rw [readBy?_eq_read? hall]
  rfl

/-- Tried from the last template to the first, a lower bound of a count is still read as one. -/
theorem compileSentenceBy_perm_reversed :
    Template.Fits .presentMoreThan "sector exists more than 2 times?" ∧
      Template.all.reverse.Perm Template.all ∧
      (∀ u : Template, u.Fits "sector exists more than 2 times?" → .presentMoreThan = u) ∧
      compileSentenceBy Template.all.reverse ⟨1⟩ "sector exists more than 2 times?" =
        compileSentence ⟨1⟩ "sector exists more than 2 times?" := by
  have hpath : IsWord "sector" := by simp [IsWord, Text.isBlank]
  have hcount : IsWord "2" := by simp [IsWord, Text.isBlank]
  have hnoun : "times" ∈ ["time", "times"] := by decide
  have hfits : Template.Fits .presentMoreThan "sector exists more than 2 times?" :=
    ⟨_, _, "", .presentMoreThan hpath hcount hnoun, rfl⟩
  obtain ⟨-, hone, horder⟩ := compileSentenceBy_perm "sector exists more than 2 times?"
  exact ⟨hfits, List.reverse_perm _, fun u hu => hone _ u hfits hu,
    horder ⟨1⟩ _ (List.reverse_perm _)⟩

end RuleSet

end DataQuality
