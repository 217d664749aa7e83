import Mathlib
import DataQuality.RuleSet

/-!
# The grammar of rule sentences

A text compiles exactly if a sentence of some template stands at its beginning, and a sentence with
nothing after it compiles to what it says. A sentence begins with a word, and what follows that word
tells the template, but for two: a count that begins like a lower bound is told by its ending.
-/
namespace DataQuality

/-- A text without blank characters. -/
def IsWord (s : String) : Prop := ∀ c ∈ s.toList, Text.isBlank c = false

namespace Sentence

/-- The sentences of each template, with what they say. -/
inductive Written : Template → Sentence String → String → Prop
  | isInteger {path article : String} (hpath : IsWord path) (harticle : article ∈ ["a", "an"]) :
    Written .isA (.isInteger path) (path ++ " is " ++ article ++ " " ++ "integer" ++ "?")
  | isIsoDate {path article : String} (hpath : IsWord path) (harticle : article ∈ ["a", "an"]) :
    Written .isA (.isIsoDate path) (path ++ " is " ++ article ++ " " ++ "iso date" ++ "?")
  | isOther {path article kind : String} (hpath : IsWord path) (harticle : article ∈ ["a", "an"])
      (hkind : '\n' ∉ kind.toList) (hinteger : kind ≠ "integer") (hdate : kind ≠ "iso date") :
    Written .isA (.isOther path kind) (path ++ " is " ++ article ++ " " ++ kind ++ "?")
  | longerThan {path length : String} (hpath : IsWord path) (hlength : IsWord length) :
    Written .longerThan (.longerThan path length)
      (path ++ " has more than " ++ length ++ " characters?")
  | sumsTo {path total : String} (hpath : IsWord path) (htotal : IsWord total) :
    Written .sumsTo (.sumsTo path total) (path ++ " sum to " ++ total ++ "?")
  | presentTimes {path times noun : String} (hpath : IsWord path) (htimes : IsWord times)
      (hnoun : noun ∈ ["time", "times"]) :
    Written .presentTimes (.presentTimes path times)
      (path ++ " exists " ++ times ++ " " ++ noun ++ "?")
  | presentMoreThan {path times noun : String} (hpath : IsWord path) (htimes : IsWord times)
      (hnoun : noun ∈ ["time", "times"]) :
    Written .presentMoreThan (.presentMoreThan path times)
      (path ++ " exists more than " ++ times ++ " " ++ noun ++ "?")
  | exactlyOnePresent {first second : String} (hfirst : IsWord first) (hsecond : IsWord second) :
    Written .exactlyOnePresent (.exactlyOnePresent first second)
      ("only one of " ++ first ++ " or " ++ second ++ " exists?")
  | eitherPresent {first second : String} (hfirst : IsWord first) (hsecond : IsWord second) :
    Written .eitherPresent (.eitherPresent first second) (first ++ " or " ++ second ++ " exists?")
  | isPresent {path : String} (hpath : IsWord path) :
    Written .isPresent (.isPresent path) (path ++ " exists?")

/-- All kinds of value but those with a check of their own are written alike, and so are these. -/
theorem Written.ofKind {path article kind : String} (hpath : IsWord path)
    (harticle : article ∈ ["a", "an"]) (hkind : '\n' ∉ kind.toList) :
    Written .isA (Sentence.ofKind path kind.toList)
      (path ++ " is " ++ article ++ " " ++ kind ++ "?") := by
  unfold Sentence.ofKind
  rw [String.ofList_toList]
  dsimp only
  split
  · next hdate =>
    subst hdate
    exact .isIsoDate hpath harticle
  · next hdate =>
    split
    · next hinteger =>
      subst hinteger
      exact .isInteger hpath harticle
    · next hinteger => exact .isOther hpath harticle hkind hinteger hdate

namespace Template

section

variable {cs ds rest : List Char} {b : Char}

/-- A word ends at a blank character. -/
theorem word_append (hds : ∀ c ∈ ds, Text.isBlank c = false) (hb : Text.isBlank b = true) :
    word (ds ++ b :: rest) = (ds, b :: rest) := by
  unfold word
  rw [List.span_eq_takeWhile_dropWhile, List.takeWhile_append_of_pos (by simpa using hds),
    List.dropWhile_append_of_pos (by simpa using hds)]
  simp [hb]

theorem word_spec (cs : List Char) :
    cs = (word cs).1 ++ (word cs).2 ∧ IsWord (String.ofList (word cs).1) := by
  unfold word
  rw [List.span_eq_takeWhile_dropWhile]
  refine ⟨List.takeWhile_append_dropWhile.symm, fun c hc => ?_⟩
  rw [String.toList_ofList] at hc
  simpa using List.mem_takeWhile_imp hc

/-- A word ends where words that start with a blank begin. -/
theorem word_append_words {v w : String} (hv : IsWord v) (hw : w.toList.head? = some ' ')
    (rest : List Char) : word (v.toList ++ (w.toList ++ rest)) = (v.toList, w.toList ++ rest) := by
  obtain ⟨cs, hcs⟩ := List.head?_eq_some_iff.1 hw
  rw [hcs, List.cons_append]
  exact word_append hv (by decide)

/-- However a text is split, its first word is one and the same, and so is what follows. -/
theorem append_inj_of_words {u v w z : String} (hu : IsWord u) (hv : v.toList.head? = some ' ')
    (hw : IsWord w) (hz : z.toList.head? = some ' ') {x y : List Char}
    (h : u.toList ++ (v.toList ++ x) = w.toList ++ (z.toList ++ y)) :
    u = w ∧ v.toList ++ x = z.toList ++ y := by
  have hword := word_append_words hu hv x
  rw [h, word_append_words hw hz] at hword
  exact ⟨(String.toList_inj.1 (Prod.mk.inj hword).1).symm, (Prod.mk.inj hword).2.symm⟩

theorem after?_eq_some_iff {words : String} :
    after? words cs = some rest ↔ cs = words.toList ++ rest := by
  unfold after?
  split
  · next h =>
    obtain ⟨more, rfl⟩ := List.isPrefixOf_iff_prefix.1 h
    rw [← String.length_toList, List.drop_left, Option.some.injEq, List.append_cancel_left_eq]
  · next h =>
    simp only [reduceCtorEq, false_iff]
    rintro rfl
    exact h (List.isPrefixOf_iff_prefix.2 (List.prefix_append _ _))

@[simp] theorem after?_append (words : String) (rest : List Char) :
    after? words (words.toList ++ rest) = some rest := after?_eq_some_iff.2 rfl

theorem eq_of_beforeLastMark? (h : beforeLastMark? cs = some ds) :
    ∃ rest, cs = ds ++ '?' :: rest := by
  unfold beforeLastMark? at h
  split at h
  · next c before hdrop =>
    obtain rfl := Option.some.inj h
    have hmark : c = '?' := by
      have hhead := List.head?_dropWhile_not (· != '?') cs.reverse
      rw [hdrop] at hhead
      simpa using hhead
    have hsplit := List.takeWhile_append_dropWhile (p := (· != '?')) (l := cs.reverse)
    rw [hdrop, hmark] at hsplit
    generalize cs.reverse.takeWhile (· != '?') = after at hsplit
    refine ⟨after.reverse, ?_⟩
    rw [← List.reverse_reverse cs, ← hsplit]
    simp
  · cases h

/-- What stands before the last mark of the characters at the front that suit. -/
theorem eq_of_beforeLastMark?_takeWhile {p : Char → Bool}
    (h : beforeLastMark? (cs.takeWhile p) = some ds) :
    (∀ c ∈ ds, p c = true) ∧ ∃ rest, cs = ds ++ '?' :: rest := by
  obtain ⟨last, hlast⟩ := eq_of_beforeLastMark? h
  refine ⟨fun c hc => List.mem_takeWhile_imp (hlast ▸ List.mem_append_left _ hc),
    last ++ cs.dropWhile p, ?_⟩
  have hsplit := List.takeWhile_append_dropWhile (p := p) (l := cs)
  rw [hlast] at hsplit
  simpa using hsplit.symm

/-- With a question mark there is a last one, and the one at the end is it. -/
theorem exists_beforeLastMark? (ds rest : List Char) :
    ∃ ds', beforeLastMark? (ds ++ '?' :: rest) = some ds' ∧ (rest = [] → ds' = ds) := by
  unfold beforeLastMark?
  split
  · next c before hdrop =>
    refine ⟨before.reverse, rfl, ?_⟩
    rintro rfl
    obtain ⟨-, rfl⟩ : '?' = c ∧ ds.reverse = before := by simpa using hdrop
    exact List.reverse_reverse ds
  · next hdrop =>
    have hall := List.dropWhile_eq_nil_iff.1 hdrop '?' (by simp)
    exact absurd hall (by decide)

theorem exists_beforeLastMark?_takeWhile {p : Char → Bool} (ds rest : List Char)
    (hds : ∀ c ∈ ds, p c = true) (hmark : p '?' = true) :
    ∃ ds', beforeLastMark? ((ds ++ '?' :: rest).takeWhile p) = some ds' ∧
      (rest = [] → ds' = ds) := by
  obtain ⟨ds', hread, heq⟩ := exists_beforeLastMark? ds (rest.takeWhile p)
  refine ⟨ds', ?_, fun hrest => heq (by rw [hrest, List.takeWhile_nil])⟩
  rwa [List.takeWhile_append_of_pos hds, List.takeWhile_cons_of_pos hmark]

theorem word_fst (cs : List Char) : (word cs).1 = cs.takeWhile fun c => !Text.isBlank c := by
  unfold word
  rw [List.span_eq_takeWhile_dropWhile]

/-- What begins with a word and these words after it. -/
theorem eq_of_after?_word {words : String} (h : after? words (word cs).2 = some rest) :
    IsWord (String.ofList (word cs).1) ∧ cs = (word cs).1 ++ (words.toList ++ rest) := by
  obtain ⟨hsplit, hword⟩ := word_spec cs
  rw [after?_eq_some_iff.1 h] at hsplit
  exact ⟨hword, hsplit⟩

theorem endsTimes_iff :
    endsTimes cs = true ↔
      ∃ noun ∈ ["time", "times"], ∃ rest, cs = (" " ++ noun ++ "?").toList ++ rest := by
  unfold endsTimes
  rw [Bool.or_eq_true, Option.isSome_iff_exists, Option.isSome_iff_exists]
  simp only [after?_eq_some_iff, List.mem_cons, List.not_mem_nil, or_false, exists_eq_or_imp,
    exists_eq_left]
  exact or_comm

/-- What begins with a word and the ending of a count after it. -/
theorem eq_of_endsTimes_word (h : endsTimes (word cs).2 = true) :
    IsWord (String.ofList (word cs).1) ∧ ∃ noun ∈ ["time", "times"], ∃ rest,
      cs = (word cs).1 ++ ((" " ++ noun ++ "?").toList ++ rest) := by
  obtain ⟨hsplit, hword⟩ := word_spec cs
  obtain ⟨noun, hnoun, rest, hrest⟩ := endsTimes_iff.1 h
  rw [hrest] at hsplit
  exact ⟨hword, noun, hnoun, rest, hsplit⟩

end

/-- What may follow the first word of a sentence of a template. -/
def openings : Template → List String
  | isA => [" is an ", " is a "]
  | longerThan => [" has more than "]
  | sumsTo => [" sum to "]
  | presentTimes => [" exists "]
  | presentMoreThan => [" exists more than "]
  | exactlyOnePresent => [" one of "]
  | eitherPresent => [" or "]
  | isPresent => [" exists?"]

/-- What follows the first word tells the template, but for counts and lower bounds of them. -/
theorem eq_of_openings {t u : Template} {v w : String} (hv : v ∈ t.openings) (hw : w ∈ u.openings)
    {x y : List Char} (h : v.toList ++ x = w.toList ++ y) :
    t = u ∨ t = .presentTimes ∧ u = .presentMoreThan ∨ t = .presentMoreThan ∧ u = .presentTimes := by
  have hall : ∀ t ∈ all, ∀ u ∈ all, ∀ v ∈ t.openings, ∀ w ∈ u.openings,
      v.toList.isPrefixOf w.toList = true ∨ w.toList.isPrefixOf v.toList = true →
        t = u ∨ t = .presentTimes ∧ u = .presentMoreThan ∨
          t = .presentMoreThan ∧ u = .presentTimes := by
    decide
  have hprefix : v.toList <+: w.toList ∨ w.toList <+: v.toList :=
    List.prefix_or_prefix_of_prefix (List.prefix_append _ x) (h ▸ List.prefix_append _ y)
  simp only [← List.isPrefixOf_iff_prefix] at hprefix
  exact hall t t.mem_all u u.mem_all v hv w hw hprefix

end Template

open Template

/-- A sentence is a word and what a sentence of its template opens with. -/
theorem Written.exists_opening {t : Template} {s : Sentence String} {text : String}
    (h : Written t s text) :
    ∃ path, IsWord path ∧ ∃ w ∈ t.openings, ∃ rest,
      text.toList = path.toList ++ (w.toList ++ rest) := by
  have hkind {path article kind : String} (hpath : IsWord path) (harticle : article ∈ ["a", "an"]) :
      ∃ path', IsWord path' ∧ ∃ w ∈ openings .isA, ∃ rest,
        (path ++ " is " ++ article ++ " " ++ kind ++ "?").toList =
          path'.toList ++ (w.toList ++ rest) := by
    refine ⟨path, hpath, " is " ++ article ++ " ", ?_, (kind ++ "?").toList, by simp⟩
    revert article
    decide
  have honly : IsWord "only" := by simp [IsWord, Text.isBlank]
  cases h with
  | isInteger hpath harticle => exact hkind hpath harticle
  | isIsoDate hpath harticle => exact hkind hpath harticle
  | isOther hpath harticle => exact hkind hpath harticle
  | @longerThan path length hpath =>
    exact ⟨path, hpath, " has more than ", by decide, (length ++ " characters?").toList, by simp⟩
  | @sumsTo path total hpath =>
    exact ⟨path, hpath, " sum to ", by decide, (total ++ "?").toList, by simp⟩
  | @presentTimes path times noun hpath =>
    exact ⟨path, hpath, " exists ", by decide, (times ++ " " ++ noun ++ "?").toList, by simp⟩
  | @presentMoreThan path times noun hpath =>
    exact ⟨path, hpath, " exists more than ", by decide, (times ++ " " ++ noun ++ "?").toList,
      by simp⟩
  | @exactlyOnePresent first second =>
    exact ⟨"only", honly, " one of ", by decide, (first ++ " or " ++ second ++ " exists?").toList,
      by simp⟩
  | @eitherPresent first second hfirst =>
    exact ⟨first, hfirst, " or ", by decide, (second ++ " exists?").toList, by simp⟩
  | @isPresent path hpath => exact ⟨path, hpath, " exists?", by decide, [], by simp⟩

/-- Two sentences at the beginning of one text are of the same template, but for counts and lower
bounds of them. -/
theorem Written.template_eq {t u : Template} {s s' : Sentence String} {text text' : String}
    (h : Written t s text) (h' : Written u s' text') {x y : List Char}
    (heq : text.toList ++ x = text'.toList ++ y) :
    t = u ∨ t = .presentTimes ∧ u = .presentMoreThan ∨ t = .presentMoreThan ∧ u = .presentTimes := by
  have hblank : ∀ t ∈ all, ∀ w ∈ t.openings, w.toList.head? = some ' ' := by decide
  obtain ⟨path, hpath, w, hw, rest, htext⟩ := h.exists_opening
  obtain ⟨path', hpath', w', hw', rest', htext'⟩ := h'.exists_opening
  rw [htext, htext'] at heq
  simp only [List.append_assoc] at heq
  exact eq_of_openings hw hw' (append_inj_of_words hpath (hblank t t.mem_all w hw) hpath'
    (hblank u u.mem_all w' hw') heq).2

/-- What a template reads is one of its sentences. -/
theorem Template.written_of_read? {t : Template} {cs : List Char} {s : Sentence String}
    (h : t.read? cs = some s) : ∃ text rest, Written t s text ∧ cs = text.toList ++ rest := by
  obtain ⟨hcs, hpath⟩ := word_spec cs
  unfold Template.read? at h
  generalize word cs = w at hcs hpath h
  obtain ⟨path, rest⟩ := w
  dsimp only at hcs hpath h
  subst hcs
  cases t with
  | isA =>
    simp only [Option.bind_eq_bind, Option.bind_eq_some_iff, Option.pure_def, Option.some.injEq,
      Option.or_eq_some_iff] at h
    obtain ⟨after, hafter, kind, hkind, rfl⟩ := h
    obtain ⟨hline, last, rfl⟩ := eq_of_beforeLastMark?_takeWhile hkind
    have hnewline : '\n' ∉ (String.ofList kind).toList := by
      rw [String.toList_ofList]
      exact fun hmem => absurd (hline _ hmem) (by decide)
    have hwritten {article : String} (harticle : article ∈ ["a", "an"]) :
        Written .isA (Sentence.ofKind (String.ofList path) kind)
          (String.ofList path ++ " is " ++ article ++ " " ++ String.ofList kind ++ "?") := by
      have hofKind := Written.ofKind hpath harticle hnewline
      rwa [String.toList_ofList] at hofKind
    obtain han | ⟨-, ha⟩ := hafter
    · refine ⟨_, last, hwritten (List.mem_cons_of_mem "a" (List.mem_singleton_self "an")), ?_⟩
      rw [after?_eq_some_iff.1 han]
      simp
    · refine ⟨_, last, hwritten (List.mem_cons_self (a := "a")), ?_⟩
      rw [after?_eq_some_iff.1 ha]
      simp
  | longerThan =>
    simp only [Option.bind_eq_bind, Option.bind_eq_some_iff, Option.pure_def, Option.some.injEq] at h
    obtain ⟨after, hafter, last, hlast, rfl⟩ := h
    obtain ⟨hlength, hsplit⟩ := eq_of_after?_word hlast
    refine ⟨_, last, .longerThan hpath hlength, ?_⟩
    rw [after?_eq_some_iff.1 hafter]
    nth_rewrite 1 [hsplit]
    simp
  | sumsTo =>
    simp only [Option.bind_eq_bind, Option.bind_eq_some_iff, Option.pure_def, Option.some.injEq] at h
    obtain ⟨after, hafter, total, htotal, rfl⟩ := h
    rw [word_fst] at htotal
    obtain ⟨hword, last, rfl⟩ := eq_of_beforeLastMark?_takeWhile htotal
    refine ⟨_, last, .sumsTo hpath fun c hc => ?_, ?_⟩
    · rw [String.toList_ofList] at hc
      simpa using hword c hc
    · rw [after?_eq_some_iff.1 hafter]
      simp
  | presentTimes =>
    simp only [Option.bind_eq_bind, Option.bind_eq_some_iff, Option.pure_def,
      Option.ite_none_right_eq_some, Option.some.injEq] at h
    obtain ⟨after, hafter, hends, rfl⟩ := h
    obtain ⟨htimes, noun, hnoun, last, hsplit⟩ := eq_of_endsTimes_word hends
    refine ⟨_, last, .presentTimes hpath htimes hnoun, ?_⟩
    rw [after?_eq_some_iff.1 hafter]
    nth_rewrite 1 [hsplit]
    simp
  | presentMoreThan =>
    simp only [Option.bind_eq_bind, Option.bind_eq_some_iff, Option.pure_def,
      Option.ite_none_right_eq_some, Option.some.injEq] at h
    obtain ⟨after, hafter, hends, rfl⟩ := h
    obtain ⟨htimes, noun, hnoun, last, hsplit⟩ := eq_of_endsTimes_word hends
    refine ⟨_, last, .presentMoreThan hpath htimes hnoun, ?_⟩
    rw [after?_eq_some_iff.1 hafter]
    nth_rewrite 1 [hsplit]
    simp
  | exactlyOnePresent =>
    simp only [Option.bind_eq_bind, Option.bind_eq_some_iff, Option.pure_def, Option.some.injEq] at h
    obtain ⟨after, hafter, more, hmore, last, hlast, rfl⟩ := h
    obtain ⟨hfirst, hsplit⟩ := eq_of_after?_word hmore
    obtain ⟨hsecond, hsplit'⟩ := eq_of_after?_word hlast
    refine ⟨_, last, .exactlyOnePresent hfirst hsecond, ?_⟩
    rw [after?_eq_some_iff.1 hafter]
    nth_rewrite 1 [hsplit]
    nth_rewrite 1 [hsplit']
    simp
  | eitherPresent =>
    simp only [Option.bind_eq_bind, Option.bind_eq_some_iff, Option.pure_def, Option.some.injEq] at h
    obtain ⟨more, hmore, last, hlast, rfl⟩ := h
    obtain ⟨hsecond, hsplit⟩ := eq_of_after?_word hlast
    refine ⟨_, last, .eitherPresent hpath hsecond, ?_⟩
    rw [after?_eq_some_iff.1 hmore]
    nth_rewrite 1 [hsplit]
    simp
  | isPresent =>
    simp only [Option.bind_eq_bind, Option.bind_eq_some_iff, Option.pure_def, Option.some.injEq] at h
    obtain ⟨last, hlast, rfl⟩ := h
    refine ⟨_, last, .isPresent hpath, ?_⟩
    rw [after?_eq_some_iff.1 hlast]
    simp

theorem Template.endsTimes_append {noun : String} (hnoun : noun ∈ ["time", "times"])
    (rest : List Char) : endsTimes ((" " ++ noun ++ "?").toList ++ rest) = true :=
  endsTimes_iff.2 ⟨noun, hnoun, rest, rfl⟩

/-- A sentence on the kind of a value is read, also at the beginning of a text. -/
theorem Template.read?_isA {path article : String} (kind : String) (hpath : IsWord path)
    (harticle : article ∈ ["a", "an"]) (hkind : '\n' ∉ kind.toList) (rest : List Char) :
    ∃ s', Template.isA.read? ((path ++ " is " ++ article ++ " " ++ kind ++ "?").toList ++ rest) =
      some s' ∧ (rest = [] → s' = Sentence.ofKind path kind.toList) := by
  have htext : (path ++ " is " ++ article ++ " " ++ kind ++ "?").toList ++ rest =
      path.toList ++ ((" is " ++ article ++ " ").toList ++ (kind.toList ++ '?' :: rest)) := by
    simp
  have harticle' : (" is " ++ article ++ " ").toList.head? = some ' ' := by simp
  have hafter : ∀ after, (after? " is an " ((" is " ++ article ++ " ").toList ++ after)).or
      (after? " is a " ((" is " ++ article ++ " ").toList ++ after)) = some after := by
    intro after
    obtain rfl | rfl : article = "a" ∨ article = "an" := by simpa using harticle
    · rfl
    · rfl
  obtain ⟨found, hfound, heq⟩ := exists_beforeLastMark?_takeWhile (p := (· != '\n')) kind.toList rest
    (fun c hc => bne_iff_ne.2 fun h => hkind (h ▸ hc)) (by decide)
  refine ⟨Sentence.ofKind path found, ?_, fun hrest => by rw [heq hrest]⟩
  unfold Template.read?
  rw [htext, word_append_words hpath harticle']
  simp only [hafter, hfound, Option.bind_eq_bind, Option.bind_some, String.ofList_toList,
    Option.pure_def]

/-- A template reads its sentences, and texts that begin with them. -/
theorem Written.read?_append {t : Template} {s : Sentence String} {text : String}
    (h : Written t s text) (rest : List Char) :
    ∃ s', t.read? (text.toList ++ rest) = some s' ∧ (rest = [] → s' = s) := by
  cases h with
  | isInteger hpath harticle => exact read?_isA "integer" hpath harticle (by decide) rest
  | isIsoDate hpath harticle => exact read?_isA "iso date" hpath harticle (by decide) rest
  | @isOther path article kind hpath harticle hkind hinteger hdate =>
    obtain ⟨s', hread, heq⟩ := read?_isA kind hpath harticle hkind rest
    refine ⟨s', hread, fun hrest => (heq hrest).trans ?_⟩
    unfold Sentence.ofKind
    rw [String.ofList_toList, if_neg hdate, if_neg hinteger]
  | @longerThan path length hpath hlength =>
    refine ⟨.longerThan path length, ?_, fun _ => rfl⟩
    have htext : (path ++ " has more than " ++ length ++ " characters?").toList ++ rest =
        path.toList ++ (" has more than ".toList ++
          (length.toList ++ (" characters?".toList ++ rest))) := by
      simp
    unfold Template.read?
    rw [htext, word_append_words hpath (by decide)]
    simp only [after?_append, Option.bind_eq_bind, Option.bind_some,
      word_append_words (w := " characters?") hlength (by decide), String.ofList_toList,
      Option.pure_def]
  | @sumsTo path total hpath htotal =>
    have htext : (path ++ " sum to " ++ total ++ "?").toList ++ rest =
        path.toList ++ (" sum to ".toList ++ (total.toList ++ '?' :: rest)) := by
      simp
    obtain ⟨found, hfound, heq⟩ := exists_beforeLastMark?_takeWhile
      (p := fun c => !Text.isBlank c) total.toList rest (by simpa [IsWord] using htotal) (by decide)
    rw [← word_fst] at hfound
    refine ⟨.sumsTo path (String.ofList found), ?_, fun hrest => by
      rw [heq hrest, String.ofList_toList]⟩
    unfold Template.read?
    rw [htext, word_append_words hpath (by decide)]
    simp only [after?_append, hfound, Option.bind_eq_bind, Option.bind_some, String.ofList_toList,
      Option.pure_def]
  | @presentTimes path times noun hpath htimes hnoun =>
    refine ⟨.presentTimes path times, ?_, fun _ => rfl⟩
    have htext : (path ++ " exists " ++ times ++ " " ++ noun ++ "?").toList ++ rest =
        path.toList ++ (" exists ".toList ++
          (times.toList ++ ((" " ++ noun ++ "?").toList ++ rest))) := by
      simp
    unfold Template.read?
    rw [htext, word_append_words hpath (by decide)]
    simp only [after?_append, Option.bind_eq_bind, Option.bind_some,
      word_append_words (w := " " ++ noun ++ "?") htimes (by simp), String.ofList_toList,
      Option.pure_def, endsTimes_append hnoun, if_true]
  | @presentMoreThan path times noun hpath htimes hnoun =>
    refine ⟨.presentMoreThan path times, ?_, fun _ => rfl⟩
    have htext : (path ++ " exists more than " ++ times ++ " " ++ noun ++ "?").toList ++ rest =
        path.toList ++ (" exists more than ".toList ++
          (times.toList ++ ((" " ++ noun ++ "?").toList ++ rest))) := by
      simp
    unfold Template.read?
    rw [htext, word_append_words hpath (by decide)]
    simp only [after?_append, Option.bind_eq_bind, Option.bind_some,
      word_append_words (w := " " ++ noun ++ "?") htimes (by simp), String.ofList_toList,
      Option.pure_def, endsTimes_append hnoun, if_true]
  | @exactlyOnePresent first second hfirst hsecond =>
    refine ⟨.exactlyOnePresent first second, ?_, fun _ => rfl⟩
    have htext : ("only one of " ++ first ++ " or " ++ second ++ " exists?").toList ++ rest =
        "only one of ".toList ++ (first.toList ++ (" or ".toList ++
          (second.toList ++ (" exists?".toList ++ rest)))) := by
      simp
    unfold Template.read?
    rw [htext]
    simp only [after?_append, Option.bind_eq_bind, Option.bind_some,
      word_append_words (w := " or ") hfirst (by decide),
      word_append_words (w := " exists?") hsecond (by decide), String.ofList_toList,
      Option.pure_def]
  | @eitherPresent first second hfirst hsecond =>
    refine ⟨.eitherPresent first second, ?_, fun _ => rfl⟩
    have htext : (first ++ " or " ++ second ++ " exists?").toList ++ rest =
        first.toList ++ (" or ".toList ++ (second.toList ++ (" exists?".toList ++ rest))) := by
      simp
    unfold Template.read?
    rw [htext, word_append_words hfirst (by decide)]
    simp only [after?_append, Option.bind_eq_bind, Option.bind_some,
      word_append_words (w := " exists?") hsecond (by decide), String.ofList_toList,
      Option.pure_def]
  | @isPresent path hpath =>
    refine ⟨.isPresent path, ?_, fun _ => rfl⟩
    have htext : (path ++ " exists?").toList ++ rest =
        path.toList ++ (" exists?".toList ++ rest) := by
      simp
    unfold Template.read?
    rw [htext, word_append_words hpath (by decide)]
    simp only [after?_append, Option.bind_eq_bind, Option.bind_some, String.ofList_toList,
      Option.pure_def]

/-- A lower bound of a count is not read as a count. -/
theorem Written.not_presentTimes {s s' : Sentence String} {text text' : String}
    (h : Written .presentMoreThan s text) (h' : Written .presentTimes s' text') {x y : List Char} :
    text.toList ++ x ≠ text'.toList ++ y := by
  intro heq
  cases h with | @presentMoreThan path times noun hpath htimes hnoun =>
  cases h' with | @presentTimes path' times' noun' hpath' htimes' hnoun' =>
  have hmore : IsWord "more" := by simp [IsWord, Text.isBlank]
  have htail : "more".toList ++ (" than ".toList ++ ((times ++ " " ++ noun ++ "?").toList ++ x)) =
      times'.toList ++ ((" " ++ noun' ++ "?").toList ++ y) := by
    have hsplit := append_inj_of_words (v := " exists ") (z := " exists ") hpath (by decide) hpath'
      (by decide) (x := "more".toList ++ (" than ".toList ++ ((times ++ " " ++ noun ++ "?").toList ++ x)))
      (y := times'.toList ++ ((" " ++ noun' ++ "?").toList ++ y)) (by simpa using heq)
    exact List.append_cancel_left hsplit.2
  have hnoun := (append_inj_of_words hmore (by decide) htimes' (by simp) htail).2
  obtain rfl | rfl : noun' = "time" ∨ noun' = "times" := by simpa using hnoun'
  · simp at hnoun
  · simp at hnoun

/-- No two templates read one text. -/
theorem Template.eq_of_read? {t u : Template} {s s' : Sentence String} {cs : List Char}
    (h : t.read? cs = some s) (h' : u.read? cs = some s') : t = u := by
  obtain ⟨text, rest, hwritten, htext⟩ := written_of_read? h
  obtain ⟨text', rest', hwritten', htext'⟩ := written_of_read? h'
  have heq : text.toList ++ rest = text'.toList ++ rest' := by rw [← htext, htext']
  obtain heq' | ⟨rfl, rfl⟩ | ⟨rfl, rfl⟩ := hwritten.template_eq hwritten' heq
  · exact heq'
  · exact absurd heq.symm (hwritten'.not_presentTimes hwritten)
  · exact absurd heq (hwritten.not_presentTimes hwritten')

/-- Whatever the order in which all templates are tried, what one of them reads is read. -/
theorem readBy?_eq_some_iff {templates : List Template} (hall : ∀ t, t ∈ templates) {text : String}
    {s : Sentence String} :
    readBy? templates text = some s ↔ ∃ t : Template, t.read? text.toList = some s := by
  constructor
  · intro h
    obtain ⟨t, -, hread⟩ := List.exists_of_findSome?_eq_some h
    exact ⟨t, hread⟩
  · rintro ⟨t, hread⟩
    cases hfind : readBy? templates text with
    | none =>
      have hnone := List.findSome?_eq_none_iff.1 hfind t (hall t)
      rw [hread] at hnone
      cases hnone
    | some s' =>
      obtain ⟨u, -, hread'⟩ := List.exists_of_findSome?_eq_some hfind
      obtain rfl := eq_of_read? hread hread'
      rw [← hread', hread]

theorem read?_eq_some_iff {text : String} {s : Sentence String} :
    read? text = some s ↔ ∃ t : Template, t.read? text.toList = some s :=
  readBy?_eq_some_iff Template.mem_all

/-- A sentence with nothing after it is read as what it says. -/
theorem Written.read? {t : Template} {s : Sentence String} {text : String} (h : Written t s text) :
    Sentence.read? text = some s := by
  obtain ⟨s', hread, heq⟩ := h.read?_append []
  rw [List.append_nil, heq rfl] at hread
  exact read?_eq_some_iff.2 ⟨t, hread⟩

/-- A text is read exactly if a sentence stands at its beginning. -/
theorem exists_written_of_read? {s : Sentence String} {text : String} (h : read? text = some s) :
    ∃ t sentence rest, Written t s sentence ∧ text = sentence ++ rest := by
  obtain ⟨t, hread⟩ := read?_eq_some_iff.1 h
  obtain ⟨sentence, rest, hwritten, htext⟩ := written_of_read? hread
  exact ⟨t, sentence, String.ofList rest, hwritten, String.toList_inj.1 (by simpa using htext)⟩

theorem ne_append_of_read? {t : Template} {s : Sentence String} {text sentence : String}
    (h : read? text = none) (hwritten : Written t s sentence) (rest : String) :
    text ≠ sentence ++ rest := by
  rintro rfl
  obtain ⟨s', hread, -⟩ := hwritten.read?_append rest.toList
  rw [← String.toList_append] at hread
  rw [read?_eq_some_iff.2 ⟨t, hread⟩] at h
  cases h

theorem map_injective {σ τ : Type} {f : σ → τ} (hf : Function.Injective f) :
    Function.Injective (Sentence.map f) := by
  intro s s' h
  cases s <;> cases s' <;> simp_all [Sentence.map, hf.eq_iff]

/-- A predicate tells the sentence that it was compiled from, with the texts of its selectors. -/
theorem compile_injective : Function.Injective compile := by
  refine map_injective fun a b h => ?_
  unfold Selector.parse at h
  cases ha : Selector.readAll a.toList <;> cases hb : Selector.readAll b.toList <;> simp_all

end Sentence

namespace RuleSet

/-- A text compiles to what the sentence at its beginning says, and is a fault if there is none. A
sentence with nothing after it compiles to what it says. -/
theorem compileSentence_grammar (id : RuleId) (text : String) :
    (∀ p, compileSentence id text = .ok p →
      ∃ t s sentence rest, (∀ s', s'.compile = p ↔ s' = s) ∧ Sentence.Written t s sentence ∧
        text = sentence ++ rest) ∧
    (∀ f, compileSentence id text = .error f →
      f = ⟨id, text⟩ ∧
        ∀ t s sentence rest, Sentence.Written t s sentence → text ≠ sentence ++ rest) ∧
    ∀ t s, Sentence.Written t s text → compileSentence id text = .ok s.compile := by
  unfold compileSentence
  refine ⟨fun p hp => ?_, fun f hf => ?_, fun t s hwritten => ?_⟩
  · cases hread : Sentence.read? text with
    | none =>
      rw [hread] at hp
      cases hp
    | some s =>
      rw [hread] at hp
      obtain ⟨t, sentence, rest, hwritten, htext⟩ := Sentence.exists_written_of_read? hread
      obtain rfl := Except.ok.inj hp
      exact ⟨t, s, sentence, rest, fun s' => Sentence.compile_injective.eq_iff, hwritten, htext⟩
  · cases hread : Sentence.read? text with
    | none =>
      rw [hread] at hf
      exact ⟨(Except.error.inj hf).symm,
        fun t s sentence rest hwritten => Sentence.ne_append_of_read? hread hwritten rest⟩
    | some s =>
      rw [hread] at hf
      cases hf
  · rw [hwritten.read?]

/-- The kind of value with a check of its own is recognised. -/
theorem compileSentence_grammar_integer :
    compileSentence ⟨1⟩ ("a/b" ++ " is " ++ "an" ++ " " ++ "integer" ++ "?") =
      .ok (Sentence.compile (.isInteger "a/b")) :=
  (compileSentence_grammar ⟨1⟩ _).2.2 .isA _
    (.isInteger (by simp [IsWord, Text.isBlank]) (by decide))

end RuleSet

end DataQuality
