import DataQuality.Proofs.Sentence.Grammar

/-!
# What follows a sentence

What follows a sentence, after a blank, does not change what is read, but for one template: the kind
of a value ends at the last question mark of its line, and so a question mark in what follows on that
line makes the kind longer. Such a kind is none with a check of its own.
-/
namespace DataQuality

namespace Sentence

/-- The path whose values are said to be of a kind. -/
def kindPath? {σ : Type} : Sentence σ → Option σ
  | isInteger p => some p
  | isIsoDate p => some p
  | isOther p _ => some p
  | _ => none

theorem kindPath?_map {σ τ : Type} (f : σ → τ) (s : Sentence σ) :
    (s.map f).kindPath? = s.kindPath?.map f := by cases s <;> rfl

@[simp] theorem kindPath?_ofKind {σ : Type} (path : σ) (kind : List Char) :
    (ofKind path kind).kindPath? = some path := by
  unfold ofKind
  dsimp only
  split
  · rfl
  · split <;> rfl

/-- Only one template is about the kinds of values. -/
theorem Written.kindPath?_eq_none {t : Template} {s : Sentence String} {text : String}
    (h : Written t s text) (ht : t ≠ .isA) : s.kindPath? = none := by
  cases h with
  | isInteger => exact absurd rfl ht
  | isIsoDate => exact absurd rfl ht
  | isOther => exact absurd rfl ht
  | _ => rfl

/-- A kind in which there is a question mark has no check. -/
theorem ofKind_of_mem {σ : Type} (path : σ) {kind : List Char} (h : '?' ∈ kind) :
    ofKind path kind = .isOther path (String.ofList kind) := by
  have hne (name : String) (hname : '?' ∉ name.toList) : String.ofList kind ≠ name := by
    rintro rfl
    exact hname (by rwa [String.toList_ofList])
  unfold ofKind
  dsimp only
  rw [if_neg (hne _ (by decide)), if_neg (hne _ (by decide))]

theorem eq_of_ofKind_eq_isOther {σ : Type} {path path' : σ} {kind : List Char} {name : String}
    (h : ofKind path kind = .isOther path' name) : String.ofList kind = name := by
  unfold ofKind at h
  dsimp only at h
  split at h
  · cases h
  · split at h
    · cases h
    · exact (Sentence.isOther.inj h).2

namespace Template

section

variable {cs ds rest : List Char}

theorem isBlank_of_word_eq {b : Char} (h : (word cs).2 = b :: rest) : Text.isBlank b = true := by
  unfold word at h
  rw [List.span_eq_takeWhile_dropWhile] at h
  have hhead := List.head?_dropWhile_not (fun c => !Text.isBlank c) cs
  dsimp only at h
  rw [h] at hhead
  simpa using hhead

/-- A blank ends the word before it, if that has not ended yet. -/
theorem word_append_space (cs ds : List Char) :
    word (cs ++ ' ' :: ds) = ((word cs).1, (word cs).2 ++ ' ' :: ds) := by
  obtain ⟨hsplit, hword⟩ := word_spec cs
  have hafter : ∃ b more, Text.isBlank b = true ∧ (word cs).2 ++ ' ' :: ds = b :: more := by
    cases hrest : (word cs).2 with
    | nil => exact ⟨' ', ds, by decide, rfl⟩
    | cons b more => exact ⟨b, more ++ ' ' :: ds, isBlank_of_word_eq hrest, rfl⟩
  obtain ⟨b, more, hb, heq⟩ := hafter
  calc word (cs ++ ' ' :: ds)
      = word ((word cs).1 ++ b :: more) := by rw [← heq, ← List.append_assoc, ← hsplit]
    _ = ((word cs).1, b :: more) := word_append (by simpa [IsWord] using hword) hb
    _ = ((word cs).1, (word cs).2 ++ ' ' :: ds) := by rw [heq]

theorem after?_append_of_eq_some {words : String} (h : after? words cs = some rest)
    (ds : List Char) : after? words (cs ++ ds) = some (rest ++ ds) := by
  rw [after?_eq_some_iff] at h ⊢
  rw [h, List.append_assoc]

theorem endsTimes_append_of_endsTimes (h : endsTimes cs = true) (ds : List Char) :
    endsTimes (cs ++ ds) = true := by
  obtain ⟨noun, hnoun, rest, rfl⟩ := endsTimes_iff.1 h
  rw [List.append_assoc]
  exact endsTimes_append hnoun _

/-- A template that does not ask for a kind of value reads the same with more words after it. -/
theorem read?_append_space {t : Template} {s : Sentence String} (ht : t ≠ .isA)
    (h : t.read? cs = some s) (ds : List Char) : t.read? (cs ++ ' ' :: ds) = some s := by
  unfold Template.read? at h ⊢
  rw [word_append_space]
  cases t with
  | isA => exact absurd rfl ht
  | longerThan =>
    simp only [Option.bind_eq_bind, Option.bind_eq_some_iff, Option.pure_def] at h ⊢
    obtain ⟨after, hafter, last, hlast, hs⟩ := h
    refine ⟨_, after?_append_of_eq_some hafter _, last ++ ' ' :: ds, ?_, ?_⟩
    · rw [word_append_space]
      exact after?_append_of_eq_some hlast _
    · rw [word_append_space]
      exact hs
  | sumsTo =>
    simp only [Option.bind_eq_bind, Option.bind_eq_some_iff, Option.pure_def] at h ⊢
    obtain ⟨after, hafter, total, htotal, hs⟩ := h
    refine ⟨_, after?_append_of_eq_some hafter _, total, ?_, hs⟩
    rw [word_append_space]
    exact htotal
  | presentTimes =>
    simp only [Option.bind_eq_bind, Option.bind_eq_some_iff, Option.pure_def,
      Option.ite_none_right_eq_some] at h ⊢
    obtain ⟨after, hafter, hends, hs⟩ := h
    refine ⟨_, after?_append_of_eq_some hafter _, ?_, ?_⟩
    · rw [word_append_space]
      exact endsTimes_append_of_endsTimes hends _
    · rw [word_append_space]
      exact hs
  | presentMoreThan =>
    simp only [Option.bind_eq_bind, Option.bind_eq_some_iff, Option.pure_def,
      Option.ite_none_right_eq_some] at h ⊢
    obtain ⟨after, hafter, hends, hs⟩ := h
    refine ⟨_, after?_append_of_eq_some hafter _, ?_, ?_⟩
    · rw [word_append_space]
      exact endsTimes_append_of_endsTimes hends _
    · rw [word_append_space]
      exact hs
  | exactlyOnePresent =>
    simp only [Option.bind_eq_bind, Option.bind_eq_some_iff, Option.pure_def] at h ⊢
    obtain ⟨after, hafter, more, hmore, last, hlast, hs⟩ := h
    refine ⟨_, after?_append_of_eq_some hafter _, more ++ ' ' :: ds, ?_, last ++ ' ' :: ds, ?_, ?_⟩
    · rw [word_append_space]
      exact after?_append_of_eq_some hmore _
    · rw [word_append_space]
      exact after?_append_of_eq_some hlast _
    · rw [word_append_space, word_append_space]
      exact hs
  | eitherPresent =>
    simp only [Option.bind_eq_bind, Option.bind_eq_some_iff, Option.pure_def] at h ⊢
    obtain ⟨more, hmore, last, hlast, hs⟩ := h
    refine ⟨_, after?_append_of_eq_some hmore _, last ++ ' ' :: ds, ?_, ?_⟩
    · rw [word_append_space]
      exact after?_append_of_eq_some hlast _
    · rw [word_append_space]
      exact hs
  | isPresent =>
    simp only [Option.bind_eq_bind, Option.bind_eq_some_iff, Option.pure_def] at h ⊢
    obtain ⟨last, hlast, hs⟩ := h
    exact ⟨_, after?_append_of_eq_some hlast _, hs⟩

/-- Without a question mark in what follows, the last one is where it was. -/
theorem beforeLastMark?_append_of_not_mem (h : '?' ∉ ds) :
    beforeLastMark? (cs ++ ds) = beforeLastMark? cs := by
  unfold beforeLastMark?
  rw [List.reverse_append, List.dropWhile_append_of_pos]
  intro c hc
  exact bne_iff_ne.2 fun hmark => h (hmark ▸ List.mem_reverse.1 hc)

/-- A question mark in what follows is after all that stood before. -/
theorem beforeLastMark?_append_of_mem (cs : List Char) (h : '?' ∈ ds) :
    ∃ ds', beforeLastMark? (cs ++ ds) = some (cs ++ ds') := by
  obtain ⟨front, back, rfl⟩ := List.append_of_mem h
  obtain ⟨ds', hread, -⟩ := exists_beforeLastMark? front back
  refine ⟨ds', ?_⟩
  unfold beforeLastMark? at hread ⊢
  split at hread
  · next c before hdrop =>
    obtain rfl := Option.some.inj hread
    rw [List.reverse_append, List.dropWhile_append, hdrop]
    simp
  · cases hread

/-- A line that has ended is not made longer by what follows. -/
theorem takeWhile_line_append_of_mem (h : '\n' ∈ cs) :
    (cs ++ ds).takeWhile (· != '\n') = cs.takeWhile (· != '\n') := by
  obtain ⟨front, back, rfl, hfront⟩ := List.eq_append_cons_of_mem h
  have hline : ∀ c ∈ front, (c != '\n') = true :=
    fun c hc => bne_iff_ne.2 fun hnewline => hfront (hnewline ▸ hc)
  rw [List.append_assoc, List.takeWhile_append_of_pos hline, List.takeWhile_append_of_pos hline,
    List.cons_append, List.takeWhile_cons_of_neg (by decide), List.takeWhile_cons_of_neg (by decide)]

theorem takeWhile_line_append_of_not_mem (h : '\n' ∉ cs) :
    (cs ++ ds).takeWhile (· != '\n') = cs ++ ds.takeWhile (· != '\n') :=
  List.takeWhile_append_of_pos fun _ hc => bne_iff_ne.2 fun hnewline => h (hnewline ▸ hc)

theorem takeWhile_line_of_not_mem (h : '\n' ∉ cs) : cs.takeWhile (· != '\n') = cs :=
  List.takeWhile_eq_self_iff.2 fun _ hc => bne_iff_ne.2 fun hnewline => h (hnewline ▸ hc)

/-- Neither article is the beginning of the other with the blank after it. -/
theorem or_after?_append (h : (after? " is an " cs).or (after? " is a " cs) = some rest)
    (ds : List Char) :
    (after? " is an " (cs ++ ds)).or (after? " is a " (cs ++ ds)) = some (rest ++ ds) := by
  rw [Option.or_eq_some_iff] at h
  obtain han | ⟨-, ha⟩ := h
  · rw [after?_append_of_eq_some han, Option.some_or]
  · rw [after?_eq_some_iff.1 ha]
    rfl

/-- A sentence on the kind of a value takes the kind from the rest of its line, also with more
words after it. -/
theorem exists_rest_of_read?_isA {s : Sentence String} (h : Template.isA.read? cs = some s) :
    ∃ path rest kind, s = ofKind path kind ∧
      beforeLastMark? (rest.takeWhile (· != '\n')) = some kind ∧ ('\n' ∈ cs ↔ '\n' ∈ rest) ∧
      ∀ ds, Template.isA.read? (cs ++ ' ' :: ds) =
        (beforeLastMark? ((rest ++ ' ' :: ds).takeWhile (· != '\n'))).map (ofKind path) := by
  unfold Template.read? at h ⊢
  simp only [word_append_space]
  simp only [Option.bind_eq_bind, Option.bind_eq_some_iff, Option.pure_def, Option.some.injEq] at h
  obtain ⟨rest, hrest, kind, hkind, rfl⟩ := h
  refine ⟨String.ofList (word cs).1, rest, kind, rfl, hkind, ?_, fun ds => ?_⟩
  · obtain ⟨hsplit, hword⟩ := word_spec cs
    have hpath : '\n' ∉ (word cs).1 := fun hmem => by
      have hblank := hword '\n' (by rwa [String.toList_ofList])
      exact absurd hblank (by decide)
    have harticle : '\n' ∈ (word cs).2 ↔ '\n' ∈ rest := by
      obtain han | ⟨-, ha⟩ := Option.or_eq_some_iff.1 hrest
      · rw [after?_eq_some_iff.1 han]
        simp
      · rw [after?_eq_some_iff.1 ha]
        simp
    rw [← harticle]
    nth_rewrite 1 [hsplit]
    rw [List.mem_append]
    exact or_iff_right hpath
  · rw [or_after?_append hrest]
    simp only [Option.bind_eq_bind, Option.bind_some, Option.pure_def]
    exact Option.map_eq_bind.symm

theorem read?_isA_append_space {s : Sentence String} (h : Template.isA.read? cs = some s)
    (hds : '\n' ∈ cs ∨ '?' ∉ ds.takeWhile (· != '\n')) :
    Template.isA.read? (cs ++ ' ' :: ds) = some s := by
  obtain ⟨path, rest, kind, rfl, hkind, hline, hread⟩ := exists_rest_of_read?_isA h
  rw [hread]
  by_cases hnewline : '\n' ∈ rest
  · rw [takeWhile_line_append_of_mem hnewline, hkind, Option.map_some]
  · have hmark : '?' ∉ (' ' :: ds).takeWhile (· != '\n') := by
      simpa using hds.resolve_left (mt hline.1 hnewline)
    rw [takeWhile_line_of_not_mem hnewline] at hkind
    rw [takeWhile_line_append_of_not_mem hnewline, beforeLastMark?_append_of_not_mem hmark, hkind,
      Option.map_some]

/-- With a question mark after it on its line, the kind has a question mark in it. -/
theorem exists_kind_of_read?_isA {s : Sentence String} (h : Template.isA.read? cs = some s)
    (hcs : '\n' ∉ cs) (hds : '?' ∈ ds.takeWhile (· != '\n')) :
    ∃ path kind, s.kindPath? = some path ∧ '?' ∈ kind.toList ∧ s ≠ .isOther path kind ∧
      Template.isA.read? (cs ++ ' ' :: ds) = some (.isOther path kind) := by
  obtain ⟨path, rest, kind, rfl, hkind, hline, hread⟩ := exists_rest_of_read?_isA h
  have hnewline : '\n' ∉ rest := mt hline.2 hcs
  rw [takeWhile_line_of_not_mem hnewline] at hkind
  obtain ⟨more, rfl⟩ := eq_of_beforeLastMark? hkind
  have hmark : '?' ∈ (' ' :: ds).takeWhile (· != '\n') := by simpa using hds
  obtain ⟨last, hlast⟩ := beforeLastMark?_append_of_mem (kind ++ '?' :: more) hmark
  have hmem : '?' ∈ kind ++ '?' :: more ++ last := by simp
  refine ⟨path, String.ofList (kind ++ '?' :: more ++ last), kindPath?_ofKind path kind, ?_, ?_, ?_⟩
  · rwa [String.toList_ofList]
  · intro heq
    have hlength := congrArg List.length (String.ofList_injective (eq_of_ofKind_eq_isOther heq))
    simp at hlength
  · rw [hread, takeWhile_line_append_of_not_mem hnewline, hlast, Option.map_some,
      ofKind_of_mem path hmem]

end

end Template

open Template

/-- What is read from a text and from the text with more words after it. -/
theorem read?_append {text suffix : String} {s : Sentence String} (h : read? text = some s)
    (hsuffix : suffix.toList.head? = some ' ') :
    (s.kindPath? = none ∨ '\n' ∈ text.toList ∨ '?' ∉ suffix.toList.takeWhile (· != '\n') →
        read? (text ++ suffix) = some s) ∧
      (s.kindPath? ≠ none → '\n' ∉ text.toList → '?' ∈ suffix.toList.takeWhile (· != '\n') →
        ∃ path kind, s.kindPath? = some path ∧ '?' ∈ kind.toList ∧ s ≠ .isOther path kind ∧
          read? (text ++ suffix) = some (.isOther path kind)) := by
  obtain ⟨ds, hds⟩ := List.head?_eq_some_iff.1 hsuffix
  obtain ⟨t, hread⟩ := read?_eq_some_iff.1 h
  have hmark : '?' ∈ suffix.toList.takeWhile (· != '\n') ↔ '?' ∈ ds.takeWhile (· != '\n') := by
    rw [hds]
    simp
  have happend {s' : Sentence String} (hs' : t.read? (text.toList ++ ' ' :: ds) = some s') :
      read? (text ++ suffix) = some s' :=
    read?_eq_some_iff.2 ⟨t, by rwa [String.toList_append, hds]⟩
  rw [hmark]
  by_cases ht : t = .isA
  · subst ht
    obtain ⟨path, -, kind, rfl, -⟩ := exists_rest_of_read?_isA hread
    constructor
    · intro hor
      have hline := hor.resolve_left (by simp)
      exact happend (read?_isA_append_space hread hline)
    · intro _ hcs hds
      obtain ⟨path, kind, hpath, hkind, hne, hread'⟩ := exists_kind_of_read?_isA hread hcs hds
      exact ⟨path, kind, hpath, hkind, hne, happend hread'⟩
  · obtain ⟨sentence, rest, hwritten, -⟩ := written_of_read? hread
    exact ⟨fun _ => happend (read?_append_space ht hread ds),
      fun hkind => absurd (hwritten.kindPath?_eq_none ht) hkind⟩

end Sentence

namespace RuleSet

theorem compileSentence_eq_ok_iff {id : RuleId} {text : String} {p : Predicate} :
    compileSentence id text = .ok p ↔ ∃ s, Sentence.read? text = some s ∧ s.compile = p := by
  unfold compileSentence
  cases Sentence.read? text with
  | none => simp
  | some s => simp

/-- What follows a text that compiles, after a blank, never makes it a fault. It does not change the
predicate either, unless the text asks for a kind of value, on one line, and a question mark follows
on that line: then the kind becomes another one, with a question mark in it, that has no check. -/
theorem compileSentence_append_iff (id : RuleId) {text suffix : String} {p : Predicate}
    (h : compileSentence id text = .ok p) (hsuffix : suffix.toList.head? = some ' ') :
    (compileSentence id (text ++ suffix) = .ok p ↔
      p.kindPath? = none ∨ '\n' ∈ text.toList ∨ '?' ∉ suffix.toList.takeWhile (· != '\n')) ∧
    (compileSentence id (text ++ suffix) ≠ .ok p →
      ∃ path kind, p.kindPath? = some path ∧ '?' ∈ kind.toList ∧
        compileSentence id (text ++ suffix) = .ok (.isOther path kind)) := by
  obtain ⟨s, hread, rfl⟩ := compileSentence_eq_ok_iff.1 h
  have hkind : s.compile.kindPath? = none ↔ s.kindPath? = none := by
    unfold Sentence.compile
    rw [Sentence.kindPath?_map, Option.map_eq_none_iff]
  obtain ⟨hsame, hother⟩ := Sentence.read?_append hread hsuffix
  by_cases hcases : s.kindPath? = none ∨ '\n' ∈ text.toList ∨
      '?' ∉ suffix.toList.takeWhile (· != '\n')
  · have heq : compileSentence id (text ++ suffix) = .ok s.compile :=
      compileSentence_eq_ok_iff.2 ⟨s, hsame hcases, rfl⟩
    exact ⟨iff_of_true heq (by rwa [hkind]), fun hne => absurd heq hne⟩
  · push Not at hcases
    obtain ⟨path, kind, hpath, hmark, hne, hread'⟩ := hother hcases.1 hcases.2.1 hcases.2.2
    have heq : compileSentence id (text ++ suffix) =
        .ok (Sentence.compile (.isOther path kind)) :=
      compileSentence_eq_ok_iff.2 ⟨_, hread', rfl⟩
    refine ⟨iff_of_false (fun hsame => ?_) ?_, fun _ =>
      ⟨Selector.parse path, kind, ?_, hmark, heq⟩⟩
    · rw [heq] at hsame
      exact hne (Sentence.compile_injective (Except.ok.inj hsame)).symm
    · rw [hkind]
      push Not
      exact hcases
    · unfold Sentence.compile
      rw [Sentence.kindPath?_map, hpath, Option.map_some]

/-- A question on the next line is not part of the kind. -/
theorem compileSentence_append_iff_next_line :
    compileSentence ⟨1⟩ ("title is an integer?\nThe code" ++ " of a country?") =
      .ok (Sentence.compile (.isInteger "title")) := by
  have hread : Sentence.read? "title is an integer?\nThe code" = some (.isInteger "title") := by
    decide +kernel
  have hcompile : compileSentence ⟨1⟩ "title is an integer?\nThe code" =
      .ok (Sentence.compile (.isInteger "title")) :=
    compileSentence_eq_ok_iff.2 ⟨_, hread, rfl⟩
  exact (compileSentence_append_iff ⟨1⟩ hcompile (by decide)).1.2 (Or.inr (Or.inl (by decide)))

/-- A second question on the line of the first one makes the kind one without a check. -/
theorem not_compileSentence_append_eq :
    ¬ ∀ (id : RuleId) (text suffix : String) (p : Predicate),
      compileSentence id text = .ok p → suffix.toList.head? = some ' ' →
        compileSentence id (text ++ suffix) = .ok p := by
  intro hall
  have hread : Sentence.read? "title is an integer?" = some (.isInteger "title") := by
    decide +kernel
  have hread' : Sentence.read? ("title is an integer?" ++ " really?") =
      some (.isOther "title" "integer? really") := by
    decide +kernel
  have hsame := hall ⟨1⟩ _ " really?" _ (compileSentence_eq_ok_iff.2 ⟨_, hread, rfl⟩) (by decide)
  rw [compileSentence_eq_ok_iff.2 ⟨_, hread', rfl⟩] at hsame
  cases hsame

end RuleSet

end DataQuality
