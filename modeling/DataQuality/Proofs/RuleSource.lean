import DataQuality.Proofs.RuleSet

/-!
# Plain rule sources

The rules of a plain source are numbered by line and so have different identifiers. Each is then
compiled as if it were the only one, and leaving some out changes nothing for the others. A line
that becomes a comment keeps the numbers of the other lines, so the edit leaves out the identifier
of this line and nothing else. Lines may end in either style, and the last one need not end at all.
-/
namespace DataQuality

namespace Text

/-- A line of the text made up of these four parts: what is before it, the line, its end, and what
comes later. -/
structure IsLine (before line ending later : String) : Prop where
  begins : before.toList = [] ∨ ∃ cs, before.toList = cs ++ ['\n']
  single : '\n' ∉ line.toList
  ends : ending = "\n" ∨ ending = "\r\n" ∨ ending = "" ∧ later = ""

/-- The number of the line that comes after a text, from one on. -/
def lineNumber (before : String) : Nat := before.toList.count '\n' + 1

theorem length_linesFrom {current cs : List Char} :
    (linesFrom current (cs ++ ['\n'])).length = cs.count '\n' + 1 := by
  induction cs generalizing current with
  | nil => simp [linesFrom]
  | cons c cs ih =>
    rw [List.cons_append, linesFrom]
    split
    · next hc => rw [List.length_cons, ih, hc, List.count_cons_self]
    · next hc => rw [ih, List.count_cons_of_ne hc]

theorem linesFrom_of_notMem {current cs : List Char} (h : '\n' ∉ cs) :
    linesFrom current cs =
      if (current.reverse ++ cs).isEmpty then [] else [current.reverse ++ cs] := by
  induction cs generalizing current with
  | nil => simp [linesFrom]
  | cons c cs ih =>
    have hc : c ≠ '\n' := fun he => h (by simp [he])
    have hcs : '\n' ∉ cs := fun hm => h (by simp [hm])
    rw [linesFrom, if_neg hc, ih hcs]
    simp

namespace IsLine

variable {before line ending later : String}

theorem length_lines (h : IsLine before line ending later) :
    (lines before).length + 1 = lineNumber before := by
  unfold lines lineNumber
  rw [List.length_map]
  rcases h.begins with hempty | ⟨cs, hcs⟩
  · rw [hempty]
    rfl
  · rw [hcs, length_linesFrom, List.count_append]
    rfl

/-- The lines of the text are those of its parts. -/
theorem lines_eq (h : IsLine before line ending later) :
    lines (before ++ line ++ ending ++ later) =
      lines before ++ (lines (line ++ ending) ++ lines later) := by
  rw [String.append_assoc, String.append_assoc, lines_append h.begins]
  congr 1
  rw [← String.append_assoc]
  rcases h.ends with rfl | rfl | ⟨rfl, rfl⟩
  · exact lines_append (.inr ⟨line.toList, by rw [String.toList_append]; rfl⟩)
  · exact lines_append (.inr ⟨line.toList ++ ['\r'], by rw [String.toList_append]; simp⟩)
  · rw [String.append_empty]
    exact (List.append_nil _).symm

/-- What is read of the line itself: one line, with or without a carriage return at its end, or
nothing where the text has already ended. -/
theorem lines_line (h : IsLine before line ending later) :
    (∃ cs, (cs = line.toList ∨ cs = dropReturn line.toList) ∧
      lines (line ++ ending) = [String.ofList cs]) ∨ lines (line ++ ending) = [] ∧ later = "" := by
  unfold lines
  rw [String.toList_append]
  rcases h.ends with rfl | rfl | ⟨rfl, rfl⟩
  · refine .inl ⟨dropReturn line.toList, .inr rfl, ?_⟩
    exact congrArg _ (linesFrom_line h.single)
  · have hsingle : '\n' ∉ line.toList ++ ['\r'] := by simp [h.single]
    have hline : linesFrom [] ((line.toList ++ ['\r']) ++ ['\n']) = [line.toList] := by
      rw [linesFrom_line hsingle]
      simp [dropReturn]
    refine .inl ⟨line.toList, .inl rfl, ?_⟩
    rw [List.append_assoc] at hline
    exact congrArg _ hline
  · rw [String.toList_empty, List.append_nil, linesFrom_of_notMem h.single]
    split
    · exact .inr ⟨rfl, rfl⟩
    · exact .inl ⟨line.toList, .inl rfl, rfl⟩

end IsLine

theorem lines_of_notMem {s : String} (h : '\n' ∉ s.toList) :
    lines s = if s.toList.isEmpty then [] else [s] := by
  unfold lines
  rw [linesFrom_of_notMem h, List.reverse_nil, List.nil_append]
  split
  · rfl
  · rw [List.map_singleton, String.ofList_toList]

/-- Up to its first line feed, a text is one line. -/
theorem lines_feed {first rest : String} (h : '\n' ∉ first.toList) :
    lines (first ++ "\n" ++ rest) = String.ofList (dropReturn first.toList) :: lines rest := by
  have hends : (first ++ "\n").toList = first.toList ++ ['\n'] := String.toList_append
  rw [lines_append (.inr ⟨_, hends⟩)]
  unfold lines
  rw [hends, linesFrom_line h]
  rfl

theorem exists_feed {s : String} (h : '\n' ∈ s.toList) :
    ∃ first rest, s = first ++ "\n" ++ rest ∧ '\n' ∉ first.toList := by
  obtain ⟨first, rest, hs, hfirst⟩ := List.eq_append_cons_of_mem h
  refine ⟨String.ofList first, String.ofList rest, ?_, by rwa [String.toList_ofList]⟩
  rw [← String.toList_inj, hs]
  simp

/-- What is read of a line is the line without its end. -/
theorem exists_isLine_feed {first : String} (rest : String) (h : '\n' ∉ first.toList) :
    ∃ ending, IsLine "" (String.ofList (dropReturn first.toList)) ending rest ∧
      first ++ "\n" = String.ofList (dropReturn first.toList) ++ ending := by
  unfold dropReturn
  split
  · next hreturn =>
    obtain ⟨cs, hcs⟩ := List.getLast?_eq_some_iff.1 hreturn
    have hsingle : '\n' ∉ cs := fun hm => h (by simp [hcs, hm])
    refine ⟨"\r\n", ⟨.inl rfl, by simpa [hcs] using hsingle, .inr (.inl rfl)⟩, ?_⟩
    rw [← String.toList_inj, String.toList_append, String.toList_append, hcs]
    simp
  · exact ⟨"\n", ⟨.inl rfl, by rwa [String.toList_ofList], .inl rfl⟩, by rw [String.ofList_toList]⟩

/-- Every line that is read of a text is one of the text, with the number that it is read at. -/
theorem exists_isLine {source s : String} {front back : List String}
    (h : lines source = front ++ s :: back) :
    ∃ before ending later, IsLine before s ending later ∧
      source = before ++ s ++ ending ++ later ∧ lineNumber before = front.length + 1 := by
  induction front generalizing source with
  | nil =>
    by_cases hfeed : '\n' ∈ source.toList
    · obtain ⟨first, rest, rfl, hfirst⟩ := exists_feed hfeed
      rw [lines_feed hfirst] at h
      obtain ⟨rfl, -⟩ := List.cons.inj h
      obtain ⟨ending, hline, htext⟩ := exists_isLine_feed rest hfirst
      exact ⟨"", ending, rest, hline, by rw [htext, String.empty_append], rfl⟩
    · rw [lines_of_notMem hfeed] at h
      split at h
      · cases h
      · obtain ⟨rfl, -⟩ := List.cons.inj h
        exact ⟨"", "", "", ⟨.inl rfl, hfeed, .inr (.inr ⟨rfl, rfl⟩)⟩, by simp, rfl⟩
  | cons x front ih =>
    by_cases hfeed : '\n' ∈ source.toList
    · obtain ⟨first, rest, rfl, hfirst⟩ := exists_feed hfeed
      rw [lines_feed hfirst] at h
      obtain ⟨before, ending, later, hline, rfl, hnumber⟩ := ih (List.cons.inj h).2
      refine ⟨first ++ "\n" ++ before, ending, later, ⟨.inr ?_, hline.single, hline.ends⟩, ?_, ?_⟩
      · rw [String.toList_append, String.toList_append]
        rcases hline.begins with hempty | ⟨cs, hcs⟩
        · exact ⟨first.toList, by rw [hempty]; simp⟩
        · exact ⟨first.toList ++ '\n' :: cs, by rw [hcs]; simp⟩
      · simp only [String.append_assoc]
      · unfold lineNumber at hnumber ⊢
        simp only [String.toList_append, List.count_append, List.count_eq_zero.2 hfirst]
        rw [List.length_cons, ← hnumber]
        simp [Nat.add_comm]
    · rw [lines_of_notMem hfeed] at h
      split at h
      · cases h
      · exact absurd (List.cons.inj h).2 (by simp)

end Text

namespace RuleDefinition

open Text (IsLine lineNumber)

theorem numberFrom_append (n : Nat) (front back : List String) :
    numberFrom n (front ++ back) = numberFrom n front ++ numberFrom (n + front.length) back := by
  induction front generalizing n with
  | nil => rfl
  | cons line rest ih =>
    rw [List.cons_append, numberFrom, numberFrom, ih, List.cons_append, List.length_cons]
    rw [Nat.add_assoc, Nat.add_comm 1]

/-- Every definition of a source is one of its lines. -/
theorem exists_line_of_numberFrom {n : Nat} {lines : List String} {front back : List RuleDefinition}
    {d : RuleDefinition} (h : numberFrom n lines = front ++ d :: back) :
    d.id = ⟨Int64.ofNat (n + front.length)⟩ ∧
      ∃ earlier later, lines = earlier ++ d.sentence :: later ∧ earlier.length = front.length := by
  induction front generalizing n lines with
  | nil =>
    cases lines with
    | nil => cases h
    | cons line rest =>
      obtain ⟨rfl, -⟩ := List.cons.inj h
      exact ⟨rfl, [], rest, rfl, rfl⟩
  | cons e front ih =>
    cases lines with
    | nil => cases h
    | cons line rest =>
      obtain ⟨hid, earlier, later, rfl, hlength⟩ := ih (List.cons.inj h).2
      refine ⟨?_, line :: earlier, later, rfl, ?_⟩
      · rw [hid, List.length_cons, Nat.add_assoc, Nat.add_comm 1]
      · rw [List.length_cons, List.length_cons, hlength]

/-- The lines of a source have different identifiers. -/
theorem nodup_ids_numberFrom {n : Nat} {lines : List String} (h : lines.length < 2 ^ 64) :
    ((numberFrom n lines).map (·.id)).Nodup := by
  induction lines generalizing n with
  | nil => exact List.nodup_nil
  | cons line rest ih =>
    rw [List.length_cons] at h
    rw [numberFrom, List.map_cons]
    refine List.nodup_cons.2 ⟨fun hid => ?_, ih (by omega)⟩
    obtain ⟨d, hd, hid⟩ := List.mem_map.1 hid
    exact id_ne_of_mem_numberFrom hd (.inl ⟨Nat.lt_succ_self n, by omega⟩) hid

theorem nodup_ids_ofLines {source : String} (h : (ofLines source).length < 2 ^ 64) :
    ((ofLines source).map (·.id)).Nodup :=
  nodup_ids_numberFrom (by rwa [ofLines, length_numberFrom] at h)

/-- A comment that loses the carriage return at its end is still one. -/
theorem isIgnored_dropReturn {s : String} (h : isIgnored s = true) :
    isIgnored (String.ofList (Text.dropReturn s.toList)) = true := by
  unfold Text.dropReturn
  split
  · next hreturn =>
    unfold isIgnored at h ⊢
    rw [String.toList_ofList]
    rw [Bool.or_eq_true, decide_eq_true_iff] at h ⊢
    rcases h with hcomment | hblank
    · left
      obtain ⟨rest, hrest⟩ := List.head?_eq_some_iff.1 hcomment
      -- the return is not the mark of the comment
      cases rest with
      | nil => simp [hrest] at hreturn
      | cons c rest => simp [hrest]
    · right
      unfold Text.isAllBlank at hblank ⊢
      rw [String.toList_ofList]
      exact List.all_eq_true.2 fun c hc =>
        List.all_eq_true.1 hblank c (List.dropLast_subset _ hc)
  · rwa [String.ofList_toList]

/-- The definitions of a source around one of its lines: at most one of the line itself, and those
of the other lines, which do not depend on it. -/
theorem ofLines_eq {before line ending later : String} (h : IsLine before line ending later) :
    ∃ own, ofLines (before ++ line ++ ending ++ later) =
        numberFrom 1 (Text.lines before) ++
          (own ++ numberFrom (lineNumber before + 1) (Text.lines later)) ∧
      (∀ d ∈ own, d.id = ⟨Int64.ofNat (lineNumber before)⟩) ∧
      (isIgnored line = true → ∀ d ∈ own, isIgnored d.sentence = true) := by
  unfold ofLines
  rw [h.lines_eq, numberFrom_append, Nat.add_comm 1, h.length_lines]
  rcases h.lines_line with ⟨cs, hcs, hline⟩ | ⟨hline, rfl⟩
  · rw [hline]
    refine ⟨[⟨⟨Int64.ofNat (lineNumber before)⟩, String.ofList cs, .activity, true⟩], rfl, ?_, ?_⟩
    · rintro d (_ | ⟨_, ⟨⟩⟩)
      rfl
    · rintro hignored d (_ | ⟨_, ⟨⟩⟩)
      rcases hcs with rfl | rfl
      · rwa [String.ofList_toList]
      · exact isIgnored_dropReturn hignored
  · rw [hline]
    exact ⟨[], rfl, nofun, fun _ => nofun⟩

end RuleDefinition

namespace RuleSet

open RuleDefinition (isIgnored numberFrom ofLines)
open Text (IsLine lineNumber)

variable {levels : List Level} {before after definitions : List RuleDefinition}

/-- Where identifiers differ, that of a definition is not taken before it. -/
theorem any_gives_of_nodup {d : RuleDefinition}
    (h : ((before ++ d :: after).map (·.id)).Nodup) : before.any (gives levels d.id) = false := by
  refine List.any_eq_false.2 fun e he hgives => ?_
  have hid : e.id = d.id := beq_iff_eq.1 (Bool.and_eq_true_iff.1 hgives).1
  rw [List.map_append, List.nodup_append] at h
  exact h.2.2 e.id (List.mem_map_of_mem he) d.id (by simp) hid

/-- So none stands in the way of another. -/
theorem fates_of_nodup (h : ((before ++ after).map (·.id)).Nodup) :
    fates levels before after = after.map (fate levels []) := by
  induction after generalizing before with
  | nil => rfl
  | cons d rest ih =>
    rw [fates, ih (by simpa using h), List.map_cons]
    unfold fate
    rw [any_gives_of_nodup h]
    rfl

/-- Each definition becomes what it becomes alone. -/
theorem compile_of_nodup (levels : List Level) (h : (definitions.map (·.id)).Nodup) :
    (compile levels definitions).rules =
        definitions.filterMap (fun d => (fate levels [] d).rule?) ∧
      (compile levels definitions).faults =
        definitions.filterMap fun d => (fate levels [] d).fault? := by
  have hall : fates levels [] definitions = definitions.map (fate levels []) := fates_of_nodup h
  obtain ⟨hrules, hfaults⟩ := compile_append_fates levels [] definitions
  rw [List.nil_append, hall, List.filterMap_map] at hrules hfaults
  exact ⟨hrules, hfaults⟩

/-- The identifier of a definition is that of the rule and of the fault it may become. -/
theorem filter_fate (keeps : RuleId → Bool) (d : RuleDefinition) :
    (fate levels [] d).rule?.filter (keeps ·.definition.id) =
        (if keeps d.id then (fate levels [] d).rule? else none) ∧
      (fate levels [] d).fault?.filter (keeps ·.id) =
        if keeps d.id then (fate levels [] d).fault? else none := by
  cases hfate : fate levels [] d with
  | skipped => simp [Fate.rule?, Fate.fault?]
  | kept r => simp [Fate.rule?, Fate.fault?, (of_fate_eq_kept hfate).1, Option.filter_some]
  | faulty f => simp [Fate.rule?, Fate.fault?, (of_fate_eq_faulty hfate).1, Option.filter_some]

/-- Leaving out some of the definitions, where identifiers differ, leaves out their rules and
faults. -/
theorem compile_filter (levels : List Level) (h : (definitions.map (·.id)).Nodup)
    (keeps : RuleId → Bool) :
    (compile levels (definitions.filter (keeps ·.id))).rules =
        (compile levels definitions).rules.filter (keeps ·.definition.id) ∧
      (compile levels (definitions.filter (keeps ·.id))).faults =
        (compile levels definitions).faults.filter (keeps ·.id) := by
  have hkept : ((definitions.filter (keeps ·.id)).map (·.id)).Nodup :=
    h.sublist (List.filter_sublist.map _)
  obtain ⟨hrules, hfaults⟩ := compile_of_nodup levels h
  obtain ⟨hrules', hfaults'⟩ := compile_of_nodup levels hkept
  rw [hrules, hfaults, hrules', hfaults']
  simp only [List.filterMap_filter, List.filter_filterMap, (filter_fate keeps _).1,
    (filter_fate keeps _).2, and_self]

/-- Comments and blank lines among the definitions change nothing. -/
theorem compile_ignored {ignored : List RuleDefinition}
    (h : ∀ d ∈ ignored, isIgnored d.sentence = true) :
    compile levels (before ++ (ignored ++ after)) = compile levels (before ++ after) := by
  rw [compile_append, compile_append, List.foldl_append]
  congr 1
  induction ignored with
  | nil => rfl
  | cons d rest ih =>
    have hskip : (!levels.contains d.level || isIgnored d.sentence) = true := by
      rw [h d List.mem_cons_self, Bool.or_true]
    rw [List.foldl_cons, add, if_pos hskip]
    exact ih fun e he => h e (List.mem_cons_of_mem d he)

/-- One set is another one without what has an identifier: the other rules keep their predicates and
their order, and the other faults are the same. -/
structure IsWithout (id : RuleId) (s edited : RuleSet) : Prop where
  rules : edited.rules = s.rules.filter (·.definition.id != id)
  faults : edited.faults = s.faults.filter (·.id != id)
  get?_of_ne : ∀ other, other ≠ id → edited.get? other = s.get? other
  get?_self : edited.get? id = none

theorem isWithout_of_filter {id : RuleId} {s edited : RuleSet}
    (hrules : edited.rules = s.rules.filter (·.definition.id != id))
    (hfaults : edited.faults = s.faults.filter (·.id != id)) : IsWithout id s edited where
  rules := hrules
  faults := hfaults
  get?_of_ne other hne := by
    rw [edited.agree.get?_eq, s.agree.get?_eq, hrules, List.find?_filter]
    congr 2
    funext r
    by_cases hid : r.definition.id = other
    · simp [hid, hne]
    · simp [hid]
  get?_self := by
    rw [← Option.not_isSome_iff_eq_none, edited.agree.isSome_get?, hrules, List.any_filter]
    simp

/-- Leaving out a line of a source. -/
theorem isWithout_of_ignored {before line ending later comment : String}
    (h : IsLine before line ending later) (hsingle : '\n' ∉ comment.toList)
    (hignored : isIgnored comment = true)
    (hshort : (ofLines (before ++ line ++ ending ++ later)).length < 2 ^ 64) :
    IsWithout ⟨Int64.ofNat (lineNumber before)⟩
      (compile levels (ofLines (before ++ line ++ ending ++ later)))
      (compile levels (ofLines (before ++ comment ++ ending ++ later))) := by
  have hnodup := RuleDefinition.nodup_ids_ofLines hshort
  obtain ⟨own, hsource, hown, -⟩ := RuleDefinition.ofLines_eq h
  obtain ⟨ignored, hedited, -, hcomment⟩ :=
    RuleDefinition.ofLines_eq (⟨h.begins, hsingle, h.ends⟩ : IsLine before comment ending later)
  have hlength := h.length_lines
  simp only [hsource, List.length_append, RuleDefinition.length_numberFrom] at hshort
  -- of the source, the filter keeps what comes before and what comes later
  have hfront : ∀ d ∈ numberFrom 1 (Text.lines before),
      (d.id != ⟨Int64.ofNat (lineNumber before)⟩) = true := fun d hd =>
    bne_iff_ne.2 (RuleDefinition.id_ne_of_mem_numberFrom hd (.inr ⟨by omega, by omega⟩))
  have hback : ∀ d ∈ numberFrom (lineNumber before + 1) (Text.lines later),
      (d.id != ⟨Int64.ofNat (lineNumber before)⟩) = true := fun d hd =>
    bne_iff_ne.2 (RuleDefinition.id_ne_of_mem_numberFrom hd (.inl ⟨by omega, by omega⟩))
  have hfilter : (ofLines (before ++ line ++ ending ++ later)).filter
        (·.id != ⟨Int64.ofNat (lineNumber before)⟩) =
      numberFrom 1 (Text.lines before) ++
        numberFrom (lineNumber before + 1) (Text.lines later) := by
    rw [hsource, List.filter_append, List.filter_append, List.filter_eq_self.2 hfront,
      List.filter_eq_self.2 hback, List.filter_eq_nil_iff.2 fun d hd => by simp [hown d hd],
      List.nil_append]
  obtain ⟨hrules, hfaults⟩ :=
    compile_filter levels hnodup (· != ⟨Int64.ofNat (lineNumber before)⟩)
  rw [hfilter, ← compile_ignored (hcomment hignored), ← hedited] at hrules hfaults
  exact isWithout_of_filter hrules hfaults

/-- The definitions of a plain source have different identifiers, the numbers of its lines, so none
is dropped because an earlier one has its identifier, and each becomes what it becomes alone. When a
line becomes a comment or a blank line, what was compiled loses the number of this line and is the
same otherwise. There are `2 ^ 64` identifiers, more than the lines of any text that a machine
holds. -/
theorem compile_ofLines_stable (levels : List Level) {source : String}
    (hshort : (ofLines source).length < 2 ^ 64) :
    ((ofLines source).map (·.id)).Nodup ∧
    ((compile levels (ofLines source)).rules =
        (ofLines source).filterMap (fun d => (fate levels [] d).rule?) ∧
      (compile levels (ofLines source)).faults =
        (ofLines source).filterMap fun d => (fate levels [] d).fault?) ∧
    (∀ front d back, ofLines source = front ++ d :: back →
      ((compile levels front).rules.any fun r => r.definition.id == d.id) = false ∧
      ∃ before ending later, IsLine before d.sentence ending later ∧
        source = before ++ d.sentence ++ ending ++ later ∧
        d.id = ⟨Int64.ofNat (lineNumber before)⟩) ∧
    ∀ before line ending later comment, IsLine before line ending later →
      source = before ++ line ++ ending ++ later →
      '\n' ∉ comment.toList → isIgnored comment = true →
      IsWithout ⟨Int64.ofNat (lineNumber before)⟩ (compile levels (ofLines source))
        (compile levels (ofLines (before ++ comment ++ ending ++ later))) := by
  have hnodup := RuleDefinition.nodup_ids_ofLines hshort
  refine ⟨hnodup, compile_of_nodup levels hnodup, fun front d back hsource => ⟨?_, ?_⟩, ?_⟩
  · rw [any_rules_compile]
    exact any_gives_of_nodup (hsource ▸ hnodup)
  · obtain ⟨hid, earlier, rest, hlines, hlength⟩ :=
      RuleDefinition.exists_line_of_numberFrom hsource
    obtain ⟨before, ending, later, hline, htext, hnumber⟩ := Text.exists_isLine hlines
    exact ⟨before, ending, later, hline, htext, by rw [hid, hnumber, hlength, Nat.add_comm]⟩
  · rintro before line ending later comment hline rfl hsingle hignored
    exact isWithout_of_ignored hline hsingle hignored hshort

/-- With a carriage return in the line end, and no line end after the last line. -/
theorem compile_ofLines_stable_first :
    (ofLines "a exists?\r\nb exists?").length < 2 ^ 64 ∧
      IsLine "" "a exists?" "\r\n" "b exists?" ∧
      IsWithout ⟨1⟩ (compile [.activity] (ofLines "a exists?\r\nb exists?"))
        (compile [.activity] (ofLines "# a exists?\r\nb exists?")) ∧
      (compile [.activity] (ofLines "# a exists?\r\nb exists?")).rules.map (·.definition.id) =
        [⟨2⟩] := by
  have hshort : (ofLines "a exists?\r\nb exists?").length < 2 ^ 64 := by decide +kernel
  have hline : IsLine "" "a exists?" "\r\n" "b exists?" :=
    ⟨.inl rfl, by decide +kernel, .inr (.inl rfl)⟩
  exact ⟨hshort, hline, (compile_ofLines_stable [.activity] hshort).2.2.2 "" "a exists?" "\r\n"
    "b exists?" "# a exists?" hline rfl (by decide +kernel) (by decide +kernel), by decide +kernel⟩

end RuleSet

end DataQuality
