import DataQuality.Proofs.Json.Codec
import DataQuality.Store.Journal

/-!
# Journals read back

The record of a write is read back as the write, if the times and doubles in it are;
else it is read as another write, or not at all. The line of a commit is read back as
its writes, and a journal of such lines is replayed as all the writes of its commits,
one after the other.
-/
namespace DataQuality

open Json (IsPlain)

namespace Tables

/-- Tables that hold nothing but organisations. -/
def listing (organisations : List (PackageId × List Target)) : Tables :=
  { Tables.empty with organisations := organisations }

theorem apply_withOrganisations (t : Tables) (organisations : List (PackageId × List Target))
    (w : Write) : ({ t with organisations := organisations } : Tables).apply w =
      { t.apply w with organisations := organisations } := by
  cases w <;> rfl

/-- Writes neither see nor change the organisations. -/
theorem applyAll_withOrganisations (t : Tables) (organisations : List (PackageId × List Target))
    (writes : List Write) : ({ t with organisations := organisations } : Tables).applyAll writes =
      { t.applyAll writes with organisations := organisations } := by
  induction writes generalizing t with
  | nil => rfl
  | cons w rest ih =>
    change ((({ t with organisations := organisations } : Tables).apply w).applyAll rest) = _
    rw [apply_withOrganisations]
    exact ih (t.apply w)

theorem organisations_applyAll (t : Tables) (writes : List Write) :
    (t.applyAll writes).organisations = t.organisations := by
  have h := applyAll_withOrganisations t t.organisations writes
  change t.applyAll writes = _ at h
  rw [h]

end Tables

namespace Write

/-- The times and doubles in a write are read back from their written forms. -/
def ReadsBack : Write → Prop
  | .replaceInfo r =>
    r.value.isFinite = true ∧ Json.float? (Decimal.Literal.ofFiniteFloat r.value) = some r.value
  | .startRun run => Instant.read? run.startedAt.text = some run.startedAt
  | _ => True

/-- What the record of a write is read as, whether or not that is the write. -/
def reread? : Write → Option Write
  | .replaceInfo r =>
    (Json.ofFloat r.value).asFloat?.map fun x => .replaceInfo { r with value := x }
  | .startRun run =>
    (Instant.read? run.startedAt.text).map fun time => .startRun { run with startedAt := time }
  | w => some w

theorem ReadsBack.reread?_eq {w : Write} (h : w.ReadsBack) : w.reread? = some w := by
  cases w with
  | replaceInfo r =>
    obtain ⟨hfinite, hvalue⟩ := h
    have hread : (Json.ofFloat r.value).asFloat? = some r.value := by
      unfold Json.ofFloat
      rw [if_pos hfinite]
      exact hvalue
    rw [reread?, hread, Option.map_some]
  | startRun run =>
    have hread : Instant.read? run.startedAt.text = some run.startedAt := h
    rw [reread?, hread, Option.map_some]
  | _ => rfl

theorem writable_ofRow (r : AggregateRow) : (ofRow r).Writable := by
  apply Json.writable_record
  simp +decide only [List.forall_mem_cons, List.not_mem_nil, false_implies, implies_true,
    Json.writable_ofId, Json.writable_ofInt, Json.writable_ofOption, and_true]

/-- The record of a write can be told from its written form. -/
theorem writable_toJson (w : Write) : w.toJson.Writable := by
  apply Json.writable_record
  cases w with
  | putAggregates r p rows =>
    have hrows : (Json.array (rows.map ofRow)).Writable :=
      Json.writable_array fun row _ => writable_ofRow row
    simp +decide only [List.forall_mem_cons, List.not_mem_nil, false_implies, implies_true,
      Json.writable_ofId, Json.writable_ofString, hrows, and_true]
  | _ =>
    simp +decide only [ofResult, ofInfo, List.forall_mem_cons, List.not_mem_nil, false_implies,
      implies_true, Json.writable_ofId, Json.writable_ofInt, Json.writable_ofString,
      Json.writable_ofFloat, Json.writable_ofOption, and_true]

@[simp] theorem asCount?_ofInt (n : UInt64) : asCount? (Json.ofInt n.toNat) = some n := by
  unfold asCount?
  rw [Json.asNat64?_ofInt]
  simp

theorem asRow?_ofRow (r : AggregateRow) : asRow? (ofRow r) = some r := by
  unfold asRow? ofRow
  dsimp only
  rw [Json.asRecord?_record (by rfl)]
  simp +decide [Json.Fields.required, Json.Fields.optional, Json.Fields.get?, Json.valuesOf]

theorem asResult?_ofResult (r : TestResult) : asResult? (Json.record (ofResult r)) = some r := by
  unfold asResult? ofResult
  dsimp only
  rw [Json.asRecord?_record (by rfl)]
  simp +decide [Json.Fields.required, Json.Fields.optional, Json.Fields.get?, Json.valuesOf,
    Json.asName?, Json.ofString]

theorem asInfo?_ofInfo (r : InfoResult) :
    asInfo? (Json.record (ofInfo r)) =
      (Json.ofFloat r.value).asFloat?.map fun x => { r with value := x } := by
  unfold asInfo? ofInfo
  dsimp only
  rw [Json.asRecord?_record (by rfl)]
  simp +decide [Json.Fields.required, Json.Fields.get?, Json.valuesOf, Option.map_eq_bind]

theorem asRun?_record (run : TestRun) :
    asRun? (Json.record
        [("id", Json.ofId run.id), ("started_at", Json.ofString run.startedAt.text)]) =
      (Instant.read? run.startedAt.text).map fun time => { run with startedAt := time } := by
  unfold asRun?
  rw [Json.asRecord?_record (by rfl)]
  simp +decide [Json.Fields.required, Json.Fields.get?, Json.valuesOf, Option.map_eq_bind]

/-- The fields of a write are read under the name of its kind. -/
theorem ofParts?_parts (w : Write) : ofParts? w.parts.1 (Json.record w.parts.2) = w.reread? := by
  cases w with
  | saveResult r =>
    simp only [parts, ofParts?, if_true, asResult?_ofResult, Option.map_some, reread?]
  | deleteResults p =>
    simp +decide only [parts, ofParts?, if_true, if_false]
    rw [Json.asRecord?_record (by rfl)]
    simp +decide [Json.Fields.required, Json.Fields.get?, Json.valuesOf, reread?]
  | replaceInfo r =>
    simp +decide only [parts, ofParts?, if_true, if_false, asInfo?_ofInfo, Option.map_map, reread?]
    rfl
  | startRun run =>
    simp +decide only [parts, ofParts?, if_true, if_false, asRun?_record, Option.map_map, reread?]
    rfl
  | recordTestrun p r =>
    simp +decide only [parts, ofParts?, if_true, if_false]
    rw [Json.asRecord?_record (by rfl)]
    simp +decide [Json.Fields.required, Json.Fields.get?, Json.valuesOf, reread?]
  | setStatus p s =>
    have hname : PackageStatus.ofName? s.name = some s := by cases s; rfl
    simp +decide only [parts, ofParts?, if_true, if_false]
    rw [Json.asRecord?_record (by rfl)]
    simp +decide [Json.Fields.required, Json.Fields.get?, Json.valuesOf, Json.asName?,
      Json.ofString, hname, reread?]
  | putAggregates r p rows =>
    have hrows : (Json.array (rows.map ofRow)).asList? asRow? = some rows :=
      Json.asList?_array fun row _ => asRow?_ofRow row
    simp +decide only [parts, ofParts?, if_true, if_false]
    rw [Json.asRecord?_record (by rfl)]
    simp +decide [Json.Fields.required, Json.Fields.get?, Json.valuesOf, hrows, reread?]

/-- No field of a write has the name of the tag. -/
theorem ne_tag_of_mem_parts {w : Write} {f : String × Json} (h : f ∈ w.parts.2) : f.1 ≠ tag := by
  have hall : ∀ f ∈ w.parts.2, f.1 ≠ tag := by
    cases w <;>
      simp +decide [parts, ofResult, ofInfo]
  exact hall f h

/-- The record of a write can be held as a whole, if the double in it can be read or is
given as `null`. -/
theorem isReadable_toJson {w : Write}
    (h : ∀ r, w = .replaceInfo r → (Json.ofFloat r.value).isReadable 125 = true) :
    w.toJson.isReadable maxDepth = true := by
  apply Json.isReadable_record
  cases w with
  | replaceInfo r =>
    simp only [ofInfo, List.forall_mem_cons, List.not_mem_nil, false_implies, implies_true,
      Json.isReadable_ofId, Json.isReadable_ofString, h r rfl, and_true]
  | putAggregates r p rows =>
    have hrow (row : AggregateRow) : (ofRow row).isReadable 124 = true := by
      apply Json.isReadable_record
      simp only [List.forall_mem_cons, List.not_mem_nil, false_implies, implies_true,
        Json.isReadable_ofId, Json.isReadable_ofUInt64, Json.isReadable_ofOption, and_true]
    have hrows : (Json.array (rows.map ofRow)).isReadable 125 = true :=
      Json.isReadable_array fun row _ => hrow row
    simp only [List.forall_mem_cons, List.not_mem_nil, false_implies, implies_true,
      Json.isReadable_ofId, Json.isReadable_ofString, hrows, and_true]
  | _ =>
    simp only [ofResult, List.forall_mem_cons, List.not_mem_nil, false_implies, implies_true,
      Json.isReadable_ofId, Json.isReadable_ofInt64, Json.isReadable_ofString,
      Json.isReadable_ofOption, and_true]

/-- If the double in a write cannot be held, it is not read either. -/
theorem reread?_of_not_isReadable {w : Write} (h : ¬ w.toJson.isReadable maxDepth = true) :
    w.reread? = none := by
  by_contra hread
  refine h (isReadable_toJson ?_)
  rintro r rfl
  have hsome := Option.isSome_iff_ne_none.2 hread
  rw [reread?, Option.isSome_map] at hsome
  cases hvalue : Json.ofFloat r.value with
  | number l => rwa [hvalue] at hsome
  | _ =>
    rw [hvalue] at hsome
    cases hsome

/-- Fields of other names than the tag are told from it. -/
theorem filter_tag {fields : List (String × Json)} (h : ∀ f ∈ fields, f.1 ≠ tag) :
    (fields.map fun (name, value) => (Json.Name.ofString name, value)).filter
        (fun f => f.1.content == some tag) = [] ∧
      (fields.map fun (name, value) => (Json.Name.ofString name, value)).filter
        (fun f => f.1.content != some tag) =
        fields.map fun (name, value) => (Json.Name.ofString name, value) := by
  rw [List.filter_eq_nil_iff, List.filter_eq_self]
  constructor
  all_goals
    intro f hf
    obtain ⟨g, hg, rfl⟩ := List.mem_map.1 hf
    have hne := h g hg
    simpa [Json.Name.ofString] using hne

theorem ofJson?_toJson (w : Write) : ofJson? w.toJson = w.reread? := by
  obtain ⟨hnone, hall⟩ := filter_tag fun f hf => ne_tag_of_mem_parts (w := w) hf
  have hjson : w.toJson = .object ((Json.Name.ofString tag, .ofString w.parts.1) ::
      w.parts.2.map fun (name, value) => (Json.Name.ofString name, value)) := rfl
  by_cases hreadable : w.toJson.isReadable maxDepth = true
  · rw [hjson] at hreadable ⊢
    unfold ofJson?
    rw [hreadable]
    simp only [Bool.not_true, Bool.false_eq_true, if_false]
    rw [List.filter_cons_of_pos (by simp [Json.Name.ofString]), hnone,
      List.filter_cons_of_neg (by simp [Json.Name.ofString]), hall]
    exact ofParts?_parts w
  · rw [reread?_of_not_isReadable hreadable]
    unfold ofJson?
    rw [Bool.eq_false_of_not_eq_true hreadable]
    rfl

/-- Writes are read again one by one. -/
theorem mapM_reread? {writes : List Write} (h : ∀ w ∈ writes, w.ReadsBack) :
    writes.mapM reread? = some writes := by
  have hall := Json.mapM_map_of_inverse (f := id) fun w hw => (h w hw).reread?_eq
  rwa [List.map_id] at hall

end Write

namespace Tables

/-- What tables become when the line of a commit is replayed on them. -/
def replayed? (t : Tables) (writes : List Write) : Option Tables :=
  (writes.mapM Write.reread?).map t.applyAll

theorem replayed?_of_readsBack (t : Tables) {writes : List Write} (h : ∀ w ∈ writes, w.ReadsBack) :
    t.replayed? writes = some (t.applyAll writes) := by
  rw [replayed?, Write.mapM_reread? h, Option.map_some]

end Tables

theorem toUTF8_append (a b : String) : (a ++ b).toUTF8 = a.toUTF8 ++ b.toUTF8 := by
  simp only [String.toUTF8_eq_toByteArray, String.toByteArray_append]

namespace Journal

/-- The text of the line of a commit, without its line feed. -/
def body (writes : List Write) : String := (Json.array (writes.map Write.toJson)).render

theorem toList_line (writes : List Write) : (line writes).toList = (body writes).toList ++ ['\n'] := by
  unfold line body
  rw [String.toList_append]
  rfl

theorem writable_writes (writes : List Write) : (Json.array (writes.map Write.toJson)).Writable :=
  Json.writable_array fun w _ => w.writable_toJson

theorem newline_not_mem_body (writes : List Write) : '\n' ∉ (body writes).toList := by
  unfold body Json.render
  rw [String.toList_ofList]
  exact Json.newline_not_mem_chars _ (writable_writes writes)

/-- The line of a commit is in brackets. -/
theorem toList_body (writes : List Write) :
    (body writes).toList = '[' :: (Json.itemChars (writes.map Write.toJson) ++ [']']) := by
  unfold body Json.render
  rw [String.toList_ofList, Json.chars]

theorem dropReturn_body (writes : List Write) :
    Text.dropReturn (body writes).toList = (body writes).toList := by
  unfold Text.dropReturn
  rw [if_neg]
  rw [toList_body, ← List.cons_append, List.getLast?_concat]
  simp

theorem isAllBlank_body (writes : List Write) : Text.isAllBlank (body writes) = false := by
  unfold Text.isAllBlank
  rw [toList_body]
  rfl

/-- The line of a commit is read as its writes are. -/
theorem readLine?_body (writes : List Write) :
    readLine? (body writes) = writes.mapM Write.reread? := by
  have hread : Write.ofJson? ∘ Write.toJson = Write.reread? := funext Write.ofJson?_toJson
  unfold readLine? body
  rw [Json.parse_render (writable_writes writes), Option.bind_some, Json.asList?, List.mapM_map,
    hread]

/-- Nothing in a journal comes after its last line feed. -/
def IsComplete (journal : String) : Prop :=
  journal.toList = [] ∨ ∃ cs, journal.toList = cs ++ ['\n']

theorem isComplete_empty : IsComplete "" := .inl String.toList_empty

theorem isComplete_append_line (journal : String) (writes : List Write) :
    IsComplete (journal ++ line writes) := by
  right
  rw [String.toList_append, toList_line, ← List.append_assoc]
  exact ⟨_, rfl⟩

/-- What was never completed comes after the complete part. -/
theorem completePart_append {journal torn : String} (h : IsComplete journal)
    (htorn : '\n' ∉ torn.toList) : completePart (journal ++ torn) = journal := by
  have hskip : ∀ c ∈ torn.toList.reverse, (c != '\n') = true := by
    intro c hc
    have hne : c ≠ '\n' := fun he => htorn (by rw [← he]; exact List.mem_reverse.1 hc)
    simpa using hne
  have hkeep : journal.toList.reverse.dropWhile (· != '\n') = journal.toList.reverse := by
    rcases h with hempty | ⟨cs, hcs⟩
    · rw [hempty]
      rfl
    · rw [hcs]
      simp
  unfold completePart
  rw [String.toList_append, List.reverse_append, List.dropWhile_append_of_pos hskip, hkeep,
    List.reverse_reverse, String.ofList_toList]

theorem completePart_eq {journal : String} (h : IsComplete journal) :
    completePart journal = journal := by
  have hnothing : '\n' ∉ "".toList := by simp
  have hpart := completePart_append h hnothing
  rwa [String.append_empty] at hpart

theorem IsComplete.append {a b : String} (ha : IsComplete a) (hb : IsComplete b) :
    IsComplete (a ++ b) := by
  unfold IsComplete
  rw [String.toList_append]
  rcases hb with hempty | ⟨cs, hcs⟩
  · rw [hempty, List.append_nil]
    exact ha
  · rw [hcs, ← List.append_assoc]
    exact .inr ⟨_, rfl⟩

theorem isComplete_line (s : String) : IsComplete (s ++ "\n") :=
  .inr ⟨s.toList, by rw [String.toList_append]; rfl⟩

theorem lines_line {s : String} (hbreak : '\n' ∉ s.toList)
    (hreturn : Text.dropReturn s.toList = s.toList) : Text.lines (s ++ "\n") = [s] := by
  unfold Text.lines
  rw [String.toList_append]
  change (Text.linesFrom [] (s.toList ++ ['\n'])).map String.ofList = [s]
  rw [Text.linesFrom_line hbreak, List.reverse_nil, List.nil_append, hreturn, List.map_singleton,
    String.ofList_toList]

/-- The lines of a journal to which a commit is added. -/
theorem lines_append_line {journal : String} (h : IsComplete journal) (writes : List Write) :
    Text.lines (journal ++ line writes) = Text.lines journal ++ [body writes] := by
  rw [Text.lines_append h]
  exact congrArg _ (lines_line (newline_not_mem_body writes) (dropReturn_body writes))

/-- A journal that is added to another one is replayed after it. -/
theorem replay?_append {a b : String} (ha : IsComplete a) (hb : IsComplete b) (t : Tables) :
    replay? t (a ++ b) = (replay? t a).bind fun t' => replay? t' b := by
  unfold replay?
  rw [completePart_eq (ha.append hb), completePart_eq ha, completePart_eq hb, Text.lines_append ha,
    List.filter_append, List.foldlM_append]
  rfl

/-- A line that is no commit is not replayed. -/
theorem replay?_of_unread {s : String} (hbreak : '\n' ∉ s.toList)
    (hreturn : Text.dropReturn s.toList = s.toList) (hblank : Text.isAllBlank s = false)
    (hread : readLine? s = none) (t : Tables) : replay? t (s ++ "\n") = none := by
  unfold replay?
  rw [completePart_eq (isComplete_line s), lines_line hbreak hreturn, List.filter_singleton, hblank]
  simp only [Bool.not_false, cond_true, List.foldlM_cons, hread, Option.map_none]
  rfl

/-- What was never completed is not replayed. -/
theorem replay?_torn {journal torn : String} (h : IsComplete journal) (htorn : '\n' ∉ torn.toList)
    (t : Tables) : replay? t (journal ++ torn) = replay? t journal := by
  unfold replay?
  rw [completePart_append h htorn, completePart_eq h]

/-- A commit that is added to a journal is replayed after it. -/
theorem replay?_append_line {journal : String} (h : IsComplete journal) (writes : List Write)
    (t : Tables) :
    replay? t (journal ++ line writes) = (replay? t journal).bind (·.replayed? writes) := by
  unfold replay?
  rw [completePart_eq (isComplete_append_line journal writes), completePart_eq h,
    lines_append_line h, List.filter_append, List.foldlM_append]
  have hkept : [body writes].filter (fun l => !Text.isAllBlank l) = [body writes] := by
    rw [List.filter_singleton, isAllBlank_body]
    rfl
  rw [hkept]
  simp only [List.foldlM_cons, List.foldlM_nil, readLine?_body]
  exact congrArg _ (funext fun t' => Option.bind_fun_some (t'.replayed? writes))

/-- A journal is replayed alike whatever the organisations are. -/
theorem replay?_withOrganisations (t : Tables) (organisations : List (PackageId × List Target))
    (journal : String) :
    replay? { t with organisations := organisations } journal =
      (replay? t journal).map fun t => { t with organisations := organisations } := by
  unfold replay?
  generalize (Text.lines (completePart journal)).filter (fun l => !Text.isAllBlank l) = ls
  induction ls generalizing t with
  | nil => rfl
  | cons l rest ih =>
    rw [List.foldlM_cons, List.foldlM_cons]
    cases readLine? l with
    | none => rfl
    | some writes =>
      simp only [Option.map_some, Option.bind_eq_bind, Option.bind_some,
        Tables.applyAll_withOrganisations]
      exact ih (t.applyAll writes)

/-- Replaying a journal does not change the organisations. -/
theorem organisations_of_replay? {t t' : Tables} {journal : String}
    (h : replay? t journal = some t') : t'.organisations = t.organisations := by
  have hsame := replay?_withOrganisations t t.organisations journal
  change replay? t journal = _ at hsame
  rw [h, Option.map_some] at hsame
  rw [Option.some.inj hsame]

/-- The journal of some commits. -/
def ofCommits (commits : List (List Write)) : String :=
  String.ofList (commits.flatMap fun writes => (line writes).toList)

theorem ofCommits_nil : ofCommits [] = "" := rfl

theorem ofCommits_concat (commits : List (List Write)) (writes : List Write) :
    ofCommits (commits ++ [writes]) = ofCommits commits ++ line writes := by
  unfold ofCommits
  rw [List.flatMap_append, String.ofList_append, List.flatMap_singleton, String.ofList_toList]

theorem isComplete_ofCommits (commits : List (List Write)) : IsComplete (ofCommits commits) := by
  rcases List.eq_nil_or_concat' commits with rfl | ⟨init, writes, rfl⟩
  · exact isComplete_empty
  · rw [ofCommits_concat]
    exact isComplete_append_line _ writes

theorem ofCommits_append (commits later : List (List Write)) :
    ofCommits (commits ++ later) = ofCommits commits ++ ofCommits later := by
  unfold ofCommits
  rw [List.flatMap_append, String.ofList_append]

theorem ofCommits_cons (writes : List Write) (rest : List (List Write)) :
    ofCommits (writes :: rest) = line writes ++ ofCommits rest := by
  unfold ofCommits
  rw [List.flatMap_cons, String.ofList_append, String.ofList_toList]

/-- A journal of commits is replayed as their writes, one commit after the other. -/
theorem replay?_ofCommits (t : Tables) {commits : List (List Write)}
    (h : ∀ writes ∈ commits, ∀ w ∈ writes, w.ReadsBack) :
    replay? t (ofCommits commits) = some (t.applyAll commits.flatten) := by
  induction commits using List.reverseRecOn with
  | nil => rfl
  | append_singleton init writes ih =>
    rw [ofCommits_concat, replay?_append_line (isComplete_ofCommits init),
      ih fun ws hws => h ws (by simp [hws]), Option.bind_some,
      Tables.replayed?_of_readsBack _ (h writes (by simp)), List.flatten_concat,
      Tables.applyAll_append]

end Journal

end DataQuality
