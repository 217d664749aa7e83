import DataQuality.Job
import DataQuality.Proofs.Json.Codec

/-!
# Jobs read back

A job is read back from the body that its producer writes, and from every other text of
a record that carries it: the fields may come in any order, fields of other names may
stand between them, and the text may spell the record in any way that JSON has.
-/
namespace DataQuality

namespace Json

/-- The fields of an object, each under what its name stands for. -/
def contents (fields : List (Name × Json)) : List (Option String × Json) :=
  fields.map fun (name, value) => (name.content, value)

theorem contents_append (a b : List (Name × Json)) :
    contents (a ++ b) = contents a ++ contents b := List.map_append

/-- If every name stands for a text, the fields are those of a record. -/
theorem mapM_content {fields : List (Name × Json)} {named : List (String × Json)}
    (h : contents fields = named.map fun (name, value) => (some name, value)) :
    fields.mapM (fun (name, value) => name.content.map fun n => (n, value)) = some named := by
  induction fields generalizing named with
  | nil =>
    obtain rfl : named = [] := by simpa [contents] using h.symm
    rfl
  | cons f fields ih =>
    obtain ⟨⟨content, isPlain⟩, value⟩ := f
    cases named with
    | nil => cases h
    | cons g named =>
      simp only [contents, List.map_cons, List.cons.injEq, Prod.mk.injEq] at h
      obtain ⟨⟨rfl, rfl⟩, hrest⟩ := h
      rw [List.mapM_cons, ih hrest]
      rfl

theorem valuesOf_append (n : String) (a b : List (String × Json)) :
    valuesOf n (a ++ b) = valuesOf n a ++ valuesOf n b := by
  simp [valuesOf]

theorem valuesOf_eq_nil {n : String} {fields : List (String × Json)} (h : ∀ f ∈ fields, f.1 ≠ n) :
    valuesOf n fields = [] := by
  unfold valuesOf
  rw [List.filter_eq_nil_iff.2 fun f hf => by simpa using h f hf, List.map_nil]

theorem valuesOf_perm {a b : List (String × Json)} (h : a.Perm b) (n : String) :
    (valuesOf n a).Perm (valuesOf n b) := (h.filter _).map _

end Json

namespace Job

/-- The fields of the job's own record. -/
def ownFields (job : Job) : List (String × Json) := [
  ("filename", Json.ofString job.filename),
  ("runtime_id", Json.ofId job.runtimeId),
  ("package_id", Json.ofId job.packageId)]

/-- The object has the fields of the job's own record, in any order, and else only fields of other
names. -/
def IsCarriedBy (job : Job) (fields : List (Json.Name × Json)) : Prop :=
  ∃ own added, job.toJson = .object own ∧
    (∀ f ∈ added, ∃ name, f.1.content = some name ∧ name ∉ Job.fields) ∧
    (Json.contents fields).Perm (Json.contents (own ++ added))

/-- What is given under the names of a job's fields. -/
def IsGiven (job : Job) (named : List (String × Json)) : Prop :=
  Json.valuesOf "filename" named = [Json.ofString job.filename] ∧
    Json.valuesOf "runtime_id" named = [Json.ofId job.runtimeId] ∧
    Json.valuesOf "package_id" named = [Json.ofId job.packageId]

theorem IsCarriedBy.exists_named {job : Job} {fields : List (Json.Name × Json)}
    (h : job.IsCarriedBy fields) :
    ∃ named, Json.contents fields = named.map (fun (name, value) => (some name, value)) ∧
      job.IsGiven named := by
  obtain ⟨own, added, hown, hadded, hperm⟩ := h
  cases hown
  let named (f : Option String × Json) : String × Json := (f.1.getD "", f.2)
  have hsome : ∀ f ∈ Json.contents fields, (some (named f).1, (named f).2) = f := by
    intro f hf
    have hf := hperm.mem_iff.1 hf
    simp only [Json.contents, List.map_append, List.mem_append, List.mem_map, Prod.exists] at hf
    rcases hf with ⟨_, _, ⟨name, value, -, heq⟩, rfl⟩ | ⟨⟨content, isPlain⟩, value, hmem, rfl⟩
    · obtain ⟨rfl, rfl⟩ := Prod.mk.inj heq
      rfl
    · obtain ⟨name, rfl, -⟩ := hadded _ hmem
      rfl
  have hgiven : ((Json.contents fields).map named).Perm
      (job.ownFields ++ (Json.contents added).map named) := by
    have h := hperm.map named
    rw [Json.contents_append, List.map_append] at h
    exact h
  have hother : ∀ n ∈ Job.fields, Json.valuesOf n ((Json.contents added).map named) = [] := by
    intro n hn
    refine Json.valuesOf_eq_nil fun f hf => ?_
    simp only [Json.contents, List.map_map, List.mem_map, Prod.exists] at hf
    obtain ⟨⟨content, isPlain⟩, value, hmem, rfl⟩ := hf
    obtain ⟨name, rfl, hname⟩ := hadded _ hmem
    rintro rfl
    exact hname hn
  have hvalue {n : String} (hn : n ∈ Job.fields) {j : Json}
      (hj : Json.valuesOf n job.ownFields = [j]) :
      Json.valuesOf n ((Json.contents fields).map named) = [j] := by
    have hvalues := Json.valuesOf_perm hgiven n
    rw [Json.valuesOf_append, hj, hother n hn, List.append_nil] at hvalues
    exact List.perm_singleton.1 hvalues
  refine ⟨(Json.contents fields).map named, ?_, ?_, ?_, ?_⟩
  · rw [List.map_map]
    exact ((List.map_congr_left hsome).trans (List.map_id _)).symm
  · exact hvalue (by decide) rfl
  · exact hvalue (by decide) rfl
  · exact hvalue (by decide) rfl

theorem ofJson?_of_isGiven {job : Job} {fields : List (Json.Name × Json)}
    {named : List (String × Json)}
    (hnamed : Json.contents fields = named.map fun (name, value) => (some name, value))
    (h : job.IsGiven named) : ofJson? (.object fields) = some job := by
  obtain ⟨hfilename, hruntime, hpackage⟩ := h
  have honce : (Job.fields.all fun n => (Json.valuesOf n named).length ≤ 1) = true := by
    simp [Job.fields, hfilename, hruntime, hpackage]
  have hrecord : (Json.object fields).asRecord? Job.fields = some (.named named) := by
    unfold Json.asRecord?
    simp only [Json.mapM_content hnamed, Option.bind_eq_bind, Option.bind_some, honce, if_true]
  unfold ofJson?
  simp [hrecord, Json.Fields.required, Json.Fields.get?, hfilename, hruntime, hpackage]

theorem writable_toJson (job : Job) : job.toJson.Writable := by
  refine Json.writable_record ?_
  simp +decide

theorem isGiven_ownFields (job : Job) : job.IsGiven job.ownFields := ⟨rfl, rfl, rfl⟩

theorem ofJson?_toJson (job : Job) : ofJson? job.toJson = some job :=
  ofJson?_of_isGiven rfl job.isGiven_ownFields

/-- A job is read back from its own body, and from every text of a record that carries it. -/
theorem decode?_encode_and_respelled (job : Job) :
    decode? job.encode = some job ∧
      ∀ (fields : List (Json.Name × Json)) (body : String), job.IsCarriedBy fields →
        Json.Spells (.element (.object fields)) body.toList → decode? body = some job := by
  constructor
  · unfold decode? encode
    rw [Json.parse_render job.writable_toJson]
    exact ofJson?_toJson job
  · intro fields body hcarried hbody
    obtain ⟨named, hnamed, hgiven⟩ := hcarried.exists_named
    unfold decode?
    rw [Json.parse_of_spells hbody]
    exact ofJson?_of_isGiven hnamed hgiven

/-- The fields of a sample job in reversed order, after a note. -/
def notedFields : List (String × Json) := [
  ("note", .array [.null]),
  ("package_id", Json.ofId (⟨7⟩ : PackageId)),
  ("runtime_id", Json.ofId (⟨-3⟩ : RuntimeId)),
  ("filename", Json.ofString "\"é\n😀")]

theorem decode?_encode_and_respelled_noted :
    let job : Job := ⟨"\"é\n😀", ⟨-3⟩, ⟨7⟩⟩
    let fields := notedFields.map fun (name, value) => (Json.Name.ofString name, value)
    let body := "\x7b\n  \"note\": [\n    null\n  ],\n  \"package_id\": 7,\n" ++
      "  \"runtime_id\": -3,\n  \"filename\": \"\\\"é\\n😀\"\n\x7d"
    job.IsCarriedBy fields ∧ Json.Spells (.element (.object fields)) body.toList ∧
      decode? body = some job := by
  intro job fields body
  have hcarried : job.IsCarriedBy fields :=
    ⟨_, [(Json.Name.ofString "note", .array [.null])], rfl, by simp +decide,
      (List.reverse_perm (Json.contents fields)).symm⟩
  have hwritable : (Json.record notedFields).Writable :=
    Json.writable_record (by simp +decide [notedFields, Json.Writable, Json.AllWritable])
  have hbody : body = (Json.record notedFields).pretty := by rfl
  have hspells : Json.Spells (.element (.object fields)) body.toList := by
    rw [hbody, Json.pretty, String.toList_ofList]
    exact (Json.spells_prettyChars 0 _ hwritable).toElement
  exact ⟨hcarried, hspells, (decode?_encode_and_respelled job).2 fields body hcarried hspells⟩

end Job

end DataQuality
