import DataQuality.Json.Domain
import DataQuality.Json.Writer
import DataQuality.Store.Ledger

/-!
# Journals

A journal holds the writes of each commit on a line of its own, as a JSON array. Every complete line
ends with a line feed; what follows the last line feed was never completed and does not count.
-/
namespace DataQuality

namespace Write

/-- The name of the field that tells which write a record stands for. -/
def tag : String := "op"

def resultFields : List String :=
  ["runtime_id", "package_id", "test_id", "result_data", "result_identifier", "result_hierarchy",
    "organisation_id"]

def infoFields : List String :=
  ["runtime_id", "package_id", "organisation_id", "info_id", "result_data"]

def runFields : List String := ["id", "started_at"]

def rowFields : List String :=
  ["runtime_id", "package_id", "organisation_id", "test_id", "pass", "fail", "error"]

def ofResult (r : TestResult) : List (String × Json) := [
  ("runtime_id", Json.ofId r.runtimeId),
  ("package_id", Json.ofId r.packageId),
  ("test_id", Json.ofId r.testId),
  ("result_data", Json.ofString r.code.name),
  ("result_identifier", Json.ofOption Json.ofString r.identifier),
  ("result_hierarchy", Json.ofInt r.hierarchy.toInt),
  ("organisation_id", Json.ofOption Json.ofId r.organisationId)]

/-- The fields of an info value. -/
def ofInfo (r : InfoResult) : List (String × Json) := [
  ("runtime_id", Json.ofId r.runtimeId),
  ("package_id", Json.ofId r.packageId),
  ("organisation_id", Json.ofId r.organisationId),
  ("info_id", Json.ofId r.infoId),
  ("result_data", Json.ofFloat r.value)]

def ofRow (r : AggregateRow) : Json := Json.record [
  ("runtime_id", Json.ofId r.runtimeId),
  ("package_id", Json.ofId r.packageId),
  ("organisation_id", Json.ofOption Json.ofId r.organisationId),
  ("test_id", Json.ofId r.testId),
  ("pass", Json.ofInt r.pass.toNat),
  ("fail", Json.ofInt r.fail.toNat),
  ("error", Json.ofInt r.error.toNat)]

/-- The name of a kind of write, and its fields. -/
def parts : Write → String × List (String × Json)
  | .saveResult r => ("save_result", ofResult r)
  | .deleteResults p => ("delete_results", [("package_id", Json.ofId p)])
  | .replaceInfo r => ("replace_info", ofInfo r)
  | .startRun run =>
    ("start_run", [("id", Json.ofId run.id), ("started_at", Json.ofString run.startedAt.text)])
  | .recordTestrun p r =>
    ("record_testrun", [("package_id", Json.ofId p), ("runtime_id", Json.ofId r)])
  | .setStatus p s =>
    ("set_status", [("package_id", Json.ofId p), ("status", Json.ofString s.name)])
  | .putAggregates r p rows =>
    ("put_aggregates",
      [("runtime_id", Json.ofId r), ("package_id", Json.ofId p), ("rows", .array (rows.map ofRow))])

/-- The record of a write: the name of its kind, and then its fields. -/
def toJson (w : Write) : Json :=
  let (name, fields) := w.parts
  Json.record ((tag, Json.ofString name) :: fields)

def asResult? (j : Json) : Option TestResult := do
  let names := resultFields
  let fs ← j.asRecord? names
  let runtimeId ← fs.required names "runtime_id" Json.asId?
  let packageId ← fs.required names "package_id" Json.asId?
  let testId ← fs.required names "test_id" Json.asId?
  let code ← fs.required names "result_data" (·.asName? true Code.ofName?)
  let identifier ← fs.optional names "result_identifier" Json.asString?
  let hierarchy ← fs.required names "result_hierarchy" Json.asInt64?
  let organisationId ← fs.optional names "organisation_id" Json.asId?
  pure ⟨runtimeId, packageId, testId, code, identifier, hierarchy, organisationId⟩

/-- Reads the fields of an info value. -/
def asInfo? (j : Json) : Option InfoResult := do
  let names := infoFields
  let fs ← j.asRecord? names
  let runtimeId ← fs.required names "runtime_id" Json.asId?
  let packageId ← fs.required names "package_id" Json.asId?
  let organisationId ← fs.required names "organisation_id" Json.asId?
  let infoId ← fs.required names "info_id" Json.asId?
  let value ← fs.required names "result_data" Json.asFloat?
  pure ⟨runtimeId, packageId, organisationId, infoId, value⟩

/-- Reads the fields of a run. -/
def asRun? (j : Json) : Option TestRun := do
  let fs ← j.asRecord? runFields
  let id ← fs.required runFields "id" Json.asId?
  let startedAt ← fs.required runFields "started_at" fun j => j.asString?.bind Instant.read?
  pure ⟨id, startedAt⟩

/-- Reads a number of outcomes. -/
def asCount? (j : Json) : Option UInt64 := j.asNat64?.map UInt64.ofNat

def asRow? (j : Json) : Option AggregateRow := do
  let names := rowFields
  let fs ← j.asRecord? names
  let runtimeId ← fs.required names "runtime_id" Json.asId?
  let packageId ← fs.required names "package_id" Json.asId?
  let organisationId ← fs.optional names "organisation_id" Json.asId?
  let testId ← fs.required names "test_id" Json.asId?
  let pass ← fs.required names "pass" asCount?
  let fail ← fs.required names "fail" asCount?
  let error ← fs.required names "error" asCount?
  pure ⟨runtimeId, packageId, organisationId, testId, pass, fail, error⟩

/-- Reads the fields of a write of the kind with this name. -/
def ofParts? (name : String) (j : Json) : Option Write :=
  if name = "save_result" then (asResult? j).map .saveResult
  else if name = "delete_results" then do
    let fs ← j.asRecord? ["package_id"]
    pure (.deleteResults (← fs.required ["package_id"] "package_id" Json.asId?))
  else if name = "replace_info" then (asInfo? j).map .replaceInfo
  else if name = "start_run" then (asRun? j).map .startRun
  else if name = "record_testrun" then do
    let names := ["package_id", "runtime_id"]
    let fs ← j.asRecord? names
    pure (.recordTestrun (← fs.required names "package_id" Json.asId?)
      (← fs.required names "runtime_id" Json.asId?))
  else if name = "set_status" then do
    let names := ["package_id", "status"]
    let fs ← j.asRecord? names
    pure (.setStatus (← fs.required names "package_id" Json.asId?)
      (← fs.required names "status" (·.asName? true PackageStatus.ofName?)))
  else if name = "put_aggregates" then do
    let names := ["runtime_id", "package_id", "rows"]
    let fs ← j.asRecord? names
    pure (.putAggregates (← fs.required names "runtime_id" Json.asId?)
      (← fs.required names "package_id" Json.asId?)
      (← fs.required names "rows" (Json.asList? asRow?)))
  else none

/-- How deep the record of a write may nest. -/
def maxDepth : Nat := 126

/-- Reads a write: a record in which one field tells the kind of write, or an array that begins with
the name of the kind. -/
def ofJson? (j : Json) : Option Write :=
  if !j.isReadable maxDepth then none
  else
    match j with
    | .object fields =>
      match fields.filter (fun f => f.1.content == some tag) with
      | [(_, name)] => do
        ofParts? (← name.asString?) (.object (fields.filter fun f => f.1.content != some tag))
      | _ => none
    | .array (name :: rest) => do ofParts? (← name.asString?) (.array rest)
    | _ => none

end Write

namespace Journal

def line (writes : List Write) : String :=
  (Json.array (writes.map Write.toJson)).render ++ "\n"

def readLine? (s : String) : Option (List Write) :=
  (Json.parse s).bind (Json.asList? Write.ofJson?)

/-- The part of a journal up to and with its last line feed. -/
def completePart (s : String) : String :=
  String.ofList (s.toList.reverse.dropWhile (· != '\n')).reverse

/-- The tables after all complete lines of a journal, blank ones aside. -/
def replay? (t : Tables) (journal : String) : Option Tables :=
  ((Text.lines (completePart journal)).filter fun l => !Text.isAllBlank l).foldlM
    (fun t l => (readLine? l).map t.applyAll) t

end Journal

end DataQuality
