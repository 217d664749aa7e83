import DataQuality.Json.Domain
import DataQuality.Json.Writer

/-!
# Jobs

A job asks for one package file to be tested in a run. It travels as the text of a JSON record.
-/
namespace DataQuality

/-- A request to test one package file. -/
structure Job where
  filename : String
  runtimeId : RuntimeId
  packageId : PackageId
  deriving DecidableEq

namespace Job

/-- The field names of a job. -/
def fields : List String := ["filename", "runtime_id", "package_id"]

def ofJson? (j : Json) : Option Job := do
  let fs ← j.asRecord? fields
  let filename ← fs.required fields "filename" Json.asString?
  let runtimeId ← fs.required fields "runtime_id" Json.asId?
  let packageId ← fs.required fields "package_id" Json.asId?
  pure ⟨filename, runtimeId, packageId⟩

def toJson (job : Job) : Json :=
  Json.record [
    ("filename", Json.ofString job.filename),
    ("runtime_id", Json.ofId job.runtimeId),
    ("package_id", Json.ofId job.packageId)]

/-- Reads the body of a queued message. -/
def decode? (body : String) : Option Job := (Json.parse body).bind ofJson?

/-- The body of the message that queues a job. -/
def encode (job : Job) : String := job.toJson.render

end Job

end DataQuality
