import DataQuality.Json.Decode
import DataQuality.Outcome
import DataQuality.Rule

/-!
# Identifiers, levels and rules in JSON

Identifiers are integers, levels are names, and a rule is a record whose last field, whether it is
active, may be left out.
-/
namespace DataQuality.Json

/-- The value of an identifier. -/
def ofId {kind : IdKind} (i : Id kind) : Json := ofInt i.toInt

/-- Reads an identifier. -/
def asId? {kind : IdKind} (j : Json) : Option (Id kind) := j.asInt64?.map fun i => ⟨i⟩

def ofLevel (l : Level) : Json := ofString l.name

def asLevel? (j : Json) : Option Level := j.asName? false Level.ofName?

def ruleFields : List String := ["id", "text", "level", "active"]

def asRule? (j : Json) : Option RuleDefinition := do
  let fs ← j.asRecord? ruleFields
  let id ← fs.required ruleFields "id" asId?
  let sentence ← fs.required ruleFields "text" asString?
  let level ← fs.required ruleFields "level" asLevel?
  let active ← fs.withDefault ruleFields "active" true asBool?
  pure ⟨id, sentence, level, active⟩

def ofRule (r : RuleDefinition) : Json := record [
  ("id", ofId r.id),
  ("text", ofString r.sentence),
  ("level", ofLevel r.level),
  ("active", .bool r.active)]

@[simp] theorem asLevel?_ofLevel (l : Level) : asLevel? (ofLevel l) = some l := by
  simp [asLevel?, asName?, ofLevel, ofString]

end DataQuality.Json
