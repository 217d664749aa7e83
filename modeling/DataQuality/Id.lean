import DataQuality.Decimal.Integer
import DataQuality.Text.Quoted

/-!
# Identifiers

Rules, runs, packages, organisations and info metrics are known by 64-bit integers. An identifier
carries its kind in its type, so that identifiers of different kinds are never confused.
-/
namespace DataQuality

/-- What an identifier identifies. -/
inductive IdKind
  | rule
  | runtime
  | package
  | organisation
  | info
  deriving DecidableEq, Repr

namespace IdKind

def name : IdKind → String
  | .rule => "rule"
  | .runtime => "runtime"
  | .package => "package"
  | .organisation => "organisation"
  | .info => "info"

def all : List IdKind := [.rule, .runtime, .package, .organisation, .info]

def ofName? (s : String) : Option IdKind := all.find? (·.name == s)

end IdKind

/-- An identifier of one kind. -/
structure Id (kind : IdKind) where
  value : Int64
  deriving DecidableEq

/-- Identifier of a rule. -/
abbrev RuleId := Id .rule

/-- Identifier that groups every result of one execution. -/
abbrev RuntimeId := Id .runtime

/-- Identifier of a published package, that is, of one document. -/
abbrev PackageId := Id .package

/-- Identifier of a publishing organisation. -/
abbrev OrganisationId := Id .organisation

/-- Identifier of a configured info metric. -/
abbrev InfoId := Id .info

/-- A text that is not an identifier of the wanted kind. -/
structure IdError where
  kind : IdKind
  text : String
  deriving DecidableEq

/-- The message of the error. It quotes the text as it was given. -/
def IdError.message (e : IdError) : String :=
  "invalid " ++ e.kind.name ++ " id: " ++ Text.quoted e.text

namespace Id

variable {kind : IdKind}

/-- The integer behind an identifier. -/
def toInt (i : Id kind) : Int := i.value.toInt

/-- The decimal form of an identifier. -/
def text (i : Id kind) : String := Decimal.ofInt64 i.value

/-- Reads an identifier, with blank characters allowed around it. -/
def parse (kind : IdKind) (s : String) : Except IdError (Id kind) :=
  match Decimal.readInt64? (Text.trimChars s.toList) with
  | some i => .ok ⟨i⟩
  | none => .error ⟨kind, s⟩

/-- Whether one identifier comes before another. -/
def before (a b : Id kind) : Bool := a.value < b.value

/-- A text is an identifier exactly when its trimmed characters are a 64-bit integer. -/
theorem parse_eq_ok_iff {s : String} {i : Id kind} :
    parse kind s = .ok i ↔ Decimal.readInt64? (Text.trimChars s.toList) = some i.value := by
  unfold parse
  cases h : Decimal.readInt64? (Text.trimChars s.toList) with
  | none => simp
  | some v =>
    simp only [Except.ok.injEq, Option.some.injEq]
    exact ⟨fun e => e ▸ rfl, fun e => by cases i; simp_all⟩

end Id

/-- Rule identifier under which the validity of a document is recorded. Rule files number their rules
from one. -/
def validDocumentId : RuleId := ⟨0⟩

end DataQuality
