import DataQuality.Id

/-!
# Outcomes

A rule evaluated on a unit of a document ends in a verdict. Verdicts that could not decide are
dropped, the others are kept as codes and counted by rule.
-/
namespace DataQuality

/-- An outcome that is kept. -/
inductive Code
  | pass
  | fail
  | error
  deriving DecidableEq, Repr

namespace Code

def all : List Code := [.pass, .fail, .error]

def name : Code → String
  | .pass => "PASS"
  | .fail => "FAIL"
  | .error => "ERROR"

def ofName? (s : String) : Option Code := all.find? (·.name == s)

@[simp] theorem ofName?_name (c : Code) : ofName? c.name = some c := by
  cases c <;> decide

end Code

/-- The outcome of one rule on one unit. -/
inductive Verdict
  | pass
  | fail
  | skip
  | error
  deriving DecidableEq, Repr

/-- The code that is kept for a verdict; nothing is kept of a rule that could not decide. -/
def Verdict.code? : Verdict → Option Code
  | .pass => some .pass
  | .fail => some .fail
  | .skip => none
  | .error => some .error

@[simp] theorem Verdict.code?_eq_none_iff (v : Verdict) : v.code? = none ↔ v = .skip := by
  cases v <;> simp [Verdict.code?]

/-- One kept outcome. -/
structure TestResult where
  runtimeId : RuntimeId
  packageId : PackageId
  testId : RuleId
  code : Code
  /-- The identifier of the activity; organisations and whole documents have none. -/
  identifier : Option String
  hierarchy : Int64
  organisationId : Option OrganisationId
  deriving DecidableEq

/-- One kept metric value. -/
structure InfoResult where
  runtimeId : RuntimeId
  packageId : PackageId
  organisationId : OrganisationId
  infoId : InfoId
  value : Float

/-- How often a rule passed, failed and raised an error for one organisation of a package in a run. -/
structure AggregateRow where
  runtimeId : RuntimeId
  packageId : PackageId
  organisationId : Option OrganisationId
  testId : RuleId
  pass : UInt64
  fail : UInt64
  error : UInt64
  deriving DecidableEq

namespace AggregateRow

/-- The row of a rule of which nothing has been counted yet. -/
def zero (runtimeId : RuntimeId) (packageId : PackageId) (organisationId : Option OrganisationId)
    (testId : RuleId) : AggregateRow :=
  ⟨runtimeId, packageId, organisationId, testId, 0, 0, 0⟩

def count (row : AggregateRow) : Code → AggregateRow
  | .pass => { row with pass := row.pass + 1 }
  | .fail => { row with fail := row.fail + 1 }
  | .error => { row with error := row.error + 1 }

/-- The number of outcomes counted. -/
def total (row : AggregateRow) : UInt64 := row.pass + row.fail + row.error

@[simp] theorem total_zero (r : RuntimeId) (p : PackageId) (o : Option OrganisationId) (t : RuleId) :
    (zero r p o t).total = 0 := rfl

@[simp] theorem total_count (row : AggregateRow) (c : Code) :
    (row.count c).total = row.total + 1 := by
  cases c <;> simp only [count, total] <;> ac_rfl

end AggregateRow

end DataQuality
