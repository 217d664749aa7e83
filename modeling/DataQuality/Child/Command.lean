import DataQuality.Job
import DataQuality.Testing

/-!
# Children

A job may be carried out by a child: a program that is started for this one job. Only how the child
ends matters.
-/
namespace DataQuality

inductive ChildStatus
  /-- It could not be started. -/
  | notStarted
  | exited (code : Nat)
  /-- A signal ended it. -/
  | signalled
  deriving DecidableEq, Repr

/-- A program to start for each job, and the arguments that come before those of the job. -/
structure ChildCommand where
  program : String
  arguments : List String
  deriving DecidableEq

namespace ChildCommand

def jobArguments (job : Job) : List String :=
  ["test-package", "--package-id", job.packageId.text, "--runtime-id", job.runtimeId.text,
    "--filename", job.filename]

def argumentsFor (c : ChildCommand) (job : Job) : List String := c.arguments ++ jobArguments job

/-- Whether a program can be started with these arguments at all: a zero character ends an argument,
so none may hold one. -/
def isStartable (program : String) (arguments : List String) : Bool :=
  (program :: arguments).all fun s => !s.toList.contains '\x00'

end ChildCommand

/-- Why a job fails. -/
inductive JobError
  | testing (error : TestingError)
  | notStarted
  /-- The child ended without success; without a code if a signal ended it. -/
  | childFailed (packageId : PackageId) (code : Option Nat)
  deriving DecidableEq

namespace JobError

def message : JobError → String
  | testing e => e.message
  | notStarted => "cannot start child process"
  | childFailed p code =>
    "child process for package " ++ p.text ++ " exited with " ++
      match code with
      | some c => "status " ++ Decimal.ofNat c
      | none => "a signal"

end JobError

def ChildStatus.result (packageId : PackageId) : ChildStatus → Except JobError Unit
  | .notStarted => .error .notStarted
  | .exited 0 => .ok ()
  | .exited code => .error (.childFailed packageId (some code))
  | .signalled => .error (.childFailed packageId none)

/-- A job succeeds exactly when its child exits with code zero. -/
theorem ChildStatus.result_eq_ok_iff (p : PackageId) (s : ChildStatus) :
    s.result p = .ok () ↔ s = .exited 0 := by
  cases s with
  | notStarted => simp [result]
  | signalled => simp [result]
  | exited code => cases code <;> simp [result]

end DataQuality
