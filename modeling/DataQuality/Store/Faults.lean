import DataQuality.Decimal.Integer
import DataQuality.Store.Ledger

/-!
# Stores that fail

A store around another one, some of whose calls fail by plan before they reach it. Each kind of call is
counted on its own. Calls that matter to transactions are noted.
-/
namespace DataQuality

/-- The calls that testing makes on a store. -/
inductive StoreCall
  | saveResult
  | deleteResults
  | replaceInfo
  | startRun
  | recordTestrun
  | commit
  | rollback
  | organisationsOf
  | setStatus
  | aggregate
  deriving DecidableEq, Repr

namespace StoreCall

def name : StoreCall → String
  | saveResult => "save_result"
  | deleteResults => "delete_results"
  | replaceInfo => "replace_info_result"
  | startRun => "start_testrun"
  | recordTestrun => "record_testrun"
  | commit => "commit"
  | rollback => "rollback"
  | organisationsOf => "organisations_for_testing"
  | setStatus => "set_package_status"
  | aggregate => "aggregate_results"

def all : List StoreCall :=
  [saveResult, deleteResults, replaceInfo, startRun, recordTestrun, commit, rollback,
    organisationsOf, setStatus, aggregate]

def ofName? (s : String) : Option StoreCall := all.find? (·.name == s)

def ofWrite : Write → StoreCall
  | .saveResult _ => saveResult
  | .deleteResults _ => deleteResults
  | .replaceInfo _ => replaceInfo
  | .startRun _ => startRun
  | .recordTestrun _ _ => recordTestrun
  | .setStatus _ _ => setStatus
  | .putAggregates _ _ _ => aggregate

@[simp] theorem ofName?_name (c : StoreCall) : ofName? c.name = some c := by
  cases c <;> decide

end StoreCall

/-- A store some of whose calls fail. -/
structure FaultyStore (σ : Type) where
  inner : σ
  /-- Which calls fail: a kind, and the number of the call among those of the kind, from one on. -/
  plan : List (StoreCall × Nat)
  /-- The calls made so far, last one first. -/
  calls : List StoreCall
  /-- What was noted, last note first. -/
  notes : List String

namespace FaultyStore

variable {σ α : Type}

def around (inner : σ) (plan : List (StoreCall × Nat)) : FaultyStore σ := ⟨inner, plan, [], []⟩

def faultText (c : StoreCall) (nth : Nat) : String :=
  "injected " ++ c.name ++ " " ++ Decimal.ofNat nth

/-- Makes a call on the inner store, unless it is to fail. -/
def call (c : StoreCall) (note : Option String) (act : StoreM σ α) : StoreM (FaultyStore σ) α :=
  fun s =>
    let nth := s.calls.count c + 1
    let s := { s with calls := c :: s.calls }
    if s.plan.contains (c, nth) then
      (.error (.other (faultText c nth)), { s with notes := faultText c nth :: s.notes })
    else
      let (result, inner) := act s.inner
      (result, { s with inner := inner, notes := note.toList ++ s.notes })

instance [Datastore σ] : Datastore (FaultyStore σ) where
  ledger s := Datastore.ledger s.inner
  stage w := call (.ofWrite w) none (Datastore.stage w)
  startRun now := call .startRun none (Datastore.startRun now)
  aggregate r p := call .aggregate none (Datastore.aggregate r p)
  organisationsOf p := call .organisationsOf none (Datastore.organisationsOf p)
  commit message := call .commit (some ("commit " ++ message)) (Datastore.commit message)
  rollback := call .rollback (some "rollback") Datastore.rollback

end FaultyStore

end DataQuality
