import DataQuality.Store.Tables

/-!
# Ledgers

A ledger is a set of tables with the writes that are staged against them. Staged writes are seen by
nobody. They take effect together, or are dropped together.
-/
namespace DataQuality

/-- Why a call to a store fails. -/
inductive StoreError
  /-- A file could not be read or written. -/
  | io
  /-- A file does not hold what it should. -/
  | json
  | other (message : String)
  deriving DecidableEq, Repr

/-- Tables, and the writes staged against them. -/
structure Ledger where
  tables : Tables
  staged : List Write

namespace Ledger

/-- A ledger with nothing staged. -/
def ofTables (t : Tables) : Ledger := ⟨t, []⟩

def stage (l : Ledger) (w : Write) : Ledger := { l with staged := l.staged ++ [w] }

/-- Carries out what is staged. -/
def settle (l : Ledger) : Ledger := ⟨l.tables.applyAll l.staged, []⟩

/-- Drops what is staged. -/
def discard (l : Ledger) : Ledger := { l with staged := [] }

def startRun (l : Ledger) (now : Instant) : RuntimeId × Ledger :=
  let id := l.tables.nextRuntimeId l.staged
  (id, l.stage (.startRun ⟨id, now⟩))

/-- Counts the results of a package in a run, and stages the rows. -/
def aggregate (l : Ledger) (runtimeId : RuntimeId) (packageId : PackageId) :
    List AggregateRow × Ledger :=
  let rows := l.tables.aggregate runtimeId packageId
  (rows, l.stage (.putAggregates runtimeId packageId rows))

@[simp] theorem staged_settle (l : Ledger) : l.settle.staged = [] := rfl

end Ledger

/-- A computation that changes a store and may fail. What it has done to the store remains. -/
abbrev StoreM (σ α : Type) := ExceptT StoreError (StateM σ) α

/-- What testing needs of a store. -/
class Datastore (σ : Type) where
  /-- The committed tables and what is staged. -/
  ledger : σ → Ledger
  /-- Stages a write. -/
  stage : Write → StoreM σ Unit
  /-- Stages the start of a new run. -/
  startRun : Instant → StoreM σ RuntimeId
  /-- Counts the results of a package in a run, and stages the rows. -/
  aggregate : RuntimeId → PackageId → StoreM σ (List AggregateRow)
  /-- The organisations to test in a package. -/
  organisationsOf : PackageId → StoreM σ (List Target)
  /-- Carries out what is staged. -/
  commit : String → StoreM σ Unit
  /-- Drops what is staged. -/
  rollback : StoreM σ Unit

end DataQuality
