import DataQuality.Store.Ledger

/-!
# Stores in memory

A store that keeps everything in memory and counts its commits.
-/
namespace DataQuality

structure MemoryStore where
  ledger : Ledger
  /-- How often a commit succeeded, those of nothing included. -/
  commits : Nat

namespace MemoryStore

/-- A store that holds nothing. -/
def empty : MemoryStore := ⟨.ofTables .empty, 0⟩

def withOrganisations (s : MemoryStore) (p : PackageId) (targets : List Target) : MemoryStore :=
  { s with ledger := { s.ledger with tables := s.ledger.tables.setOrganisations p targets } }

def modifyLedger (f : Ledger → Ledger) : StoreM MemoryStore Unit :=
  modify fun s => { s with ledger := f s.ledger }

/-- Changes the ledger and takes a result from it. -/
def withLedger {α : Type} (f : Ledger → α × Ledger) : StoreM MemoryStore α :=
  modifyGet fun s => let (a, l) := f s.ledger; (a, { s with ledger := l })

instance : Datastore MemoryStore where
  ledger s := s.ledger
  stage w := modifyLedger (·.stage w)
  startRun now := withLedger (·.startRun now)
  aggregate r p := withLedger (·.aggregate r p)
  organisationsOf p := do return (← get).ledger.tables.organisationsOf p
  commit _ := modify fun s => ⟨s.ledger.settle, s.commits + 1⟩
  rollback := modifyLedger Ledger.discard

end MemoryStore

end DataQuality
