import DataQuality.Job
import DataQuality.Queue.Memory

/-!
# Workers

A worker takes bodies off a queue one at a time and carries out the jobs they hold. A body that holds
no job, and a job that fails, are counted and dropped.
-/
namespace DataQuality

/-- What became of the bodies of a queue. -/
structure DrainCounts where
  /-- Jobs that were carried out. -/
  handled : Nat
  /-- Jobs that failed. -/
  failed : Nat
  /-- Bodies that held no job. -/
  malformed : Nat
  deriving DecidableEq, Repr

namespace DrainCounts

def zero : DrainCounts := ⟨0, 0, 0⟩

/-- The number of bodies. -/
def total (c : DrainCounts) : Nat := c.handled + c.failed + c.malformed

def countJob {ε : Type} (c : DrainCounts) : Except ε Unit → DrainCounts
  | .ok _ => { c with handled := c.handled + 1 }
  | .error _ => { c with failed := c.failed + 1 }

/-- Counts a body without a job. -/
def countMalformed (c : DrainCounts) : DrainCounts := { c with malformed := c.malformed + 1 }

@[simp] theorem total_zero : zero.total = 0 := rfl

@[simp] theorem total_countJob {ε : Type} (c : DrainCounts) (r : Except ε Unit) :
    (c.countJob r).total = c.total + 1 := by
  cases r <;> simp only [countJob, total] <;> omega

@[simp] theorem total_countMalformed (c : DrainCounts) :
    c.countMalformed.total = c.total + 1 := rfl

end DrainCounts

/-- A queue, and how its jobs are carried out, over one state. -/
structure Worker (σ ε : Type) where
  /-- How many bodies are waiting. -/
  waiting : σ → Nat
  /-- Takes the body at the front off the queue, if there is one. -/
  pop : σ → Except QueueError (Option (String × σ))
  /-- Carries out a job. -/
  handle : Job → σ → Except ε Unit × σ

namespace Worker

variable {σ ε : Type}

/-- Carries out the job of a body, if it holds one. -/
def process (w : Worker σ ε) (body : String) (c : DrainCounts) (s : σ) : DrainCounts × σ :=
  match Job.decode? body with
  | none => (c.countMalformed, s)
  | some job =>
    let (result, s) := w.handle job s
    (c.countJob result, s)

/-- Takes bodies off the queue until it is empty, but at most `limit` of them. -/
def drainAtMost (w : Worker σ ε) : Nat → DrainCounts → σ → Except QueueError DrainCounts × σ
  | 0, c, s => (.ok c, s)
  | limit + 1, c, s =>
    match w.pop s with
    | .error e => (.error e, s)
    | .ok none => (.ok c, s)
    | .ok (some (body, s)) =>
      let (c, s) := w.process body c s
      w.drainAtMost limit c s

/-- Takes bodies off the queue until it is empty. The last look finds it empty, unless jobs were added
meanwhile. -/
def drain (w : Worker σ ε) (s : σ) : Except QueueError DrainCounts × σ :=
  w.drainAtMost (w.waiting s + 1) .zero s

/-- A worker on a queue in memory. The handler keeps a state of its own. -/
def onMemory (handle : Job → σ → Except ε Unit × σ) : Worker (MemoryQueue × σ) ε where
  waiting s := s.1.size
  pop s := .ok (s.1.pop?.map fun (body, q) => (body, (q, s.2)))
  handle job s :=
    let (result, h) := handle job s.2
    (result, (s.1, h))

@[simp] theorem total_process (w : Worker σ ε) (body : String) (c : DrainCounts) (s : σ) :
    (w.process body c s).1.total = c.total + 1 := by
  simp only [process]
  split <;> simp

end Worker

end DataQuality
