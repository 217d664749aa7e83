/-!
# Queues in memory

Bodies leave a queue in the order in which they entered it.
-/
namespace DataQuality

/-- Why a queue fails. -/
inductive QueueError
  /-- A file or folder of the queue could not be read or written. -/
  | io
  deriving DecidableEq, Repr

structure MemoryQueue where
  /-- The waiting bodies, front first. -/
  bodies : List String
  deriving DecidableEq

namespace MemoryQueue

/-- The queue with nothing waiting. -/
def empty : MemoryQueue := ⟨[]⟩

/-- Adds a body at the back. -/
def push (q : MemoryQueue) (body : String) : MemoryQueue := ⟨q.bodies ++ [body]⟩

/-- Takes the body at the front. -/
def pop? (q : MemoryQueue) : Option (String × MemoryQueue) :=
  match q.bodies with
  | [] => none
  | body :: rest => some (body, ⟨rest⟩)

/-- The number of waiting bodies. -/
def size (q : MemoryQueue) : Nat := q.bodies.length

@[simp] theorem bodies_push (q : MemoryQueue) (body : String) :
    (q.push body).bodies = q.bodies ++ [body] := rfl

@[simp] theorem size_push (q : MemoryQueue) (body : String) : (q.push body).size = q.size + 1 := by
  simp [size]

/-- A body that was taken stood at the front. -/
theorem bodies_of_pop? {q rest : MemoryQueue} {body : String} (h : q.pop? = some (body, rest)) :
    q.bodies = body :: rest.bodies := by
  cases q with
  | mk bodies =>
    cases bodies with
    | nil => simp [pop?] at h
    | cons b bs =>
      simp only [pop?, Option.some.injEq, Prod.mk.injEq] at h
      obtain ⟨rfl, rfl⟩ := h
      rfl

end MemoryQueue

end DataQuality
