import DataQuality.Calendar.Instant
import DataQuality.Files.Route
import DataQuality.Queue.Memory

/-!
# Spools

A spool is a queue in a folder. Each body is a file of its own, whose name tells when it was pushed, so
that the order of names is the order of pushes. A body is written under a temporary name and then
renamed, so that nobody sees a part of it. It is removed once it has been read.
-/
namespace DataQuality

open Files (Path Route Tree)

/-- A spool, as one of its users holds it. -/
structure Spool where
  directory : Route
  /-- How often this user has pushed. -/
  pushes : Nat
  deriving DecidableEq

namespace Spool

/-- The name of the body that is pushed as the `n`th at some time, without its extension. -/
def bodyName (now : Instant) (n : Nat) : String :=
  String.ofList (now.compactChars ++ '-' :: Decimal.padded 6 n)

def fileName (name : String) : String := name ++ ".json"

/-- The name of the file of a body that is being written. -/
def temporaryName (name : String) : String := name ++ ".tmp"

/-- Opens the spool in a folder, which is made if it is not there. Gives the tree of files even if
opening fails. -/
def inFolder (t : Tree) (directory : Route) : Except QueueError Spool × Tree :=
  match directory.makeFolder.run t with
  | (.ok _, t) => (.ok ⟨directory, 0⟩, t)
  | (.error _, t) => (.error .io, t)

def stage? (s : Spool) (t : Tree) (name body : String) : Option Tree :=
  (s.directory.join (temporaryName name)).write? body.toUTF8 t

/-- Gives a body that was written its own name. -/
def publish? (s : Spool) (t : Tree) (name : String) : Option Tree :=
  (s.directory.join (temporaryName name)).rename? (s.directory.join (fileName name)) t

/-- Pushes a body. A failed push counts, too. -/
def push (now : Instant) (body : String) (s : Spool) (t : Tree) : Except QueueError Tree × Spool :=
  let s := { s with pushes := s.pushes + 1 }
  let name := bodyName now s.pushes
  match (s.stage? t name body).bind fun t => s.publish? t name with
  | some t => (.ok t, s)
  | none => (.error .io, s)

/-- The names of the waiting files, front first. -/
def waiting (s : Spool) (t : Tree) : Except QueueError (List String) :=
  match s.directory.list? t with
  | some names => .ok (names.filter Path.isJson)
  | none => .error .io

/-- Reads and removes a waiting file. One that cannot be read stays. -/
def take (s : Spool) (t : Tree) (name : String) : Except QueueError (String × Tree) :=
  let path := s.directory.join name
  match path.readText t with
  | .error _ => .error .io
  | .ok body =>
    match path.removeFile? t with
    | some t => .ok (body, t)
    | none => .error .io

/-- Takes the body at the front, if there is one. -/
def pop (s : Spool) (t : Tree) : Except QueueError (Option (String × Tree)) :=
  match s.waiting t with
  | .error e => .error e
  | .ok [] => .ok none
  | .ok (name :: _) => (s.take t name).map some

end Spool

end DataQuality
