import DataQuality.Files.Tree

/-!
# Routes

A route is a written path together with the folder from which it is followed. It is followed name by
name, and where a name leads to a link, the path that is written there is followed first. Whatever a
route passes through has to be a folder that is there, also where two points lead back out of it. A
written path or a name may be too long to be followed, and a zero character would end it.

A file is loaded by reading its text and then a datum from the text. The two ways to fail are kept
apart.
-/
namespace DataQuality.Files

/-- A written path and the folder from which it is followed. -/
structure Route where
  folder : Path
  written : String
  deriving DecidableEq

namespace Route

/-- The most bytes that a name has. -/
def longestName : Nat := 255

/-- The most bytes that a written path has. -/
def longestPath : Nat := 4095

/-- Whether the written path can be followed at all. -/
def isUsable (r : Route) : Bool :=
  r.written.utf8ByteSize ≤ longestPath && !r.written.toList.contains '\x00'

/-- Where a written path begins: at the root if it begins with a slash. -/
def startOf (folder : Path) (written : String) : Path :=
  if written.toList.head? = some '/' then [] else folder

/-- What is written between the slashes of a path. -/
def namesOf (written : String) : List String := (written.toList.splitOn '/').map String.ofList

def start (r : Route) : Path := startOf r.folder r.written

def names (r : Route) : List String := namesOf r.written

/-- The names that lead somewhere else. -/
def steps (r : Route) : List String := r.names.filter fun name => name ≠ "" ∧ name ≠ "."

/-- The paths through which the route leads, if all of them are there, and its end. -/
def passes (r : Route) : List Path :=
  (List.range (r.names.length + 1)).map fun i => (r.names.take i).foldl Path.follow r.start

/-- Where the route ends, if all that it leads through is there. -/
def target (r : Route) : Path := r.names.foldl Path.follow r.start

/-- The route to what has a name in the folder to which a route leads. -/
def join (r : Route) (name : String) : Route :=
  if r.written = "" || r.written.toList.getLast? = some '/' then ⟨r.folder, r.written ++ name⟩
  else ⟨r.folder, r.written ++ "/" ++ name⟩

/-- Whether the route leads to a file of JSON, by its name. -/
def isJson (r : Route) : Bool := r.steps.getLast?.any Path.isJson

/-- Follows names. Before each further one, a folder has to be reached. Where a link is reached, `again`
follows what is written there and the names after it; a link at the end stays if `atEnd` says so. -/
def walkWith (again : Path → List String → Except FileError Path) (atEnd : Bool) (t : Tree) :
    Path → List String → Except FileError Path
  | p, [] => .ok p
  | p, name :: rest =>
    match t.lookup? p with
    | none => .error .missing
    | some (.file _) => .error .unusable
    | some (.link _) => .error .unusable
    | some .folder =>
      if longestName < name.utf8ByteSize then .error .unusable
      else
        match t.lookup? (p.follow name) with
        | some (.link goal) =>
          if atEnd && rest.isEmpty then .ok (p.follow name)
          else again (startOf p goal) (namesOf goal ++ rest)
        | _ => walkWith again atEnd t (p.follow name) rest

/-- Follows names and a number of links at most. -/
def walkLinks (atEnd : Bool) (t : Tree) : Nat → Path → List String → Except FileError Path
  | 0 => fun _ _ => .error .unusable
  | links + 1 => walkWith (walkLinks atEnd t links) atEnd t

/-- The most links that are followed on one route. -/
def mostLinks : Nat := 40

def walk (t : Tree) (p : Path) (names : List String) : Except FileError Path :=
  walkLinks false t (mostLinks + 1) p names

/-- Where the route ends. An empty path leads to nothing. -/
def follow (r : Route) (t : Tree) : Except FileError Path :=
  if r.written = "" then .error .missing
  else if !r.isUsable then .error .unusable
  else walk t r.start r.names

/-- Where the route ends if a link at its end is not followed. -/
def reach (r : Route) (t : Tree) : Except FileError Path :=
  if r.written = "" then .error .missing
  else if !r.isUsable then .error .unusable
  else walkLinks true t (mostLinks + 1) r.start r.names

def goal? (r : Route) (t : Tree) : Option Entry := do t.lookup? (← (r.follow t).toOption)

def readText (r : Route) (t : Tree) : Except FileError String := do
  t.readText (← r.follow t)

/-- Writes the file to which the route leads, in place of what it held. -/
def write? (r : Route) (content : ByteArray) (t : Tree) : Option Tree := do
  t.write? (← (r.follow t).toOption) content

/-- Writes bytes after those that the file holds to which the route leads, if it is there. -/
def append? (r : Route) (content : ByteArray) (t : Tree) : Option Tree := do
  t.append? (← (r.follow t).toOption) content

def removeFile? (r : Route) (t : Tree) : Option Tree := do
  t.removeFile? (← (r.reach t).toOption)

/-- Gives a file the path to which another route leads, in place of the file that was there. -/
def rename? (source goal : Route) (t : Tree) : Option Tree := do
  t.rename? (← (source.reach t).toOption) (← (goal.reach t).toOption)

/-- The names of what lies in the folder to which the route leads, in order. -/
def list? (r : Route) (t : Tree) : Option (List String) := do
  t.list? (← (r.follow t).toOption)

/-- A change of a tree that may fail. What it has done before it fails remains. -/
abbrev Change := ExceptT FileError (StateM Tree)

/-- Makes the folder to which names lead. What they lead through has to be there. -/
def makeLast (start : Path) (names : List String) : Change Unit := do
  let t ← get
  let p ← liftExcept (walk t start names)
  match t.lookup? p with
  | some .folder => pure ()
  | some _ => throw .unusable
  | none => set (t.put p .folder)
where
  /-- Takes over a result. -/
  liftExcept : Except FileError Path → Change Path
    | .ok p => pure p
    | .error e => throw e

/-- Makes a folder. If something is missing on the way to it, `before` is carried out and the folder
is made then. -/
def makeAfter (start : Path) (names : List String) (before : Change Unit) : Change Unit :=
  tryCatch (makeLast start names) fun e =>
    match e with
    | .missing => do
      before
      makeLast start names
    | .unusable => throw .unusable

/-- Makes the folder to which names lead, given last one first, and those they lead through. -/
def makeAll (start : Path) : List String → Change Unit
  | [] => pure ()
  | name :: rest => makeAfter start (rest.reverse ++ [name]) (makeAll start rest)

/-- Makes the folder to which the route leads, and those it leads through, where they are not there.
Slashes at the end do not count. -/
def makeFolder (r : Route) : Change Unit :=
  if r.written = "" then pure ()
  else if !r.isUsable then throw .unusable
  else
    let names := (r.names.reverse.dropWhile (· = "")).reverse
    makeAfter r.start names (makeAll r.start r.steps.reverse.tail)

end Route

/-- Why a datum cannot be loaded from a file. -/
inductive LoadError
  /-- There is no text to be read. -/
  | unreadable
  /-- The text does not hold the datum. -/
  | malformed
  deriving DecidableEq, Repr

/-- Loads a datum from the file to which a route leads. -/
def load {α : Type} (read? : String → Option α) (t : Tree) (r : Route) : Except LoadError α :=
  match r.readText t with
  | .error _ => .error .unreadable
  | .ok s =>
    match read? s with
    | some a => .ok a
    | none => .error .malformed

/-- Loading succeeds exactly when the file has a text that holds the datum. -/
theorem load_eq_ok_iff {α : Type} (read? : String → Option α) (t : Tree) (r : Route) (a : α) :
    load read? t r = .ok a ↔ ∃ s, r.readText t = .ok s ∧ read? s = some a := by
  unfold load
  cases r.readText t with
  | error e => simp
  | ok s => cases h : read? s <;> simp [h]

end DataQuality.Files
