/-!
# Trees of files

A tree of folders, as far as programs see it: each path leads from its root down to a file with its bytes,
to a folder, to a link or to nothing. Each operation fails where it would on a disk that is never full.
-/
namespace DataQuality.Files

/-- The names to follow from the root. -/
abbrev Path := List String

namespace Path

/-- Follows one more name. No name and one point stay, two points lead back. -/
def follow (p : Path) (name : String) : Path :=
  if name = "" || name = "." then p
  else if name = ".." then p.dropLast
  else p ++ [name]

/-- The paths that lead to a path: of its folders, outermost first, and itself. -/
def stages (p : Path) : List Path := (List.range p.length).map fun i => p.take (i + 1)

/-- The written form of a path. -/
def text (p : Path) : String := "/" ++ "/".intercalate p

/-- The part of a file name after its last point. A name that begins with its only point has none. -/
def extension? (name : String) : Option String :=
  let cs := name.toList.reverse
  let after := cs.takeWhile (· != '.')
  match cs.drop after.length with
  | '.' :: _ :: _ => if name = ".." then none else some (String.ofList after.reverse)
  | _ => none

/-- Whether a file holds JSON, by its name. -/
def isJson (name : String) : Bool := extension? name == some "json"

end Path

/-- What a path leads to. -/
inductive Entry
  | file (content : ByteArray)
  | folder
  /-- A written path that is followed in place of this one. -/
  | link (goal : String)

/-- Why nothing can be done with a path. -/
inductive FileError
  /-- The path leads to nothing. -/
  | missing
  /-- The path leads to a folder where a file is asked for, or through a file, or the file holds no
  text, or the path cannot be followed at all. -/
  | unusable
  deriving DecidableEq, Repr

/-- A tree: its paths, other than that of the root, and what they lead to. -/
structure Tree where
  entries : List (Path × Entry)
  /-- The rights of the paths for which they have been set, as numbers of twelve bits. -/
  rights : List (Path × Nat) := []
  /-- The groups of paths that lead to one and the same file. -/
  groups : List (List Path) := []
  /-- The seconds of the changes that are said to have been at another time than they were. -/
  times : List (Path × Int) := []

namespace Tree

def empty : Tree := { entries := [] }

def lookup? (t : Tree) (p : Path) : Option Entry :=
  if p = [] then some .folder else t.entries.lookup p

def isFolder (t : Tree) (p : Path) : Bool :=
  match t.lookup? p with
  | some .folder => true
  | _ => false

def isFile (t : Tree) (p : Path) : Bool :=
  match t.lookup? p with
  | some (.file _) => true
  | _ => false

/-- Whether a path leads to anything. -/
def has (t : Tree) (p : Path) : Bool := (t.lookup? p).isSome

/-- The paths that lead to the same file as a path does, itself first. -/
def group (t : Tree) (p : Path) : List Path :=
  p :: ((t.groups.find? (·.contains p)).getD []).filter (· != p)

/-- The tree without some paths. -/
def keep (t : Tree) (isKept : Path → Bool) : Tree where
  entries := t.entries.filter fun e => isKept e.1
  rights := t.rights.filter fun e => isKept e.1
  groups := t.groups.map fun g => g.filter isKept
  times := t.times.filter fun e => isKept e.1

/-- The tree without what a path leads to. -/
def erase (t : Tree) (p : Path) : Tree := t.keep (· != p)

/-- The tree in which a path leads to an entry. The rights of the path stay as they are. What is put in
place of a file is put there for all paths that lead to the file. -/
def put (t : Tree) (p : Path) (e : Entry) : Tree :=
  match e with
  | .file _ =>
    let paths := t.group p
    { t with
      entries := paths.map (·, e) ++ t.entries.filter fun (q, _) => !paths.contains q
      times := t.times.filter fun (q, _) => !paths.contains q }
  | _ => { t.erase p with entries := (p, e) :: (t.erase p).entries, rights := t.rights }

/-- The tree in which a path has some rights, and with it those that lead to the same file. -/
def allow (t : Tree) (p : Path) (rights : Nat) : Tree :=
  let paths := t.group p
  { t with
    rights := paths.map (·, rights) ++ t.rights.filter fun (q, _) => !paths.contains q }

/-- The tree in which a path is said to have been changed at some second. -/
def date (t : Tree) (p : Path) (second : Int) : Tree :=
  let paths := t.group p
  { t with
    times := paths.map (·, second) ++ t.times.filter fun (q, _) => !paths.contains q }

/-- The tree in which a second path leads to the file that a first one leads to. -/
def tie (t : Tree) (p q : Path) : Tree :=
  let t := t.erase q
  let also (e : Path × Entry) : List (Path × Entry) := if e.1 = p then [e, (q, e.2)] else [e]
  { entries := t.entries.flatMap also
    rights := ((t.rights.lookup p).map (q, ·)).toList ++ t.rights
    groups := (q :: t.group p) :: t.groups.filter fun g => !g.contains p
    times := ((t.times.lookup p).map (q, ·)).toList ++ t.times }

def read (t : Tree) (p : Path) : Except FileError ByteArray :=
  match t.lookup? p with
  | some (.file content) => .ok content
  | some _ => .error .unusable
  | none => .error .missing

def readText (t : Tree) (p : Path) : Except FileError String :=
  match t.read p with
  | .error e => .error e
  | .ok content =>
    match String.fromUTF8? content with
    | some s => .ok s
    | none => .error .unusable

/-- Writes a file, in place of what it held. -/
def write? (t : Tree) (p : Path) (content : ByteArray) : Option Tree :=
  if t.isFolder p || !t.isFolder p.dropLast then none else some (t.put p (.file content))

/-- Writes bytes after those that a file holds, if it is there. -/
def append? (t : Tree) (p : Path) (content : ByteArray) : Option Tree :=
  match t.lookup? p with
  | some (.file before) => some (t.put p (.file (before ++ content)))
  | _ => t.write? p content

def removeFile? (t : Tree) (p : Path) : Option Tree :=
  if t.has p && !t.isFolder p then some (t.erase p) else none

/-- Gives a file another path, in place of the file that was there. -/
def rename? (t : Tree) (source target : Path) : Option Tree :=
  match t.lookup? source with
  | some (.file content) =>
    if t.isFolder target then none else ((t.erase source).erase target).write? target content
  | _ => none

def removeFolder (t : Tree) (p : Path) : Tree := t.keep fun q => !p.isPrefixOf q

/-- The names of what lies in a folder, in order. -/
def list? (t : Tree) (p : Path) : Option (List String) :=
  if t.isFolder p then
    let names := t.entries.filterMap fun (q, _) =>
      if q ≠ [] ∧ q.dropLast = p then q.getLast? else none
    some (names.mergeSort fun a b => !(b < a))
  else none

/-- A path leads to what was put there last. -/
@[simp] theorem lookup?_put (t : Tree) (p : Path) (e : Entry) (h : p ≠ []) :
    (t.put p e).lookup? p = some e := by
  cases e <;> simp [lookup?, put, group, h]

end Tree

end DataQuality.Files
