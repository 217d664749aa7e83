import DataQuality.Shell.Format
import DataQuality.Shell.Tool.Disk

/-!
# Tools that look at files

Tools that list folders, that tell what is known of a file, and that follow paths.
-/
namespace DataQuality.Shell.Tool

open Files (Entry Path Tree)

def kindLetter (p : Path) : Entry → Char
  | .folder => 'd'
  | .link _ => 'l'
  | .file _ => if (device? p).isSome then 'c' else '-'

def rightsChars (n : Nat) : List Char :=
  ([6, 3, 0].map fun shift =>
    let bits := n / Nat.pow 2 shift % 8
    [if bits / 4 % 2 = 1 then 'r' else '-', if bits / 2 % 2 = 1 then 'w' else '-',
      if bits % 2 = 1 then 'x' else '-']).flatten

/-- The size of what a path leads to. -/
def sizeOf (e : Entry) : Nat :=
  match e with
  | .file content => content.size
  | .folder => 4096
  | .link goal => goal.utf8ByteSize

def entryRights (m : Machine) (p : Path) : Entry → Nat
  | .link _ => 0o777
  | _ => rightsOf m p

def isRunnable (m : Machine) (p : Path) : Entry → Bool
  | .file _ => rightsOf m p &&& 0o111 != 0
  | _ => false

/-- How many paths lead to an entry. To a folder lead, beside its own one, its own point and the two points
of the folders in it. -/
def linksTo (m : Machine) (p : Path) (e : Entry) : Nat :=
  match e with
  | .folder => 2 + (((m.tree.list? p).getD []).filter fun name => m.tree.isFolder (p ++ [name])).length
  | _ => (m.tree.group p).length

def listedName (g : Given) (m : Machine) (path name : String) : List Char :=
  match reached? m path with
  | some (p, e) =>
    let mark : List Char :=
      match e with
      | .folder => if g.has 'F' || g.has 'p' then ['/'] else []
      | .link goal => if g.has 'l' then " -> ".toList ++ (Bytes.encode goal).toList
        else if g.has 'F' then ['@'] else []
      | .file _ => if g.has 'F' && isRunnable m p e then ['*'] else []
    if g.has 'l' then
      let size := Decimal.natDigits (sizeOf e)
      kindLetter p e :: rightsChars (entryRights m p e) ++ ' ' :: Decimal.natDigits (linksTo m p e) ++
        " root root ".toList ++ padded 5 size ++
        " Jan  1 00:00 ".toList ++ name.toList ++ mark
    else name.toList ++ mark
  | none => name.toList

/-- The names in a folder that are listed, in order. -/
def listedNames (g : Given) (m : Machine) (path : String) : List String :=
  let names := namesIn m path
  let names := if g.has 'a' || g.has 'A' then names
    else names.filter fun n => n.toList.head? != some '.'
  let names := (if g.has 'a' then [".", ".."] else []) ++ names
  let isNewer (a b : String) : Bool :=
    match reached? m (joined path a), reached? m (joined path b) with
    | some (p, _), some (q, _) => m.world.isNewer p q
    | _, _ => false
  let size (name : String) : Nat :=
    ((reached? m (joined path name)).map fun (_, e) => sizeOf e).getD 0
  let names :=
    if g.has 't' then names.mergeSort fun a b => !isNewer b a
    else if g.has 'S' then names.mergeSort fun a b => size b ≤ size a
    else names
  if g.has 'r' then names.reverse else names

def listFolder (g : Given) (m : Machine) (path : String) : List Char :=
  let total := if g.has 'l' then "total 0\n".toList else []
  let between := if g.has 'm' then ", ".toList else ['\n']
  let rows := (listedNames g m path).map fun n => listedName g m (joined path n) n
  total ++ between.intercalate rows ++ if rows.isEmpty then [] else ['\n']

/-- The folders that are listed beside one, itself first. -/
def foldersUnder (g : Given) (m : Machine) : Nat → String → List String
  | 0, path => [path]
  | fuel + 1, path =>
    path :: ((listedNames g m path).filter fun n => n != "." && n != ".." &&
      isFolderAt m false (joined path n)).flatMap fun n => foldersUnder g m fuel (joined path n)

/-- Lists files and folders. -/
def ls : Action := fun g => do
  let m ← get
  let operands := if g.operands.isEmpty then ["."] else g.operands
  let missing := operands.filter fun s => !isThere m s
  for s in missing do
    say "ls" ("cannot access '" ++ s ++ "': " ++ Problem.missing.message)
  let there := (operands.filter (isThere m)).mergeSort fun a b => !(b < a)
  let isFolder (s : String) : Bool := !g.has 'd' && isFolderAt m (!g.has 'l') s
  let files := there.filter fun s => !isFolder s
  let folders := there.filter isFolder
  let folders := if g.has 'R' then folders.flatMap (foldersUnder g m deepestFolder) else folders
  for s in files do print (listedName g m s s ++ ['\n'])
  let headed := 1 < operands.length || g.has 'R'
  for (s, i) in folders.zipIdx do
    if headed then
      print ((if i = 0 && files.isEmpty then "" else "\n") ++ s ++ ":\n").toList
    print (listFolder g m s)
  return if missing.isEmpty then 0 else 2

/-- What a letter in a format for facts about a file stands for. -/
def fact (m : Machine) (name : String) (p : Path) (e : Entry) (c : Char) : List Char :=
  let rights := entryRights m p e
  match c with
  | 'n' => name.toList
  | 'N' => ('\'' :: name.toList) ++ ['\'']
  | 's' => Decimal.natDigits (sizeOf e)
  | 'a' => Nat.toDigits 8 rights
  | 'A' => kindLetter p e :: rightsChars rights
  | 'u' => ['0']
  | 'g' => ['0']
  | 'U' => "root".toList
  | 'G' => "root".toList
  | 'h' => Decimal.natDigits (linksTo m p e)
  | 'F' => (match e with
    | .folder => "directory"
    | .link _ => "symbolic link"
    | .file content => if content.isEmpty then "regular empty file" else "regular file").toList
  | 'Y' => Decimal.intChars (m.world.changedAt p)
  | 'X' => Decimal.intChars (m.world.changedAt p)
  | 'i' => Decimal.natDigits (1 + m.tree.entries.findIdx (·.1 == p))
  | '%' => ['%']
  | c => ['?', c]

/-- The text of a format for facts. -/
def facts (m : Machine) (name : String) (p : Path) (e : Entry) : List Char → List Char
  | '%' :: c :: rest => fact m name p e c ++ facts m name p e rest
  | c :: rest => c :: facts m name p e rest
  | [] => []

/-- Tells what is known of files. -/
def stat : Action := fun g => do
  if g.operands.isEmpty then return ← refuse "stat" "missing operand" 1
  forEach g.operands fun name => do
    let m ← get
    let found : Option (Path × Entry) :=
      if g.has 'L' then do
        let p ← m.path? name
        pure (p, ← m.tree.lookup? p)
      else reached? m name
    match found with
    | none => refuseFile "stat" ("cannot statx '" ++ name ++ "'") .missing 1
    | some (p, e) =>
      match g.value? 'c', g.value? 'P' with
      | some f, _ => print (facts m name p e f.toList ++ ['\n'])
      | none, some f => print (facts m name p e (unescapedAll f.toList).1)
      | none, none => print (facts m name p e "  File: %n\n  Size: %s\n  Mode: %a %F\n".toList)
      return 0

/-- The written path without links and points, if it leads somewhere. What has to be there, the letter
says: all of it, all but its end, or nothing. -/
def realPath? (m : Machine) (demand : Char) (written : String) : Option String := do
  match m.path? written with
  | some p =>
    if demand = 'e' && !m.tree.has p then none
    if demand != 'm' && !m.tree.isFolder p.dropLast then none
    pure (Machine.pathText p)
  | none => if demand = 'm' then pure (Machine.pathText (m.route written).target) else none

/-- Shows where paths lead. -/
def realpath : Action := fun g => do
  if g.operands.isEmpty then return ← refuse "realpath" "missing operand" 1
  let demand := (g.last? ['e', 'm']).getD 'f'
  forEach g.operands fun name => do
    let m ← get
    match realPath? m demand name with
    | some s =>
      printLine s
      return 0
    | none => refuseFile "realpath" name .missing 1

/-- Shows where links lead. -/
def readlink : Action := fun g => do
  if g.operands.isEmpty then return ← refuse "readlink" "missing operand" 1
  forEach g.operands fun name => do
    let m ← get
    let found : Option String :=
      match g.last? ['e', 'f', 'm'] with
      | some c => realPath? m c name
      | none =>
        match reached? m name with
        | some (_, .link goal) => some (Bytes.encode goal)
        | _ => none
    match found with
    | some s =>
      print (s.toList ++ if g.has 'n' then [] else ['\n'])
      return 0
    | none => return 1

/-- Makes a new file or folder with a name that nothing has. -/
def mktemp : Action := fun g => do
  let m ← get
  let folder := match g.value? 'p' with
    | some f => if f = "" then "/tmp" else f
    | none =>
      let given := m.binding "TMPDIR"
      if given = "" then "/tmp" else given
  let (template, inFolder) : String × Bool :=
    match g.operands with
    | t :: _ => (t, g.has 't' || g.has 'p')
    | [] => ("tmp.XXXXXXXXXX", true)
  let marks := (template.toList.reverse.takeWhile (· == 'X')).length
  if marks < 3 then return ← refuse "mktemp" "too few X's in template" 1
  let stem := String.ofList (template.toList.take (template.length - marks))
  let number := m.world.nextStream
  let ending := List.replicate marks 'a' ++ Decimal.natDigits number
  let name := stem ++ String.ofList (ending.drop (ending.length - marks))
  let path := if inFolder then joined folder name else name
  modifyWorld fun w => { w with nextStream := w.nextStream + 1 }
  if g.has 'u' then
    printLine path
    return 0
  match m.path? path with
  | some p =>
    if !m.tree.isFolder p.dropLast || m.tree.has p then
      return ← refuseFile "mktemp" path .missing 1
    modify fun m => m.withTree (if g.has 'd' then (m.tree.put p .folder).allow p 0o700
      else (m.tree.put p (.file ByteArray.empty)).allow p 0o600)
    printLine path
    return 0
  | none => refuseFile "mktemp" path .missing 1

def listingTools : List (String × Utility) := [
  ("ls", ⟨⟨"aAbBcCdDfFgGhHiklLmnNopqQrRsStuUvxXZ1", "ITw", "K", [("all", 'a'), ("almost-all", 'A'),
    ("directory", 'd'), ("classify", 'F'), ("human-readable", 'h'), ("inode", 'i'), ("reverse", 'r'),
    ("recursive", 'R'), ("size", 's'), ("color", 'K')], true⟩, 2, id, ls⟩),
  ("stat", ⟨⟨"Lft", "cP", "", [("dereference", 'L'), ("file-system", 'f'), ("format", 'c'),
    ("printf", 'P'), ("terse", 't')], true⟩, 1, id, stat⟩),
  ("realpath", ⟨⟨"emLPqsz", "", "", [("canonicalize-existing", 'e'), ("canonicalize-missing", 'm'),
    ("logical", 'L'), ("physical", 'P'), ("quiet", 'q'), ("strip", 's'), ("no-symlinks", 's'),
    ("zero", 'z')], true⟩, 1, id, realpath⟩),
  ("readlink", ⟨⟨"efmnqsvz", "", "", [("canonicalize", 'f'), ("canonicalize-existing", 'e'),
    ("canonicalize-missing", 'm'), ("no-newline", 'n'), ("quiet", 'q'), ("silent", 's'),
    ("verbose", 'v'), ("zero", 'z')], true⟩, 1, id, readlink⟩),
  ("mktemp", ⟨⟨"duqt", "S", "p", [("directory", 'd'), ("dry-run", 'u'), ("quiet", 'q'),
    ("suffix", 'S'), ("tmpdir", 'p')], true⟩, 1, id, mktemp⟩)]

end DataQuality.Shell.Tool
