import DataQuality.CommandLine.Execution
import Std.Time.DateTime.Timestamp

/-!
# The program

Takes the files within reach of a command line into a tree, carries the command line out on the tree,
and gives the changes back to the disk.
-/
namespace DataQuality.Program

open CommandLine (Surroundings Command QueueWork)
open Files (Path Tree Entry)

/-- The present time. -/
def now : IO Instant := do
  return .ofNanoseconds (← Std.Time.Timestamp.now).toNanosecondsSinceUnixEpoch.val

/-- What a path leads to on the disk. -/
def entryAt (p : Path) : IO (Option Entry) := do
  if ← ((← IO.currentDir) / p.text).isDir then return some .folder
  try
    return some (.file (← IO.FS.readBinFile p.text))
  catch _ => return none

/-- The names in a folder on the disk. -/
def namesIn (p : Path) : IO (List String) := do
  return (← ((← IO.currentDir) / p.text).readDir).toList.map (·.fileName)

/-- Takes what a path leads to, and the folders it lies in, into a tree. -/
def takeIn (t : Tree) (p : Path) : IO Tree := do
  let mut t := t
  for stage in p.stages do
    if let some entry := ← entryAt stage then t := t.put stage entry
  if t.isFolder p then
    for name in ← namesIn p do
      if (t.lookup? (p ++ [name])).isNone then
        if let some entry := ← entryAt (p ++ [name]) then t := t.put (p ++ [name]) entry
  return t

/-- Takes everything within reach of a command line into a tree. What is taken in may widen the
reach, but not more often than `rounds` times. -/
def takeReach (e : Surroundings) (arguments : List String) :
    Nat → List Path → Tree → IO Tree
  | 0, _, t => return t
  | rounds + 1, taken, t => do
    let new := (CommandLine.reach e arguments t).filter fun p => !taken.contains p
    if new.isEmpty then return t
    let mut t := t
    for p in new do t ← takeIn t p
    takeReach e arguments rounds (taken ++ new) t

/-- Brings a file on the disk from its old content to its new one. -/
def putFile (p : Path) (old : Option Entry) (content : ByteArray) : IO Unit := do
  match old with
  | some (.file before) =>
    if before.data = content.data then return
    if before.data = (content.extract 0 before.size).data then
      let handle ← IO.FS.Handle.mk p.text .append
      handle.write (content.extract before.size content.size)
    else IO.FS.writeBinFile p.text content
  | _ =>
    let temporary := p.text ++ ".tmp"
    IO.FS.writeBinFile temporary content
    IO.FS.rename temporary p.text

/-- Gives the changes from one tree to another back to the disk. -/
def giveBack (before after : Tree) : IO Unit := do
  for (p, _) in before.entries do
    if (after.lookup? p).isNone then IO.FS.removeFile p.text
  for (p, entry) in after.entries.mergeSort fun a b => a.1.length ≤ b.1.length do
    match entry with
    | .folder => if !before.isFolder p then IO.FS.createDirAll p.text
    | .file content => putFile p (before.lookup? p) content
    | .link _ => pure ()

/-- Works on a queue as jobs arrive, until it fails. -/
partial def watch (e : Surroundings) (arguments : List String) (w : QueueWork) (interval : Nat) :
    IO UInt32 := do
  IO.sleep (UInt32.ofNat interval)
  let e := { e with now := ← now }
  let tree ← takeReach e arguments 8 [] .empty
  let (result, desk) := (Command.drainQueue e { w with desk := ⟨tree, ""⟩ }).run ⟨tree, ""⟩
  giveBack tree desk.tree
  IO.print desk.printed
  match result with
  | .ok (_, w) => watch e arguments w interval
  | .error failure => do
    IO.eprintln ("Error: " ++ failure.message)
    return 1

/-- Carries out a command line. -/
def runIn (e : Surroundings) (arguments : List String) : IO UInt32 := do
  let tree ← takeReach e arguments 8 [] .empty
  let ending := CommandLine.run e arguments tree
  giveBack tree ending.desk.tree
  IO.print ending.desk.printed
  if let some failure := ending.failure? then IO.eprintln ("Error: " ++ failure.message)
  match ending.remainder with
  | some (w, interval) => watch e arguments w interval
  | none => return UInt32.ofNat ending.exitCode

end DataQuality.Program

open DataQuality in
/-- The program. -/
def main (arguments : List String) : IO UInt32 := do
  let folder := (⟨[], (← IO.currentDir).toString⟩ : Files.Route).target
  let environment ← ["DQ_CONFIG", "DQ_DATA_DIR", "DQ_RULES", "DQ_QUEUE_DIR"].filterMapM fun name => do
    return (← IO.getEnv name).map fun value => (name, value)
  Program.runIn ⟨folder, environment, ← Program.now⟩ arguments
