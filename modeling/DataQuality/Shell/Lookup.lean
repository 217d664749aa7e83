import DataQuality.Shell.Condition
import DataQuality.Shell.Tool.Checksum
import DataQuality.Shell.Tool.Column
import DataQuality.Shell.Tool.Comparison
import DataQuality.Shell.Tool.Edit
import DataQuality.Shell.Tool.Line
import DataQuality.Shell.Tool.Listing
import DataQuality.Shell.Tool.Moment
import DataQuality.Shell.Tool.Order
import DataQuality.Shell.Tool.Placement
import DataQuality.Shell.Tool.Search
import DataQuality.Shell.Tool.Surrounding
import DataQuality.Shell.Tool.Word

/-!
# Finding programs

Programs are files that may be run. The ones that every system has are known by name; other files are run
if they are scripts. A program that is called by its name alone is looked for in the folders of a search
path.

Most of the known programs are tools. A tool refuses options that it does not have; asked for help, it
only tells how it is used. Of some tools no more is known than that.
-/
namespace DataQuality.Shell.Tool

def otherListings : List (String × Utility) :=
  match listingTools.lookup "ls" with
  | some ls => [("dir", ls), ("vdir", { ls with prepare := ("-l" :: ·) })]
  | none => []

/-- The tools whose arguments are options and operands. -/
def tools : List (String × Utility) :=
  lineTools ++ orderTools ++ columnTools ++ searchTools ++ diskTools ++ listingTools ++
    comparisonTools ++ Moment.momentTools ++ wordTools ++ editTools ++ surroundingTools ++
    digestTools ++ placementTools ++ otherListings

def condition (name : String) (args : List String) : Run Nat := do
  let status := Condition.status (← get) args
  if status = 2 then warn (name ++ ": " ++ Condition.complaint args)
  return status

def test (args : List String) : Run Nat := condition "test" args

/-- A condition in brackets as a tool. -/
def bracketTest (args : List String) : Run Nat := do
  if args.getLast? = some "]" then condition "[" args.dropLast
  else
    warn "[: missing ]"
    return 2

/-- The tools that make of their arguments what they like. -/
def freeTools : List (String × (List String → Run Nat)) := [
  ("true", fun _ => return 0), ("false", fun _ => return 1), ("echo", echo), ("printf", printf),
  ("test", test), ("[", bracketTest), ("expr", Expression.expr), ("seq", seq), ("yes", yes),
  ("dd", dd)]

/-- The programs of which no more is known than that they refuse unknown options with status one. -/
def refusing : List String := [
  "base32", "chgrp", "chown", "csplit", "df", "dircolors", "du", "fmt", "gzip", "hostid", "mkfifo",
  "mknod", "numfmt", "pathchk", "pr", "ptx", "sha384sum", "sha512sum", "shred", "stty", "unexpand",
  "users", "who"]

/-- The programs that refuse unknown options with another status. -/
def refusingOtherwise : List (String × Nat) := [
  ("chroot", 125)]

/-- The status with which a program refuses unknown options, if no more is known of it. -/
def refusal? (name : String) : Option Nat :=
  if refusing.contains name then some 1 else refusingOtherwise.lookup name

/-- Whether a tool is asked how it is used, before anything that it does not understand. -/
def asksForHelp (t : Utility) (args : List String) : Bool :=
  let before := args.takeWhile fun a => a ≠ "--help" && a ≠ "--version"
  before.length < args.length && !before.contains "--" &&
    ((t.options.read? (t.prepare before)).any fun g => t.options.permutes || g.operands.isEmpty)

def Utility.run (t : Utility) (name : String) (args : List String) : Run Nat := do
  if asksForHelp t args then
    printLine ("Usage: " ++ name ++ " [OPTION]...")
    return 0
  match t.options.read? (t.prepare args) with
  | none => refuse name "invalid option" t.refusal
  | some g => t.action g

/-- What a tool does with its arguments, if there is one of this name. What cannot be printed makes it
fail. -/
def run? (name : String) (args : List String) : Option (Run Nat) :=
  match tools.lookup name, freeTools.lookup name with
  | some t, _ => some (checked t.refusal (t.run name args))
  | none, some f => some (checked 1 (f args))
  | none, none =>
    (refusal? name).map fun refusal => do
      return if args.any (·.startsWith "--") then refusal else 0
where
  /-- Runs a tool that fails if it cannot print. -/
  checked (failure : Nat) (body : Run Nat) : Run Nat := do
    modify fun m => { m with broken := false }
    let status ← body
    return if (← get).broken && status = 0 then failure else status

def names : List String :=
  tools.map (·.1) ++ freeTools.map (·.1) ++ refusing ++ refusingOtherwise.map (·.1)

end DataQuality.Shell.Tool

namespace DataQuality.Shell

open Files (Entry Path Tree)

def shellNames : List String := ["sh", "dash", "bash"]

/-- The programs that run other programs. -/
def wrapperNames : List String :=
  ["awk", "env", "find", "flock", "mawk", "nice", "nohup", "setsid", "stdbuf", "timeout", "which",
    "xargs"]

def programNames : List String := shellNames ++ wrapperNames ++ Tool.names

/-- What the file of a known program begins with. -/
def programMark : List Char := ['\x7f', 'E', 'L', 'F']

def programFile (name : String) : Entry := .file (Bytes.toArray (programMark ++ name.toList))

/-- What a file is to one who runs it. -/
inductive Runnable
  | program (name : String)
  | script (text : List Char)

/-- What the bytes of a file are to one who runs it. -/
def Runnable.ofBytes (content : ByteArray) : Runnable :=
  let cs := Bytes.ofArray content
  if programMark.isPrefixOf cs then .program (String.ofList (cs.drop programMark.length))
  else .script cs

/-- Why a program cannot be run. -/
inductive RunProblem
  | notFound
  | notAllowed
  deriving DecidableEq, Repr

/-- The status that stands for a program that cannot be run. -/
def RunProblem.status : RunProblem → Nat
  | .notFound => 127
  | .notAllowed => 126

/-- What is said about a program that cannot be run. -/
def RunProblem.message : RunProblem → String
  | .notFound => "not found"
  | .notAllowed => "Permission denied"

def runnableAt (m : Machine) (written : String) : Except RunProblem Runnable :=
  match lookAt m written with
  | .ok (p, some (.file content)) =>
    if rightsOf m p &&& 0o111 = 0 then .error .notAllowed else .ok (.ofBytes content)
  | .ok (_, some .folder) => .error .notAllowed
  | .error .noFolder => .error .notAllowed
  | _ => .error .notFound

/-- The search path in which programs are found if none is given. -/
def usualPath : String := "/usr/local/sbin:/usr/local/bin:/usr/sbin:/usr/bin:/sbin:/bin"

/-- The written paths that a name may have in a search path. -/
def candidates (path name : String) : List String :=
  if name.toList.contains '/' then [name]
  else (path.toList.splitOn ':').map fun folder =>
    if folder.isEmpty then name else Tool.joined (String.ofList folder) name

/-- The first one of some paths that can be run, and what it is. A path that leads to something that may
not be run counts only if there is no other one. -/
def firstRunnable (m : Machine) : List String → Except RunProblem (String × Runnable)
  | [] => .error .notFound
  | written :: rest =>
    match runnableAt m written with
    | .ok r => .ok (written, r)
    | .error e =>
      match firstRunnable m rest with
      | .ok found => .ok found
      | .error later => .error (if e = .notAllowed then e else later)

/-- The program that a name leads to along a search path, and its written path. -/
def findProgram (m : Machine) (path name : String) : Except RunProblem (String × Runnable) :=
  if name = "" then .error .notFound else firstRunnable m (candidates path name)

def shellPath (m : Machine) : String := m.binding "PATH"

/-- The search path of a program that runs another one. -/
def wrapperPath (m : Machine) : String :=
  (m.sharedBindings.lookup "PATH").getD "/bin:/usr/bin"

def systemFolders : List Path :=
  [["dev"], ["etc"], ["home"], ["opt"], ["proc"], ["root"], ["run"], ["srv"], ["sys"], ["tmp"], ["usr"],
    ["usr", "bin"], ["usr", "lib"], ["usr", "local"], ["usr", "local", "bin"], ["usr", "sbin"],
    ["usr", "share"], ["var"], ["var", "log"], ["var", "tmp"]]

def systemTexts : List (Path × String) :=
  [(["etc", "passwd"], "root:x:0:0:root:/root:/bin/bash\n"), (["etc", "group"], "root:x:0:\n"),
    (["etc", "hostname"], "localhost\n"), (["etc", "hosts"], "127.0.0.1\tlocalhost\n")]

def deviceNames : List String :=
  ["null", "zero", "full", "tty", "random", "urandom", "stdin", "stdout", "stderr"]

def systemEntries : List (Path × Entry) :=
  systemFolders.map (·, .folder) ++
    [(["bin"], .link "usr/bin"), (["lib"], .link "usr/lib"), (["sbin"], .link "usr/sbin"),
      (["dev", "fd"], .folder)] ++
    systemTexts.map (fun (p, s) => (p, .file s.toUTF8)) ++
    deviceNames.map (fun name => (["dev", name], .file ByteArray.empty)) ++
    programNames.map (fun name => (["usr", "bin", name], programFile name))

def withSystem (t : Tree) : Tree :=
  { t with entries := t.entries ++ systemEntries.filter fun e => !t.has e.1 }

/-- A tree without what every system has, other than what was there before, and without the files that
were kept only because they were open. -/
def withoutSystem (before t : Tree) : Tree :=
  { t with entries := t.entries.filter fun e =>
      before.has e.1 || !(e.1.head? == some "" || systemEntries.any fun s => s.1 == e.1) }

end DataQuality.Shell
