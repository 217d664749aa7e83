import DataQuality.Shell.Launch

/-!
# What names stand for

A name in the place of a command stands for a reserved word, an alias, a function, a command of the shell or
a program. The commands of this module tell which, and set aliases.
-/
namespace DataQuality.Shell

/-- The commands of the shell that are no programs and whose errors do not end it. -/
def ownNames : List String :=
  ["alias", "bg", "cd", "command", "fg", "getopts", "hash", "jobs", "kill", "pwd", "read", "type",
    "ulimit", "umask", "unalias", "wait"]

/-- The commands that a shell has although they are programs, too. -/
def bothNames : List String := ["[", "echo", "false", "printf", "test", "true"]

/-- Whether a shell has a command of its own. -/
def isBuiltin (name : String) : Bool :=
  specialNames.contains name || ownNames.contains name || bothNames.contains name

/-- What a name stands for. -/
inductive Meaning
  | reserved
  | alias (value : String)
  | function
  | special
  | own
  | program (written : String)

/-- What a name stands for. A written path need only lead to something. -/
def meaning? (m : Machine) (name : String) : Option Meaning :=
  if reservedWords.contains name then some .reserved
  else
    match m.aliases.lookup name with
    | some value => some (.alias value)
    | none =>
      if name.toList.contains '/' then
        if (m.goal? name).isSome then some (.program name) else none
      else if (m.functions.lookup name).isSome then some .function
      else if specialNames.contains name then some .special
      else if isBuiltin name then some .own
      else (findProgram m (shellPath m) name).toOption.map fun found => .program found.1

def shownAlias (name value : String) : String := name ++ "=" ++ inQuotes value

def Meaning.description (name : String) : Meaning → String
  | .reserved => name ++ " is a shell keyword"
  | .alias value => name ++ " is an alias for " ++ value
  | .function => name ++ " is a shell function"
  | .special => name ++ " is a special shell builtin"
  | .own => name ++ " is a shell builtin"
  | .program written => name ++ " is " ++ written

def Meaning.spelling (name : String) : Meaning → String
  | .alias value => "alias " ++ shownAlias name value
  | .program written => written
  | _ => name

/-- Tells what names stand for. -/
def describeNames (names : List String) : Run Unit := do
  let statuses ← names.mapM fun name => do
    match meaning? (← get) name with
    | some meaning =>
      printLine (meaning.description name)
      return 0
    | none =>
      printLine (name ++ ": not found")
      return 127
  setStatus ((statuses.filter (· != 0)).getLast?.getD 0)

/-- Tells how a name is written so that it has its meaning. -/
def spellName (name : String) : Run Unit := do
  match meaning? (← get) name with
  | some meaning =>
    printLine (meaning.spelling name)
    setStatus 0
  | none => setStatus 127

/-- Looks for programs ahead of their use. -/
def hash (names : List String) : Run Unit := do
  let statuses ← (names.filter (· ≠ "-r")).mapM fun name => do
    let m ← get
    let isKnown := isBuiltin name || (m.functions.lookup name).isSome ||
      (findProgram m (shellPath m) name).toOption.isSome
    if !isKnown then warn ("hash: " ++ name ++ ": not found")
    return statusOf isKnown
  setStatus (statuses.foldl max 0)

/-- Sets aliases, or shows them. -/
def setAliases (args : List String) : Run Unit := do
  if args.isEmpty then
    for (name, value) in (← get).aliases.mergeSort (fun a b => !(b.1 < a.1)) do
      printLine (shownAlias name value)
  let statuses ← args.mapM fun a => do
    match binding a with
    | (name, some value) =>
      if name = "" then return 1
      modify fun m => { m with aliases := (name, value) :: m.aliases.filter (·.1 != name) }
      return 0
    | (name, none) =>
      match (← get).aliases.lookup name with
      | some value =>
        printLine (shownAlias name value)
        return 0
      | none =>
        complain ("alias: " ++ name ++ " not found")
        return 1
  setStatus (statuses.foldl max 0)

/-- Takes aliases away. -/
def unalias (args : List String) : Run Unit := do
  if args.head? = some "-a" then
    modify fun m => { m with aliases := [], status := 0 }
  else
    let statuses ← args.mapM fun name => do
      let m ← get
      if (m.aliases.lookup name).isSome then
        set { m with aliases := m.aliases.filter (·.1 != name) }
        return 0
      else
        complain ("unalias: " ++ name ++ " not found")
        return 1
    setStatus (statuses.foldl max 0)

end DataQuality.Shell
