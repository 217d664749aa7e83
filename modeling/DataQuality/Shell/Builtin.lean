import DataQuality.Shell.Builtin.Naming
import DataQuality.Shell.Builtin.Place
import DataQuality.Shell.Builtin.Reading
import DataQuality.Shell.Builtin.Tasks

/-!
# Commands of the shell

The commands that are no programs: they change the shell itself. Errors in some of them end it.
-/
namespace DataQuality.Shell

/-- What the shell does on signals, as commands. -/
def listedTraps (m : Machine) : List String :=
  let numbered := m.traps.filterMap fun (name, action) => (Signal.ofText? name).map (·, name, action)
  (numbered.mergeSort fun a b => a.1 ≤ b.1).map fun (_, name, action) =>
    "trap -- " ++ inQuotes action ++ " " ++ name

/-- Says what to do on signals, one after the other. -/
def setTraps (action : Option String) : List String → Run Unit
  | [] => setStatus 0
  | a :: rest => do
    match Signal.ofText? a with
    | none => do
      complain ("trap: " ++ a ++ ": bad trap")
      setStatus 1
    | some signal => do
      let name := Signal.name signal
      modify fun m =>
        { m with traps := (action.toList.map (name, ·)) ++ m.traps.filter (·.1 != name) }
      setTraps action rest

/-- Says what to do on signals, or shows what is done. -/
def trap (args : List String) : Run Unit := do
  match if args.head? = some "--" then args.tail else args with
  | [] => do
    for line in listedTraps (← get) do printLine line
    setStatus 0
  | [signal] => setTraps none [signal]
  | action :: signals =>
    if (Decimal.readNat? action.toList).isSome then setTraps none (action :: signals)
    else setTraps (if action = "-" then none else some action) signals

/-- Leaves loops, or goes on with the next round of one. -/
def jump (name : String) (interruption : Nat → Interruption) (args : List String) : Run Unit := do
  let n ← match args with
    | [] => pure 1
    | a :: _ => count name a
  if n = 0 then fail (name ++ ": Illegal number: 0")
  let loops := (← get).loops
  setStatus 0
  if 0 < loops then throw (interruption (min n loops))

/-- Bindings in the order of their names. -/
def sorted {α : Type} (bindings : List (String × α)) : List (String × α) :=
  bindings.mergeSort fun a b => !(b.1 < a.1)

/-- Binds names as arguments say and marks them; without arguments, marked names are shown. -/
def markNames (command : String) (shared : Bool) (marked : Machine → List String)
    (mark : Machine → String → Machine) (args : List String) : Run Unit := do
  let names := args.dropWhile fun a => a = "-p" || a = "--"
  if names.isEmpty then
    let m ← get
    for (name, value) in sorted ((marked m).map fun name => (name, m.bindings.lookup name)) do
      printLine (command ++ " " ++ name ++ match value with
        | some v => "=" ++ inQuotes v
        | none => "")
  for a in names do
    let name := (binding a).1
    if !isName name.toList then fail (command ++ ": " ++ name ++ ": bad variable name")
    bindArgument shared a
    modify fun m => mark m name
  setStatus 0

/-- Makes names those of the function that is running. -/
def makeLocal (args : List String) : Run Unit := do
  if (← get).calls = 0 then fail "local: not in a function"
  for a in args do
    if a = "-" then
      modify fun m =>
        { m with hidden := ⟨"-", some (String.ofList m.switches), false, false⟩ :: m.hidden }
    else
      let name := (binding a).1
      modify fun m => { m with hidden := m.hide name :: m.hidden }
      bindArgument false a
  setStatus 0

/-- Takes away the values of names, or functions. -/
def unset (args : List String) : Run Unit := do
  let names := args.dropWhile fun a => ["-v", "-f", "--"].contains a
  for name in names do
    let m ← get
    if args.head? = some "-f" then set { m with functions := m.functions.filter (·.1 != name) }
    else if !isName name.toList then fail ("unset: " ++ name ++ ": bad variable name")
    else if m.fixed.contains name then fail ("unset: " ++ name ++ ": is read only")
    else set { m.unbind name with exported := m.exported.filter (· != name) }
  setStatus 0

/-- Sets options and positional parameters, or shows bindings. -/
def setOptions (args : List String) : Run Unit := do
  if args.isEmpty then
    for (name, value) in sorted (← get).bindings do printLine (name ++ "=" ++ inQuotes value)
  match readSwitches? false ⟨← get, [], none, false⟩ args with
  | none => fail "set: Illegal option"
  | some o =>
    set { o.machine with arguments := o.rest.getD o.machine.arguments, status := 0 }
    if o.lists then
      let m ← get
      print (if args.head? = some "+o" then settingCommand m else listedOptions m)
where
  /-- The options as a command. -/
  settingCommand (m : Machine) : List Char :=
    (String.join (optionNames.map fun (name, c) =>
      (if m.has c then "set -o " else "set +o ") ++ name ++ "\n")).toList

/-- The file that holds a script for the shell itself: it is looked for along the search path. -/
def scriptFile? (m : Machine) (name : String) : Option String :=
  if name.toList.contains '/' then some name
  else (candidates (shellPath m) name).find? fun written =>
    (m.path? written).any m.tree.isFile

section
variable (run : Runner)

/-- Runs a script in the shell itself. Without any command, the status is zero. -/
def runHere (tested : Bool) (script : List Char) : Run Unit := do
  if (firstLine? [] (tokensOf script)).isNone then setStatus 0
  else runScript run tested script

def giveWay (program : String) (args : List String) : Run Unit := do
  let m ← get
  match findProgram m (shellPath m) program with
  | .error e => do
    warn ("exec: " ++ program ++ ": " ++ e.message)
    exit e.status
  | .ok _ => do
    let ending ← launch run deepestLaunch (shellPath m) program args
    modify fun m => { m with traps := [] }
    throw (.ended ending)

/-- Runs a command of the shell whose errors end it. -/
def runSpecial (tested : Bool) (name : String) (args : List String) : Run Unit :=
  match name with
  | "." => do
    match args with
    | [] => setStatus 0
    | file :: _ =>
      match scriptFile? (← get) file with
      | none => fail (".: " ++ file ++ ": not found")
      | some written =>
        match ← readFile written with
        | .error _ => fail (".: cannot open " ++ file ++ ": No such file")
        | .ok script =>
          tryCatch (runHere run tested script) fun i =>
            match i with
            | .comeBack => pure ()
            | i => throw i
  | "break" => jump "break" .leave args
  | "continue" => jump "continue" .again args
  | "eval" => runHere run tested (" ".intercalate args).toList
  | "exec" => do
    match if args.head? = some "--" then args.tail else args with
    | [] => setStatus 0
    | program :: rest => giveWay run program rest
  | "exit" => do
    match args with
    | [] => do
      let m ← get
      exit (m.interrupted.getD m.status)
    | a :: _ => exit (← count "exit" a)
  | "export" => markNames "export" true (·.exported) Machine.share args
  | "local" => makeLocal args
  | "readonly" =>
    markNames "readonly" false (·.fixed) (fun m name =>
      { m with fixed := if m.fixed.contains name then m.fixed else name :: m.fixed }) args
  | "return" => do
    match args with
    | [] => pure ()
    | a :: _ => setStatus (← count "return" a)
    throw .comeBack
  | "set" => setOptions args
  | "shift" => do
    let n ← match args with
      | [] => pure 1
      | a :: _ => count "shift" a
    let m ← get
    if m.arguments.length < n then fail "shift: can't shift that many"
    else set { m with arguments := m.arguments.drop n, status := 0 }
  | "times" => do
    printLine "0m0.000000s 0m0.000000s"
    printLine "0m0.000000s 0m0.000000s"
    setStatus 0
  | "trap" => trap args
  | "unset" => unset args
  | _ => setStatus 0

/-- Runs a tool as a command of the shell. What cannot be printed makes it fail. -/
def asCommand (body : Run Nat) : Run Unit := do
  let before := (← get).broken
  modify fun m => { m with broken := false }
  let status ← body
  modify fun m => { m with broken := before, status := if m.broken then max 1 status else status }

/-- Runs one of the other commands of the shell. -/
def runOwn (name : String) (args : List String) : Run Unit :=
  match name with
  | "[" => asCommand (Tool.bracketTest args)
  | "alias" => asCommand do
    setAliases args
    return (← get).status
  | "cd" => changeFolder args
  | "echo" => asCommand (Tool.echoInShell args)
  | "false" => setStatus 1
  | "getopts" => Letters.getopts args
  | "hash" => hash args
  | "jobs" => jobs args
  | "kill" => kill args
  | "printf" =>
    match Tool.printf? args with
    | none => fail "printf: usage: printf format [arg ...]"
    | some body => asCommand body
  | "pwd" => asCommand do
    showFolder args
    return (← get).status
  | "read" => Reading.read args
  | "test" => asCommand (Tool.test args)
  | "true" => setStatus 0
  | "type" => asCommand do
    describeNames args
    return (← get).status
  | "ulimit" => ulimit args
  | "umask" => umask args
  | "unalias" => unalias args
  | "wait" => wait run args
  | name => fail (name ++ ": No current job")

end

end DataQuality.Shell
