import DataQuality.Id

/-!
# Arguments

What a command line asks for. Options have long names and take their value from the next argument or
after an equals sign; most can also be given by an environment variable. Some may stand before the
name of the command as well as after it, and then what stands after it counts.
-/
namespace DataQuality.CommandLine

/-- Why arguments ask for nothing that could be done. -/
inductive UsageError
  /-- They ask for an explanation. -/
  | help
  | invalid
  deriving DecidableEq, Repr

/-- What an option takes. -/
inductive Operand
  /-- Nothing: the option is there or not. -/
  | nothing
  /-- A path, which is not empty. -/
  | path
  | id (kind : IdKind)
  deriving DecidableEq

/-- An option. -/
structure Switch where
  name : String
  operand : Operand
  /-- The environment variable that stands in for the option. -/
  variableName? : Option String
  deriving DecidableEq

/-- Whether a value suits an option. -/
def Operand.accepts : Operand → String → Bool
  | nothing, _ => false
  | path, s => s != ""
  | id kind, s => (Id.parse kind s).toOption.isSome

/-- What may follow the name of a command. -/
structure Grammar where
  switches : List Switch
  subcommands : List String
  /-- How many paths may be given without the name of an option. -/
  paths : Nat

/-- Where a value comes from. -/
inductive Source
  | environment
  | argument
  deriving DecidableEq, Repr

/-- A value of an option. -/
structure Setting where
  name : String
  value : String
  source : Source
  deriving DecidableEq

/-- What was found among the arguments. -/
structure Found where
  settings : List Setting
  paths : List String
  deriving DecidableEq

namespace Found

def empty : Found := ⟨[], []⟩

def get? (f : Found) (name : String) : Option Setting := f.settings.find? (·.name == name)

/-- Takes a value for an option, which must suit it and be the first. -/
def add (f : Found) (w : Switch) (value : String) : Except UsageError Found :=
  if (f.get? w.name).isSome || !w.operand.accepts value then .error .invalid
  else .ok { f with settings := f.settings ++ [⟨w.name, value, .argument⟩] }

/-- Takes an option that has no value. -/
def addFlag (f : Found) (w : Switch) : Except UsageError Found :=
  if (f.get? w.name).isSome then .error .invalid
  else .ok { f with settings := f.settings ++ [⟨w.name, "", .argument⟩] }

/-- Takes a path without the name of an option. -/
def addPath (f : Found) (g : Grammar) (s : String) : Except UsageError Found :=
  if f.paths.length < g.paths && s != "" then .ok { f with paths := f.paths ++ [s] }
  else .error .invalid

/-- Takes the values of environment variables for options that were not found. -/
def addVariables (environment : List (String × String)) :
    List Switch → Found → Except UsageError Found
  | [], f => .ok f
  | w :: rest, f =>
    match f.get? w.name, w.variableName?.bind fun v => environment.lookup v with
    | none, some value =>
      if w.operand.accepts value then
        addVariables environment rest
          { f with settings := f.settings ++ [⟨w.name, value, .environment⟩] }
      else .error .invalid
    | _, _ => addVariables environment rest f

end Found

def isOptionLike (s : String) : Bool :=
  match s.toList with
  | '-' :: _ :: _ => true
  | _ => false

/-- The name of an option with a long name, and what follows its equals sign. -/
def longName? (s : String) : Option (String × Option String) :=
  match s.toList with
  | '-' :: '-' :: cs =>
    let name := cs.takeWhile (· != '=')
    some (String.ofList name, match cs.drop name.length with
      | _ :: value => some (String.ofList value)
      | [] => none)
  | _ => none

/-- Reads arguments up to the name of a subcommand, which is given with all that follow it. After two
hyphens nothing is an option any more. -/
def scan (g : Grammar) (onlyPaths : Bool) (f : Found) :
    List String → Except UsageError (Found × Option (String × List String))
  | [] => .ok (f, none)
  | arg :: rest =>
    if onlyPaths then do scan g true (← f.addPath g arg) rest
    else if g.subcommands.contains arg then .ok (f, some (arg, rest))
    else if arg = "--" then scan g true f rest
    else
      match longName? arg with
      | some ("help", none) => .error .help
      | some (name, value) =>
        match g.switches.find? (·.name == name) with
        | none => .error .invalid
        | some w =>
          match w.operand, value, rest with
          | .nothing, none, rest => do scan g false (← f.addFlag w) rest
          | .nothing, some _, _ => .error .invalid
          | _, some value, rest => do scan g false (← f.add w value) rest
          | _, none, next :: rest =>
            if isOptionLike next then .error .invalid
            else do scan g false (← f.add w next) rest
          | _, none, [] => .error .invalid
      | none =>
        if isOptionLike arg then
          if arg.startsWith "-h" then .error .help else .error .invalid
        else do scan g false (← f.addPath g arg) rest

/-- What is to be done. -/
inductive Action
  | testPackage (packageId : PackageId) (runtimeId : Option RuntimeId) (filename : String)
  | testQueue (once isolated : Bool) (queueDir : Option String)
  | enqueue (packageId : PackageId) (runtimeId : RuntimeId) (filename : String)
      (queueDir : Option String)
  | checkRules (file : Option String)
  | newRun
  deriving DecidableEq

/-- What a command line asks for. -/
structure Invocation where
  configFile : Option String
  dataDir : Option String
  rulesFile : Option String
  action : Action
  deriving DecidableEq

namespace Invocation

/-- The options of all commands. -/
def commonSwitches : List Switch := [
  ⟨"config", .path, some "DQ_CONFIG"⟩,
  ⟨"data-dir", .path, some "DQ_DATA_DIR"⟩,
  ⟨"rules", .path, some "DQ_RULES"⟩]

/-- The option that names a package. -/
def packageSwitch : Switch := ⟨"package-id", .id .package, none⟩

/-- The option that names a run. -/
def runtimeSwitch : Switch := ⟨"runtime-id", .id .runtime, none⟩

/-- The option that names a document. -/
def filenameSwitch : Switch := ⟨"filename", .path, none⟩

/-- The option that names the folder of the queue. -/
def queueSwitch : Switch := ⟨"queue-dir", .path, some "DQ_QUEUE_DIR"⟩

def commands : List (String × List Switch) := [
  ("test-package", [packageSwitch, runtimeSwitch, filenameSwitch]),
  ("test-queue", [⟨"once", .nothing, none⟩, ⟨"subprocess", .nothing, none⟩, queueSwitch]),
  ("enqueue", [packageSwitch, runtimeSwitch, filenameSwitch, queueSwitch]),
  ("check-rules", []),
  ("new-run", [])]

/-- What may stand before the name of a command. -/
def mainGrammar : Grammar := ⟨commonSwitches, "help" :: commands.map (·.1), 0⟩

/-- What may stand after the name of a command. -/
def grammarOf (command : String) (switches : List Switch) : Grammar :=
  ⟨commonSwitches ++ switches, [], if command = "check-rules" then 1 else 0⟩

/-- The value of an option that may stand before and after the name of the command. An argument counts
more than an environment variable. -/
def common? (before after : Found) (name : String) : Option String :=
  match before.get? name, after.get? name with
  | some b, some a => some (if b.source = .argument && a.source = .environment then b else a).value
  | some b, none => some b.value
  | none, a => a.map (·.value)

def id? {kind : IdKind} (f : Found) (name : String) : Option (Id kind) :=
  (f.get? name).bind fun s => (Id.parse kind s.value).toOption

def text? (f : Found) (name : String) : Option String := (f.get? name).map (·.value)

/-- What a command is to do; nothing if an option is missing that it must have. -/
def action? (f : Found) (command : String) : Option Action :=
  if command = "test-package" then do
    pure (.testPackage (← id? f "package-id") (id? f "runtime-id") (← text? f "filename"))
  else if command = "test-queue" then
    some (.testQueue (f.get? "once").isSome (f.get? "subprocess").isSome (text? f "queue-dir"))
  else if command = "enqueue" then do
    pure (.enqueue (← id? f "package-id") (← id? f "runtime-id") (← text? f "filename")
      (text? f "queue-dir"))
  else if command = "check-rules" then some (.checkRules f.paths.head?)
  else if command = "new-run" then some .newRun
  else none

/-- Whether help can be given about what stands after its name: nothing, or one command. -/
def explains : List String → Bool
  | [] => true
  | [command] => mainGrammar.subcommands.contains command
  | _ => false

/-- Reads the arguments of a command line. -/
def parse (environment : List (String × String)) (arguments : List String) :
    Except UsageError Invocation := do
  match ← scan mainGrammar false .empty arguments with
  | (_, none) => .error .invalid
  | (before, some (command, rest)) =>
    match commands.lookup command with
    | none => .error (if explains rest then .help else .invalid)
    | some switches =>
      let grammar := grammarOf command switches
      let (after, _) ← scan grammar false .empty rest
      let after ← after.addVariables environment grammar.switches
      let before ← before.addVariables environment commonSwitches
      match action? after command with
      | some action =>
        .ok ⟨common? before after "config", common? before after "data-dir",
          common? before after "rules", action⟩
      | none => .error .invalid

end Invocation

end DataQuality.CommandLine
