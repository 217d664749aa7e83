import DataQuality.Child.Command
import DataQuality.CommandLine.Arguments
import DataQuality.Config
import DataQuality.Queue.Spool
import DataQuality.Store.Directory
import DataQuality.Worker

/-!
# Carrying out commands

A command reads and changes a tree of files and prints lines. What it has done before it fails
remains. Queued jobs are carried out by the command itself, with one store and one memory of the runs
for all of them, or each by a command of its own, which starts from the files alone.
-/
namespace DataQuality.CommandLine

open Files (LoadError Path Route Tree)

/-- What a command finds around it. -/
structure Surroundings where
  /-- The folder in which it works. -/
  folder : Path
  environment : List (String × String)
  now : Instant

/-- What commands change: the files, and what has been printed. -/
structure Desk where
  tree : Tree
  printed : String

/-- Why a command fails. -/
inductive Failure
  | config (error : LoadError)
  | rules (error : LoadError)
  | codelist (error : LoadError)
  | metrics (error : DuplicateInfoId)
  | store (error : StoreError)
  | queue (error : QueueError)
  | testing (error : TestingError)
  /-- Some rules do not compile. -/
  | faults (count : Nat)
  deriving DecidableEq

/-- What is said of a file that cannot be loaded. -/
def loadMessage (what : String) : LoadError → String
  | .unreadable => what ++ " cannot be read"
  | .malformed => what ++ " does not hold what it should"

def Failure.message : Failure → String
  | config e => loadMessage "the configuration" e
  | rules e => loadMessage "the file of rules" e
  | codelist e => loadMessage "the codelist" e
  | metrics e => e.message
  | store e => TestingError.message (.store e)
  | queue .io => "the queue cannot be read or written"
  | testing e => e.message
  | faults n => Decimal.ofNat n ++ " rules failed to compile"

/-- A part of a command. What it has done remains when it fails. -/
abbrev Command (α : Type) := ExceptT Failure (StateM Desk) α

namespace Command

def print (line : String) : Command Unit :=
  modify fun d => { d with printed := d.printed ++ line ++ "\n" }

/-- Takes over a result, with the failure that an error means. -/
def orFail {α ε : Type} (failure : ε → Failure) : Except ε α → Command α
  | .ok a => pure a
  | .error e => throw (failure e)

def openStore (e : Surroundings) (c : Config) : Command DirectoryStore := do
  let (result, tree) := DirectoryStore.inFolder (← get).tree ⟨e.folder, c.dataDir⟩
  modify fun d => { d with tree := tree }
  orFail .store result

def onStore {α : Type} (call : StoreM DirectoryStore α) (s : DirectoryStore) :
    Command (α × DirectoryStore) := do
  let (result, s) := call { s with tree := (← get).tree }
  modify fun d => { d with tree := s.tree }
  return (← orFail .store result, s)

def startRun (e : Surroundings) : StoreM DirectoryStore RuntimeId := do
  let id ← Datastore.startRun e.now
  Datastore.commit "Start test run"
  return id

def compileRules (e : Surroundings) (c : Config) (path : String) : Command RuleSet := do
  let definitions ← orFail .rules (RuleDefinition.load (← get).tree e.folder path)
  return RuleSet.compile c.levels definitions

/-- What packages are tested with under the settings. -/
def loadPlan (e : Surroundings) (c : Config) : Command TestPlan := do
  let rules ← compileRules e c c.rulesFile
  let plan ← orFail .metrics (c.plan rules none)
  match c.codelistFile with
  | none => return plan
  | some path =>
    let codelist ← orFail .codelist (Codelist.load (← get).tree e.folder path)
    return { plan with codelist := some codelist }

/-- Tests the file with a written path as a package of a run. -/
def check (e : Surroundings) (plan : TestPlan) (job : Job) (s : TestSession DirectoryStore)
    (d : Desk) : Except TestingError PackageOutcome × TestSession DirectoryStore × Desk :=
  let read (s : DirectoryStore) : Option String :=
    ((⟨e.folder, job.filename⟩ : Route).readText s.tree).toOption
  let (outcome, s) := TestSession.check plan e.now read job.runtimeId job.packageId
    { s with store := { s.store with tree := d.tree } }
  (outcome, s, { d with tree := s.store.tree })

def outcomeLine (job : Job) : PackageOutcome → String
  | .tested results infos rows =>
    "Package " ++ job.packageId.text ++ " tested in run " ++ job.runtimeId.text ++ ": " ++
      Decimal.ofNat results ++ " results, " ++ Decimal.ofNat infos ++ " info results, " ++
      Decimal.ofNat rows ++ " aggregate rows"
  | .invalidDocument => "Package " ++ job.packageId.text ++ " is not a valid document"

/-- Tests one package, in a new run if none is given. -/
def testPackage (e : Surroundings) (c : Config) (packageId : PackageId)
    (runtimeId : Option RuntimeId) (filename : String) : Command Unit := do
  let store ← openStore e c
  let (runtimeId, store) ←
    match runtimeId with
    | some r => pure (r, store)
    | none => onStore (startRun e) store
  let plan ← loadPlan e c
  let job : Job := ⟨filename, runtimeId, packageId⟩
  let (outcome, _, d) := check e plan job (.start store) (← get)
  set d
  print (outcomeLine job (← orFail .testing outcome))

def openSpool (e : Surroundings) (queueDir : String) : Command Spool := do
  let (result, tree) := Spool.inFolder (← get).tree ⟨e.folder, queueDir⟩
  modify fun d => { d with tree := tree }
  orFail .queue result

def enqueue (e : Surroundings) (queueDir : String) (job : Job) : Command Unit := do
  let spool ← openSpool e queueDir
  let tree ← orFail .queue (spool.push e.now job.encode (← get).tree).1
  modify fun d => { d with tree := tree }
  print ("Queued package " ++ job.packageId.text ++ " for run " ++ job.runtimeId.text)

/-- Compiles the rules of a file and prints the faults. -/
def checkRules (e : Surroundings) (c : Config) (path : String) : Command Unit := do
  let rules ← compileRules e c path
  for f in rules.faults do
    print f.message
  print (path ++ ": " ++ Decimal.ofNat rules.size ++ " rules compiled, " ++
    Decimal.ofNat rules.faults.length ++ " faults")
  if !rules.faults.isEmpty then throw (.faults rules.faults.length)

/-- Starts a new run and prints its identifier. -/
def newRun (e : Surroundings) (c : Config) : Command Unit := do
  let store ← openStore e c
  let (id, _) ← onStore (startRun e) store
  print id.text

def settings (e : Surroundings) (i : Invocation) : Command Config := do
  let c ← orFail .config (Config.load (← get).tree e.folder i.configFile)
  return { c with
    dataDir := i.dataDir.getD c.dataDir
    rulesFile := i.rulesFile.getD c.rulesFile }

/-- Does what a command line asks for, unless that is to work on a queue. -/
def perform (e : Surroundings) (c : Config) : Action → Command Unit
  | .testPackage packageId runtimeId filename => testPackage e c packageId runtimeId filename
  | .enqueue packageId runtimeId filename queueDir =>
    enqueue e (queueDir.getD c.queueDir) ⟨filename, runtimeId, packageId⟩
  | .checkRules file => checkRules e c (file.getD c.rulesFile)
  | .newRun => newRun e c
  | .testQueue _ _ _ => pure ()

end Command

def exitCode {α : Type} : Except Failure α → Nat
  | .ok _ => 0
  | .error _ => 1

/-- The exit code for arguments that ask for nothing that could be done. -/
def UsageError.exitCode : UsageError → Nat
  | help => 0
  | invalid => 2

/-- The arguments that give a command of its own the settings of this one. -/
def childArguments (i : Invocation) (c : Config) : List String :=
  (match i.configFile with
    | some path => ["--config", path]
    | none => []) ++ ["--data-dir", c.dataDir, "--rules", c.rulesFile]

/-- Carries out a job by a command of its own. -/
def runChild (e : Surroundings) (arguments : List String) (d : Desk) : ChildStatus × Desk :=
  if !ChildCommand.isStartable "" arguments then (.notStarted, d)
  else
    match Invocation.parse e.environment arguments with
    | .error error => (.exited error.exitCode, d)
    | .ok i =>
      let (result, d) := (do Command.perform e (← Command.settings e i) i.action : Command Unit).run d
      (.exited (exitCode result), d)

/-- How queued jobs are carried out. -/
inductive Dispatch
  /-- By this command, with one store and one memory of the runs. -/
  | here (plan : TestPlan) (session : TestSession DirectoryStore)
  /-- Each by a command of its own, which is given these arguments before those of the job. -/
  | apart (arguments : List String)

/-- A command that works on a queue. -/
structure QueueWork where
  desk : Desk
  spool : Spool
  dispatch : Dispatch

namespace QueueWork

/-- Takes the body at the front of the spool. -/
def pop (w : QueueWork) : Except QueueError (Option (String × QueueWork)) :=
  (w.spool.pop w.desk.tree).map fun r => r.map fun (body, tree) =>
    (body, { w with desk := { w.desk with tree := tree } })

def handle (e : Surroundings) (job : Job) (w : QueueWork) : Except JobError Unit × QueueWork :=
  match w.dispatch with
  | .here plan session =>
    let (outcome, session, d) := Command.check e plan job session w.desk
    let w := { w with desk := d, dispatch := .here plan session }
    match outcome with
    | .ok _ => (.ok (), w)
    | .error error => (.error (.testing error), w)
  | .apart arguments =>
    let (status, d) := runChild e (arguments ++ ChildCommand.jobArguments job) w.desk
    (status.result job.packageId, { w with desk := d })

def worker (e : Surroundings) : Worker QueueWork JobError where
  waiting w := ((w.spool.waiting w.desk.tree).toOption.getD []).length
  pop := pop
  handle := handle e

def drain (e : Surroundings) (w : QueueWork) : Except QueueError DrainCounts × QueueWork :=
  (worker e).drain w

end QueueWork

namespace Command

def openQueue (e : Surroundings) (i : Invocation) (c : Config) (isolated : Bool)
    (queueDir : String) : Command QueueWork := do
  let spool ← openSpool e queueDir
  let dispatch ←
    if isolated then pure (.apart (childArguments i c))
    else do
      let store ← openStore e c
      pure (.here (← loadPlan e c) (.start store))
  return ⟨← get, spool, dispatch⟩

/-- The line that tells what became of the jobs of a queue. -/
def drainLine (counts : DrainCounts) : String :=
  "Processed " ++ Decimal.ofNat counts.total ++ " jobs: " ++ Decimal.ofNat counts.handled ++
    " tested, " ++ Decimal.ofNat counts.failed ++ " failed, " ++ Decimal.ofNat counts.malformed ++
    " malformed"

def drainQueue (e : Surroundings) (w : QueueWork) : Command (DrainCounts × QueueWork) := do
  let (counts, w) := w.drain e
  set w.desk
  return (← orFail .queue counts, w)

/-- What remains to be done after a command has been carried out: the queue on which it works on, and
how long it waits before. -/
abbrev Remainder := Option (QueueWork × Nat)

/-- Carries out a command line. -/
def invoke (e : Surroundings) (i : Invocation) : Command Remainder := do
  let c ← settings e i
  match i.action with
  | .testQueue once isolated queueDir => do
    let w ← openQueue e i c (isolated || c.isolated) (queueDir.getD c.queueDir)
    let (counts, w) ← drainQueue e w
    if once then
      print (drainLine counts)
      return none
    else return some (w, c.pollInterval)
  | action => do
    perform e c action
    return none

end Command

/-- What carrying out a command line comes to. -/
structure Ending where
  exitCode : Nat
  desk : Desk
  /-- Why it failed, if it did. -/
  failure? : Option Failure
  remainder : Command.Remainder

/-- Carries out the command line with these arguments. -/
def run (e : Surroundings) (arguments : List String) (tree : Tree) : Ending :=
  match Invocation.parse e.environment arguments with
  | .error error => ⟨error.exitCode, ⟨tree, ""⟩, none, none⟩
  | .ok i =>
    match (Command.invoke e i).run ⟨tree, ""⟩ with
    | (.ok remainder, d) => ⟨0, d, none, remainder⟩
    | (.error failure, d) => ⟨1, d, some failure, none⟩

/-! ## The reach of a command line

Which paths a command line may look at, as far as the files that are known so far tell. Once the files
at all these paths are known and no path is added by them, the known files are enough to carry it out.
-/

def storeRoutes (e : Surroundings) (c : Config) : List Route :=
  let folder : Route := ⟨e.folder, c.dataDir⟩
  [folder, folder.join DirectoryStore.journalName, folder.join DirectoryStore.organisationsName]

/-- The route to the document that the body in a file names. -/
def documentRoute? (e : Surroundings) (t : Tree) (file : Route) : Option Route :=
  match file.readText t with
  | .ok body => (Job.decode? body).map fun job => ⟨e.folder, job.filename⟩
  | .error _ => none

/-- The routes of a spool: to its folder, the waiting files, and the documents that they name. -/
def queueRoutes (e : Surroundings) (queueDir : String) (t : Tree) : List Route :=
  let folder : Route := ⟨e.folder, queueDir⟩
  let waiting := (((folder.list? t).getD []).filter Path.isJson).map folder.join
  folder :: waiting ++ waiting.filterMap (documentRoute? e t)

/-- The routes to what is loaded before packages are tested. -/
def planRoutes (e : Surroundings) (c : Config) : List Route :=
  ⟨e.folder, c.rulesFile⟩ :: c.codelistFile.toList.map fun path => ⟨e.folder, path⟩

def actionRoutes (e : Surroundings) (c : Config) (t : Tree) : Action → List Route
  | .testPackage _ _ filename =>
    ⟨e.folder, filename⟩ :: (storeRoutes e c ++ planRoutes e c)
  | .testQueue _ _ queueDir =>
    queueRoutes e (queueDir.getD c.queueDir) t ++ storeRoutes e c ++ planRoutes e c
  | .enqueue _ _ _ queueDir => [⟨e.folder, queueDir.getD c.queueDir⟩]
  | .checkRules file => [⟨e.folder, file.getD c.rulesFile⟩]
  | .newRun => storeRoutes e c

/-- The paths that a command line may look at. -/
def reach (e : Surroundings) (arguments : List String) (t : Tree) : List Path :=
  match Invocation.parse e.environment arguments with
  | .error _ => []
  | .ok i =>
    let config : List Route := i.configFile.toList.map fun path => ⟨e.folder, path⟩
    let routes :=
      match (Command.settings e i).run ⟨t, ""⟩ with
      | (.error _, _) => config
      | (.ok c, _) => config ++ actionRoutes e c t i.action
    (routes.filter Route.isUsable).flatMap Route.passes

end DataQuality.CommandLine
