import DataQuality.Shell.Builtin
import DataQuality.Shell.Channel
import DataQuality.Shell.Expansion

/-!
# Redirections and evaluation

A redirection makes the channels of a shell lead elsewhere, for one command or from there on.

A shell runs each kind of command in its own way. The runner of a shell runs the commands inside of others by
itself, up to some depth.
-/
namespace DataQuality.Shell

/-- A redirection whose goal has been expanded. -/
structure Redirecting where
  channel : Nat
  way : Redirection.Way
  goal : String

/-- What is said about a file that cannot be opened. -/
def openMessage (goal : String) (e : Problem) : String :=
  "cannot open " ++ goal ++ ": " ++
    if e = .missing || e = .noFolder then "No such file" else e.message

/-- What is said about a file that cannot be made. -/
def createMessage (goal : String) (e : Problem) : String :=
  "cannot create " ++ goal ++ ": " ++
    if e = .missing || e = .noFolder then "Directory nonexistent" else e.message

/-- Makes a channel lead to what has been opened; gives a message if nothing has. -/
def leadTo (channel : Nat) (message : Problem → String) (opened : Except Problem Nat) :
    Run (Option String) := do
  match opened with
  | .ok id =>
    modify fun m => m.lead channel (some id)
    return none
  | .error e => return some (message e)

/-- Redirects a channel; gives a message if that cannot be done. -/
def Redirecting.carryOut (r : Redirecting) : Run (Option String) := do
  let creates (way : PrintWay) : Run (Option String) := do
    leadTo r.channel (createMessage r.goal) (← openToPrint way r.goal)
  match r.way with
  | .input => leadTo r.channel (openMessage r.goal) (← openToRead r.goal)
  | .here =>
    let id ← openText r.goal.toList
    modify fun m => m.lead r.channel (some id)
    return none
  | .output force => creates (if (← get).has 'C' && !force then .create else .replace)
  | .append => creates .append
  | .readWrite => creates .over
  | .same =>
    match r.goal.toList with
    | ['-'] =>
      modify fun m => m.lead r.channel none
      return none
    | [c] =>
      match (← get).stream? (c.toNat - '0'.toNat) with
      | some id =>
        modify fun m => m.lead r.channel (some id)
        return none
      | none => return some (r.goal ++ ": Bad file descriptor")
    | _ => return some "Bad fd number"

/-- Redirects channels one after the other, up to the first one for which that cannot be done. -/
def carryOutAll : List Redirecting → Run (Option String)
  | [] => return none
  | r :: rest => do
    match ← r.carryOut with
    | some message => return some message
    | none => carryOutAll rest

/-- Runs something with redirected channels, or something else if that cannot be done. Afterwards the
channels lead where they led before, unless they are kept. -/
def redirecting (rs : List Redirecting) (keeps : Bool) (otherwise body : Run Unit) : Run Unit := do
  if rs.isEmpty then body
  else
    let before ← get
    let restore : Run Unit := do
      modify fun m => rs.foldl (fun m r => m.lead r.channel (before.stream? r.channel)) m
      forgetStreams before.world.nextStream
    match ← carryOutAll rs with
    | some message => do
      warn message
      restore
      otherwise
    | none => do
      tryCatch body fun i => do
        restore
        throw i
      if !keeps then restore

section
variable (substitute : List Char → Run (List Char))

def expandGoals (rs : List Redirection) : Run (List Redirecting) :=
  rs.mapM fun r => do
    let goal ← expandText substitute r.goal
    if r.way = .same && goal ≠ "-" && !(goal.length = 1 && goal.toList.all Char.isDigit) then
      fail ("Bad fd number: " ++ goal)
    return ⟨r.channel, r.way, goal⟩

end

/-- How a round of a loop ends. -/
inductive Round
  /-- The loop goes on. -/
  | done
  /-- The test tells that the loop is over. -/
  | over
  /-- The loop is left. -/
  | left
  deriving DecidableEq, Repr

def oneRound (round : Run Round) : Run Round :=
  tryCatch round fun i =>
    match i with
    | .leave n => if n > 1 then throw (.leave (n - 1)) else return .left
    | .again n => if n > 1 then throw (.again (n - 1)) else return .done
    | i => throw i

def inLoop (body : Run Unit) : Run Unit := do
  let before := (← get).loops
  modify fun m => { m with loops := before + 1 }
  body
  modify fun m => { m with loops := before }

/-- Runs something over and over. `last` is the status of the round before. -/
def rounds (overrun : Run Unit) (round : Run Round) : Nat → Nat → Run Unit
  | 0, _ => overrun
  | fuel + 1, last => do
    match ← oneRound round with
    | .done => rounds overrun round fuel (← get).status
    | .over => setStatus last
    | .left => pure ()

def roundsOver (name : String) (body : Run Unit) : List String → Run Unit
  | [] => pure ()
  | v :: rest => do
    bindName name v
    match ← oneRound (do body; return .done) with
    | .left => pure ()
    | _ => roundsOver name body rest

/-- The most rounds of a loop. -/
def mostRounds : Nat := 100000

/-- The most functions that run inside of one another. -/
def mostCalls : Nat := 1000

/-- The words behind the command that looks for no functions, if it is there and does not only tell what
names stand for. -/
def withoutCommand : List String → List String
  | "command" :: rest =>
    match rest with
    | "-p" :: rest => withoutCommand rest
    | "--" :: rest => withoutCommand rest
    | a :: rest => if a.startsWith "-" then "command" :: a :: rest else withoutCommand (a :: rest)
    | [] => ["command"]
  | ws => ws

def bindsNames (name : String) : Bool := ["alias", "export", "local", "readonly"].contains name

section
variable (run : Runner)

/-- Receives the signals that have come while a command was run. Then ends the shell if it stops on errors
and the command has failed and is not being tested. -/
def check (tested : Bool) : Run Unit := do
  receiveAll run
  let m ← get
  if m.has 'e' && !tested && m.status != 0 then exit m.status

/-- Runs on after the most rounds of a loop: as long as nothing comes from outside, it has no end. -/
def overrun : Run Unit := do
  let m ← get
  let isOwn (s : Sent) : Bool := s.target == m.number
  match (m.world.signals.filter isOwn).mergeSort (fun a b => a.time ≤ b.time) with
  | s :: _ =>
    passTime (s.time - m.world.clock)
    receiveAll run
    Tool.runForever
  | [] => Tool.runForever

def callFunction (tested : Bool) (body : Command) (args : List String) : Run Unit := do
  let m ← get
  if mostCalls ≤ m.calls then
    fail ("Maximum function recursion depth (" ++ Decimal.ofNat mostCalls ++ ") reached")
  let restore : Run Unit := modify fun after =>
    let shown := after.hidden.foldl (fun (after : Machine) h =>
      if h.name = "-" then { after with switches := (h.value.getD "").toList } else after.unhide h) after
    { shown with
      arguments := m.arguments, loops := m.loops, hidden := m.hidden, calls := m.calls
      optionIndex := m.optionIndex, optionPlace := m.optionPlace }
  set { m with
    arguments := args, loops := 0, hidden := [], calls := m.calls + 1
    optionIndex := 1, optionPlace := 0 }
  tryCatch (run tested body) fun i =>
    match i with
    | .comeBack => pure ()
    | i => do
      restore
      throw i
  restore

/-- Runs a command of the shell whose errors do not end it. -/
def guarded (body : Run Unit) : Run Unit :=
  tryCatch body fun i =>
    match i with
    | .failed => setStatus 2
    | i => throw i

def runOther (name : String) (args : List String) : Run Unit := do
  let m ← get
  match findProgram m (shellPath m) name with
  | .error e => do
    warn (name ++ ": " ++ e.message)
    setStatus e.status
  | .ok _ => setStatus (← runChild run (shellPath m) name args).status

/-- Runs the command that words name, behind the command that looks for no functions. -/
def runPlain (tested : Bool) (words : List String) : Run Unit := do
  match words with
  | [] => setStatus 0
  | "command" :: options =>
    match options with
    | [] => setStatus 0
    | option :: names =>
      if option = "-v" then
        match names with
        | name :: _ => asCommand do
          spellName name
          return (← get).status
        | [] => setStatus 0
      else if option = "-V" then asCommand do
        describeNames names
        return (← get).status
      else guarded (fail ("command: Illegal option " ++ option))
  | name :: args =>
    if specialNames.contains name then guarded (runSpecial run tested name args)
    else if isBuiltin name then guarded (runOwn run name args)
    else runOther run name args

def runNamed (tested : Bool) (name : String) (args : List String) : Run Unit := do
  if specialNames.contains name then runSpecial run tested name args
  else
    match (← get).functions.lookup name with
    | some body => callFunction run tested body args
    | none => runPlain run tested (withoutCommand (name :: args))

/-- Binds names to the values of assignments; gives them as words. -/
def assign (shared : Bool) (assignments : List (String × Word)) : Run (List String) :=
  assignments.mapM fun (name, w) => do
    let v ← expandValue (substitute run) w
    bindName name v
    if shared then modify fun m => m.share name
    return name ++ "=" ++ v

/-- Expands the words of a command one after the other. Behind a command that binds names, those that do so
are expanded as assignments. -/
def expandCommand : List String → List Word → Run (List String)
  | texts, [] => return texts
  | texts, w :: rest => do
    let isBinder := match withoutCommand texts with
      | name :: _ => bindsNames name
      | [] => false
    match if isBinder then assignment? w else none with
    | some (name, value) => do
      let v ← expandValue (substitute run) value
      expandCommand (texts ++ [name ++ "=" ++ v]) rest
    | none => expandCommand (texts ++ (← expandWords (substitute run) [w])) rest

/-- Shows a command before it is run, if that is asked for, where messages went before. -/
def trace (messages : Option Nat) (words : List String) : Run Unit := do
  let m ← get
  if m.has 'x' then
    match messages with
    | some id =>
      let mark ← expandText (substitute run) (quotedWord? .quotes (m.binding "PS4").toList |>.getD [])
      withChannel 2 id (complain (mark ++ " ".intercalate words))
    | none => pure ()

/-- Runs a simple command. Assignments before a command hold while it is run, and from then on if it
is one whose errors end the shell or if there is no command. -/
def runSimple (tested : Bool) (assignments : List (String × Word)) (words : List Word)
    (redirections : List Redirection) : Run Unit := do
  modify fun m => { m with inner := 0 }
  let texts ← expandCommand run [] words
  let messages := (← get).stream? 2
  let goals ← expandGoals (substitute run) redirections
  let isSpecial := texts.head?.any specialNames.contains
  let failed : Run Unit := do
    setStatus 2
    if isSpecial then throw .failed
  redirecting goals (withoutCommand texts == ["exec"]) failed do
    match texts with
    | [] => do
      let shown ← assign run false assignments
      if !shown.isEmpty then trace run messages shown
      setStatus (← get).inner
    | name :: args =>
      if isSpecial then
        let shown ← assign run (name == "exec") assignments
        trace run messages (shown ++ texts)
        runNamed run tested name args
      else if assignments.isEmpty then
        trace run messages texts
        runNamed run tested name args
      else
        let m ← get
        let restore : Run Unit := modify fun after =>
          assignments.foldl (fun (after : Machine) a => after.unhide (m.hide a.1)) after
        let shown ← assign run true assignments
        trace run messages (shown ++ texts)
        tryCatch (runNamed run tested name args) fun i => do
          restore
          throw i
        restore

def matchesAny (text : List Char) : List Word → Run Bool
  | [] => return false
  | p :: rest => do
    if matchesPattern (← expandMarked (substitute run) p) text then return true
    matchesAny text rest

/-- The body of the first branch that has a pattern which matches a text. -/
def chosen (text : List Char) : Command → Run Command
  | .choice _ patterns body otherwise => do
    if ← matchesAny run text patterns then return body
    chosen text otherwise
  | c => return c

/-- Runs two commands at a time: what the first one prints is read by the second one. -/
def runPipe (tested : Bool) (a b : Command) : Run Unit := do
  let before ← get
  let start := before.world.clock
  let id ← openText []
  modify fun m => { m with feeds := true }
  withChannel 1 id (inSubshell run (run tested a))
  let finish := (← get).world.clock
  modify fun m => { m with
    feeds := before.feeds, status := before.status, world := (m.world.turn id).setClock start }
  withChannel 0 id (inSubshell run (run tested b))
  modifyWorld fun w => w.setClock (max w.clock finish)
  forgetStreams before.world.nextStream

/-- Runs a command in the background. It has nothing to read. -/
def runBehind (c : Command) : Run Unit := do
  let before ← get
  let start := before.world.clock
  let number := before.world.lastNumber + 1
  let empty ← openText []
  let quiet : List (String × String) := [("INT", ""), ("QUIT", "")]
  set { (← get) with traps := quiet ++ before.traps, feeds := false }
  withChannel 0 empty (tryCatch (inSubshell run (run false c)) fun i =>
    match i with
    | .expired => setStatus 143
    | i => throw i)
  modify fun m =>
    let w := m.world.setClock start
    let task : Task := ⟨number, m.status, m.world.clock, false⟩
    let others := remainingJobs before
    { m with
      world := { w with tasks := task :: w.tasks }
      jobs := (freePlace others, number) :: others
      behind := some number
      traps := before.traps
      feeds := before.feeds
      status := 0 }
  forgetStreams before.world.nextStream

def runRedirected (tested : Bool) (c : Command) (rs : List Redirection) : Run Unit := do
  match c with
  | .simple assignments words => do
    runSimple run tested assignments words rs
    check run tested
  | .subshell c => do
    let goals ← expandGoals (substitute run) rs
    inSubshell run (redirecting goals false (exit 2) (run tested c))
    check run tested
  | c => do
    let goals ← expandGoals (substitute run) rs
    redirecting goals false (do setStatus 2; check run tested) (run tested c)

/-- Runs a command; `run` runs those inside of it. -/
def runKind (tested : Bool) (c : Command) : Run Unit := do
  match c with
  | .nothing => setStatus 0
  | .simple assignments words =>
    runSimple run tested assignments words []
    check run tested
  | .redirected c rs => runRedirected run tested c rs
  | .group c => run tested c
  | .negation c =>
    run true c
    setStatus (statusOf ((← get).status != 0))
  | .pipe a b =>
    runPipe run tested a b
    check run tested
  | .both a b =>
    run true a
    if (← get).status = 0 then run tested b
  | .either a b =>
    run true a
    if (← get).status ≠ 0 then run tested b
  | .sequence a b =>
    run tested a
    run tested b
  | .background c => runBehind run c
  | .subshell c =>
    inSubshell run (run tested c)
    check run tested
  | .conditional test body otherwise =>
    run true test
    if (← get).status = 0 then run tested body else run tested otherwise
  | .loop untilTrue test body =>
    let round : Run Round := do
      run true test
      if ((← get).status == 0) == untilTrue then return .over
      run tested body
      return .done
    inLoop (rounds (overrun run) round mostRounds 0)
  | .each name words body =>
    let values ← match words with
      | some ws => expandWords (substitute run) ws
      | none => pure (← get).arguments
    if values.isEmpty then setStatus 0
    inLoop (roundsOver name (run tested body) values)
  | .choice w _ _ _ =>
    let text := textOf (← expandMarked (substitute run) w)
    run tested (← chosen run text c)
  | .definition name body =>
    modify fun m => { m with functions := (name, body) :: m.functions.filter (·.1 != name) }
    setStatus 0

/-- Runs a command, unless commands are only to be read, and receives the signals that have come until
then. -/
def runCommand (tested : Bool) (c : Command) : Run Unit := do
  if (← get).has 'n' then return
  runKind run tested c
  receiveAll run

end

/-- The runner that runs commands inside of one another up to some depth. A shell that goes deeper is
ended. -/
def runner : Nat → Runner
  | 0 => fun _ _ => throw (.ended (.killed 11))
  | depth + 1 => runCommand (runner depth)

/-- How deep commands may be run inside of one another. -/
def deepestRun : Nat := 20000

end DataQuality.Shell
