import DataQuality.Shell.Grammar
import DataQuality.Shell.Setting

/-!
# Running scripts

How the commands of a script are run one after the other, how signals are received, and how a script
runs in a shell of its own. How a command is run is left to a runner.
-/
namespace DataQuality.Shell

/-- How the commands inside of others are run. It is told whether the failure of a command is being
tested, for then a failure does not end the shell. -/
abbrev Runner := Bool → Command → Run Unit

section
variable (run : Runner)

/-- Runs the commands that tokens are read as, line by line. -/
def runTokens (tested : Bool) : Nat → List Token → Run Unit
  | 0, _ => pure ()
  | fuel + 1, ts => do
    match firstLine? (← get).aliases ts with
    | none => pure ()
    | some (none, _) => fail "Syntax error"
    | some (some c, rest) => do
      run tested c
      runTokens tested fuel rest

def runScript (tested : Bool) (script : List Char) : Run Unit :=
  let ts := tokensOf script
  runTokens run tested (ts.length + 1) ts

/-- Does what the shell was told to do on a signal or at its end. -/
def runAction (action : String) : Run Unit := do
  let m ← get
  set { m with interrupted := some m.status }
  runScript run false action.toList
  modify fun after => { after with interrupted := m.interrupted }

/-- Receives signals: does what the shell was told to do on them, or ends. -/
def receive : List Nat → Run Unit
  | [] => pure ()
  | signal :: rest => do
    let m ← get
    match if Signal.isAvoidable signal then m.traps.lookup (Signal.name signal) else none with
    | some action =>
      if action != "" then
        runAction run action
        setStatus m.status
    | none => if Signal.ends signal then throw (.ended (.killed signal))
    receive rest

/-- Receives the signals that have been sent to the program until now. Those that end it come first, the one
from the keyboard last of them; then what the shell was told to do is done once for each signal, in the order
of their numbers. -/
def receiveAll : Run Unit := do
  let m ← get
  if m.world.signals.isEmpty then return
  let isDue (s : Sent) : Bool := s.target == m.number && s.time ≤ m.world.clock
  let (due, others) := m.world.signals.partition isDue
  modifyWorld fun w => { w with signals := others }
  let hasAction (n : Nat) : Bool :=
    Signal.isAvoidable n && (m.traps.lookup (Signal.name n)).isSome
  let (awaited, sudden) := (due.map (·.signal)).partition hasAction
  let (keyboard, sudden) := sudden.partition (· == 2)
  receive run (sudden ++ keyboard ++ awaited.eraseDups.mergeSort (· ≤ ·))

/-- Receives the signals that have been sent to the program and that end it at once, while it waits for another
one. -/
def receiveSudden : Run Unit := do
  let m ← get
  if m.world.signals.isEmpty then return
  let isSudden (s : Sent) : Bool :=
    s.target == m.number && s.time ≤ m.world.clock && Signal.ends s.signal &&
      (!Signal.isAvoidable s.signal || (m.traps.lookup (Signal.name s.signal)).isNone)
  match m.world.signals.find? isSudden with
  | some s => throw (.ended (.killed s.signal))
  | none => pure ()

/-- Runs something to its end, and then what the shell was told to do at its end. -/
def toEnd (body : Run Unit) : Run Ending := do
  let ended (body : Run Unit) : Run Ending :=
    tryCatch (do body; return Ending.exited (← get).status) fun i =>
      match i with
      | .ended e => pure e
      | .failed => return .exited 2
      | .expired => throw .expired
      | _ => return .exited (← get).status
  match ← ended body, (← get).traps.lookup "EXIT" with
  | .exited n, some action =>
    modify fun m => { m with traps := m.traps.filter (·.1 != "EXIT"), status := n }
    match ← tryCatch (do runAction run action; return none) fun i =>
      match i with
      | .ended e => pure (some e)
      | .failed => pure (some (.exited 2))
      | .expired => throw .expired
      | _ => pure none with
    | some e => return e
    | none => return .exited n
  | e, _ => return e

/-- Runs something as a program of its own, of which only what programs share and the way it ended
remain. -/
def asProgram (prepare : Machine → Machine) (body : Run Ending) : Run Ending := do
  let m ← get
  let number := m.world.lastNumber + 1
  set (prepare { m with number := number, world := { m.world with lastNumber := number } })
  let restore : Run Unit := modify fun after =>
    let w := after.world.forget m.world.nextStream (m.channels.map (·.2))
    { m with world := { w with signals := w.signals.filter (·.target != number) } }
  let ending ← tryCatch body fun i => do
    restore
    throw i
  restore
  return ending

/-- Runs something in a shell of its own. Of what to do on signals, only that they count for nothing
remains there. -/
def inSubshell (body : Run Unit) : Run Unit := do
  let prepare (m : Machine) : Machine :=
    { m with traps := m.traps.filter (·.2 == ""), jobs := [], interrupted := none }
  let ending ← asProgram prepare (toEnd run body)
  setStatus ending.status

def printedBy (body : Run Unit) : Run (List Char) := do
  let id ← openText []
  withChannel 1 id body
  let m ← get
  let cs := m.world.printed id
  forgetStreams id
  return cs

/-- What a script inside of a word prints. -/
def substitute (script : List Char) : Run (List Char) := do
  let before ← get
  set { before with feeds := false }
  let printed ← printedBy (inSubshell run (runScript run false script))
  receiveSudden
  modify fun m => { m with inner := m.status, status := before.status, feeds := before.feeds }
  return printed

end

end DataQuality.Shell
