import DataQuality.Shell.Script

/-!
# Signals and programs in the background

The commands by which a shell sends signals to programs and waits for the ones that it runs in the
background.
-/
namespace DataQuality.Shell

/-- The option and operands of the command that sends signals. -/
inductive Sending
  /-- The names of all signals, or of some. -/
  | list (args : List String)
  | send (signal : Nat) (targets : List String)
  | invalid (message : String)

def Sending.ofArguments : List String → Sending
  | "-l" :: args => .list args
  | "-s" :: name :: targets =>
    match Signal.ofText? name with
    | some signal => .send signal targets
    | none => .invalid ("kill: invalid signal number or name: " ++ name)
  | "--" :: targets => .send 15 targets
  | a :: rest =>
    match a.toList with
    | '-' :: name =>
      match Signal.ofText? (String.ofList name) with
      | some signal => .send signal (if rest.head? = some "--" then rest.tail else rest)
      | none => .invalid ("kill: Illegal option " ++ String.ofList ('-' :: name.take 1))
    | _ => .send 15 (a :: rest)
  | [] => .send 15 []

/-- Sends a signal to a program; tells whether it is there. -/
def sendSignal (signal target : Nat) : Run Bool := do
  let m ← get
  let now := m.world.clock
  match m.world.task? target with
  | some t =>
    if t.awaited || t.finish < now then return false
    if Signal.ends signal then
      modifyWorld fun w => w.changeTask target fun t =>
        { t with status := 128 + signal, finish := now }
    return true
  | none =>
    let isAlive := target = m.number || target = m.shellNumber ||
      Decimal.ofNat target = m.binding "PPID" || 1 < target && target < m.number
    if isAlive && signal ≠ 0 then
      modifyWorld fun w => { w with signals := w.signals ++ [⟨target, signal, now⟩] }
    return isAlive

/-- Sends signals. -/
def kill (args : List String) : Run Unit := do
  match Sending.ofArguments args with
  | .invalid message => fail message
  | .send _ [] => fail "kill: Usage: kill [-s sigspec | -signum | -sigspec] [pid | job]..."
  | .list [] => do
    for name in Signal.names do printLine (if name = "EXIT" then "0" else name)
    setStatus 0
  | .list (a :: _) => do
    match Decimal.readNat? a.toList with
    | some n =>
      let n := if 128 < n then n - 128 else n
      if 0 < n && n ≤ 64 then
        printLine (Signal.name n)
        setStatus 0
      else fail ("kill: invalid signal number or name: " ++ a)
    | none => fail ("kill: invalid signal number or name: " ++ a)
  | .send signal targets => do
    let statuses ← targets.mapM fun target => do
      if target.startsWith "%" then
        warn "kill: No such process"
        return 1
      match Condition.integer? target with
      | some (.ofNat n) => do
        let own := (← get).number
        let target := if n = 0 then own else n
        let found ← sendSignal signal target
        if !found then warn "kill: No such process"
        return statusOf found
      | some _ => do
        warn "kill: No such process"
        return 1
      | none => fail ("kill: Illegal number: " ++ target)
    setStatus (statuses.foldl max 0)

section
variable (run : Runner)

/-- Waits until some time, or until a signal is received; then its number is given. -/
def waitUntil (time : Nat) : Run (Option Nat) := do
  let m ← get
  let isHeard (s : Sent) : Bool :=
    s.target == m.number && s.time ≤ time && m.traps.lookup (Signal.name s.signal) != some "" &&
      ((m.traps.lookup (Signal.name s.signal)).isSome || Signal.ends s.signal)
  match (m.world.signals.filter isHeard).mergeSort (fun a b => a.time ≤ b.time) with
  | first :: _ =>
    passTime (first.time - m.world.clock)
    receiveAll run
    return some first.signal
  | [] =>
    passTime (time - m.world.clock)
    return none

/-- Waits for programs in the background. -/
def wait (args : List String) : Run Unit := do
  let await (number : Nat) : Run Nat := do
    let m ← get
    match m.world.task? number, m.jobs.any (·.2 == number) with
    | some t, true =>
      match ← waitUntil run t.finish with
      | some signal => return 128 + signal
      | none =>
        modifyWorld fun w => w.changeTask number fun t => { t with awaited := true }
        return t.status
    | _, _ => return 127
  match args with
  | [] => do
    let m ← get
    let numbers := m.jobs.map (·.2)
    let last := numbers.foldl (fun time n => max time (((m.world.task? n).map (·.finish)).getD 0)) 0
    match ← waitUntil run last with
    | some signal => setStatus (128 + signal)
    | none =>
      for number in numbers do
        modifyWorld fun w => w.changeTask number fun t => { t with awaited := true }
      setStatus 0
  | args => do
    let statuses ← args.mapM fun a => do
      match a.toList with
      | '%' :: ds => do
        let place := (Decimal.readNat? ds).getD 1
        match (← get).jobs.lookup place with
        | some number => await number
        | none => fail ("wait: No such job: " ++ a)
      | cs =>
        match Decimal.readNat? cs with
        | some number => await number
        | none => fail ("wait: Illegal number: " ++ a)
    setStatus (statuses.getLast?.getD 0)

end

/-- What is shown of a program in the background. -/
def jobLine (now place : Nat) (mark : String) (t : Task) : String :=
  let state :=
    if now < t.finish then "Running"
    else if t.status = 0 then "Done"
    else "Done(" ++ Decimal.ofNat t.status ++ ")"
  "[" ++ Decimal.ofNat place ++ "] " ++ mark ++ " " ++ state.pushn ' ' (27 - state.length)

/-- Shows programs in the background, the last one first. The ones that have ended are forgotten then. -/
def showJobs (numbersOnly : Bool) : List (Nat × Nat) → Run Unit
  | [] => pure ()
  | (place, number) :: rest => do
    let m ← get
    match m.world.task? number with
    | none => pure ()
    | some t =>
      if t.awaited then pure ()
      else if numbersOnly then printLine (Decimal.ofNat number)
      else
        let others := (m.jobs.takeWhile (·.2 != number)).length
        let mark := if others = 0 then "+" else if others = 1 then "-" else " "
        printLine (jobLine m.world.clock place mark t)
      if t.finish ≤ m.world.clock then
        modify fun m => { m with jobs := m.jobs.filter (·.2 != number) }
    showJobs numbersOnly rest

/-- Shows the programs in the background. -/
def jobs (args : List String) : Run Unit := do
  showJobs (args.contains "-p") (← get).jobs
  setStatus 0

/-- The programs in the background without those whose end has been awaited. -/
def remainingJobs (m : Machine) : List (Nat × Nat) :=
  m.jobs.filter fun j => (m.world.task? j.2).any fun t => !t.awaited

/-- The first place that no program in the background has. -/
def freePlace (jobs : List (Nat × Nat)) : Nat :=
  (((List.range (jobs.length + 1)).map (· + 1)).find? fun n => (jobs.lookup n).isNone).getD 1

end DataQuality.Shell
