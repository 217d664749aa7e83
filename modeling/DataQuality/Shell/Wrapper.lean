import DataQuality.Shell.Lookup
import DataQuality.Shell.Setting

/-!
# Programs that run another one

Programs that change what surrounds a program and then run it in place of themselves, as their first
operands say.
-/
namespace DataQuality.Shell.Wrapper

open Tool (Given Options)

/-- What becomes of a wrapper. -/
inductive Outcome
  | ended (status : Nat)
  /-- It gives way to another program. -/
  | becomes (program : String) (args : List String)

/-- Refuses with the status of most wrappers. -/
def refuse (name message : String) : Run Outcome := do
  return .ended (← Tool.refuse name message 125)

def becoming (name : String) : List String → Run Outcome
  | [] => refuse name "missing operand"
  | program :: args => return .becomes program args

/-- The options for changing bindings. -/
def environmentOptions : Options where
  flags := "i0v"
  valued := "uC"
  names := [("ignore-environment", 'i'), ("null", '0'), ("unset", 'u'), ("chdir", 'C'),
    ("debug", 'v')]
  permutes := false

def splitArguments : List String → List String
  | a :: rest =>
    let pieces (cs : List Char) : List String :=
      ((cs.splitOnP isSpace).filter fun w => !w.isEmpty).map String.ofList
    match a.toList with
    | ['-', 'S'] => pieces (rest.head?.getD "").toList ++ rest.tail
    | '-' :: 'S' :: cs => pieces cs ++ rest
    | _ => a :: rest
  | [] => []

/-- Changes bindings and the folder before a program is run, or shows the bindings. -/
def env (args : List String) : Run Outcome := do
  match environmentOptions.read? (splitArguments args) with
  | none => refuse "env" "invalid option"
  | some g => do
    let (bare, operands) : Bool × List String :=
      match g.operands with
      | "-" :: rest => (true, rest)
      | rest => (g.has 'i', rest)
    modify fun m =>
      let kept := if bare then [] else m.sharedBindings
      { m with bindings := kept.filter fun b => !(g.values 'u').contains b.1 }
    let isSetting (a : String) : Bool := (binding a).2.isSome
    for a in operands.takeWhile isSetting do
      let (name, value) := binding a
      modify fun m => (m.bind name (value.getD "")).share name
    let inner := operands.dropWhile isSetting
    match g.value? 'C' with
    | some written => do
      let m ← get
      match m.path? written with
      | some p =>
        if !m.tree.isFolder p then return ← refuse "env" "cannot change directory"
        set { m with folder := p }
      | none => return ← refuse "env" "cannot change directory"
    | none => pure ()
    match inner with
    | [] => do
      print (Tool.shownBindings (if g.has '0' then '\x00' else '\n') (← get).sharedBindings.reverse)
      return .ended 0
    | program :: args => return .becomes program args

/-- Arguments in which a number with a sign is the value of the option `n`. -/
def withNiceness : List String → List String
  | a :: rest =>
    match a.toList with
    | '-' :: c :: more =>
      let ds := if c = '-' || c = '+' then more else c :: more
      if !ds.isEmpty && ds.all Decimal.isDigit then "-n" :: String.ofList (c :: more) :: rest
      else a :: rest
    | _ => a :: rest
  | [] => []

/-- Runs a program with less or more of the computer's time. -/
def nice (args : List String) : Run Outcome := do
  match ({ valued := "n", names := [("adjustment", 'n')], permutes := false } : Options).read?
      (withNiceness args) with
  | none => refuse "nice" "invalid option"
  | some g => do
    let isNumber (s : String) : Bool :=
      match s.toList with
      | '-' :: ds => !ds.isEmpty && ds.all Decimal.isDigit
      | '+' :: ds => !ds.isEmpty && ds.all Decimal.isDigit
      | ds => !ds.isEmpty && ds.all Decimal.isDigit
    if (g.value? 'n').any fun s => !isNumber s then return ← refuse "nice" "invalid adjustment"
    if g.operands.isEmpty && !g.has 'n' then
      printLine (String.ofList (Decimal.intChars (← get).niceness))
      return .ended 0
    let change := ((g.value? 'n').bind fun s => Decimal.readInt? s.toList).getD 10
    modify fun m => { m with niceness := max (-20) (min 19 (m.niceness + change)) }
    becoming "nice" g.operands

/-- Runs a program that goes on when its user leaves. -/
def nohup (args : List String) : Run Outcome := do
  match ({ permutes := false } : Options).read? args with
  | none => refuse "nohup" "invalid option"
  | some g => do
    modify fun m => { m with traps := ("HUP", "") :: m.traps.filter (·.1 != "HUP") }
    becoming "nohup" g.operands

/-- Runs a program in a session of its own. -/
def setsid (args : List String) : Run Outcome := do
  match ({ flags := "cfw", names := [("ctty", 'c'), ("fork", 'f'), ("wait", 'w')],
           permutes := false } : Options).read? args with
  | none => return .ended (← Tool.refuse "setsid" "invalid option" 1)
  | some ⟨_, []⟩ => return .ended (← Tool.refuse "setsid" "no command specified" 1)
  | some g => becoming "setsid" g.operands

/-- Runs a program that prints without delay. -/
def stdbuf (args : List String) : Run Outcome := do
  match ({ valued := "ioe", names := [("input", 'i'), ("output", 'o'), ("error", 'e')],
           permutes := false } : Options).read? args with
  | none => refuse "stdbuf" "invalid option"
  | some ⟨[], _⟩ => refuse "stdbuf" "you must specify a buffering mode option"
  | some g => becoming "stdbuf" g.operands

/-- Runs a program while a file is locked, which it always can be. -/
def flock (args : List String) : Run Outcome := do
  match ({ flags := "senoux", valued := "wE", names := [("shared", 's'), ("exclusive", 'e'),
           ("nonblock", 'n'), ("unlock", 'u'), ("timeout", 'w')], permutes := false } :
           Options).read? args with
  | some ⟨_, [channel]⟩ =>
    return .ended (if (Tool.number? channel).isSome then 0 else 66)
  | some ⟨_, file :: rest⟩ => do
    match ← openToPrint .over file with
    | .error _ => return .ended 66
    | .ok _ =>
      match rest with
      | "-c" :: script :: _ => return .becomes "sh" ["-c", script]
      | rest => becoming "flock" rest
  | _ => return .ended 64

/-- How long a program may run, and what happens when its time is over. -/
structure Limit where
  nanoseconds : Nat
  signal : Nat
  /-- Whether the status tells how the program ended in any case. -/
  preserves : Bool
  program : String
  args : List String

/-- Reads how long a program may run. -/
def readLimit? (args : List String) : Option Limit := do
  let options : Options :=
    { flags := "fvp"
      valued := "sk"
      names := [("foreground", 'f'), ("verbose", 'v'), ("preserve-status", 'p'), ("signal", 's'),
        ("kill-after", 'k')]
      permutes := false }
  let g ← options.read? args
  let signal ← match g.value? 's' with
    | some s => Signal.ofText? s
    | none => some 15
  if let some k := g.value? 'k' then let _ ← Tool.span? k
  match g.operands with
  | time :: program :: args => pure ⟨← Tool.span? time, signal, g.has 'p', program, args⟩
  | _ => none

/-- Runs a child for a limited time; `child` runs programs. -/
def timeout (child : String → List String → Run Ending) (args : List String) : Run Ending := do
  match readLimit? args with
  | none => do
    Tool.say "timeout" "invalid usage"
    return .exited 125
  | some limit => do
    let before ← get
    let end1 := before.world.clock + limit.nanoseconds
    let isSooner := limit.nanoseconds != 0 && before.deadline.all (end1 < ·)
    if isSooner then modify fun m => { m with deadline := some end1 }
    let restore : Run Unit := modify fun m => { m with deadline := before.deadline }
    let ending ← tryCatch (child limit.program limit.args) fun i => do
      restore
      match i with
      | .expired =>
        if !isSooner then throw .expired
        return .exited (if limit.preserves || limit.signal = 9 then 128 + limit.signal else 124)
      | i => throw i
    restore
    return ending

/-- Shows where programs are found. -/
def which (args : List String) : Run Nat := do
  match ({ flags := "as", permutes := false } : Options).read? args with
  | none => Tool.refuse "which" "illegal option" 2
  | some g => do
    if g.operands.isEmpty then return 1
    Tool.forEach g.operands fun name => do
      let m ← get
      let found := (candidates (wrapperPath m) name).filter fun written =>
        (runnableAt m written).toOption.isSome
      let shown := if g.has 'a' then found else found.take 1
      if !g.has 's' then for written in shown do printLine written
      return statusOf !found.isEmpty

/-- A wrapper that gives way to another program. -/
def unwrap? (name : String) (args : List String) : Option (Run Outcome) :=
  match name with
  | "env" => some (env args)
  | "nice" => some (nice args)
  | "nohup" => some (nohup args)
  | "setsid" => some (setsid args)
  | "stdbuf" => some (stdbuf args)
  | "flock" => some (flock args)
  | _ => none

end DataQuality.Shell.Wrapper
