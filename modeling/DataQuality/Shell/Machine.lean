import DataQuality.Decimal.Integer
import DataQuality.Shell.Token
import DataQuality.Shell.World

/-!
# Running programs

What a running shell or another program holds, and how the run of a command may be interrupted. All
texts are texts of bytes.
-/
namespace DataQuality.Shell

open Files (Path Route Tree)

/-- How a running program ends. -/
inductive Ending
  | exited (code : Nat)
  | killed (signal : Nat)
  deriving DecidableEq, Repr

/-- What a name was before a function or command had it for itself. -/
structure Hidden where
  name : String
  value : Option String
  /-- Whether it was handed on to other programs. -/
  shared : Bool
  /-- Whether it could not change. -/
  isFixed : Bool

/-- A running program. -/
structure Machine where
  world : World
  /-- What the program was called. -/
  name : String
  /-- The positional parameters. -/
  arguments : List String
  /-- The number of the program. -/
  number : Nat
  /-- The number that the shell gives as its own, which its subshells share. -/
  shellNumber : Nat
  folder : Path
  /-- Which streams the channels lead to. -/
  channels : List (Nat × Nat)
  bindings : List (String × String)
  /-- The names of the bindings that are handed on to other programs. -/
  exported : List String
  /-- The names whose bindings may not change. -/
  fixed : List String
  functions : List (String × Command)
  aliases : List (String × String)
  /-- What to do on a signal, and at the end under the name `EXIT`. -/
  traps : List (String × String)
  /-- How the last command ended. -/
  status : Nat
  /-- The letters of the options that are on. -/
  switches : List Char
  /-- How many loops are running, one inside of the other. -/
  loops : Nat
  /-- What names were before the function that is running had them for itself. -/
  hidden : List Hidden
  /-- The programs in the background that the shell has started itself, the last one first: each has a
  place among them, from one on. -/
  jobs : List (Nat × Nat)
  /-- The number of the last program in the background. -/
  behind : Option Nat
  /-- The rights that new files do not get. -/
  mask : Nat
  /-- How much other programs go before this one. -/
  niceness : Int
  /-- When the program is ended from outside, if it is. -/
  deadline : Option Nat
  /-- Whether something could not be read or printed. -/
  broken : Bool
  /-- At which argument `getopts` is, from one on. -/
  optionIndex : Nat
  /-- How far `getopts` has got inside of an argument. -/
  optionPlace : Nat
  /-- How the last script inside of a word ended. -/
  inner : Nat
  /-- How many functions are running, one inside of the other. -/
  calls : Nat
  /-- How the last command ended before the shell began to do what it does on a signal or at its end. -/
  interrupted : Option Nat
  /-- Whether what is printed is read by another program, which may end before. -/
  feeds : Bool

/-- Why a command is not run to its end. -/
inductive Interruption
  /-- Loops are left. -/
  | leave (levels : Nat)
  /-- A loop goes on with its next round. -/
  | again (levels : Nat)
  /-- A function is left. -/
  | comeBack
  | ended (e : Ending)
  /-- An error that a shell cannot go on from. -/
  | failed
  /-- The time is over. -/
  | expired
  deriving DecidableEq, Repr

/-- A part of a run. -/
abbrev Run := ExceptT Interruption (StateM Machine)

def exit {α : Type} (code : Nat) : Run α := throw (.ended (.exited (code % 256)))

/-- Sets how the last command ended. -/
def setStatus (n : Nat) : Run Unit := modify fun m => { m with status := n }

/-- Changes what programs share. -/
def modifyWorld (f : World → World) : Run Unit := modify fun m => { m with world := f m.world }

/-- The status of a truth value. -/
def statusOf (b : Bool) : Nat := if b then 0 else 1

def Ending.status : Ending → Nat
  | .exited code => code
  | .killed signal => 128 + signal

namespace Machine

/-- The bindings that every shell begins with. -/
def firstBindings : List (String × String) :=
  [("IFS", " \t\n"), ("OPTIND", "1"), ("PS1", "# "), ("PS2", "> "), ("PS4", "+ ")]

/-- The bindings that are handed on to the first program. -/
def givenBindings : List (String × String) :=
  [("HOME", "/root"), ("PATH", "/usr/local/sbin:/usr/local/bin:/usr/sbin:/usr/bin:/sbin:/bin")]

def pathText (p : Path) : String := Bytes.encode (Path.text p)

/-- A program that has not run anything yet. Its first three channels lead to streams of their own. -/
def start (folder : Path) (tree : Tree) : Machine where
  world := ⟨tree, [(0, .nothing), (1, .text [] []), (2, .text [] [])], 3, 0, 2, [], []⟩
  name := "sh"
  arguments := []
  number := 2
  shellNumber := 1
  folder := folder
  channels := [(0, 0), (1, 1), (2, 2)]
  bindings := givenBindings
  exported := givenBindings.map (·.1)
  fixed := []
  functions := []
  aliases := []
  traps := []
  status := 0
  switches := []
  loops := 0
  hidden := []
  jobs := []
  behind := none
  mask := 0o022
  niceness := 0
  deadline := none
  broken := false
  optionIndex := 1
  optionPlace := 0
  inner := 0
  calls := 0
  interrupted := none
  feeds := false

/-- The files. -/
def tree (m : Machine) : Tree := m.world.tree

/-- The program with other files. -/
def withTree (m : Machine) (t : Tree) : Machine := { m with world := { m.world with tree := t } }

/-- The program without what a path leads to. -/
def without (m : Machine) (p : Path) : Machine := { m with world := m.world.remove p }

/-- The program without a folder and all in it. -/
def withoutFolder (m : Machine) (p : Path) : Machine := { m with world := m.world.removeFolder p }

/-- Whether an option is on. -/
def has (m : Machine) (switch : Char) : Bool := m.switches.contains switch

/-- The program with an option switched. -/
def switched (m : Machine) (switch : Char) (on : Bool) : Machine :=
  let others := m.switches.filter (· != switch)
  { m with switches := if on then switch :: others else others }

/-- The characters that separate words in a value. -/
def separators (m : Machine) : List Char := ((m.bindings.lookup "IFS").getD " \t\n").toList

/-- The letters of the options that are on, as a shell shows them. -/
def optionLetters (m : Machine) : String :=
  String.ofList ("efImnsxvVECabupld".toList.filter m.has)

/-- The value of a parameter, if it has one. -/
def value? (m : Machine) (name : List Char) : Option String :=
  match name with
  | ['#'] => some (Decimal.ofNat m.arguments.length)
  | ['?'] => some (Decimal.ofNat m.status)
  | ['$'] => some (Decimal.ofNat m.shellNumber)
  | ['-'] => some m.optionLetters
  | ['!'] => m.behind.map Decimal.ofNat
  | ['@'] => if m.arguments.isEmpty then none else some (" ".intercalate m.arguments)
  | ['*'] =>
    let between := String.ofList (m.separators.take 1)
    if m.arguments.isEmpty then none else some (between.intercalate m.arguments)
  | ['0'] => some m.name
  | _ =>
    match Decimal.readNat? name with
    | some 0 => some m.name
    | some n => m.arguments[n - 1]?
    | none => m.bindings.lookup (String.ofList name)

/-- The value that a name is bound to, or nothing. -/
def binding (m : Machine) (name : String) : String := (m.bindings.lookup name).getD ""

def bind (m : Machine) (name value : String) : Machine :=
  { m with
    bindings := (name, value) :: m.bindings.filter (·.1 != name)
    optionIndex := if name = "OPTIND" then (Decimal.readNat? value.toList).getD 1 else m.optionIndex
    optionPlace := if name = "OPTIND" then 0 else m.optionPlace }

/-- The shell in which a name has no value. -/
def unbind (m : Machine) (name : String) : Machine :=
  { m with bindings := m.bindings.filter (·.1 != name) }

def hide (m : Machine) (name : String) : Hidden :=
  ⟨name, m.bindings.lookup name, m.exported.contains name, m.fixed.contains name⟩

/-- The shell in which a name is again what it was. -/
def unhide (m : Machine) (h : Hidden) : Machine :=
  let unbound := match h.value with
    | some v => m.bind h.name v
    | none => m.unbind h.name
  let without (names : List String) (keeps : Bool) : List String :=
    if keeps then h.name :: names.filter (· != h.name) else names.filter (· != h.name)
  { unbound with exported := without m.exported h.shared, fixed := without m.fixed h.isFixed }

/-- The shell in which a name is handed on to other programs. -/
def share (m : Machine) (name : String) : Machine :=
  { m with exported := if m.exported.contains name then m.exported else name :: m.exported }

/-- The bindings that are handed on to other programs. -/
def sharedBindings (m : Machine) : List (String × String) :=
  m.bindings.filter fun b => m.exported.contains b.1

def route (m : Machine) (written : String) : Route := ⟨m.folder, Bytes.decode written⟩

/-- What a written path leads to. -/
def goal? (m : Machine) (written : String) : Option Files.Entry := (m.route written).goal? m.tree

def path? (m : Machine) (written : String) : Option Path := ((m.route written).follow m.tree).toOption

/-- The stream that a channel leads to, by its number. -/
def stream? (m : Machine) (channel : Nat) : Option Nat := m.channels.lookup channel

/-- The program with a channel that leads to a stream, or is closed. -/
def lead (m : Machine) (channel : Nat) (stream : Option Nat) : Machine :=
  let others := m.channels.filter (·.1 != channel)
  { m with channels := (stream.toList.map (channel, ·)) ++ others }

end Machine

/-- Prints to a channel. Where that cannot be done, it is noted. -/
def printOn (channel : Nat) (cs : List Char) : Run Unit := modify fun m =>
  match m.stream? channel with
  | none => if cs.isEmpty then m else { m with broken := true }
  | some id =>
    match m.world.print? id cs with
    | some w => { m with world := w }
    | none => { m with broken := true }

def print (cs : List Char) : Run Unit := printOn 1 cs

def printLine (s : String) : Run Unit := print (s.toList ++ ['\n'])

/-- Prints a message on the channel for messages. What cannot be printed there is dropped. -/
def complain (message : String) : Run Unit := do
  let before := (← get).broken
  printOn 2 (message.toList ++ ['\n'])
  modify fun m => { m with broken := before }

/-- Reads all that is left on a channel. If it is closed, there is nothing to read, and that is noted. -/
def readAllOn (channel : Nat) : Run (List Char) := do
  let m ← get
  match m.stream? channel with
  | some id =>
    let cs := m.world.unread id
    modifyWorld fun w => w.skipAll id
    return cs
  | none =>
    set { m with broken := true }
    return []

def warn (message : String) : Run Unit := do
  complain ((← get).name ++ ": 1: " ++ message)

/-- Stops after an error that the shell cannot go on from. -/
def fail {α : Type} (message : String) : Run α := do
  warn message
  throw .failed

/-- Lets time pass. A program whose time is over ends. -/
def passTime (nanoseconds : Nat) : Run Unit := do
  let m ← get
  let later := m.world.clock + nanoseconds
  match m.deadline with
  | some d =>
    modifyWorld fun w => { w with clock := min later (max d w.clock) }
    if d < later then throw .expired
  | none => modifyWorld fun w => { w with clock := later }

end DataQuality.Shell
