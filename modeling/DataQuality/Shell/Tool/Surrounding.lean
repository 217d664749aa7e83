import DataQuality.Decimal.Rounded
import DataQuality.Shell.Tool.Input

/-!
# Tools for what surrounds a program

Tools that print what a program can tell of the system it runs on, of its user, its folder and its
bindings, or that let time pass.
-/
namespace DataQuality.Shell.Tool

/-- Bindings line by line. -/
def shownBindings (ending : Char) (bindings : List (String × String)) : List Char :=
  bindings.flatMap fun (name, value) => (name ++ "=" ++ value).toList ++ [ending]

/-- Prints values of bindings. -/
def printenv : Action := fun g => do
  let bindings := (← get).sharedBindings
  let ending := if g.has '0' then '\x00' else '\n'
  if g.operands.isEmpty then
    print (shownBindings ending bindings)
    return 0
  forEach g.operands fun name => do
    match bindings.lookup name with
    | some v =>
      print (v.toList ++ [ending])
      return 0
    | none => return 1

/-- Prints the folder, by the path through which it was reached if that is asked for. -/
def pwd : Action := fun g => do
  let m ← get
  let given := m.binding "PWD"
  let fits := given.toList.head? == some '/' && m.path? given == some m.folder
  printLine (if g.last? ['L', 'P'] == some 'L' && fits then given else Machine.pathText m.folder)
  return 0

/-- The span of time that an argument means, in nanoseconds. -/
def span? (s : String) : Option Nat := do
  let (x, unit) ← Decimal.readFloatPrefix? s.toList
  let seconds ← match String.ofList unit with
    | "" => some 1
    | "s" => some 1
    | "m" => some 60
    | "h" => some 3600
    | "d" => some 86400
    | _ => none
  if x.isNaN || x < 0 then none
  else some (min (x * Float.ofNat seconds * 1000000000) 1e18).toUInt64.toNat

/-- Lets time pass. -/
def sleep : Action := fun g => do
  if g.operands.isEmpty then return ← refuse "sleep" "missing operand" 1
  match g.operands.mapM span? with
  | some spans =>
    passTime (spans.foldl (· + ·) 0)
    return 0
  | none => refuse "sleep" "invalid time interval" 1

/-- Prints who the user is. -/
def identify : Action := fun g => do
  let isOther (s : String) : Bool := s ≠ "root" && s ≠ "0"
  if g.operands.any isOther then return ← refuse "id" "no such user" 1
  let shown :=
    if g.has 'u' || g.has 'g' || g.has 'G' then if g.has 'n' then "root" else "0"
    else "uid=0(root) gid=0(root) groups=0(root)"
  if g.has 'n' && shown ≠ "root" then
    return ← refuse "id" "cannot print only names or real IDs in default format" 1
  printLine shown
  return 0

/-- Prints what the system is. -/
def uname : Action := fun g => do
  let known : List (Char × String) := [('s', "Linux"), ('n', "localhost"), ('r', "6.1.0"),
    ('v', "#1 SMP"), ('m', "x86_64"), ('p', "unknown"), ('i', "unknown"), ('o', "GNU/Linux")]
  if !g.operands.isEmpty then return ← refuse "uname" "extra operand" 1
  let shown := known.filter fun (c, text) => g.has c || (g.has 'a' && text ≠ "unknown")
  printLine (" ".intercalate (if shown.isEmpty then ["Linux"] else shown.map (·.2)))
  return 0

/-- Prints one fact and takes no operands. -/
def fixedLine (tool line : String) : Action := fun g => do
  if !g.operands.isEmpty then return ← refuse tool "extra operand" 1
  printLine line
  return 0

/-- Tells whether the input is a terminal, which it never is. -/
def tty : Action := fun g => do
  if !g.has 's' then printLine "not a tty"
  return 1

def surroundingTools : List (String × Utility) := [
  ("printenv", ⟨⟨"0", "", "", [("null", '0')], true⟩, 2, id, printenv⟩),
  ("pwd", ⟨⟨"LP", "", "", [("logical", 'L'), ("physical", 'P')], true⟩, 1, id, pwd⟩),
  ("sleep", ⟨{}, 1, id, sleep⟩),
  ("id", ⟨⟨"agGnruzZ", "", "", [("group", 'g'), ("groups", 'G'), ("name", 'n'), ("real", 'r'),
    ("user", 'u'), ("zero", 'z')], true⟩, 1, id, identify⟩),
  ("uname", ⟨⟨"asnrvmpio", "", "", [("all", 'a'), ("kernel-name", 's'), ("nodename", 'n'),
    ("kernel-release", 'r'), ("kernel-version", 'v'), ("machine", 'm'), ("processor", 'p'),
    ("hardware-platform", 'i'), ("operating-system", 'o')], true⟩, 1, id, uname⟩),
  ("whoami", ⟨{}, 1, id, fixedLine "whoami" "root"⟩),
  ("arch", ⟨{}, 1, id, fixedLine "arch" "x86_64"⟩),
  ("hostname", ⟨⟨"adfisIyA", "", "", [], true⟩, 1, id, fixedLine "hostname" "localhost"⟩),
  ("nproc", ⟨⟨"a", "i", "", [("all", 'a'), ("ignore", 'i')], true⟩, 1, id, fixedLine "nproc" "1"⟩),
  ("groups", ⟨{}, 1, id, fun _ => do
    printLine "root"
    return 0⟩),
  ("logname", ⟨{}, 1, id, fun _ => refuse "logname" "no login name" 1⟩),
  ("tty", ⟨⟨"s", "", "", [("silent", 's'), ("quiet", 's')], true⟩, 2, id, tty⟩),
  ("sync", ⟨⟨"df", "", "", [("data", 'd'), ("file-system", 'f')], true⟩, 1, id, fun _ => return 0⟩)]

end DataQuality.Shell.Tool
