import DataQuality.Shell.Condition
import DataQuality.Shell.Expansion

/-!
# Shell settings

The bindings and options of a shell, as arguments of its commands change them.
-/
namespace DataQuality.Shell

/-- The number that an argument of a command of the shell gives. -/
def count (command s : String) : Run Nat :=
  match Condition.integer? s with
  | some i =>
    if 0 ≤ i && i ≤ 2147483647 then pure i.toNat else fail (command ++ ": Illegal number: " ++ s)
  | none => fail (command ++ ": Illegal number: " ++ s)

/-- The name and value of an argument that binds a name. -/
def binding (s : String) : String × Option String :=
  match s.toList.span (· != '=') with
  | (name, _ :: value) => (String.ofList name, some (String.ofList value))
  | (name, []) => (String.ofList name, none)

def bindArgument (shared : Bool) (s : String) : Run Unit := do
  let (name, value) := binding s
  if !isName name.toList then fail (name ++ ": bad variable name")
  if let some v := value then bindName name v
  if shared then modify fun m => m.share name

def optionNames : List (String × Char) :=
  [("errexit", 'e'), ("noglob", 'f'), ("ignoreeof", 'I'), ("interactive", 'i'), ("monitor", 'm'),
    ("noexec", 'n'), ("stdin", 's'), ("xtrace", 'x'), ("verbose", 'v'), ("vi", 'V'), ("emacs", 'E'),
    ("noclobber", 'C'), ("allexport", 'a'), ("notify", 'b'), ("nounset", 'u'),
    ("privileged", 'p'), ("nolog", 'l'),
    ("debug", 'd')]

def switch? (on : Bool) (m : Machine) (c : Char) : Option Machine :=
  if "efIimnsxvVECabu".toList.contains c then some (m.switched c on) else none

/-- What arguments say of the options of a shell. -/
structure Switching where
  machine : Machine
  /-- The letters that were given. -/
  letters : List Char
  /-- The arguments behind the options; `none` if nothing ends the options. -/
  rest : Option (List String)
  /-- Whether the names of the options are asked for. -/
  lists : Bool

/-- Reads options. Those of the start of a shell are allowed if `atStart` says so. -/
def readSwitches? (atStart : Bool) : Switching → List String → Option Switching
  | o, [] => some o
  | o, a :: rest =>
    match a.toList with
    | '-' :: [] =>
      if atStart then some { o with rest := some rest }
      else
        let quiet := (o.machine.switched 'x' false).switched 'v' false
        some { o with machine := quiet, rest := if rest.isEmpty then none else some rest }
    | '-' :: '-' :: [] => some { o with rest := some rest }
    | sign :: letters =>
      if sign = '-' || sign = '+' then do
        let on := sign == '-'
        let m ← letters.foldlM (fun m c =>
          if c = 'o' || (atStart && (c = 'c' || c = 'l')) then some m else switch? on m c) o.machine
        let o := { o with machine := m, letters := o.letters ++ letters }
        if letters.contains 'o' then
          match rest with
          | name :: rest => do
            let c ← optionNames.lookup name
            readSwitches? atStart { o with machine := o.machine.switched c on } rest
          | [] => some { o with lists := true }
        else readSwitches? atStart o rest
      else some { o with rest := some (a :: rest) }
    | [] => some { o with rest := some (a :: rest) }

/-- The options with their names, as a shell lists them. -/
def listedOptions (m : Machine) : List Char :=
  ("Current option settings\n" ++ String.join (optionNames.map fun (name, c) =>
    name ++ "".pushn ' ' (16 - name.length) ++ (if m.has c then "on" else "off") ++ "\n")).toList

/-- A text in single quotes, so that a shell reads it as one word. -/
def inQuotes (s : String) : String :=
  "'" ++ "'\\''".intercalate ((s.toList.splitOn '\'').map String.ofList) ++ "'"

end DataQuality.Shell
