import DataQuality.Shell.Channel

/-!
# Arguments and input of tools

The arguments of a tool are options and operands. An option is a letter behind a minus sign, several of
which may be written together, or a name behind two; names may be cut short as long as they stay
unique. Some options take a value: the rest of the argument, or the next one.

What tools read are the files that their operands name, or what is still to be read if there are none,
often line by line.
-/
namespace DataQuality.Shell.Tool

/-- The options that a tool has. -/
structure Options where
  /-- The letters without a value. -/
  flags : String := ""
  /-- The letters with a value. -/
  valued : String := ""
  /-- The letters with a value that may be left out. -/
  optional : String := ""
  /-- The names, and the letters that they stand for. -/
  names : List (String × Char) := []
  /-- Whether options may stand behind operands. -/
  permutes : Bool := true

/-- The arguments of a tool. -/
structure Given where
  /-- The letters of the options, with their values. -/
  options : List (Char × String)
  operands : List String

namespace Given

def has (g : Given) (c : Char) : Bool := g.options.any (·.1 == c)

def value? (g : Given) (c : Char) : Option String := (g.options.reverse.lookup c)

def values (g : Given) (c : Char) : List String :=
  (g.options.filter (·.1 == c)).map (·.2)

def last? (g : Given) (cs : List Char) : Option Char :=
  ((g.options.filter fun o => cs.contains o.1).getLast?).map (·.1)

/-- The arguments with an option in front. -/
def withOption (g : Given) (c : Char) (value : String) : Given :=
  { g with options := (c, value) :: g.options }

end Given

namespace Options

/-- What an argument with options holds: letters and their values, and whether the next argument is the
value of the last one. -/
structure Cluster where
  options : List (Char × String)
  awaits : Option Char

def readLetters? (o : Options) : List Char → Option Cluster
  | [] => some ⟨[], none⟩
  | c :: rest =>
    if o.flags.toList.contains c then
      (readLetters? o rest).map fun k => { k with options := (c, "") :: k.options }
    else if o.optional.toList.contains c then some ⟨[(c, String.ofList rest)], none⟩
    else if o.valued.toList.contains c then
      if rest.isEmpty then some ⟨[], some c⟩ else some ⟨[(c, String.ofList rest)], none⟩
    else none

/-- The letter that a name, perhaps cut short, stands for. -/
def letterOf? (o : Options) (name : String) : Option Char :=
  match o.names.lookup name with
  | some c => some c
  | none =>
    match ((o.names.filter fun n => n.1.startsWith name).map (·.2)).eraseDups with
    | [c] => some c
    | _ => none

/-- Reads the name of an option and its value, if that is written with it. -/
def readName? (o : Options) (cs : List Char) : Option Cluster := do
  let (name, value) := cs.span (· != '=')
  let c ← letterOf? o (String.ofList name)
  match value with
  | _ :: value =>
    if o.valued.toList.contains c || o.optional.toList.contains c then
      pure ⟨[(c, String.ofList value)], none⟩
    else none
  | [] => pure (if o.valued.toList.contains c then ⟨[], some c⟩ else ⟨[(c, "")], none⟩)

/-- Reads arguments; `none` stands for an option that the tool does not have. -/
def read? (o : Options) : List String → Option Given
  | [] => some ⟨[], []⟩
  | a :: rest =>
    let cluster : Option (Option Cluster) :=
      match a.toList with
      | ['-', '-'] => none
      | '-' :: '-' :: name => some (readName? o name)
      | '-' :: c :: letters => some (readLetters? o (c :: letters))
      | _ => none
    match cluster with
    | some none => none
    | some (some k) =>
      match k.awaits, rest with
      | none, rest => (read? o rest).map fun g => { g with options := k.options ++ g.options }
      | some c, v :: rest =>
        (read? o rest).map fun g => { g with options := k.options ++ (c, v) :: g.options }
      | some _, [] => none
    | none =>
      if a = "--" then some ⟨[], rest⟩
      else if o.permutes then (read? o rest).map fun g => { g with operands := a :: g.operands }
      else some ⟨[], a :: rest⟩

end Options

/-- What a tool does with its arguments: it gives its status. -/
abbrev Action := Given → Run Nat

/-- The options of a tool, the status with which it refuses others, and what it does. -/
structure Utility where
  options : Options := {}
  refusal : Nat := 1
  /-- How arguments of an older form are written today. -/
  prepare : List String → List String := id
  action : Action

def say (tool message : String) : Run Unit := complain (tool ++ ": " ++ message)

/-- The status with which a tool ends that cannot do what it is told. -/
def refuse (tool message : String) (status : Nat) : Run Nat := do
  say tool message
  return status

/-- The lines of a text, without their ends. -/
def lines (cs : List Char) : List (List Char) :=
  let all := cs.splitOn '\n'
  if all.getLast? = some [] then all.dropLast else all

def linesBy (ending : Char) (cs : List Char) : List (List Char) :=
  let all := cs.splitOn ending
  if all.getLast? = some [] then all.dropLast else all

/-- A text of lines that each end with some character. -/
def unlines (ending : Char) (ls : List (List Char)) : List Char := ls.flatMap (· ++ [ending])

/-- Whether the last line of a text has an end. -/
def isEnded (cs : List Char) : Bool := cs.isEmpty || cs.getLast? == some '\n'

/-- The lines of a text with their ends, if they have one. -/
def linesWithEnds (cs : List Char) : List (List Char) :=
  let ls := (lines cs).map (· ++ ['\n'])
  if isEnded cs then ls
  else match ls.getLast? with
    | some l => ls.dropLast ++ [l.dropLast]
    | none => []

/-- How a tool names a file with which it cannot do what it is told. -/
def accused (tool name : String) : String :=
  let quoted := "'" ++ name ++ "'"
  match tool with
  | "chmod" => "cannot access " ++ quoted
  | "cp" => "cannot stat " ++ quoted
  | "head" => "cannot open " ++ quoted ++ " for reading"
  | "ln" => "failed to access " ++ quoted
  | "mkdir" => "cannot create directory " ++ quoted
  | "mv" => "cannot stat " ++ quoted
  | "rm" => "cannot remove " ++ quoted
  | "rmdir" => "failed to remove " ++ quoted
  | "sed" => "can't read " ++ name
  | "sort" => "cannot read: " ++ name
  | "tac" => "failed to open " ++ quoted ++ " for reading"
  | "tail" => "cannot open " ++ quoted ++ " for reading"
  | "touch" => "cannot touch " ++ quoted
  | _ => name

/-- The text of a file, or what is still to be read where a minus sign stands for it. -/
def textOf? (tool name : String) : Run (Option (List Char)) := do
  if name = "-" then return some (← readAllOn 0)
  match ← readFile name with
  | .ok cs => return some cs
  | .error e => do
    say tool (accused tool name ++ ": " ++ e.message)
    return none

/-- The names of the files that a tool reads. -/
def namesOf (operands : List String) : List String := if operands.isEmpty then ["-"] else operands

/-- The texts of files, with their names, and whether all of them could be read. -/
def textsOf (tool : String) (operands : List String) : Run (List (String × List Char) × Bool) := do
  let all ← (namesOf operands).mapM fun name => do return (name, ← textOf? tool name)
  return (all.filterMap fun (name, cs) => cs.map (name, ·), all.all fun (_, cs) => cs.isSome)

/-- The text of all files together, and whether all of them could be read. -/
def wholeText (tool : String) (operands : List String) : Run (List Char × Bool) := do
  let (texts, fine) ← textsOf tool operands
  return ((texts.map (·.2)).flatten, fine)

/-- What a tool does that makes one text of its input. -/
def filtering (tool : String) (change : List Char → List Char) : Action := fun g => do
  let (cs, fine) ← wholeText tool g.operands
  print (change cs)
  return statusOf fine

/-- Does something for each of some operands. The status tells whether all went well. -/
def forEach (operands : List String) (f : String → Run Nat) : Run Nat := do
  let statuses ← operands.mapM f
  return statuses.foldl max 0

/-- The natural number that an argument is. -/
def number? (s : String) : Option Nat := Decimal.readNat? s.toList

/-- The number that an argument with a sign for its size is. -/
def sized? (s : String) : Option Nat :=
  let (ds, unit) := s.toList.span Decimal.isDigit
  if ds.isEmpty then none
  else
    let n := Decimal.natOfDigits ds
    match String.ofList unit with
    | "" => some n
    | "b" => some (512 * n)
    | "k" => some (1024 * n)
    | "K" => some (1024 * n)
    | "kB" => some (1000 * n)
    | "KB" => some (1000 * n)
    | "M" => some (1024 * 1024 * n)
    | "MB" => some (1000 * 1000 * n)
    | "G" => some (1024 * 1024 * 1024 * n)
    | _ => none

/-- A number brought to a width by blanks in front. -/
def padded (width : Nat) (cs : List Char) : List Char :=
  List.replicate (width - cs.length) ' ' ++ cs

end DataQuality.Shell.Tool
