import DataQuality.Shell.Finder
import DataQuality.Shell.Scan.Run
import DataQuality.Shell.Script
import DataQuality.Shell.Wrapper

/-!
# Launching programs

How a program is run that has been found by its name: a shell, a program that runs another one, a standard
tool, or a script that says by which program it is read. One of those that run another one reads words and
runs a command for them: for all of them at once, for so many at a time, or for each of them in the place
of a mark.
-/
namespace DataQuality.Shell.Batch

open Tool (Given Options)

def options : Options where
  flags := "0rtpxo"
  valued := "nLsPIdaE"
  optional := "ile"
  names := [("null", '0'), ("no-run-if-empty", 'r'), ("verbose", 't'), ("max-args", 'n'),
    ("max-lines", 'L'), ("max-chars", 's'), ("max-procs", 'P'), ("replace", 'i'), ("delimiter", 'd'),
    ("arg-file", 'a'), ("exit", 'x'), ("eof", 'e')]
  permutes := false

/-- A word that goes on: its characters, last one first, if there are any yet. -/
abbrev Open := Option (List Char)

/-- The words of lines. Blanks end words unless they are quoted; `none` stands for a quote that is not
closed. A blank at the end of a line makes it go on. -/
def readLines? : Nat → Open → List (List Char) → List Char → Option (List (List (List Char)))
  | 0, _, _, _ => none
  | fuel + 1, word, line, cs =>
    let line' := (word.toList.map List.reverse) ++ line
    let finish (rest : List (List (List Char))) : List (List (List Char)) :=
      if line'.isEmpty then rest else line'.reverse :: rest
    match cs with
    | [] => some (finish [])
    | '\n' :: rest => (readLines? fuel none [] rest).map finish
    | '\\' :: c :: rest => readLines? fuel (some (c :: word.getD [])) line rest
    | c :: rest =>
      if isSpace c then
        if !line'.isEmpty && rest.head? == some '\n' && word.isNone then
          readLines? fuel none line' rest.tail
        else readLines? fuel none line' rest
      else if c = '"' || c = '\'' then
        match rest.span (· != c) with
        | (quoted, _ :: rest) =>
          if quoted.contains '\n' then none
          else readLines? fuel (some (quoted.reverse ++ word.getD [])) line rest
        | (_, []) => none
      else readLines? fuel (some (c :: word.getD [])) line rest

/-- The words of the input, line by line. -/
def linesOf? (g : Given) (cs : List Char) : Option (List (List String)) :=
  let delimiter : Option Char :=
    match g.last? ['0', 'd'] with
    | some 'd' => some (((unescapedAll ((g.value? 'd').getD "").toList).1.head?).getD '\n')
    | some _ => some '\x00'
    | none => none
  match delimiter with
  | some c => some ((Tool.linesBy c cs).map fun l => [String.ofList l])
  | none =>
    if g.has 'I' || g.has 'i' then
      let whole (l : List Char) : Option (List String) := do
        let ls ← readLines? (2 * l.length + 2) none [] (l.flatMap fun c =>
          if c = ' ' || c = '\t' then ['\\', c] else [c])
        pure (ls.flatten.map String.ofList)
      ((Tool.lines cs).map fun l => l.dropWhile isSpace).filter (fun l => !l.isEmpty) |>.mapM whole
    else (readLines? (2 * cs.length + 2) none [] cs).map fun ls => ls.map (·.map String.ofList)

def replaceMark (mark word : String) (s : String) : String :=
  if mark = "" then s else word.intercalate (s.splitOn mark)

/-- The command lines that are run, each as its arguments. -/
def commandLines (g : Given) (args : List String) (ls : List (List String)) : List (List String) :=
  let mark : Option String :=
    match g.last? ['I', 'i', 'n', 'L', 'l'] with
    | some 'I' => g.value? 'I'
    | some 'i' => some (let s := (g.value? 'i').getD ""; if s = "" then "\x7b\x7d" else s)
    | _ => none
  let words := ls.flatten
  match mark with
  | some mark => words.map fun w => args.map (replaceMark mark w)
  | none =>
    let size (c : Char) : Nat := max 1 (((g.value? c).bind Tool.number?).getD 1)
    let batches : List (List String) :=
      match g.last? ['n', 'L', 'l'] with
      | some 'n' => (Tool.rows (size 'n') words)
      | some c => (Tool.rows (size c) ls).map List.flatten
      | none => if words.isEmpty then [] else [words]
    if batches.isEmpty && !g.has 'r' then [args] else batches.map (args ++ ·)

/-- Runs command lines one after the other as long as none tells to stop; gives the status. -/
def runAll (child : String → List String → Run Ending) (program : String) (shows : Bool) :
    Nat → List (List String) → Run Nat
  | worst, [] => return worst
  | worst, args :: rest => do
    if shows then complain (" ".intercalate (program :: args))
    match findProgram (← get) (wrapperPath (← get)) program with
    | .error e => do
      Tool.say "xargs" (program ++ ": " ++ e.message)
      return e.status
    | .ok _ => do
      match ← child program args with
      | .killed _ => return 125
      | .exited 255 => return 124
      | .exited 0 => runAll child program shows worst rest
      | .exited _ => runAll child program shows 123 rest

/-- Runs a command for batches of words. The commands have nothing to read. -/
def xargs (child : String → List String → Run Ending) (args : List String) : Run Nat := do
  match options.read? args with
  | none => Tool.refuse "xargs" "invalid option" 1
  | some g => do
    let isNumber (c : Char) : Bool := ((g.value? c).all fun s => (Tool.number? s).any (0 < ·))
    if !(['n', 'L'].all isNumber) then return ← Tool.refuse "xargs" "invalid number" 1
    let input ← match g.value? 'a' with
      | some name => Tool.textOf? "xargs" name
      | none => do pure (some (← readAllOn 0))
    match input.bind (linesOf? g) with
    | none => return 1
    | some ls => do
      let (program, args) : String × List String :=
        match g.operands with
        | program :: args => (program, args)
        | [] => ("echo", [])
      let ls := match g.value? 'E' with
        | some stop => ls.map (·.takeWhile (· ≠ stop))
        | none => ls
      let empty ← openText []
      withChannel 0 empty (runAll child program (g.has 't') 0 (commandLines g args ls))

end DataQuality.Shell.Batch

namespace DataQuality.Shell

/-- The program by which a script is read, and an argument for it, as its first line says. -/
def interpreter? (script : List Char) : Option (String × Option String) :=
  match script with
  | '#' :: '!' :: rest =>
    let isBlank (c : Char) : Bool := c == ' ' || c == '\t'
    let line := (rest.takeWhile (· != '\n')).dropWhile isBlank
    let line := (line.reverse.dropWhile isBlank).reverse
    let (program, argument) := line.span (!isBlank ·)
    let argument := argument.dropWhile isBlank
    if program.isEmpty then none
    else some (String.ofList program,
      if argument.isEmpty then none else some (String.ofList argument))
  | _ => none

/-- The written path of the folder of a shell that is started: the one through which the folder was
reached before, if it still leads there. -/
def startPath (m : Machine) : String :=
  let given := m.binding "PWD"
  let names := given.toList.splitOn '/'
  let isClean := given.toList.head? == some '/' && !names.contains ['.'] && !names.contains ['.', '.']
  if isClean && m.path? given == some m.folder then given else Machine.pathText m.folder

/-- A shell that takes the place of a program. -/
def freshShell (name : String) (m : Machine) : Machine :=
  let given := m.sharedBindings.filter fun b =>
    !(Machine.firstBindings.lookup b.1).isSome && b.1 != "PWD" && b.1 != "PPID"
  let path := if (given.lookup "PATH").isSome then [] else [("PATH", usualPath)]
  { Machine.start m.folder m.tree with
    world := m.world
    name := name
    number := m.number
    shellNumber := m.number
    channels := m.channels
    bindings := ("PWD", startPath m) :: ("PPID", Decimal.ofNat m.shellNumber) ::
      given ++ path ++ Machine.firstBindings
    exported := "PWD" :: given.map (·.1)
    traps := m.traps.filter (·.2 == "")
    mask := m.mask
    niceness := m.niceness
    deadline := m.deadline
    feeds := m.feeds }

/-- The end of a program that gives a status. -/
def settled (body : Run Nat) : Run Ending :=
  tryCatch (do return .exited ((← body) % 256)) fun i =>
    match i with
    | .ended e => return e
    | i => throw i

section
variable (run : Runner)

/-- Runs a shell that is started with these arguments, in place of the program that is running. -/
def runShell (name : String) (args : List String) : Run Ending := do
  let fresh := freshShell name (← get)
  let refuse (message : String) : Run Ending := do
    complain (name ++ ": 0: " ++ message)
    return .exited 2
  match readSwitches? true ⟨fresh, [], none, false⟩ args with
  | none => refuse "Illegal option"
  | some o =>
    let named (name : String) (args : List String) : Machine :=
      { o.machine with name := name, arguments := args }
    let runIn (m : Machine) (script : List Char) : Run Ending := do
      set m
      toEnd run (runScript run false script)
    match o.letters.contains 'c', o.rest.getD [] with
    | true, [] => refuse "-c requires an argument"
    | true, [script] => runIn o.machine script.toList
    | true, script :: name :: args => runIn (named name args) script.toList
    | false, operands =>
      if operands.isEmpty || o.letters.contains 's' then
        let script ← readAllOn 0
        let w := (← get).world
        runIn { (named name operands).switched 's' true with world := w } script
      else
        let file := operands.head?.getD ""
        match ← readFile file with
        | .ok script =>
          let w := (← get).world
          runIn { named file operands.tail with world := w } script
        | .error .isFolder => return .exited 0
        | .error e =>
          let what := if e = .missing || e = .noFolder then "No such file" else e.message
          refuse ("cannot open " ++ file ++ ": " ++ what)

/-- Runs a program that is looked for along a search path, in place of the one that is running. A program
that cannot be run ends with 127 or 126. -/
def launch : Nat → String → String → List String → Run Ending
  | 0, _, _, _ => return .exited 126
  | depth + 1, path, name, args => do
    match findProgram (← get) path name with
    | .error e => return .exited e.status
    | .ok (written, .script text) =>
      match interpreter? text with
      | none => runShell run written (written :: args)
      | some (program, argument) => do
        let program := if program.toList.contains '/' then program else "./" ++ program
        launch depth "" program (argument.toList ++ written :: args)
    | .ok (_, .program inner) =>
      let child (program : String) (args : List String) : Run Ending := do
        let path := wrapperPath (← get)
        asProgram id (launch depth path program args)
      if shellNames.contains inner then runShell run name args
      else
        match Wrapper.unwrap? inner args with
        | some body =>
          tryCatch (do
            match ← body with
            | .ended status => return .exited status
            | .becomes program args => do
              let path := wrapperPath (← get)
              if let .error e := findProgram (← get) path program then
                Tool.say inner (program ++ ": " ++ e.message)
              launch depth path program args) fun i =>
            match i with
            | .ended e => return e
            | i => throw i
        | none =>
          match inner with
          | "awk" | "mawk" => settled (Scan.awk child args)
          | "timeout" => Wrapper.timeout child args
          | "xargs" => settled (Batch.xargs child args)
          | "find" => settled (Finder.find child args)
          | "which" => settled (Wrapper.which args)
          | _ =>
            match Tool.run? inner args with
            | some body => settled body
            | none => return .exited 127

/-- How deep programs may give way to other ones. -/
def deepestLaunch : Nat := 64

def runChild (path name : String) (args : List String) : Run Ending :=
  asProgram id (launch run deepestLaunch path name args)

end

end DataQuality.Shell
