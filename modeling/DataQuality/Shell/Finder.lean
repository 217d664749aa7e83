import DataQuality.Shell.Wrapper

/-!
# Searching folders

A program that walks through folders and evaluates an expression for each path: tests that the path has to
pass, and what is done with the paths that do.
-/
namespace DataQuality.Shell.Finder

open Files (Entry Path)

/-- A number that is compared with another one. -/
inductive Bound
  | exactly (n : Nat)
  | above (n : Nat)
  | below (n : Nat)
  deriving DecidableEq, Repr

/-- Reads a number with a sign for how it is compared. -/
def Bound.ofText? (s : String) : Option Bound :=
  match s.toList with
  | '+' :: ds => (Decimal.readNat? ds).map .above
  | '-' :: ds => (Decimal.readNat? ds).map .below
  | ds => (Decimal.readNat? ds).map .exactly

/-- Whether a number is where it is to be. -/
def Bound.admits (b : Bound) (n : Nat) : Bool :=
  match b with
  | .exactly k => n == k
  | .above k => k < n
  | .below k => n < k

inductive Test
  | always (b : Bool)
  | name (pattern : Marked) (folds : Bool)
  | path (pattern : Marked) (folds : Bool)
  | regex (r : Regex) (folds : Bool)
  /-- What lies there, by letters. -/
  | kind (letters : List Char)
  | size (b : Bound) (unit : Nat)
  | empty
  | newer (than : String)
  /-- How old it is, which is always nothing. -/
  | age (b : Bound) (unit : Nat)
  | newerThan (second : Int)
  /-- Which rights it has: exactly some, all of some, or one of some. -/
  | rights (sign : Option Char) (n : Nat)
  /-- Which right a user has, by its bit. -/
  | right (bit : Nat)
  | same (other : String)
  | link (pattern : Marked)

inductive Expression
  | test (t : Test)
  | not (e : Expression)
  | and (a b : Expression)
  | or (a b : Expression)
  /-- The first part does not count. -/
  | then (a b : Expression)
  | print (ending : Char)
  | list
  | format (text : List Char)
  | delete
  | prune
  | quit
  /-- Runs a command for each path, in the folder of the path if that is asked for. -/
  | execute (inFolder : Bool) (words : List String)
  /-- Runs a command for many paths together. -/
  | executeAll (words : List String)

/-- What is said besides the expression. -/
structure Limits where
  least : Nat := 0
  most : Option Nat := none
  /-- Whether a folder comes after what lies in it. -/
  late : Bool := false

/-- A pattern in which a backslash quotes the next character. Brackets are negated by a circumflex, too. -/
def markedOf : List Char → Marked
  | '[' :: '^' :: rest => ('[', false) :: ('!', false) :: markedOf rest
  | '\\' :: c :: rest => (c, true) :: markedOf rest
  | c :: rest => (c, false) :: markedOf rest
  | [] => []

/-- Letters without regard to their case. -/
def folded (folds : Bool) (cs : List Char) : List Char := if folds then cs.map Char.toLower else cs

/-- A pattern for texts without regard to their case. -/
def foldedPattern (folds : Bool) (s : String) : Marked := markedOf (folded folds s.toList)

def readSize? (s : String) : Option (Bound × Nat) :=
  let unit? : Option Nat :=
    match s.toList.getLast? with
    | some 'c' => some 1
    | some 'w' => some 2
    | some 'b' => some 512
    | some 'k' => some 1024
    | some 'M' => some (1024 * 1024)
    | some 'G' => some (1024 * 1024 * 1024)
    | _ => none
  match unit? with
  | some unit => (Bound.ofText? (s.dropEnd 1).toString).map (·, unit)
  | none => (Bound.ofText? s).map (·, 512)

def readRights? (s : String) : Option Test :=
  let of (sign : Option Char) (cs : List Char) : Option Test :=
    (Tool.rightsBy? 0 (String.ofList cs) false 0).map (Test.rights sign)
  match s.toList with
  | '-' :: cs => of (some '-') cs
  | '/' :: cs => of (some '/') cs
  | cs => of none cs

def testOf? (name argument : String) : Option Test :=
  match name with
  | "-name" => some (.name (foldedPattern false argument) false)
  | "-iname" => some (.name (foldedPattern true argument) true)
  | "-path" => some (.path (foldedPattern false argument) false)
  | "-wholename" => some (.path (foldedPattern false argument) false)
  | "-ipath" => some (.path (foldedPattern true argument) true)
  | "-iwholename" => some (.path (foldedPattern true argument) true)
  | "-regex" => (Regex.ofText? ⟨false, true⟩ argument.toList).map (.regex · false)
  | "-iregex" => (Regex.ofText? ⟨false, true⟩ argument.toList).map (.regex · true)
  | "-type" => some (.kind (argument.toList.filter (· != ',')))
  | "-xtype" => some (.kind (argument.toList.filter (· != ',')))
  | "-size" => (readSize? argument).map fun (b, unit) => .size b unit
  | "-newermt" => do
    let now : Instant := ⟨World.beginning, 0⟩
    pure (.newerThan (← Tool.Moment.read? now argument).seconds)
  | "-newer" => some (.newer argument)
  | "-cnewer" => some (.newer argument)
  | "-anewer" => some (.newer argument)
  | "-mtime" => (Bound.ofText? argument).map (.age · 86400)
  | "-atime" => (Bound.ofText? argument).map (.age · 86400)
  | "-ctime" => (Bound.ofText? argument).map (.age · 86400)
  | "-mmin" => (Bound.ofText? argument).map (.age · 60)
  | "-amin" => (Bound.ofText? argument).map (.age · 60)
  | "-cmin" => (Bound.ofText? argument).map (.age · 60)
  | "-perm" => readRights? argument
  | "-user" => some (.always (argument == "root" || argument == "0"))
  | "-group" => some (.always (argument == "root" || argument == "0"))
  | "-uid" => (Bound.ofText? argument).map fun b => .always (b.admits 0)
  | "-gid" => (Bound.ofText? argument).map fun b => .always (b.admits 0)
  | "-links" => (Bound.ofText? argument).map fun b => .always (b.admits 1)
  | "-samefile" => some (.same argument)
  | "-lname" => some (.link (foldedPattern false argument))
  | "-fstype" => some (.always false)
  | _ => none

/-- The expression of a name without an argument. -/
def simpleOf? : String → Option Expression
  | "-print" => some (.print '\n')
  | "-print0" => some (.print '\x00')
  | "-ls" => some .list
  | "-delete" => some .delete
  | "-prune" => some .prune
  | "-quit" => some .quit
  | "-empty" => some (.test .empty)
  | "-true" => some (.test (.always true))
  | "-false" => some (.test (.always false))
  | "-readable" => some (.test (.always true))
  | "-writable" => some (.test (.always true))
  | "-executable" => some (.test (.right 0o111))
  | "-nouser" => some (.test (.always false))
  | "-nogroup" => some (.test (.always false))
  | "-xdev" => some (.test (.always true))
  | "-mount" => some (.test (.always true))
  | "-noleaf" => some (.test (.always true))
  | "-daystart" => some (.test (.always true))
  | "-follow" => some (.test (.always true))
  | "-warn" => some (.test (.always true))
  | "-nowarn" => some (.test (.always true))
  | _ => none

mutual

/-- Reads parts of which only the last one counts. -/
def readRow? : Nat → List String → Option (Expression × List String)
  | 0, _ => none
  | fuel + 1, ws => do
    match ← readAny? fuel ws with
    | (a, "," :: rest) =>
      let (b, rest) ← readRow? fuel rest
      pure (.then a b, rest)
    | r => pure r

/-- Reads parts of which one has to hold. -/
def readAny? : Nat → List String → Option (Expression × List String)
  | 0, _ => none
  | fuel + 1, ws => do
    let (a, rest) ← readAll? fuel ws
    if rest.head? = some "-o" || rest.head? = some "-or" then
      let (b, rest) ← readAny? fuel rest.tail
      pure (.or a b, rest)
    else pure (a, rest)

def readAll? : Nat → List String → Option (Expression × List String)
  | 0, _ => none
  | fuel + 1, ws => do
    let (a, rest) ← readPart? fuel ws
    match rest with
    | [] => pure (a, [])
    | w :: after =>
      if ["-o", "-or", ",", ")"].contains w then pure (a, rest)
      else
        let (b, rest) ← readAll? fuel (if w = "-a" || w = "-and" then after else rest)
        pure (.and a b, rest)

def readPart? : Nat → List String → Option (Expression × List String)
  | 0, _ => none
  | fuel + 1, ws =>
    match ws with
    | "!" :: rest => (readPart? fuel rest).map fun (e, rest) => (.not e, rest)
    | "-not" :: rest => (readPart? fuel rest).map fun (e, rest) => (.not e, rest)
    | "(" :: rest => do
      match ← readRow? fuel rest with
      | (e, ")" :: rest) => pure (e, rest)
      | _ => none
    | "-printf" :: text :: rest => some (.format text.toList, rest)
    | "-exec" :: rest => readCommand? false rest
    | "-execdir" :: rest => readCommand? true rest
    | w :: rest =>
      match simpleOf? w, rest with
      | some e, rest => some (e, rest)
      | none, argument :: rest => (testOf? w argument).map fun t => (.test t, rest)
      | none, [] => none
    | [] => none

def readCommand? (inFolder : Bool) (ws : List String) : Option (Expression × List String) :=
  let words := ws.takeWhile (· ≠ ";")
  let isBatch (ws : List String) : Option (List String × List String) :=
    let before := ws.takeWhile (· ≠ "+")
    if before.getLast? = some "\x7b\x7d" && before.length < ws.length then
      some (before.dropLast, ws.drop (before.length + 1))
    else none
  match isBatch ws with
  | some (words, rest) => some (.executeAll words, rest)
  | none =>
    if words.length < ws.length && !words.isEmpty then
      some (.execute inFolder words, ws.drop (words.length + 1))
    else none

end

/-- Whether an expression does something with paths. -/
def Expression.acts : Expression → Bool
  | .test _ => false
  | .not e => e.acts
  | .and a b => a.acts || b.acts
  | .or a b => a.acts || b.acts
  | .then a b => a.acts || b.acts
  | .prune => false
  | _ => true

/-- Whether an expression removes what it finds. -/
def Expression.deletes : Expression → Bool
  | .not e => e.deletes
  | .and a b => a.deletes || b.deletes
  | .or a b => a.deletes || b.deletes
  | .then a b => a.deletes || b.deletes
  | .delete => true
  | _ => false

/-- Takes the limits out of the words of an expression. -/
def readLimits? : Limits → List String → Option (Limits × List String)
  | l, "-maxdepth" :: n :: rest => do readLimits? { l with most := ← Tool.number? n } rest
  | l, "-mindepth" :: n :: rest => do readLimits? { l with least := ← Tool.number? n } rest
  | l, "-regextype" :: _ :: rest => readLimits? l rest
  | l, "-depth" :: rest => readLimits? { l with late := true } rest
  | l, "-d" :: rest => readLimits? { l with late := true } rest
  | l, w :: rest => (readLimits? l rest).map fun (l, ws) => (l, w :: ws)
  | l, [] => some (l, [])

/-- What a search holds. -/
structure Search where
  status : Nat
  pruned : Bool
  isOver : Bool
  /-- The paths for which a command is run together, last one first, by the words of the command. -/
  batches : List (List String × List String)

/-- Whether a path passes a test. -/
def Test.holds (m : Machine) (written : String) (t : Test) : Bool :=
  match Tool.reached? m written with
  | none => false
  | some (p, e) =>
    match t with
    | .always b => b
    | .name pattern folds => matchesPattern pattern (folded folds (Tool.lastName written).toList)
    | .path pattern folds => matchesPattern pattern (folded folds written.toList)
    | .regex r folds =>
      (Regex.find? folds r written.toList).any fun f => f.text.length == written.length
    | .kind letters => letters.contains (if Tool.kindLetter p e = '-' then 'f' else Tool.kindLetter p e)
    | .size b unit => b.admits ((Tool.sizeOf e + unit - 1) / unit)
    | .empty =>
      match e with
      | .file content => content.isEmpty
      | .folder => (namesIn m written).isEmpty
      | Entry.link _ => false
    | .newer than => Condition.isNewer m written than
    | .age b unit => b.admits ((m.world.second - m.world.changedAt p).toNat / unit)
    | .newerThan second => second < m.world.changedAt p
    | .rights sign n =>
      let given := Tool.entryRights m p e
      match sign with
      | none => given == n
      | some '-' => given &&& n == n
      | some _ => n == 0 || given &&& n != 0
    | .right bit => Tool.entryRights m p e &&& bit != 0
    | .same other => (m.path? other).any (m.tree.group p).contains
    | .link pattern =>
      match e with
      | Entry.link goal => matchesPattern pattern (Bytes.encode goal).toList
      | _ => false

/-- The text that a format makes of a path. -/
def shown (m : Machine) (start written : String) (depth : Nat) : Nat → List Char → List Char
  | 0, _ => []
  | fuel + 1, cs =>
    let more (rest : List Char) := shown m start written depth fuel rest
    let below := written.toList.drop start.length
    match cs with
    | '%' :: c :: rest =>
      let fact : List Char :=
        match c, Tool.reached? m written with
        | 'p', _ => written.toList
        | 'f', _ => (Tool.lastName written).toList
        | 'h', _ => (Tool.folderName written).toList
        | 'P', _ => if below.head? = some '/' then below.tail else below
        | 'H', _ => start.toList
        | 'd', _ => Decimal.natDigits depth
        | 's', some (_, e) => Decimal.natDigits (Tool.sizeOf e)
        | 'y', some (p, e) => [if Tool.kindLetter p e = '-' then 'f' else Tool.kindLetter p e]
        | 'm', some (p, e) => Nat.toDigits 8 (Tool.entryRights m p e)
        | 'M', some (p, e) => Tool.kindLetter p e :: Tool.rightsChars (Tool.entryRights m p e)
        | 'l', some (_, .link goal) => (Bytes.encode goal).toList
        | 'u', _ => "root".toList
        | 'g', _ => "root".toList
        | 'U', _ => ['0']
        | 'G', _ => ['0']
        | 'n', some (p, e) => Decimal.natDigits (Tool.linksTo m p e)
        | '%', _ => ['%']
        | _, _ => []
      fact ++ more rest
    | '\\' :: c :: rest =>
      match readOctal? (c :: rest), escapedLetter? c with
      | some (d, rest), _ => d :: more rest
      | none, some d => d :: more rest
      | none, none => '\\' :: c :: more rest
    | c :: rest => c :: more rest
    | [] => []

section
variable (child : String → List String → Run Ending)

/-- Runs a command, if it is there; tells whether it succeeded. -/
def runWords (words : List String) : Run Bool := do
  match words with
  | [] => return false
  | program :: args => do
    match findProgram (← get) (wrapperPath (← get)) program with
    | .error e => do
      Tool.say "find" (program ++ ": " ++ e.message)
      return false
    | .ok _ => return (← child program args) == .exited 0

def evaluate (start written : String) (depth : Nat) : Expression → Search → Run (Bool × Search)
  | .test t, s => do return (t.holds (← get) written, s)
  | .not e, s => do
    let (b, s) ← evaluate start written depth e s
    return (!b, s)
  | .and a b, s => do
    let (holds, s) ← evaluate start written depth a s
    if holds && !s.isOver then evaluate start written depth b s else return (holds, s)
  | .or a b, s => do
    let (holds, s) ← evaluate start written depth a s
    if holds || s.isOver then return (holds, s) else evaluate start written depth b s
  | .then a b, s => do
    let (_, s) ← evaluate start written depth a s
    evaluate start written depth b s
  | .print ending, s => do
    print (written.toList ++ [ending])
    return (true, s)
  | .list, s => do
    printLine written
    return (true, s)
  | .format text, s => do
    print (shown (← get) start written depth (text.length + 1) text)
    return (true, s)
  | .delete, s => do
    let m ← get
    match Tool.reached? m written with
    | some (p, .folder) =>
      if written = "." then return (true, s)
      else if (namesIn m written).isEmpty then
        set (m.withoutFolder p)
        return (true, s)
      else return (false, { s with status := 1 })
    | some (p, _) =>
      set (m.without p)
      return (true, s)
    | none => return (false, { s with status := 1 })
  | .prune, s => return (true, { s with pruned := true })
  | .quit, s => return (true, { s with isOver := true })
  | .execute inFolder words, s => do
    let m ← get
    let path := if inFolder then "./" ++ Tool.lastName written else written
    if inFolder then
      if let some p := m.path? (Tool.folderName written) then set { m with folder := p }
    let succeeded ← runWords child (words.map fun w => path.intercalate (w.splitOn "\x7b\x7d"))
    modify fun after => { after with folder := m.folder }
    return (succeeded, s)
  | .executeAll words, s =>
    let before := (s.batches.lookup words).getD []
    return (true, { s with
      batches := (words, written :: before) :: s.batches.filter (·.1 != words) })

/-- Searches what lies under a path. -/
def searchUnder (limits : Limits) (e : Expression) (start : String) :
    Nat → Nat → Search → String → Run Search
  | 0, _, s, _ => return s
  | fuel + 1, depth, s, written => do
    if s.isOver then return s
    let visit (s : Search) : Run Search := do
      if depth < limits.least then return s
      return (← evaluate child start written depth e s).2
    let descend (s : Search) : Run Search := do
      let m ← get
      if limits.most.any (· ≤ depth) || !Tool.isFolderAt m false written then return s
      (namesIn m written).foldlM (fun s name =>
        searchUnder limits e start fuel (depth + 1) s (Tool.joined written name)) s
    if limits.late then
      let s ← descend s
      if s.isOver then return s else visit s
    else
      let s ← visit { s with pruned := false }
      if s.pruned || s.isOver then return { s with pruned := false } else descend s

/-- Runs the commands for many paths. -/
def runBatches (s : Search) : Run Search :=
  s.batches.reverse.foldlM (fun s (words, paths) => do
    let succeeded ← runWords child (words ++ paths.reverse)
    return if succeeded then s else { s with status := 1 }) s

/-- Searches folders. -/
def find (args : List String) : Run Nat := do
  let args := args.dropWhile fun a => ["-H", "-L", "-P"].contains a
  let isStart (a : String) : Bool := !(a.startsWith "-" || a = "!" || a = "(" || a = ")" || a = ",")
  let starts := args.takeWhile isStart
  let read? : Option (Limits × Expression) := do
    let (limits, ws) ← readLimits? {} (args.drop starts.length)
    match ws with
    | [] => pure (limits, .print '\n')
    | ws =>
      let (e, rest) ← readRow? (4 * ws.length + 8) ws
      if !rest.isEmpty then none
      pure ({ limits with late := limits.late || e.deletes },
        if e.acts then e else .and e (.print '\n'))
  match read? with
  | none => Tool.refuse "find" "the expression makes no sense" 1
  | some (limits, e) => do
    let first : Search := ⟨0, false, false, []⟩
    let s ← (if starts.isEmpty then ["."] else starts).foldlM (fun s start => do
      if s.isOver then return s
      if Tool.isThere (← get) start then
        searchUnder child limits e start Tool.deepestFolder 0 s start
      else
        Tool.say "find" (start ++ ": " ++ Problem.missing.message)
        return { s with status := 1 }) first
    return (← runBatches child s).status

end

end DataQuality.Shell.Finder
