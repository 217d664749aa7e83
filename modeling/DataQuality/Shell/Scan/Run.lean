import DataQuality.Shell.Scan.State
import DataQuality.Shell.Script

/-!
# Running scanning programs

How expressions are evaluated and statements carried out, and how a program goes through its input. Commands
are left to other programs.
-/
namespace DataQuality.Shell.Scan

/-- Runs something that ends when a loop is left. Tells whether the loop goes on. -/
def inRound (body : Scanning Unit) : Scanning Bool :=
  tryCatch (do body; return true) fun l =>
    match l with
    | .leave => return false
    | .again => return true
    | l => throw l

/-- Repeats a body as long as a test holds. -/
def loopWhile (test : Scanning Bool) (body : Scanning Unit) : Nat → Scanning Unit
  | 0 => doing Tool.runForever
  | fuel + 1 => do
    if ← test then
      if ← inRound body then loopWhile test body fuel

/-- The most rounds of a loop. -/
def mostRounds : Nat := 1000000

/-- The text by which a match is replaced: an ampersand stands for what was matched. -/
def replacedBy (found : List Char) : List Char → List Char
  | '\\' :: '&' :: rest => '&' :: replacedBy found rest
  | '\\' :: '\\' :: '&' :: rest => '\\' :: found ++ replacedBy found rest
  | '&' :: rest => found ++ replacedBy found rest
  | c :: rest => c :: replacedBy found rest
  | [] => []

def replaceMatches (cs replacement : List Char) (found : List Regex.Found) : List Char :=
  let (parts, place) := found.foldl (fun ((parts, place) : List (List Char) × Nat) f =>
    (replacedBy f.text replacement :: (cs.drop place).take (f.place - place) :: parts,
      f.place + f.text.length)) ([], 0)
  (cs.drop place :: parts).reverse.flatten

/-- The number that an operator makes of two. -/
def arithmetic (operator : String) (x y : Float) : Float :=
  match operator with
  | "+" => x + y
  | "-" => x - y
  | "*" => x * y
  | "/" => x / y
  | "%" =>
    let q := x / y
    x - y * (if q < 0.0 then q.ceil else q.floor)
  | "^" => Float.pow x y
  | _ => x

/-- The place of a text in another one, from one on, or zero. -/
def placeIn (cs part : List Char) : Nat :=
  match (List.range (cs.length + 1)).find? fun i => part.isPrefixOf (cs.drop i) with
  | some i => i + 1
  | none => 0

/-- A part of a text: from a place on, so many characters if a number is given. -/
def partOf (cs : List Char) (first : Float) (count : Option Float) : List Char :=
  let start := Value.toInteger first.round
  let stop : Int :=
    match count with
    | some n => if 1e9 < n then cs.length + 1 else start + Value.toInteger n.round
    | none => cs.length + 1
  let start' := max start 1
  if stop ≤ start' then [] else (cs.drop (start' - 1).toNat).take (stop - start').toNat

/-- The next number of a row that has no order. -/
def nextSeed (seed : Nat) : Nat := (seed * 1103515245 + 12345) % 2147483648

section
variable (child : String → List String → Run Ending)

def command (script : List Char) : Run Ending := child "sh" ["-c", String.ofList script]

def commandReading (script input : List Char) : Run Ending := do
  let id ← openText input
  withChannel 0 id (command child script)

/-- Ends what a name has been printed to or read from. -/
def closeNamed (name : String) : Scanning Nat := do
  let s ← get
  set { s with
    sources := s.sources.filter (·.1 != name)
    written := s.written.filter (· != name)
    pipes := s.pipes.filter (·.1 != name) }
  match s.pipes.lookup name with
  | some parts => return (← doing (commandReading child name.toList parts.reverse.flatten)).status
  | none => return 0

/-- Prints a text to a file. -/
def printTo (appends : Bool) (name : String) (cs : List Char) : Scanning Unit := do
  if name = "/dev/stdout" || name = "-" then doing (print cs)
  else if name = "/dev/stderr" then doing (printOn 2 cs)
  else
    let s ← get
    let way : PrintWay := if appends || s.written.contains name then .append else .replace
    match ← doing (writeFile way name cs) with
    | .ok _ => modify fun s => { s with written := if s.written.contains name then s.written
        else name :: s.written }
    | .error e => failScan ("cannot open " ++ name ++ ": " ++ e.message)

/-- Reads a record from a named source, which `open1` opens if it is new. Gives one for a record, zero at
the end and less if the source cannot be opened. -/
def takeNamed (name : String) (open1 : Run (Option (List Char))) :
    Scanning (Int × Option (List Char)) := do
  let s ← get
  let source ← match s.sources.lookup name with
    | some cs => pure (some cs)
    | none => doing open1
  match source with
  | none => return (-1, none)
  | some cs =>
    let others := s.sources.filter (·.1 != name)
    match nextRecord? (s.text "RS") cs with
    | some (record, rest) =>
      modify fun s => { s with sources := (name, rest) :: others }
      return (1, some record)
    | none =>
      modify fun s => { s with sources := (name, []) :: others }
      return (0, none)

variable (p : Program)

mutual

def evaluate : Nat → Expression → Scanning Value
  | 0, _ => failScan "too deep"
  | fuel + 1, e => do
    match e with
    | .number x => return .number x
    | .text cs => return .text cs
    | .regex r => return .ofBool (Regex.isFound false r (← get).record)
    | .variable name =>
      match (← get).slot? name with
      | some (.array _) => failScan ("cannot use array " ++ name ++ " as a value")
      | _ => getValue name
    | .element name keys => do
      let key ← keyOf fuel keys
      let (id, s) := (← get).arrayOf name
      match (s.elements id).lookup key with
      | some v => do
        set s
        return v
      | none => do
        set (s.withElement id key .nothing)
        return .nothing
    | .field e => do
      let n := Value.toInteger (← evaluate fuel e).toNumber
      if n < 0 then failScan "no field has a negative number"
      return (← get).field n.toNat
    | .assign none place e => do
      let v ← evaluate fuel e
      giveValue fuel place v
      return v
    | .assign (some operator) place e => do
      let y ← evaluate fuel e
      let x ← evaluate fuel place
      let v := Value.number (arithmetic operator x.toNumber y.toNumber)
      giveValue fuel place v
      return v
    | .step up late place => do
      let x := (← evaluate fuel place).toNumber
      let y := if up then x + 1.0 else x - 1.0
      giveValue fuel place (.number y)
      return .number (if late then x else y)
    | .choice test a b => do
      if (← evaluate fuel test).isTrue then evaluate fuel a else evaluate fuel b
    | .both a b => do
      if (← evaluate fuel a).isTrue then return .ofBool (← evaluate fuel b).isTrue
      else return .ofBool false
    | .either a b => do
      if (← evaluate fuel a).isTrue then return .ofBool true
      else return .ofBool (← evaluate fuel b).isTrue
    | .not e => return .ofBool !(← evaluate fuel e).isTrue
    | .minus e => return .number (-(← evaluate fuel e).toNumber)
    | .plus e => return .number (← evaluate fuel e).toNumber
    | .arithmetic operator a b => do
      let x ← evaluate fuel a
      let y ← evaluate fuel b
      return .number (arithmetic operator x.toNumber y.toNumber)
    | .compare operator a b => do
      let x ← evaluate fuel a
      let y ← evaluate fuel b
      return .ofBool (x.compare (← get).numberFormat operator y)
    | .join a b => do
      let x ← textOf (← evaluate fuel a)
      let y ← textOf (← evaluate fuel b)
      return .text (x ++ y)
    | .fits e pattern => do
      let cs ← textOf (← evaluate fuel e)
      return .ofBool (Regex.isFound false (← patternOf fuel pattern) cs)
    | .among keys name => do
      let key ← keyOf fuel keys
      let (id, s) := (← get).arrayOf name
      set s
      return .ofBool ((s.elements id).lookup key).isSome
    | .call name es => call fuel name es
    | .builtin name es => callBuiltin fuel name es
    | .takeRecord place => do
      match ← takeRecord? ((← get).operands.length + 2) with
      | none => return .number 0.0
      | some record => do
        countRecord
        giveRecord fuel place record
        return .number 1.0
    | .takeFrom file place => do
      let name := String.ofList (← textOf (← evaluate fuel file))
      let (n, record) ← takeNamed name do
        if name = "-" then return some (← readAllOn 0) else return (← readFile name).toOption
      if let some record := record then giveRecord fuel place record
      return .number (Float.ofInt n)
    | .takePrinted script place => do
      let script ← textOf (← evaluate fuel script)
      let (n, record) ← takeNamed (String.ofList script) do
        return some (← printedBy (do let _ ← command child script))
      if let some record := record then
        let n ← getValue "NR"
        setValue "NR" (.number (n.toNumber + 1.0))
        giveRecord fuel place record
      return .number (Float.ofInt n)

def keyOf : Nat → List Expression → Scanning String
  | 0, _ => failScan "too deep"
  | fuel + 1, es => do
    let parts ← evaluateAll fuel es
    let s ← get
    return String.ofList ((s.text "SUBSEP").intercalate (parts.map s.textOf))

def evaluateAll : Nat → List Expression → Scanning (List Value)
  | 0, _ => failScan "too deep"
  | _ + 1, [] => return []
  | fuel + 1, e :: es => do
    let v ← evaluate fuel e
    return v :: (← evaluateAll fuel es)

def patternOf : Nat → Expression → Scanning Regex
  | 0, _ => failScan "too deep"
  | fuel + 1, e => do
    match e with
    | .regex r => return r
    | e =>
      match regexOf? (← textOf (← evaluate fuel e)) with
      | some r => return r
      | none => failScan "regular expression compile failed"

def giveValue : Nat → Expression → Value → Scanning Unit
  | 0, _, _ => failScan "too deep"
  | fuel + 1, place, v => do
    match place with
    | .variable name => setValue name v
    | .element name keys => do
      let key ← keyOf fuel keys
      let (id, s) := (← get).arrayOf name
      set (s.withElement id key v)
    | .field e => do
      let n := Value.toInteger (← evaluate fuel e).toNumber
      if n < 0 then failScan "no field has a negative number"
      let cs ← textOf v
      modify fun s => s.withField n.toNat cs
    | _ => failScan "a value is given to what is no place"

/-- Makes a place, or the record, what has been read. -/
def giveRecord : Nat → Option Expression → List Char → Scanning Unit
  | 0, _, _ => failScan "too deep"
  | fuel + 1, place, record => do
    match place with
    | some place => giveValue fuel place (.given record)
    | none => modify fun s => s.withRecord record

/-- What an argument hands on to a function: an array, or a value. -/
def handOn : Nat → Expression → Scanning Slot
  | 0, _ => failScan "too deep"
  | fuel + 1, e => do
    match e with
    | .variable name =>
      let (slot, s) := (← get).handedOn name
      set s
      return slot
    | e => return .value (← evaluate fuel e)

def handOnAll : Nat → List Expression → Scanning (List Slot)
  | 0, _ => failScan "too deep"
  | _ + 1, [] => return []
  | fuel + 1, e :: es => do
    let slot ← handOn fuel e
    return slot :: (← handOnAll fuel es)

def call : Nat → String → List Expression → Scanning Value
  | 0, _, _ => failScan "too deep"
  | fuel + 1, name, es => do
    match p.functions.find? fun f => f.name == name with
    | none => failScan ("function " ++ name ++ " never defined")
    | some f => do
      if f.parameters.length < es.length then failScan ("too many arguments in call to " ++ name)
      let slots ← handOnAll fuel es
      let s ← get
      let missing := f.parameters.drop slots.length
      let fresh := missing.mapIdx fun i x => (x, Slot.pending (s.nextArray + i))
      set { s with
        locals := f.parameters.zip slots ++ fresh
        nextArray := s.nextArray + missing.length }
      let restore : Scanning Unit := modify fun after => { after with locals := s.locals }
      let v ← tryCatch (do carryOut fuel f.body; return .nothing) fun l => do
        restore
        match l with
        | .giveBack v => return v
        | l => throw l
      restore
      return v

/-- Replaces matches in a place; gives their number. -/
def substitute : Nat → Bool → List Expression → Scanning Value
  | 0, _, _ => failScan "too deep"
  | fuel + 1, all, es => do
    match es with
    | pattern :: replacement :: rest => do
      let r ← patternOf fuel pattern
      let replacement ← textOf (← evaluate fuel replacement)
      let place := rest.head?.getD (.field (.number 0.0))
      let cs ← textOf (← evaluate fuel place)
      let found := Regex.matchesIn false r cs
      let found := if all then found else found.take 1
      if !found.isEmpty && place.isPlace then
        giveValue fuel place (.text (replaceMatches cs replacement found))
      return .ofNat found.length
    | _ => failScan "too few arguments"

/-- Splits a text into the elements of an array; gives their number. -/
def splitInto : Nat → List Expression → Scanning Value
  | 0, _ => failScan "too deep"
  | fuel + 1, es => do
    match es with
    | e :: .variable name :: rest => do
      let cs ← textOf (← evaluate fuel e)
      let separator ← match rest with
        | [] => pure (Separator.ofText ((← get).text "FS"))
        | .regex r :: _ => pure (Separator.regex r)
        | fs :: _ => pure (Separator.ofText (← textOf (← evaluate fuel fs)))
      let parts := separator.split cs
      let (id, s) := (← get).arrayOf name
      set (s.withElements id (parts.mapIdx fun i part =>
        (Decimal.ofNat (i + 1), Value.given part)))
      return .ofNat parts.length
    | _ => failScan "split needs an array"

def lengthOf : Nat → List Expression → Scanning Value
  | 0, _ => failScan "too deep"
  | fuel + 1, es => do
    match es with
    | [] => return .ofNat (← get).record.length
    | .variable name :: _ =>
      let s ← get
      match s.slot? name with
      | some (.array id) => return .ofNat (s.elements id).length
      | _ => return .ofNat (← textOf (← getValue name)).length
    | e :: _ => return .ofNat (← textOf (← evaluate fuel e)).length

/-- Calls a function that every program has. -/
def callBuiltin : Nat → String → List Expression → Scanning Value
  | 0, _, _ => failScan "too deep"
  | fuel + 1, name, es => do
    match name with
    | "length" => lengthOf fuel es
    | "split" => splitInto fuel es
    | "sub" => substitute fuel false es
    | "gsub" => substitute fuel true es
    | "match" => do
      match es with
      | [e, pattern] => do
        let cs ← textOf (← evaluate fuel e)
        let r ← patternOf fuel pattern
        let (place, length) : Float × Float :=
          match Regex.find? false r cs with
          | some f => (Float.ofNat (f.place + 1), Float.ofNat f.text.length)
          | none => (0.0, -1.0)
        setValue "RSTART" (.number place)
        setValue "RLENGTH" (.number length)
        return .number place
      | _ => failScan "match needs two arguments"
    | _ => do
      let vs ← evaluateAll fuel es
      let s ← get
      let x := (vs.head?.getD .nothing).toNumber
      let cs := s.textOf (vs.head?.getD .nothing)
      match name, vs with
      | "substr", [_, first] => return .text (partOf cs first.toNumber none)
      | "substr", [_, first, count] => return .text (partOf cs first.toNumber (some count.toNumber))
      | "index", [_, part] => return .ofNat (placeIn cs (s.textOf part))
      | "sprintf", _ :: vs =>
        match formatted? (cs.length + 1) cs vs with
        | some shown => return .text shown
        | none => failScan "not enough arguments passed to sprintf"
      | "sin", _ => return .number x.sin
      | "cos", _ => return .number x.cos
      | "exp", _ => return .number x.exp
      | "log", _ => return .number x.log
      | "sqrt", _ => return .number x.sqrt
      | "atan2", [_, y] => return .number (Float.atan2 x y.toNumber)
      | "int", _ => return .number (if x < 0.0 then x.ceil else x.floor)
      | "tolower", _ => return .text (cs.map Char.toLower)
      | "toupper", _ => return .text (cs.map Char.toUpper)
      | "rand", _ => do
        set { s with seed := nextSeed s.seed }
        return .number (Float.ofNat (nextSeed s.seed) / 2147483648.0)
      | "srand", vs => do
        let seed := if vs.isEmpty then 1 else (Value.toInteger x).toNat
        set { s with seed := seed }
        return .ofNat s.seed
      | "system", _ => return .ofNat (← doing (command child cs)).status
      | "close", _ => return .ofNat (← closeNamed child (String.ofList cs))
      | "fflush", _ => return .number 0.0
      | _, _ => failScan ("wrong number of arguments in call to " ++ name)

def output : Nat → Option Goal → List Char → Scanning Unit
  | 0, _, _ => failScan "too deep"
  | fuel + 1, goal, cs => do
    match goal with
    | none => doing (print cs)
    | some (.file e) => do
      let name ← textOf (← evaluate fuel e)
      printTo false (String.ofList name) cs
    | some (.fileEnd e) => do
      let name ← textOf (← evaluate fuel e)
      printTo true (String.ofList name) cs
    | some (.command e) => do
      let name := String.ofList (← textOf (← evaluate fuel e))
      modify fun s =>
        let parts := (s.pipes.lookup name).getD []
        if (s.pipes.lookup name).isSome then
          { s with pipes := s.pipes.map fun e => if e.1 = name then (name, cs :: parts) else e }
        else { s with pipes := s.pipes ++ [(name, [cs])] }

def carryOut : Nat → Statement → Scanning Unit
  | 0, _ => failScan "too deep"
  | fuel + 1, statement => do
    let holds (e : Expression) : Scanning Bool := do return (← evaluate fuel e).isTrue
    match statement with
    | .evaluate e => do let _ ← evaluate fuel e
    | .print es goal => do
      let vs ← if es.isEmpty then pure [Value.given (← get).record] else evaluateAll fuel es
      let s ← get
      let shown := vs.map fun v => v.toText (s.text "OFMT")
      output fuel goal ((s.text "OFS").intercalate shown ++ s.text "ORS")
    | .format es goal => do
      let vs ← evaluateAll fuel es
      match vs with
      | [] => failScan "no format"
      | f :: vs =>
        let cs ← textOf f
        match formatted? (cs.length + 1) cs vs with
        | some shown => output fuel goal shown
        | none => failScan "not enough arguments passed to printf"
    | .row ss => carryOutAll fuel ss
    | .conditional test body otherwise => do
      if ← holds test then carryOut fuel body else carryOut fuel otherwise
    | .repeated test body => loopWhile (holds test) (carryOut fuel body) mostRounds
    | .repeatedLate body test => do
      if ← inRound (carryOut fuel body) then
        loopWhile (holds test) (carryOut fuel body) mostRounds
    | .counted first test step body => do
      carryOut fuel first
      let test : Scanning Bool :=
        match test with
        | some e => holds e
        | none => return true
      let round : Scanning Unit := do
        if ← inRound (carryOut fuel body) then carryOut fuel step else throw .leave
      loopWhile test round mostRounds
    | .each name array body => do
      let (id, s) := (← get).arrayOf array
      set s
      let round (key : String) : Scanning Unit := do
        setValue name (.given key.toList)
        carryOut fuel body
      let _ ← (s.elements id).foldlM (fun goesOn (key, _) => do
        if goesOn then inRound (round key) else return false) true
    | .leave => throw .leave
    | .again => throw .again
    | .nextRecord => throw .nextRecord
    | .nextFile => throw .nextFile
    | .exit status => do
      match status with
      | some e =>
        let n := Value.toInteger (← evaluate fuel e).toNumber
        modify fun s => { s with status := (n % 256).toNat }
      | none => pure ()
      throw .exit
    | .giveBack value => do
      match value with
      | some e => throw (.giveBack (← evaluate fuel e))
      | none => throw (.giveBack .nothing)
    | .delete name keys => do
      let key ← match keys with
        | some es => do pure (some (← keyOf fuel es))
        | none => pure none
      let (id, s) := (← get).arrayOf name
      set (s.withElements id (match key with
        | some key => (s.elements id).filter (·.1 != key)
        | none => []))

def carryOutAll : Nat → List Statement → Scanning Unit
  | 0, _ => failScan "too deep"
  | _ + 1, [] => pure ()
  | fuel + 1, s :: ss => do
    carryOut fuel s
    carryOutAll fuel ss

end

/-- How deep expressions and calls of functions are evaluated inside of one another. -/
def deepestScan : Nat := 10000

/-- Whether a rule is meant for the record at hand; `place` tells where the rule stands. -/
def Pattern.admits (place : Nat) : Pattern → Scanning Bool
  | .first => return false
  | .last => return false
  | .every => return true
  | .when e => do return (← evaluate child p deepestScan e).isTrue
  | .range opening closing => do
    let entered := (← get).ranges.contains place
    let begins ← if entered then pure true else do
      pure (← evaluate child p deepestScan opening).isTrue
    if !begins then return false
    let ends := (← evaluate child p deepestScan closing).isTrue
    modify fun s => { s with
      ranges := if ends then s.ranges.filter (· != place)
        else if entered then s.ranges else place :: s.ranges }
    return true

def Rule.carryOut (r : Rule) : Scanning Unit :=
  Scan.carryOut child p deepestScan (r.body.getD (.print [] none))

def carryOutRules : Scanning Unit := do
  for (r, place) in p.rules.zipIdx do
    if ← Pattern.admits child p place r.pattern then Rule.carryOut child p r

/-- Goes through the records of the input. -/
def scanRecords : Nat → Scanning Unit
  | 0 => doing Tool.runForever
  | fuel + 1 => do
    match ← takeRecord? ((← get).operands.length + 2) with
    | none => pure ()
    | some record => do
      countRecord
      modify fun s => s.withRecord record
      tryCatch (carryOutRules child p) fun l =>
        match l with
        | .nextRecord => pure ()
        | .nextFile => modify fun s => { s with unread := none }
        | l => throw l
      scanRecords fuel

/-- Runs rules that are meant for the beginning or the end. -/
def carryOutAt (isMeant : Pattern → Bool) : Scanning Unit := do
  for r in p.rules do
    if isMeant r.pattern then Rule.carryOut child p r

/-- Runs a program from its beginning to its end. -/
def scan : Scanning Unit := do
  let untilExit (body : Scanning Unit) : Scanning Bool :=
    tryCatch (do body; return true) fun l =>
      match l with
      | .exit => return false
      | l => throw l
  let isFirst (t : Pattern) : Bool := match t with
    | .first => true
    | _ => false
  let isLast (t : Pattern) : Bool := match t with
    | .last => true
    | _ => false
  let goesOn ← untilExit do
    carryOutAt child p isFirst
    if p.reads then scanRecords child p mostRounds
  if goesOn || (← get).status ≠ 2 then
    let _ ← untilExit (carryOutAt child p isLast)
  for (name, _) in (← get).pipes do
    let _ ← closeNamed child name

/-- The state before a program is run. -/
def State.start (m : Machine) (operands : List String) : State :=
  let constants : List (String × Slot) :=
    ([("FS", " "), ("OFS", " "), ("RS", "\n"), ("ORS", "\n"), ("SUBSEP", "\x1c"),
      ("CONVFMT", "%.6g"), ("OFMT", "%.6g"), ("FILENAME", "")] : List (String × String)).map
        fun (name, s) => (name, .value (.text s.toList))
  let counts : List (String × Slot) := ["NR", "FNR", "NF", "RSTART", "ARGC"].map fun name =>
    (name, .value (.ofNat (if name = "ARGC" then operands.length + 1 else 0)))
  let arrays : List (String × Slot) := [("ENVIRON", .array 0), ("ARGV", .array 1)]
  let arguments := ("awk" :: operands).mapIdx fun i a => (Decimal.ofNat i, Value.given a.toList)
  { globals := constants ++ counts ++ arrays ++ [("RLENGTH", .value (.number (-1.0)))]
    locals := []
    arrays := [(0, m.sharedBindings.map fun (name, v) => (name, .given v.toList)), (1, arguments)]
    nextArray := 2
    record := []
    fields := []
    unread := none
    operands := operands
    hasRead := false
    sources := []
    written := []
    pipes := []
    ranges := []
    seed := 0
    status := 0 }

/-- Runs a program and gives its status. -/
def runScan (operands : List String) (settings : List (String × List Char)) : Run Nat := do
  let start := settings.foldl (fun (s : State) (name, v) => s.withValue name (.given v))
    (State.start (← get) operands)
  let (result, s) ← (scan child p).run.run start
  match result with
  | .ok () => return s.status
  | .error _ => return if s.status = 0 then 2 else s.status

end

/-- The options of the tool that runs scanning programs. -/
def scanOptions : Tool.Options where
  valued := "FvfW"
  names := [("field-separator", 'F'), ("assign", 'v'), ("file", 'f')]
  permutes := false

/-- Runs a program for scanning records that is given as an argument or in files. -/
def awk (child : String → List String → Run Ending) (args : List String) : Run Nat := do
  match scanOptions.read? args with
  | none => Tool.refuse "awk" "not an option" 2
  | some g => do
    let files := g.values 'f'
    let script ← match files, g.operands with
      | [], [] => pure none
      | [], script :: _ => pure (some script.toList)
      | files, _ => do
        let (cs, fine) ← Tool.wholeText "awk" files
        pure (if fine then some cs else none)
    let operands := if files.isEmpty then g.operands.tail else g.operands
    match script.bind Program.ofText? with
    | none => Tool.refuse "awk" "syntax error" 2
    | some p => do
      let settings := g.options.filterMap fun (c, value) =>
        if c = 'F' then
          some ("FS", if value = "t" then ['\t'] else assignedText value.toList)
        else if c = 'v' then assignmentOf? value
        else none
      let status ← runScan child p operands settings
      return if (← get).broken && status = 0 then 2 else status

end DataQuality.Shell.Scan
