import DataQuality.Shell.Setting

/-!
# Reading arguments and lines

A shell takes one option after the other out of its arguments. Each is a letter behind a minus sign; some
have a value. Which one comes next is kept in the shell.

It also reads a line and binds names to its words; the last name takes all that is left. A backslash joins
lines, and keeps a separator from ending a word.
-/
namespace DataQuality.Shell.Letters

/-- What is next in the arguments. -/
inductive Next
  /-- No option is left. -/
  | none
  | flag (c : Char)
  | valued (c : Char) (value : String)
  | unknown (c : Char)
  /-- The value of an option is missing. -/
  | unvalued (c : Char)
  deriving DecidableEq, Repr

/-- The option at some argument, counted from one, and some character in it, and where the next one is. -/
def next (known : List Char) (args : List String) (index place : Nat) : Next × Nat × Nat :=
  match args[index - 1]? with
  | Option.none => (.none, index, 0)
  | some a =>
    let cs := a.toList
    let ended := cs.length ≤ place
    if place = 0 || ended then
      if ended && place ≠ 0 then (.none, index + 1, 0)
      else if a = "--" then (.none, index + 1, 0)
      else if a = "-" || cs.head? ≠ some '-' then (.none, index, 0)
      else letter cs 1
    else letter cs place
where
  /-- The option that is a letter of an argument. -/
  letter (cs : List Char) (place : Nat) : Next × Nat × Nat :=
    let c := cs[place]?.getD '-'
    let onward : Nat × Nat := if place + 1 < cs.length then (index, place + 1) else (index + 1, 0)
    if c = ':' || !known.contains c then (.unknown c, onward)
    else if (known.drop (known.idxOf c + 1)).head? = some ':' then
      if place + 1 < cs.length then
        (.valued c (String.ofList (cs.drop (place + 1))), index + 1, 0)
      else
        match args[index]? with
        | some value => (.valued c value, index + 2, 0)
        | Option.none => (.unvalued c, index + 1, 0)
    else (.flag c, onward)

/-- Takes the next option: binds a name to its letter. -/
def take (known name : String) (args : List String) : Run Unit := do
  let m ← get
  let silent := known.toList.head? = some ':'
  let letters := known.toList.dropWhile (· == ':')
  let (option, index, place) := next letters args m.optionIndex m.optionPlace
  let value (v : Option String) : Run Unit := modify fun m =>
    match v with
    | some v => m.bind "OPTARG" v
    | Option.none => m.unbind "OPTARG"
  let text (c : Char) : String := String.ofList [c]
  let shown ← match option with
    | .none => pure "?"
    | .flag c => do
      value (some "")
      pure (text c)
    | .valued c v => do
      value (some v)
      pure (text c)
    | .unknown c => do
      if silent then value (some (text c))
      else
        complain ("Illegal option -" ++ text c)
        value Option.none
      pure "?"
    | .unvalued c => do
      if silent then
        value (some (text c))
        pure ":"
      else
        complain ("No arg for -" ++ text c ++ " option")
        value Option.none
        pure "?"
  let shownIndex := if place = 0 then index else index + 1
  modify fun m =>
    { m.bind "OPTIND" (Decimal.ofNat shownIndex) with optionIndex := index, optionPlace := place }
  bindName name shown
  setStatus (statusOf (option ≠ .none))

/-- Takes the next option out of given arguments, or of those of the shell. -/
def getopts (args : List String) : Run Unit := do
  match args with
  | known :: name :: rest => do
    if !isName name.toList then fail ("getopts: " ++ name ++ ": bad variable name")
    let own := (← get).arguments
    take known name (if rest.isEmpty then own else rest)
  | _ => fail "getopts: Usage: getopts optstring var [arg...]"

end DataQuality.Shell.Letters

namespace DataQuality.Shell.Reading

/-- A line that has been read: its characters, with those marked that end no word, how many characters it
took, and whether it has an end. -/
structure Line where
  text : Marked
  count : Nat
  ended : Bool

def readLine (raw : Bool) : List Char → Line
  | [] => ⟨[], 0, false⟩
  | '\n' :: _ => ⟨[], 1, true⟩
  | '\\' :: '\n' :: rest =>
    if raw then ⟨[('\\', false)], 2, true⟩
    else
      let l := readLine raw rest
      { l with count := l.count + 2 }
  | '\\' :: c :: rest =>
    let l := readLine raw rest
    let taken : Marked := if raw then [('\\', false), (c, false)] else [(c, true)]
    { l with text := taken ++ l.text, count := l.count + 2 }
  | c :: rest =>
    let l := readLine raw rest
    let dropped := c == '\x00' || (c == '\\' && !raw)
    { l with text := if dropped then l.text else (c, false) :: l.text, count := l.count + 1 }

/-- Whether a character ends words. -/
def isSeparator (separators : List Char) (m : Char × Bool) : Bool := !m.2 && separators.contains m.1

/-- Whether a character ends words and may be repeated. -/
def isBlank (separators : List Char) (m : Char × Bool) : Bool :=
  isSeparator separators m && isSpace m.1

/-- The text without blanks at its end. -/
def trimEnd (separators : List Char) (ms : Marked) : Marked :=
  (ms.reverse.dropWhile (isBlank separators)).reverse

/-- The text behind a word: blanks, and one other separator. -/
def skipSeparators (separators : List Char) (ms : Marked) : Marked :=
  match ms.dropWhile (isBlank separators) with
  | c :: rest =>
    if isSeparator separators c then rest.dropWhile (isBlank separators) else c :: rest
  | [] => []

/-- All that is left for the last name. A separator at the end of a single word does not count. -/
def lastValue (separators : List Char) (ms : Marked) : Marked :=
  let ms := trimEnd separators ms
  match ms.span fun m => !isSeparator separators m with
  | (word, rest) => if (skipSeparators separators rest).isEmpty then word else ms

def values (separators : List Char) : Marked → List String → List (String × List Char)
  | _, [] => []
  | ms, [n] => [(n, (lastValue separators ms).map (·.1))]
  | ms, n :: rest =>
    let (word, after) := ms.span fun m => !isSeparator separators m
    (n, word.map (·.1)) :: values separators (skipSeparators separators after) rest

/-- Reads the options of the command: whether backslashes stand for themselves, and the names. -/
def readOptions? : Bool → List String → Option (Bool × List String)
  | raw, a :: rest =>
    match a.toList, rest with
    | ['-', '-'], rest => some (raw, rest)
    | ['-', 'p'], _ :: rest => readOptions? raw rest
    | '-' :: 'p' :: _, rest => readOptions? raw rest
    | '-' :: 'r' :: letters, rest =>
      if letters.all (· == 'r') then readOptions? true rest else none
    | '-' :: _ :: _, _ => none
    | _, rest => some (raw, a :: rest)
  | raw, [] => some (raw, [])

/-- Reads a line and binds names to its words. -/
def read (args : List String) : Run Unit := do
  match readOptions? false args with
  | none => fail "read: Illegal option"
  | some (_, []) => fail "read: arg count"
  | some (raw, names) => do
    let m ← get
    match m.stream? 0 with
    | none => setStatus 1
    | some id =>
      let unread := m.world.unread id
      let l := readLine raw unread
      modifyWorld fun w => w.skip id l.count (unread.drop l.count)
      let separators := m.separators
      for (name, value) in values separators (l.text.dropWhile (isBlank separators)) names do
        if !isName name.toList then fail ("read: " ++ name ++ ": bad variable name")
        bindName name (String.ofList value)
      setStatus (statusOf l.ended)

end DataQuality.Shell.Reading
