import DataQuality.Shell.Token

/-!
# Shell grammar

How tokens are read as commands. Reading goes line by line: a line that is no row of commands is an
error, but only once the lines before it have been carried out. A word that is an alias gives way to the
tokens of what it stands for.
-/
namespace DataQuality.Shell

/-- The words that hold commands together. -/
def reservedWords : List String :=
  ["!", "\x7b", "\x7d", "case", "do", "done", "elif", "else", "esac", "fi", "for", "if", "in", "then",
    "until", "while"]

/-- The name at the front, if it is a reserved word. -/
def keyword? : List Token → Option String
  | .word w :: _ =>
    (plainText? w).bind fun cs =>
      let s := String.ofList cs
      if reservedWords.contains s then some s else none
  | _ => none

def afterLineEnds (ts : List Token) : List Token := ts.dropWhile (· == .lineEnd)

def expect? (word : String) (ts : List Token) : Option (List Token) :=
  if keyword? (afterLineEnds ts) = some word then some (afterLineEnds ts).tail else none

def endsRow (ts : List Token) : Bool :=
  match ts with
  | [] => true
  | .operator .closing :: _ => true
  | .operator .doubleSemicolon :: _ => true
  | _ => ["then", "do", "done", "fi", "else", "elif", "esac", "\x7d"].any (keyword? ts == some ·)

def assignment? : Word → Option (String × Word)
  | .text cs false :: rest =>
    match cs.span (· != '=') with
    | (name, _ :: value) =>
      if isName name then
        some (String.ofList name, if value.isEmpty then rest else .text value false :: rest)
      else none
    | _ => none
  | _ => none

def readRedirection? (ts : List Token) : Option (Redirection × List Token) :=
  let (given, ts) : Option Nat × List Token :=
    match ts with
    | .channel n :: rest => (some n, rest)
    | rest => (none, rest)
  match ts with
  | .operator o :: .word w :: rest =>
    match o with
    | .less => some (⟨given.getD 0, .input, w⟩, rest)
    | .here => some (⟨given.getD 0, .here, w⟩, rest)
    | .greater => some (⟨given.getD 1, .output false, w⟩, rest)
    | .force => some (⟨given.getD 1, .output true, w⟩, rest)
    | .readWrite => some (⟨given.getD 0, .readWrite, w⟩, rest)
    | .append => some (⟨given.getD 1, .append, w⟩, rest)
    | .sameInput => some (⟨given.getD 0, .same, w⟩, rest)
    | .sameOutput => some (⟨given.getD 1, .same, w⟩, rest)
    | _ => none
  | _ => none

def beginsRedirection : List Token → Bool
  | .channel _ :: _ => true
  | .operator o :: _ =>
    [.less, .greater, .force, .append, .readWrite, .here, .sameInput, .sameOutput].contains o
  | _ => false

def readRedirections? : Nat → List Token → Option (List Redirection × List Token)
  | 0, _ => none
  | fuel + 1, ts =>
    if beginsRedirection ts then do
      let (r, ts) ← readRedirection? ts
      let (rs, ts) ← readRedirections? fuel ts
      pure (r :: rs, ts)
    else some ([], ts)

/-- The parts of a simple command. -/
structure SimpleParts where
  assignments : List (String × Word)
  words : List Word
  redirections : List Redirection

def readSimple? : Nat → SimpleParts → List Token → Option (SimpleParts × List Token)
  | 0, _, _ => none
  | fuel + 1, parts, ts =>
    if beginsRedirection ts then do
      let (r, ts) ← readRedirection? ts
      readSimple? fuel { parts with redirections := parts.redirections ++ [r] } ts
    else
      match ts with
      | .word w :: rest =>
        match if parts.words.isEmpty then assignment? w else none with
        | some a => readSimple? fuel { parts with assignments := parts.assignments ++ [a] } rest
        | none => readSimple? fuel { parts with words := parts.words ++ [w] } rest
      | .unclosed :: _ => none
      | _ => some (parts, ts)

def readPatterns? : Nat → List Token → Option (List Word × List Token)
  | 0, _ => none
  | fuel + 1, .word w :: .operator .pipe :: rest =>
    (readPatterns? fuel rest).map fun (ws, after) => (w :: ws, after)
  | _ + 1, .word w :: .operator .closing :: rest => some ([w], rest)
  | _, _ => none

def readWords : List Token → List Word × List Token
  | .word w :: rest => let (ws, after) := readWords rest; (w :: ws, after)
  | ts => ([], ts)

/-- What names stand for in the place of a command. -/
abbrev Aliases := List (String × String)

/-- The tokens in which an alias at the front has given way to what it stands for, and the aliases that
may still do so. Behind an alias that ends with a blank, the next word may be one, too. -/
def unaliased : Nat → Aliases → List Token → Aliases × List Token
  | 0, aliases, ts => (aliases, ts)
  | fuel + 1, aliases, ts =>
    let given : Option (String × String × List Token) :=
      match ts with
      | .word w :: rest => do
        let name := String.ofList (← plainText? w)
        pure (name, ← aliases.lookup name, rest)
      | _ => none
    match given with
    | some (name, value, rest) =>
      let goesOn := value.toList.getLast?.any fun c => c == ' ' || c == '\t'
      let rest := if goesOn then (unaliased fuel aliases rest).2 else rest
      unaliased fuel (aliases.filter (·.1 != name)) (tokensOf value.toList ++ rest)
    | none => (aliases, ts)

/-- The names that no function can have: those of commands whose errors end a shell. -/
def specialNames : List String :=
  [":", ".", "break", "continue", "eval", "exec", "exit", "export", "local", "readonly", "return",
    "set", "shift", "times", "trap", "unset"]

section
variable (aliases : Aliases)

mutual

/-- Reads commands in a row, at least one, up to where the row ends; line ends separate them, too. -/
def readRow : Nat → List Token → Option (Command × List Token)
  | 0, _ => none
  | fuel + 1, ts => do
    let (c, ts) ← readJoined fuel (afterLineEnds ts)
    let (c, ts) ←
      match ts with
      | .operator .semicolon :: rest => some (c, rest)
      | .operator .ampersand :: rest => some (.background c, rest)
      | .lineEnd :: rest => some (c, rest)
      | _ => if endsRow ts then some (c, ts) else none
    if endsRow (afterLineEnds ts) then pure (c, afterLineEnds ts)
    else
      let (d, ts) ← readRow fuel ts
      pure (.sequence c d, ts)

/-- Reads pipelines of which each is run or not as the one before it ends. -/
def readJoined : Nat → List Token → Option (Command × List Token)
  | 0, _ => none
  | fuel + 1, ts => do
    let (c, ts) ← readPipeline fuel ts
    readJoinedTo fuel c ts

def readJoinedTo : Nat → Command → List Token → Option (Command × List Token)
  | 0, _, _ => none
  | fuel + 1, c, ts =>
    match ts with
    | .operator .both :: rest => do
      let (d, ts) ← readPipeline fuel (afterLineEnds rest)
      readJoinedTo fuel (.both c d) ts
    | .operator .either :: rest => do
      let (d, ts) ← readPipeline fuel (afterLineEnds rest)
      readJoinedTo fuel (.either c d) ts
    | _ => some (c, ts)

/-- Reads a pipeline, perhaps negated. -/
def readPipeline : Nat → List Token → Option (Command × List Token)
  | 0, _ => none
  | fuel + 1, ts =>
    if keyword? ts = some "!" then
      (readPiped fuel ts.tail).map fun (c, after) => (.negation c, after)
    else readPiped fuel ts

def readPiped : Nat → List Token → Option (Command × List Token)
  | 0, _ => none
  | fuel + 1, ts => do
    let (c, ts) ← readCommand fuel ts
    match ts with
    | .operator .pipe :: rest =>
      let (d, ts) ← readPiped fuel (afterLineEnds rest)
      pure (.pipe c d, ts)
    | _ => pure (c, ts)

def readCommand : Nat → List Token → Option (Command × List Token)
  | 0, _ => none
  | fuel + 1, ts =>
    let (_, ts) := unaliased (aliases.length + 1) aliases ts
    match readCompound fuel ts with
    | some (c, ts) => do
      let (rs, ts) ← readRedirections? (ts.length + 1) ts
      pure (c.enclosed rs, ts)
    | none =>
      match ts with
      | .word w :: .operator .opening :: .operator .closing :: rest => do
        let name ← plainText? w
        let (body, ts) ← readCommand fuel (afterLineEnds rest)
        if isName name && !specialNames.contains (String.ofList name) then
          pure (.definition (String.ofList name) body, ts)
        else none
      | _ =>
        if (keyword? ts).isSome then none
        else do
          let (parts, ts) ← readSimple? (ts.length + 1) ⟨[], [], []⟩ ts
          if parts.assignments.isEmpty && parts.words.isEmpty && parts.redirections.isEmpty then none
          else pure ((Command.simple parts.assignments parts.words).withRedirections
            parts.redirections, ts)

def readCompound : Nat → List Token → Option (Command × List Token)
  | 0, _ => none
  | fuel + 1, ts =>
    match ts with
    | .operator .opening :: rest => do
      match ← readRow fuel rest with
      | (c, .operator .closing :: ts) => pure (.subshell c, ts)
      | _ => none
    | _ =>
      match keyword? ts with
      | some "\x7b" => do
        let (c, ts) ← readRow fuel ts.tail
        pure (c, ← expect? "\x7d" ts)
      | some "if" => readConditional fuel ts.tail
      | some "while" => readLoop fuel false ts.tail
      | some "until" => readLoop fuel true ts.tail
      | some "for" => readEach fuel ts.tail
      | some "case" =>
        match ts.tail with
        | .word w :: rest => do readBranches fuel w (afterLineEnds (← expect? "in" rest))
        | _ => none
      | _ => none

def readConditional : Nat → List Token → Option (Command × List Token)
  | 0, _ => none
  | fuel + 1, ts => do
    let (test, ts) ← readRow fuel ts
    let (body, ts) ← readRow fuel (← expect? "then" ts)
    match keyword? ts with
    | some "elif" =>
      let (otherwise, ts) ← readConditional fuel ts.tail
      pure (.conditional test body otherwise, ts)
    | some "else" =>
      let (otherwise, ts) ← readRow fuel ts.tail
      pure (.conditional test body otherwise, ← expect? "fi" ts)
    | _ => pure (.conditional test body .nothing, ← expect? "fi" ts)

def readBody : Nat → List Token → Option (Command × List Token)
  | 0, _ => none
  | fuel + 1, ts => do
    let (body, ts) ← readRow fuel (← expect? "do" ts)
    pure (body, ← expect? "done" ts)

def readLoop : Nat → Bool → List Token → Option (Command × List Token)
  | 0, _, _ => none
  | fuel + 1, untilTrue, ts => do
    let (test, ts) ← readRow fuel ts
    let (body, ts) ← readBody fuel ts
    pure (.loop untilTrue test body, ts)

def readEach : Nat → List Token → Option (Command × List Token)
  | 0, _ => none
  | fuel + 1, ts =>
    match ts with
    | .word w :: rest => do
      let name ← plainText? w
      if !isName name then none
      let (words, ts) ←
        match expect? "in" rest with
        | some ts =>
          let (ws, ts) := readWords ts
          match ts with
          | .operator .semicolon :: rest => some (some ws, rest)
          | .lineEnd :: _ => some (some ws, ts)
          | _ => none
        | none =>
          match rest with
          | .operator .semicolon :: rest => some (none, rest)
          | _ => some (none, rest)
      let (body, ts) ← readBody fuel ts
      pure (.each (String.ofList name) words body, ts)
    | _ => none

def readBranches : Nat → Word → List Token → Option (Command × List Token)
  | 0, _, _ => none
  | fuel + 1, w, ts =>
    if keyword? ts = some "esac" then some (.nothing, ts.tail)
    else do
      let ts := match ts with
        | .operator .opening :: rest => rest
        | ts => ts
      let (patterns, ts) ← readPatterns? (ts.length + 1) ts
      let (body, ts) ←
        if endsRow (afterLineEnds ts) then some (.nothing, afterLineEnds ts) else readRow fuel ts
      match ts with
      | .operator .doubleSemicolon :: rest =>
        let (otherwise, ts) ← readBranches fuel w (afterLineEnds rest)
        pure (.choice w patterns body otherwise, ts)
      | _ => pure (.choice w patterns body .nothing, ← expect? "esac" ts)

end

/-- Enough steps to read these tokens. -/
def fuelFor (ts : List Token) : Nat := 8 * (ts.length + aliases.length) + 8

/-- Reads the commands of one line, which may go on over several lines inside of a command. -/
def readLine : Nat → List Token → Option (Command × List Token)
  | 0, _ => none
  | fuel + 1, ts => do
    let (c, ts) ← readJoined aliases (fuelFor aliases ts) ts
    let (c, ts) ←
      match ts with
      | .operator .semicolon :: rest => some (c, rest)
      | .operator .ampersand :: rest => some (.background c, rest)
      | [] => some (c, [])
      | .lineEnd :: _ => some (c, ts)
      | _ => none
    if ts.isEmpty || ts.head? == some .lineEnd then pure (c, ts)
    else
      let (d, ts) ← readLine fuel ts
      pure (.sequence c d, ts)

end

/-- Whether tokens are lines that can be read, and their words are sound. -/
def areLines (sound : Word → Bool) : Nat → List Token → Bool
  | 0, _ => true
  | fuel + 1, ts =>
    match afterLineEnds ts with
    | [] => true
    | ts =>
      match readLine [] (ts.length + 1) ts with
      | some (_, rest) => areSound sound ts && areLines sound fuel rest
      | none => false
where
  /-- Whether the words among tokens are sound. -/
  areSound (sound : Word → Bool) (ts : List Token) : Bool := ts.all fun t =>
    match t with
    | .word w => sound w
    | _ => true

/-- Whether the scripts inside of a word can be read, down to some depth. -/
def isSound : Nat → Word → Bool
  | 0, _ => true
  | depth + 1, w => w.all fun piece =>
    match piece with
    | .printed script _ =>
      let ts := tokensOf script
      areLines (isSound depth) (ts.length + 1) ts
    | _ => true

/-- How deep scripts inside of others are read before the line that holds them is carried out. -/
def deepestScript : Nat := 16

/-- The command on the first line and the tokens after that line. The command is missing if the line
cannot be read; without any line left, there is nothing. -/
def firstLine? (aliases : Aliases) (ts : List Token) : Option (Option Command × List Token) :=
  match afterLineEnds ts with
  | [] => none
  | ts =>
    match readLine aliases (ts.length + 1) ts with
    | some (c, rest) =>
      let taken := ts.take (ts.length - rest.length)
      some (if areLines.areSound (isSound deepestScript) taken then some c else none, rest)
    | none => some (none, [])

end DataQuality.Shell
