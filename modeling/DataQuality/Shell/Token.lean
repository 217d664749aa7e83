/-!
# Shell tokens and commands

The text of a shell script is a row of words, operators and line ends. A word is a row of pieces: some
stand for their own characters, others for what they expand to. What is written inside of an expansion
is kept as it stands.

Commands are what a script says to do: simple ones, and those that are made of other ones.
-/
namespace DataQuality.Shell

/-- A piece of a word. What a quoted piece stands for is neither split nor matched as a pattern. -/
inductive Piece
  | text (content : List Char) (quoted : Bool)
  /-- A parameter, by what is written between its braces. -/
  | parameter (expression : List Char) (quoted : Bool)
  /-- What a script prints. -/
  | printed (script : List Char) (quoted : Bool)
  /-- The value of an arithmetic expression. -/
  | arithmetic (expression : List Char) (quoted : Bool)
  deriving DecidableEq, Repr

abbrev Word := List Piece

/-- The signs that stand between words. -/
inductive Operator
  | semicolon
  | doubleSemicolon
  | ampersand
  | both
  | either
  | pipe
  | opening
  | closing
  | less
  | greater
  /-- To a file, even where files are to be kept as they are. -/
  | force
  | append
  | readWrite
  /-- The next word is the text that is to be read. -/
  | here
  | sameInput
  | sameOutput
  deriving DecidableEq, Repr

/-- What a script is made of. -/
inductive Token
  | word (w : Word)
  | operator (o : Operator)
  /-- The number of a channel, directly before the operator that redirects it. -/
  | channel (n : Nat)
  | lineEnd
  /-- A quote or an expansion that is not closed. -/
  | unclosed
  deriving DecidableEq, Repr

def isNameStart (c : Char) : Bool := c.isAlpha || c == '_'

def isNameChar (c : Char) : Bool := c.isAlphanum || c == '_'

def isName : List Char → Bool
  | c :: cs => isNameStart c && cs.all isNameChar
  | [] => false

/-- The signs that name a parameter each. -/
def isSpecial (c : Char) : Bool := ['@', '*', '#', '?', '-', '$', '!'].contains c

def endsWord (c : Char) : Bool := [' ', '\t', '\n', ';', '&', '|', '(', ')', '<', '>'].contains c

/-- What surrounds a text in which most characters are quoted. -/
inductive Quoting
  /-- Double quotes. -/
  | quotes
  /-- The lines of a text in the script. -/
  | lines
  /-- The braces of a parameter between double quotes. -/
  | braces
  /-- The parentheses of an arithmetic expression. -/
  | arithmetic
  deriving DecidableEq, Repr

/-- A character that loses its meaning behind a backslash in a quoted text. -/
def Quoting.escapes (q : Quoting) (c : Char) : Bool :=
  ['$', '\x60', '\\'].contains c || (c == '"' && q != .lines) || (c == '\x7d' && q == .braces)

/-- Splits off what stands before a character that is not behind a backslash. -/
def untilChar (stop : Char) : List Char → Option (List Char × List Char)
  | [] => none
  | '\\' :: c :: rest => (untilChar stop rest).map fun (cs, after) => ('\\' :: c :: cs, after)
  | c :: rest =>
    if c = stop then some ([], rest)
    else (untilChar stop rest).map fun (cs, after) => (c :: cs, after)

/-- The script between backward quotes, in which a backslash protects a few signs. -/
def unprotected (inQuotes : Bool) : List Char → List Char
  | '\\' :: c :: rest =>
    if c = '$' || c = '\x60' || c = '\\' || (inQuotes && c = '"') then
      c :: unprotected inQuotes rest
    else '\\' :: c :: unprotected inQuotes rest
  | c :: rest => c :: unprotected inQuotes rest
  | [] => []

def joinTexts : Word → Word
  | .text a true :: rest =>
    match joinTexts rest with
    | .text b true :: more => .text (a ++ b) true :: more
    | more => .text a true :: more
  | .text a false :: rest =>
    match joinTexts rest with
    | .text b false :: more => .text (a ++ b) false :: more
    | more => .text a false :: more
  | piece :: rest => piece :: joinTexts rest
  | [] => []

/-- The text of a word that is neither quoted nor expanded. -/
def plainText? : Word → Option (List Char)
  | [.text cs false] => some cs
  | _ => none

/-- The characters of a word whose pieces are all texts, and whether one of them is quoted. -/
def stopOf : Word → List Char × Bool
  | .text cs quoted :: rest => let (more, others) := stopOf rest; (cs ++ more, quoted || others)
  | _ => ([], false)

/-- The lines of a text up to the one that is `stop`, and the text after it. Tabs at the beginning of a
line are dropped if `bare` says so. -/
def untilLine (bare : Bool) (stop : List Char) : Nat → List Char → List Char × List Char
  | 0, cs => (cs, [])
  | fuel + 1, cs =>
    let (line, rest) := cs.span (· != '\n')
    let line := if bare then line.dropWhile (· == '\t') else line
    if line = stop || cs.isEmpty then ([], rest.tail)
    else
      let (more, after) := untilLine bare stop fuel rest.tail
      (line ++ '\n' :: more, after)

/-- The text after the lines that belong to signs for texts in the script. -/
def afterLines (pending : List (Bool × List Char)) (cs : List Char) : List Char :=
  pending.foldl (fun cs (bare, stop) => (untilLine bare stop (cs.length + 1) cs).2) cs

/-- What is open inside of a script that is read up to its end. -/
inductive Enclosure
  | parentheses
  /-- The branches of a choice; whether a pattern comes next. -/
  | branches (atPattern : Bool)
  deriving DecidableEq, Repr

/-- The words behind which a command begins. -/
def opensCommand (cs : List Char) : Bool :=
  ["!", "\x7b", "do", "elif", "else", "if", "then", "until", "while"].contains (String.ofList cs)

/-- Whether a name and a sign for patterns stand at the front. -/
def takesPattern (cs : List Char) : Bool :=
  let rest :=
    match cs with
    | c :: rest => if isNameChar c then rest.dropWhile isNameChar else rest
    | [] => []
  rest.head? == some '#' || rest.head? == some '%'

mutual

/-- Reads the piece after a dollar sign. Where nothing can be expanded, the sign stands for itself. -/
def readExpansion? : Nat → Bool → List Char → Option (Piece × List Char)
  | 0, _, _ => none
  | fuel + 1, quoted, cs =>
    match cs with
    | '(' :: '(' :: rest =>
      (untilArithmeticEnd? fuel 0 rest).map fun (expression, after) =>
        (.arithmetic expression quoted, after)
    | '(' :: rest =>
      (untilScriptEnd? fuel [] true [] rest).map fun after =>
        (.printed (rest.take (rest.length - after.length - 1)) quoted, after)
    | '\x7b' :: rest =>
      (untilBrace? fuel quoted (takesPattern rest) rest).map fun (expression, after) =>
        (.parameter expression quoted, after)
    | c :: rest =>
      if isNameStart c then
        some (.parameter (cs.takeWhile isNameChar) quoted, cs.dropWhile isNameChar)
      else if c.isDigit || isSpecial c then some (.parameter [c] quoted, rest)
      else some (.text ['$'] quoted, cs)
    | [] => some (.text ['$'] quoted, [])

/-- Splits off an arithmetic expression before the two parentheses that close it. -/
def untilArithmeticEnd? : Nat → Nat → List Char → Option (List Char × List Char)
  | 0, _, _ => none
  | fuel + 1, depth, cs =>
    let next (taken : List Char) (depth : Nat) (rest : List Char) : Option (List Char × List Char) :=
      (untilArithmeticEnd? fuel depth rest).map fun (more, after) => (taken ++ more, after)
    match cs with
    | [] => none
    | ')' :: rest =>
      match depth, rest with
      | 0, ')' :: after => some ([], after)
      | 0, rest => next [')'] 0 rest
      | depth + 1, rest => next [')'] depth rest
    | '(' :: rest => next ['('] (depth + 1) rest
    | '\\' :: c :: rest => next ['\\', c] depth rest
    | '$' :: rest => do
      let (_, after) ← readExpansion? fuel true rest
      next (cs.take (cs.length - after.length)) depth after
    | '\x60' :: rest => do
      let (_, after) ← untilChar '\x60' rest
      next (cs.take (cs.length - after.length)) depth after
    | c :: rest => next [c] depth rest

/-- Splits off what stands before the brace that closes a parameter. -/
def untilBrace? : Nat → Bool → Bool → List Char → Option (List Char × List Char)
  | 0, _, _, _ => none
  | fuel + 1, quoted, isPattern, cs =>
    let next (rest : List Char) : Option (List Char × List Char) :=
      (untilBrace? fuel quoted isPattern rest).map fun (more, after) =>
        (cs.take (cs.length - rest.length) ++ more, after)
    match cs with
    | [] => none
    | '\x7d' :: rest => some ([], rest)
    | '\\' :: _ :: rest => next rest
    | '\'' :: rest =>
      if quoted && !isPattern then next rest
      else
        match rest.span (· != '\'') with
        | (_, _ :: after) => next after
        | _ => none
    | '"' :: rest => do
      let (_, after) ← readQuoted? fuel .quotes (some '"') rest
      next after
    | '$' :: rest => do
      let (_, after) ← readExpansion? fuel quoted rest
      next after
    | '\x60' :: rest => do
      let (_, after) ← untilChar '\x60' rest
      next after
    | _ :: rest => next rest

/-- The text after the parenthesis that closes a script. `isStart` tells that a command may begin here,
and `pending` which texts are written on the next lines. -/
def untilScriptEnd? :
    Nat → List Enclosure → Bool → List (Bool × List Char) → List Char → Option (List Char)
  | 0, _, _, _, _ => none
  | fuel + 1, opened, isStart, pending, cs =>
    match cs with
    | [] => none
    | '\n' :: rest => untilScriptEnd? fuel opened true [] (afterLines pending rest)
    | ' ' :: rest => untilScriptEnd? fuel opened isStart pending rest
    | '\t' :: rest => untilScriptEnd? fuel opened isStart pending rest
    | '#' :: rest => untilScriptEnd? fuel opened isStart pending (rest.dropWhile (· != '\n'))
    | '<' :: '<' :: rest => do
      let bare := rest.head? == some '-'
      let rest := (if bare then rest.tail else rest).dropWhile fun c => c == ' ' || c == '\t'
      let (w, after) ← readWord? fuel rest
      untilScriptEnd? fuel opened false (pending ++ [(bare, (stopOf w).1)]) after
    | ')' :: rest =>
      match opened with
      | [] => some rest
      | .parentheses :: outer => untilScriptEnd? fuel outer true pending rest
      | .branches _ :: outer => untilScriptEnd? fuel (.branches false :: outer) true pending rest
    | '(' :: rest =>
      match opened with
      | .branches true :: _ => untilScriptEnd? fuel opened false pending rest
      | _ => untilScriptEnd? fuel (.parentheses :: opened) true pending rest
    | ';' :: ';' :: rest =>
      match opened with
      | .branches _ :: outer => untilScriptEnd? fuel (.branches true :: outer) true pending rest
      | _ => untilScriptEnd? fuel opened true pending rest
    | c :: rest =>
      if c = ';' || c = '&' || c = '|' then untilScriptEnd? fuel opened true pending rest
      else if c = '<' || c = '>' then untilScriptEnd? fuel opened false pending rest
      else do
        let (w, after) ← readWord? fuel cs
        let word := (plainText? (joinTexts w)).getD []
        match opened with
        | .branches true :: outer =>
          if word = "esac".toList then untilScriptEnd? fuel outer false pending after
          else untilScriptEnd? fuel opened false pending after
        | _ =>
          if isStart && word = "case".toList then
            let (_, after) ← readWord? fuel (after.dropWhile fun c => c == ' ' || c == '\t')
            untilScriptEnd? fuel (.branches true :: opened) false pending after
          else if isStart && word = "esac".toList then
            untilScriptEnd? fuel opened.tail false pending after
          else untilScriptEnd? fuel opened (isStart && opensCommand word) pending after

/-- Reads the pieces of a quoted text up to `stop`, or to the end if there is none. -/
def readQuoted? : Nat → Quoting → Option Char → List Char → Option (Word × List Char)
  | 0, _, _, _ => none
  | fuel + 1, q, stop, cs =>
    match cs with
    | [] => if stop.isNone then some ([], []) else none
    | c :: rest =>
      if stop = some c then some ([], rest)
      else do
        let (pieces, rest) ←
          match c, rest with
          | '\\', '\n' :: rest => some ([], rest)
          | '\\', e :: rest => some ([Piece.text (if q.escapes e then [e] else ['\\', e]) true], rest)
          | '$', rest => (readExpansion? fuel true rest).map fun (piece, after) => ([piece], after)
          | '\x60', rest =>
            (untilChar '\x60' rest).map fun (script, after) =>
              ([Piece.printed (unprotected (q == .quotes) script) true], after)
          | '"', rest =>
            some (if q = .lines || q = .arithmetic then [.text ['"'] true] else [], rest)
          | c, rest => some ([.text [c] true], rest)
        let (more, rest) ← readQuoted? fuel q stop rest
        pure (pieces ++ more, rest)

def readWord? : Nat → List Char → Option (Word × List Char)
  | 0, _ => none
  | fuel + 1, cs =>
    match cs with
    | [] => some ([], [])
    | c :: rest =>
      if endsWord c then some ([], c :: rest)
      else do
        let (pieces, rest) ←
          match c, rest with
          | '\\', '\n' :: rest => some ([], rest)
          | '\\', e :: rest => some ([Piece.text [e] true], rest)
          | '\'', rest =>
            match rest.span (· != '\'') with
            | (inside, _ :: after) => some ([.text inside true], after)
            | _ => none
          | '"', rest =>
            (readQuoted? fuel .quotes (some '"') rest).map fun (pieces, after) =>
              (if pieces.isEmpty then [.text [] true] else pieces, after)
          | '$', rest => (readExpansion? fuel false rest).map fun (piece, after) => ([piece], after)
          | '\x60', rest =>
            (untilChar '\x60' rest).map fun (script, after) =>
              ([.printed (unprotected false script) false], after)
          | c, rest => some ([.text [c] false], rest)
        let (more, rest) ← readWord? fuel rest
        pure (pieces ++ more, rest)

end

/-- Enough steps to read a text. -/
def stepsFor (cs : List Char) : Nat := 4 * cs.length + 8

def quotedWord? (q : Quoting) (cs : List Char) : Option Word :=
  (readQuoted? (stepsFor cs) q none cs).map fun (pieces, _) => joinTexts pieces

/-- The word that a whole text is, blanks included. -/
def wholeWord? : Nat → List Char → Option Word
  | 0, _ => none
  | fuel + 1, cs => do
    let (pieces, rest) ← readWord? (stepsFor cs) cs
    match rest with
    | [] => pure (joinTexts pieces)
    | c :: rest => pure (joinTexts (pieces ++ .text [c] false :: (← wholeWord? fuel rest)))

def readOperator? : List Char → Option (Operator × List Char)
  | ';' :: ';' :: rest => some (.doubleSemicolon, rest)
  | ';' :: rest => some (.semicolon, rest)
  | '&' :: '&' :: rest => some (.both, rest)
  | '&' :: rest => some (.ampersand, rest)
  | '|' :: '|' :: rest => some (.either, rest)
  | '|' :: rest => some (.pipe, rest)
  | '(' :: rest => some (.opening, rest)
  | ')' :: rest => some (.closing, rest)
  | '<' :: '&' :: rest => some (.sameInput, rest)
  | '<' :: '>' :: rest => some (.readWrite, rest)
  | '<' :: rest => some (.less, rest)
  | '>' :: '>' :: rest => some (.append, rest)
  | '>' :: '&' :: rest => some (.sameOutput, rest)
  | '>' :: '|' :: rest => some (.force, rest)
  | '>' :: rest => some (.greater, rest)
  | _ => none

/-- Reads a text that is written on the next lines, behind the sign for it. Gives the text as a word,
and what is left of the script without those lines. -/
def readHere? (cs : List Char) : Option (Word × List Char) := do
  let bare := cs.head? == some '-'
  let cs := (if bare then cs.tail else cs).dropWhile fun c => c == ' ' || c == '\t'
  let (w, rest) ← readWord? (stepsFor cs) cs
  if w.isEmpty then none
  let (stop, quoted) := stopOf w
  let (line, below) := rest.span (· != '\n')
  let (body, after) := untilLine bare stop (below.length + 1) below.tail
  let word ← if quoted then some [.text body true] else quotedWord? .lines body
  pure (word, line ++ '\n' :: after)

def readChannel? (cs : List Char) : Option (Nat × List Char) :=
  match cs with
  | c :: rest =>
    match rest.head? with
    | some d => if c.isDigit && (d = '<' || d = '>') then some (c.toNat - 48, rest) else none
    | none => none
  | [] => none

/-- Splits a script into tokens. -/
def tokens : Nat → List Char → List Token
  | 0, _ => [.unclosed]
  | _ + 1, [] => []
  | fuel + 1, '\\' :: '\n' :: rest => tokens fuel rest
  | fuel + 1, c :: rest =>
    if c = ' ' || c = '\t' then tokens fuel rest
    else if c = '\n' then .lineEnd :: tokens fuel rest
    else if c = '#' then tokens fuel (rest.dropWhile (· != '\n'))
    else
      let (given, cs) : List Token × List Char :=
        match readChannel? (c :: rest) with
        | some (n, after) => ([.channel n], after)
        | none => ([], c :: rest)
      match cs with
      | '<' :: '<' :: after =>
        match readHere? after with
        | some (w, after) => given ++ .operator .here :: .word w :: tokens fuel after
        | none => [.unclosed]
      | cs =>
        match readOperator? cs with
        | some (o, after) => given ++ .operator o :: tokens fuel after
        | none =>
          match readWord? (stepsFor cs) cs with
          | some (w, after) => .word (joinTexts w) :: tokens fuel after
          | none => [.unclosed]

def tokensOf (cs : List Char) : List Token := tokens (2 * cs.length + 2) cs

/-- How a channel is redirected. -/
inductive Redirection.Way
  /-- From what a file holds. -/
  | input
  /-- From a text in the script. -/
  | here
  /-- To a file, in place of what it held. With `force`, also where files are to be kept. -/
  | output (force : Bool)
  /-- To a file, after what it holds. -/
  | append
  /-- From a file and to it. -/
  | readWrite
  /-- To where another channel leads. -/
  | same
  deriving DecidableEq, Repr

/-- The redirection of a channel. -/
structure Redirection where
  channel : Nat
  way : Redirection.Way
  goal : Word
  deriving DecidableEq, Repr

inductive Command
  | nothing
  | simple (assignments : List (String × Word)) (words : List Word)
  | redirected (c : Command) (redirections : List Redirection)
  /-- A command in braces. -/
  | group (c : Command)
  | negation (c : Command)
  | pipe (a b : Command)
  | both (a b : Command)
  | either (a b : Command)
  | sequence (a b : Command)
  | background (c : Command)
  | subshell (c : Command)
  | conditional (test body otherwise : Command)
  /-- Repeats while the test succeeds, or until it does. -/
  | loop (untilTrue : Bool) (test body : Command)
  /-- Repeats for each of some words, or for each positional parameter if none are given. -/
  | each (name : String) (words : Option (List Word)) (body : Command)
  /-- Carries out the body if a pattern matches the word. -/
  | choice (word : Word) (patterns : List Word) (body otherwise : Command)
  | definition (name : String) (body : Command)

def Command.withRedirections (c : Command) (rs : List Redirection) : Command :=
  if rs.isEmpty then c else .redirected c rs

def Command.enclosed (c : Command) (rs : List Redirection) : Command :=
  match rs, c with
  | [], c => c
  | rs, .subshell c => .redirected (.subshell c) rs
  | rs, c => .redirected (.group c) rs

end DataQuality.Shell
