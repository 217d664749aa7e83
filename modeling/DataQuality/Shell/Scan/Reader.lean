import DataQuality.Shell.Regex.Reader
import DataQuality.Shell.Scan.Program
import DataQuality.Shell.Scan.Token

/-!
# Reading scanning programs

How tokens are read as a program. Operators bind in ranks; two operands side by side are joined.
-/
namespace DataQuality.Shell.Scan

/-- Takes something from the front of tokens, if it is there. -/
abbrev Reading := StateT (List Token) Option

namespace Reading

def fail {α : Type} : Reading α := fun _ => none

/-- The token at the front. -/
def peek : Reading (Option Token) := do return (← get).head?

/-- Drops the token at the front. -/
def drop : Reading Unit := modify List.tail

/-- Whether a sign is at the front. -/
def isSign (s : String) : Reading Bool := do
  match ← peek with
  | some (.sign t) => return s == t
  | _ => return false

/-- Whether a reserved word is at the front. -/
def isReserved (s : String) : Reading Bool := do
  match ← peek with
  | some (.reserved t) => return s == t
  | _ => return false

/-- Drops a sign if it is at the front; tells whether it was. -/
def takeSign (s : String) : Reading Bool := do
  if ← isSign s then
    drop
    return true
  else return false

/-- Drops a sign that has to be at the front. -/
def expect (s : String) : Reading Unit := do
  if !(← takeSign s) then fail

def skipLines : Reading Unit := modify fun ts => ts.dropWhile fun t =>
  match t with
  | .lineEnd => true
  | _ => false

def skipEnds : Reading Unit := modify fun ts => ts.dropWhile fun t =>
  match t with
  | .lineEnd => true
  | .sign ";" => true
  | _ => false

def takeName : Reading String := do
  match ← peek with
  | some (.name s) =>
    drop
    return s
  | _ => fail

/-- The sign at the front, if it is one of some. -/
def oneOf (signs : List String) : Reading (Option String) := do
  match ← peek with
  | some (.sign s) => return if signs.contains s then some s else none
  | _ => return none

end Reading

open Reading

/-- What an expression may not hold outside of parentheses. -/
structure Manner where
  /-- No membership. -/
  withoutIn : Bool := false
  /-- No comparison by a greater sign, which redirects what is printed. -/
  withoutGreater : Bool := false

/-- The signs that give a place a value. -/
def assigning : List String := ["=", "+=", "-=", "*=", "/=", "%=", "^="]

def comparing : List String := ["<", "<=", "==", "!=", ">", ">="]

def Expression.isPlace : Expression → Bool
  | .variable _ => true
  | .element _ _ => true
  | .field _ => true
  | _ => false

/-- Whether an operand that is joined to the one before begins here. -/
def beginsOperand : Option Token → Bool
  | some (.number _) => true
  | some (.text _) => true
  | some (.name _) => true
  | some (.called _) => true
  | some (.builtin _) => true
  | some (.sign s) => ["$", "!", "(", "-", "+", "++", "--"].contains s
  | _ => false

def endsStatement : Option Token → Bool
  | none => true
  | some .lineEnd => true
  | some (.sign s) => [";", "\x7d"].contains s
  | _ => false

/-- The regular expression of a text. -/
def regexOf? (cs : List Char) : Option Regex := Regex.ofText? ⟨true, true⟩ cs

mutual

def readExpression : Nat → Manner → Reading Expression
  | 0, _ => fail
  | fuel + 1, m => do
    let test ← readEither fuel m
    if ← takeSign "?" then
      skipLines
      let a ← readExpression fuel m
      skipLines
      expect ":"
      skipLines
      let b ← readExpression fuel m
      return .choice test a b
    else return test

/-- Reads parts of which one has to hold. -/
def readEither : Nat → Manner → Reading Expression
  | 0, _ => fail
  | fuel + 1, m => do
    let a ← readBoth fuel m
    if ← takeSign "||" then
      skipLines
      return .either a (← readEither fuel m)
    else return a

/-- Reads parts that all have to hold. -/
def readBoth : Nat → Manner → Reading Expression
  | 0, _ => fail
  | fuel + 1, m => do
    let a ← readMember fuel m
    if ← takeSign "&&" then
      skipLines
      return .both a (← readBoth fuel m)
    else return a

/-- Reads what may be a key of an array. -/
def readMember : Nat → Manner → Reading Expression
  | 0, _ => fail
  | fuel + 1, m => do readMemberTo fuel m (← readFits fuel m)

/-- Reads the arrays that something may be a key of. -/
def readMemberTo : Nat → Manner → Expression → Reading Expression
  | 0, _, _ => fail
  | fuel + 1, m, a => do
    if !m.withoutIn && (← isReserved "in") then
      drop
      readMemberTo fuel m (.among [a] (← takeName))
    else return a

/-- Reads what may be matched with a pattern. -/
def readFits : Nat → Manner → Reading Expression
  | 0, _ => fail
  | fuel + 1, m => do readFitsTo fuel m (← readCompared fuel m)

def readFitsTo : Nat → Manner → Expression → Reading Expression
  | 0, _, _ => fail
  | fuel + 1, m, a => do
    match ← oneOf ["~", "!~"] with
    | some s =>
      drop
      let b ← readCompared fuel m
      readFitsTo fuel m (if s = "~" then .fits a b else .not (.fits a b))
    | none => return a

def readCompared : Nat → Manner → Reading Expression
  | 0, _ => fail
  | fuel + 1, m => do
    let a ← readPiped fuel m
    match ← oneOf comparing with
    | some s =>
      if s = ">" && m.withoutGreater then return a
      drop
      return .compare s a (← readPiped fuel m)
    | none => return a

/-- Reads what may be a command whose lines are taken. -/
def readPiped : Nat → Manner → Reading Expression
  | 0, _ => fail
  | fuel + 1, m => do readPipedTo fuel m (← readJoined fuel m)

/-- Reads how often lines of a command are taken. -/
def readPipedTo : Nat → Manner → Expression → Reading Expression
  | 0, _, _ => fail
  | fuel + 1, m, a => do
    match ← get with
    | .sign "|" :: .reserved "getline" :: rest =>
      set rest
      let place ← readPlace? fuel m
      readPipedTo fuel m (.takePrinted a place)
    | _ => return a

/-- Reads a place, if one begins here. -/
def readPlace? : Nat → Manner → Reading (Option Expression)
  | 0, _ => fail
  | fuel + 1, m => do
    match ← peek with
    | some (.name _) => return some (← readPrimary fuel m)
    | some (.sign "$") => return some (← readPrimary fuel m)
    | _ => return none

def readJoined : Nat → Manner → Reading Expression
  | 0, _ => fail
  | fuel + 1, m => do readJoinedTo fuel m (← readSum fuel m)

def readJoinedTo : Nat → Manner → Expression → Reading Expression
  | 0, _, _ => fail
  | fuel + 1, m, a => do
    if beginsOperand (← peek) then
      readJoinedTo fuel m (.join a (← readSum fuel m))
    else return a

def readSum : Nat → Manner → Reading Expression
  | 0, _ => fail
  | fuel + 1, m => do readSumTo fuel m (← readProduct fuel m)

def readSumTo : Nat → Manner → Expression → Reading Expression
  | 0, _, _ => fail
  | fuel + 1, m, a => do
    match ← oneOf ["+", "-"] with
    | some s =>
      drop
      readSumTo fuel m (.arithmetic s a (← readProduct fuel m))
    | none => return a

def readProduct : Nat → Manner → Reading Expression
  | 0, _ => fail
  | fuel + 1, m => do readProductTo fuel m (← readSigned fuel m)

def readProductTo : Nat → Manner → Expression → Reading Expression
  | 0, _, _ => fail
  | fuel + 1, m, a => do
    match ← oneOf ["*", "/", "%"] with
    | some s =>
      drop
      readProductTo fuel m (.arithmetic s a (← readSigned fuel m))
    | none => return a

/-- Reads an operand with signs in front. -/
def readSigned : Nat → Manner → Reading Expression
  | 0, _ => fail
  | fuel + 1, m => do
    if ← takeSign "!" then return .not (← readSigned fuel m)
    else if ← takeSign "-" then return .minus (← readSigned fuel m)
    else if ← takeSign "+" then return .plus (← readSigned fuel m)
    else readPower fuel m

def readPower : Nat → Manner → Reading Expression
  | 0, _ => fail
  | fuel + 1, m => do
    let a ← readStepped fuel m
    if ← takeSign "^" then return .arithmetic "^" a (← readSigned fuel m)
    else return a

/-- Reads an operand that may be a place that gets a new value. -/
def readStepped : Nat → Manner → Reading Expression
  | 0, _ => fail
  | fuel + 1, m => do
    match ← oneOf ["++", "--"] with
    | some s =>
      drop
      let place ← readPrimary fuel m
      if place.isPlace then return .step (s == "++") false place else fail
    | none =>
      let a ← readPrimary fuel m
      if !a.isPlace then return a
      match ← oneOf ("++" :: "--" :: assigning) with
      | some "++" =>
        drop
        return .step true true a
      | some "--" =>
        drop
        return .step false true a
      | some s =>
        drop
        skipLines
        let e ← readExpression fuel m
        let operator := if s = "=" then none else some (String.ofList (s.toList.take 1))
        return .assign operator a e
      | none => return a

def readPrimary : Nat → Manner → Reading Expression
  | 0, _ => fail
  | fuel + 1, m => do
    match ← peek with
    | some (.number x) =>
      drop
      return .number x
    | some (.text cs) =>
      drop
      return .text cs
    | some (.regex cs) =>
      drop
      match regexOf? cs with
      | some r => return .regex r
      | none => fail
    | some (.sign "$") =>
      drop
      match ← oneOf ["++", "--"] with
      | some s =>
        drop
        return .field (.step (s == "++") false (← readPrimary fuel m))
      | none =>
        if ← takeSign "-" then return .field (.minus (← readPrimary fuel m))
        else return .field (← readPrimary fuel m)
    | some (.sign "(") =>
      drop
      let es ← readList fuel
      expect ")"
      match es with
      | [e] => return e
      | es =>
        if ← isReserved "in" then
          drop
          return .among es (← takeName)
        else fail
    | some (.builtin s) =>
      drop
      if ← takeSign "(" then
        let es ← readList fuel
        expect ")"
        return .builtin s es
      else if s = "length" then return .builtin s []
      else fail
    | some (.called s) =>
      drop
      expect "("
      let es ← readList fuel
      expect ")"
      return .call s es
    | some (.name s) =>
      drop
      if ← takeSign "[" then
        let es ← readList fuel
        expect "]"
        return .element s es
      else return .variable s
    | some (.reserved "getline") =>
      drop
      let place ← readPlace? fuel m
      if ← takeSign "<" then return .takeFrom (← readPrimary fuel m) place
      else return .takeRecord place
    | _ => fail

/-- Reads expressions between commas, perhaps none. -/
def readList : Nat → Reading (List Expression)
  | 0 => fail
  | fuel + 1 => do
    skipLines
    match ← oneOf [")", "]"] with
    | some _ => return []
    | none =>
      let e ← readExpression fuel {}
      skipLines
      if ← takeSign "," then
        skipLines
        return e :: (← readList fuel)
      else return [e]

end

/-- Enough steps to read what is at hand. -/
def fuelHere : Reading Nat := do return 24 * (← get).length + 48

def readWhole (m : Manner) : Reading Expression := do readExpression (← fuelHere) m

/-- Reads where something is printed to. -/
def readGoal? : Reading (Option Goal) := do
  match ← oneOf [">", ">>", "|"] with
  | some s =>
    drop
    let e ← readJoined (← fuelHere) { withoutGreater := true }
    return some (if s = ">" then .file e else if s = ">>" then .fileEnd e else .command e)
  | none => return none

def endsPrinted (t : Option Token) : Bool :=
  match t with
  | some (.sign s) => endsStatement t || [">", ">>", "|"].contains s
  | t => endsStatement t

/-- Reads expressions between commas, in parentheses or not. -/
def readPrinted : Reading (List Expression) := do
  let before ← get
  let inParentheses : Reading (List Expression) := do
    expect "("
    let es ← readList (← fuelHere)
    expect ")"
    if endsPrinted (← peek) then return es else fail
  if endsPrinted (← peek) then return []
  match inParentheses before with
  | some (es, after) =>
    set after
    return es
  | none => row (before.length + 1)
where
  /-- Reads expressions between commas. -/
  row : Nat → Reading (List Expression)
    | 0 => fail
    | fuel + 1 => do
      let e ← readWhole { withoutGreater := true }
      if ← takeSign "," then
        skipLines
        return e :: (← row fuel)
      else return [e]

def readPlain : Reading Statement := do
  match ← peek with
  | some (.reserved word) =>
    let value? : Reading (Option Expression) := do
      drop
      if endsStatement (← peek) then return none else return some (← readWhole {})
    match word with
    | "print" => do
      drop
      let es ← readPrinted
      return .print es (← readGoal?)
    | "printf" => do
      drop
      let es ← readPrinted
      return .format es (← readGoal?)
    | "break" => do
      drop
      return .leave
    | "continue" => do
      drop
      return .again
    | "next" => do
      drop
      return .nextRecord
    | "nextfile" => do
      drop
      return .nextFile
    | "exit" => return .exit (← value?)
    | "return" => return .giveBack (← value?)
    | "delete" => do
      drop
      let name ← takeName
      if ← takeSign "[" then
        let es ← readList (← fuelHere)
        expect "]"
        return .delete name (some es)
      else return .delete name none
    | "getline" => return .evaluate (← readWhole {})
    | _ => fail
  | _ => return .evaluate (← readWhole {})

def readEnd : Reading Unit := do
  match ← peek with
  | some .lineEnd => skipEnds
  | some (.sign ";") => skipEnds
  | some (.sign "\x7d") => pure ()
  | none => pure ()
  | _ => fail

mutual

def readStatement : Nat → Reading Statement
  | 0 => fail
  | fuel + 1 => do
    skipLines
    match ← peek with
    | some (.sign "\x7b") => do
      drop
      let ss ← readRow fuel
      skipEnds
      return .row ss
    | some (.sign ";") => do
      drop
      skipLines
      return .row []
    | some (.reserved "if") => do
      drop
      let test ← readTest fuel
      let body ← readStatement fuel
      let before ← get
      skipEnds
      if ← isReserved "else" then
        drop
        return .conditional test body (← readStatement fuel)
      else
        set before
        skipEnds
        return .conditional test body (.row [])
    | some (.reserved "while") => do
      drop
      let test ← readTest fuel
      return .repeated test (← readStatement fuel)
    | some (.reserved "do") => do
      drop
      let body ← readStatement fuel
      skipEnds
      if !(← isReserved "while") then fail
      drop
      let test ← readTest fuel
      skipEnds
      return .repeatedLate body test
    | some (.reserved "for") => do
      drop
      readFor fuel
    | _ => do
      let s ← readPlain
      readEnd
      return s

def readTest : Nat → Reading Expression
  | 0 => fail
  | _ + 1 => do
    expect "("
    let e ← readWhole {}
    skipLines
    expect ")"
    return e

/-- Reads the rest of a counted loop, or of one over the keys of an array. -/
def readFor : Nat → Reading Statement
  | 0 => fail
  | fuel + 1 => do
    expect "("
    match ← get with
    | .name s :: .reserved "in" :: .name array :: .sign ")" :: rest =>
      set rest
      return .each s array (← readStatement fuel)
    | _ =>
      let first ← if ← isSign ";" then pure (Statement.row []) else readPlain
      expect ";"
      skipLines
      let test ← if ← isSign ";" then pure none else pure (some (← readWhole {}))
      expect ";"
      skipLines
      let step ← if ← isSign ")" then pure (Statement.row []) else readPlain
      expect ")"
      return .counted first test step (← readStatement fuel)

def readRow : Nat → Reading (List Statement)
  | 0 => fail
  | fuel + 1 => do
    skipEnds
    if ← takeSign "\x7d" then return []
    else
      let s ← readStatement fuel
      return s :: (← readRow fuel)

end

/-- Reads the statements of a rule, if there are any. -/
def readBody? : Reading (Option Statement) := do
  if ← isSign "\x7b" then return some (← readStatement (← fuelHere)) else return none

def readParameters : Nat → Reading (List String)
  | 0 => fail
  | fuel + 1 => do
    skipLines
    if ← takeSign ")" then return []
    let name ← takeName
    skipLines
    let _ ← takeSign ","
    return name :: (← readParameters fuel)

def readFunction : Reading Function := do
  drop
  let name ← match ← peek with
    | some (.name s) => pure s
    | some (.called s) => pure s
    | _ => fail
  drop
  expect "("
  let parameters ← readParameters ((← get).length + 1)
  skipLines
  match ← readBody? with
  | some body => return ⟨name, parameters, body⟩
  | none => fail

def readItems : Nat → Reading Program
  | 0 => fail
  | fuel + 1 => do
    skipEnds
    match ← peek with
    | none => return ⟨[], []⟩
    | some (.reserved "BEGIN") => do
      drop
      match ← readBody? with
      | some body => return (← readItems fuel).withRule ⟨.first, some body⟩
      | none => fail
    | some (.reserved "END") => do
      drop
      match ← readBody? with
      | some body => return (← readItems fuel).withRule ⟨.last, some body⟩
      | none => fail
    | some (.reserved "function") => do
      let f ← readFunction
      return (← readItems fuel).withFunction f
    | some (.reserved "func") => do
      let f ← readFunction
      return (← readItems fuel).withFunction f
    | some (.sign "\x7b") => do
      let body ← readBody?
      return (← readItems fuel).withRule ⟨.every, body⟩
    | _ => do
      let e ← readWhole {}
      let pattern ← if ← takeSign "," then do
          skipLines
          pure (Pattern.range e (← readWhole {}))
        else pure (Pattern.when e)
      let body ← readBody?
      if body.isNone then readEnd
      return (← readItems fuel).withRule ⟨pattern, body⟩

def Program.ofText? (cs : List Char) : Option Program := do
  let ts ← tokensOf? cs
  match ← (readItems (ts.length + 1)).run ts with
  | (p, []) => pure p
  | _ => none

end DataQuality.Shell.Scan
