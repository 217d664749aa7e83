import DataQuality.Decimal.Integer
import DataQuality.Shell.Regex

/-!
# Reading regular expressions

There are two notations: in the plain one, signs such as parentheses have their meaning behind a
backslash; in the extended one, they have it without.
-/
namespace DataQuality.Shell.Regex

/-- How expressions are written. -/
structure Spelling where
  extended : Bool
  /-- Whether letters behind a backslash stand for control characters. -/
  controls : Bool
  deriving DecidableEq, Repr

/-- A sign that has a meaning. -/
inductive Sign
  | opening
  | closing
  | bar
  | star
  | plus
  | question
  | brace
  deriving DecidableEq, Repr

def signOf? : Char → Option Sign
  | '(' => some .opening
  | ')' => some .closing
  | '|' => some .bar
  | '+' => some .plus
  | '?' => some .question
  | '\x7b' => some .brace
  | _ => none

/-- Reads a sign at the front. -/
def readSign? (x : Spelling) : List Char → Option (Sign × List Char)
  | '*' :: rest => some (.star, rest)
  | '\\' :: c :: rest => if x.extended then none else (signOf? c).map (·, rest)
  | c :: rest => if x.extended then (signOf? c).map (·, rest) else none
  | [] => none

/-- Reads how often something is repeated, behind the opening brace. -/
def readInterval? (x : Spelling) (cs : List Char) : Option (Nat × Option Nat × List Char) := do
  let (low, rest) := cs.span Decimal.isDigit
  let (most, rest) : Option Nat × List Char :=
    match rest with
    | ',' :: rest =>
      let (high, rest) := rest.span Decimal.isDigit
      (if high.isEmpty then none else some (Decimal.natOfDigits high), rest)
    | rest => (some (Decimal.natOfDigits low), rest)
  if low.isEmpty && cs.head? ≠ some ',' then none
  let rest ← match rest with
    | '\x7d' :: rest => if x.extended then some rest else none
    | '\\' :: '\x7d' :: rest => if x.extended then none else some rest
    | _ => none
  let least := Decimal.natOfDigits low
  if most.any (· < least) || 32767 < least || most.any (32767 < ·) then none
  pure (least, most, rest)

/-- The control character of a letter. -/
def control? : Char → Option Char
  | 'n' => some '\n'
  | 't' => some '\t'
  | 'r' => some '\r'
  | 'f' => some '\x0c'
  | 'v' => some '\x0b'
  | 'a' => some '\x07'
  | _ => none

/-- The brackets that admit some class. -/
def classOf (negated : Bool) (name : String) : Regex :=
  .among ⟨negated, [.named name]⟩

/-- The brackets that admit the characters of words. -/
def wordClass (negated : Bool) : Regex :=
  .among ⟨negated, [.named "alnum", .range '_' '_']⟩

/-- What a character behind a backslash stands for. -/
def escaped (x : Spelling) (c : Char) : Regex :=
  match c with
  | 'w' => wordClass false
  | 'W' => wordClass true
  | 's' => classOf false "space"
  | 'S' => classOf true "space"
  | 'b' => .edge .wordBorder
  | 'B' => .edge .noWordBorder
  | '<' => .edge .wordStart
  | '>' => .edge .wordEnd
  | '\x60' => .edge .textStart
  | '\'' => .edge .textEnd
  | c =>
    if c.isDigit && c != '0' then .again (c.toNat - 48)
    else if x.controls then .one ((control? c).getD c)
    else .one c

/-- The text in which control characters stand for letters behind a backslash. -/
def withControls : List Char → List Char
  | '\\' :: c :: rest =>
    match control? c with
    | some d => d :: withControls rest
    | none => '\\' :: c :: withControls rest
  | c :: rest => c :: withControls rest
  | [] => []

/-- What is repeated as signs at the front say. -/
def readRepetitions (x : Spelling) : Nat → Regex → List Char → Option (Regex × List Char)
  | 0, r, cs => some (r, cs)
  | fuel + 1, r, cs =>
    match readSign? x cs with
    | some (.star, rest) => readRepetitions x fuel (.repeated r 0 none) rest
    | some (.plus, rest) => readRepetitions x fuel (.repeated r 1 none) rest
    | some (.question, rest) => readRepetitions x fuel (.repeated r 0 (some 1)) rest
    | some (.brace, rest) =>
      match readInterval? x rest with
      | some (least, most, rest) => readRepetitions x fuel (.repeated r least most) rest
      | none => if x.extended then some (r, cs) else none
    | _ => some (r, cs)

/-- Whether a dollar sign with this behind it stands for the end of the text. -/
def isEndHere (x : Spelling) (rest : List Char) : Bool :=
  x.extended || rest.isEmpty ||
    match readSign? x rest with
    | some (s, _) => s == .closing || s == .bar
    | none => false

mutual

/-- Reads alternatives. `parts` is the number of parts that have been opened so far. -/
def readAlternatives? (x : Spelling) :
    Nat → Nat → List Char → Option (Regex × Nat × List Char)
  | 0, _, _ => none
  | fuel + 1, parts, cs => do
    let (a, parts, cs) ← readRow? x fuel true parts cs
    match readSign? x cs with
    | some (.bar, rest) =>
      let (b, parts, cs) ← readAlternatives? x fuel parts rest
      pure (.either a b, parts, cs)
    | _ => pure (a, parts, cs)

def readRow? (x : Spelling) : Nat → Bool → Nat → List Char → Option (Regex × Nat × List Char)
  | 0, _, _, _ => none
  | fuel + 1, atStart, parts, cs => do
    let ends : Bool :=
      match readSign? x cs with
      | some (s, _) => s == .closing || s == .bar
      | none => cs.isEmpty
    if ends then pure (.empty, parts, cs)
    else
      let (a, isAnchor, parts, cs) ← readElement? x fuel atStart parts cs
      let (a, cs) ← if isAnchor && !x.extended then some (a, cs)
        else readRepetitions x (cs.length + 1) a cs
      let (b, parts, cs) ← readRow? x fuel (isAnchor && !x.extended) parts cs
      pure (match b with | .empty => a | b => .both a b, parts, cs)

/-- Reads an element; tells whether it stands for the beginning of the text. -/
def readElement? (x : Spelling) :
    Nat → Bool → Nat → List Char → Option (Regex × Bool × Nat × List Char)
  | 0, _, _, _ => none
  | fuel + 1, atStart, parts, cs =>
    match readSign? x cs with
    | some (.opening, rest) => do
      let (r, inner, cs) ← readAlternatives? x fuel (parts + 1) rest
      match readSign? x cs with
      | some (.closing, rest) => pure (.part (parts + 1) r, false, inner, rest)
      | _ => none
    | some (.star, rest) =>
      if x.extended then some (.empty, false, parts, cs)
      else if atStart then some (.one '*', false, parts, rest)
      else some (.empty, false, parts, cs)
    | some (.brace, rest) =>
      if x.extended then some (.one '\x7b', false, parts, rest) else none
    | some (.plus, rest) =>
      some (if x.extended then (.empty, false, parts, cs) else (.one '+', false, parts, rest))
    | some (.question, rest) =>
      some (if x.extended then (.empty, false, parts, cs) else (.one '?', false, parts, rest))
    | _ =>
      match cs with
      | '.' :: rest => some (.any, false, parts, rest)
      | '[' :: rest =>
        let inside := if x.controls then withControls rest else rest
        (Bracket.read? ['^'] false (inside.map (·, false))).map fun (b, after) =>
          (.among b, false, parts, after.map (·.1))
      | '^' :: rest =>
        if x.extended || atStart then some (.edge .textStart, true, parts, rest)
        else some (.one '^', false, parts, rest)
      | '$' :: rest =>
        if isEndHere x rest then some (.edge .textEnd, false, parts, rest)
        else some (.one '$', false, parts, rest)
      | '\\' :: c :: rest => some (escaped x c, false, parts, rest)
      | ['\\'] => none
      | c :: rest => some (.one c, false, parts, rest)
      | [] => none

end

/-- Reads a whole expression. -/
def ofText? (x : Spelling) (cs : List Char) : Option Regex :=
  match readAlternatives? x (4 * cs.length + 8) 0 cs with
  | some (r, _, []) => some r
  | _ => none

/-- The expression that matches a text as it stands. -/
def ofLiteral (cs : List Char) : Regex := cs.foldr (fun c r => .both (.one c) r) .empty

/-- The expression of any of some others. -/
def ofAlternatives : List Regex → Regex
  | [] => .among ⟨false, []⟩
  | [r] => r
  | r :: rest => .either r (ofAlternatives rest)

end DataQuality.Shell.Regex
