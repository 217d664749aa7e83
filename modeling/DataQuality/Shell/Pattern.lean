/-!
# Shell patterns

A pattern is a row of elements: a star stands for any text, a question mark for any character, brackets
for one of those between them, and everything else for itself. Between brackets stand characters, ranges
of them and classes with a name. A minus sign at either end and a closing bracket at the beginning stand
for themselves.
-/
namespace DataQuality.Shell

/-- Characters of which each is quoted or not. A quoted one stands for itself in a pattern. -/
abbrev Marked := List (Char × Bool)

/-- What stands between brackets. -/
inductive Member
  | range (first last : Char)
  /-- A class of characters, such as `digit`. -/
  | named (name : String)
  deriving DecidableEq, Repr

def isSpace (c : Char) : Bool := c == ' ' || (9 ≤ c.toNat && c.toNat ≤ 13)

/-- The names of classes of characters. -/
def classNames : List String :=
  ["alpha", "digit", "alnum", "upper", "lower", "space", "blank", "punct", "print", "graph", "cntrl",
    "xdigit"]

def isInClass (name : String) (c : Char) : Bool :=
  match name with
  | "alpha" => c.isAlpha
  | "digit" => c.isDigit
  | "alnum" => c.isAlphanum
  | "upper" => c.isUpper
  | "lower" => c.isLower
  | "space" => isSpace c
  | "blank" => c == ' ' || c == '\t'
  | "punct" => '!' ≤ c && c ≤ '~' && !c.isAlphanum
  | "print" => ' ' ≤ c && c ≤ '~'
  | "graph" => '!' ≤ c && c ≤ '~'
  | "cntrl" => c < ' ' || c == '\x7f'
  | "xdigit" => c.isDigit || ('a' ≤ c && c ≤ 'f') || ('A' ≤ c && c ≤ 'F')
  | _ => false

/-- Whether a character belongs to what stands between brackets. -/
def Member.admits (c : Char) : Member → Bool
  | .range first last => first ≤ c && c ≤ last
  | .named name => isInClass name c

/-- What admits a character. -/
structure Bracket where
  negated : Bool
  members : List Member
  deriving DecidableEq, Repr

def Bracket.admits (b : Bracket) (c : Char) : Bool := b.members.any (·.admits c) != b.negated

namespace Bracket

/-- Reads what stands between a sign and the brackets inside of brackets, such as a class. -/
def readInner? (sign : Char) (ms : Marked) : Option (List Char × Marked) :=
  match ms.span fun m => m.1 != sign with
  | (inside, _ :: (']', _) :: after) => some (inside.map (·.1), after)
  | _ => none

/-- Reads a single character inside of brackets. Behind a backslash it stands for itself where
`escapes` says so. -/
def readOne? (escapes : Bool) : Marked → Option (Char × Marked)
  | ('[', false) :: ('.', _) :: rest =>
    match readInner? '.' rest with
    | some ([c], after) => some (c, after)
    | _ => none
  | ('\\', false) :: (c, _) :: rest => some (if escapes then (c, rest) else ('\\', (c, false) :: rest))
  | (c, _) :: rest => some (c, rest)
  | [] => none

def readMembers? (escapes : Bool) : Nat → Bool → Marked → Option (List Member × Marked)
  | 0, _, _ => none
  | _ + 1, _, [] => none
  | fuel + 1, atStart, m :: rest =>
    if m = (']', false) && !atStart then some ([], rest)
    else
      let next (member : Member) (after : Marked) : Option (List Member × Marked) :=
        (readMembers? escapes fuel false after).map fun (ms, after) => (member :: ms, after)
      match m, rest with
      | ('[', false), (':', _) :: more =>
        match readInner? ':' more with
        | some (name, after) =>
          if classNames.contains (String.ofList name) then next (.named (String.ofList name)) after
          else none
        | none => next (.range '[' '[') rest
      | ('[', false), ('=', _) :: more =>
        match readInner? '=' more with
        | some ([c], after) => next (.range c c) after
        | _ => none
      | m, rest => do
        let (first, rest) ← readOne? escapes (m :: rest)
        match rest with
        | ('-', false) :: l :: more =>
          if l = (']', false) then next (.range first first) rest
          else
            let (last, after) ← readOne? escapes (l :: more)
            next (.range first last) after
        | rest => next (.range first first) rest

/-- Reads brackets after the opening one. `negation` are the signs that negate them. -/
def read? (negation : List Char) (escapes : Bool) (ms : Marked) : Option (Bracket × Marked) :=
  let (negated, inside) : Bool × Marked :=
    match ms with
    | (c, false) :: rest => if negation.contains c then (true, rest) else (false, ms)
    | ms => (false, ms)
  (readMembers? escapes (inside.length + 1) true inside).map fun (members, after) =>
    (⟨negated, members⟩, after)

end Bracket

/-- An element of a pattern. -/
inductive Element
  | anything
  | any
  | one (c : Char)
  | among (b : Bracket)
  deriving DecidableEq, Repr

def elements : Nat → Marked → List Element
  | 0, _ => []
  | _ + 1, [] => []
  | fuel + 1, (c, quoted) :: rest =>
    if quoted then .one c :: elements fuel rest
    else
      match c, rest with
      | '*', rest => .anything :: elements fuel rest
      | '?', rest => .any :: elements fuel rest
      | '\\', (d, _) :: rest => .one d :: elements fuel rest
      | '[', rest =>
        match Bracket.read? ['!'] true rest with
        | some (b, after) => .among b :: elements fuel after
        | none => .one '[' :: elements fuel rest
      | c, rest => .one c :: elements fuel rest

/-- Whether a row of elements matches a whole text. -/
def matchesAll : List Element → List Char → Bool
  | [], cs => cs.isEmpty
  | .anything :: rest, cs => anywhere (matchesAll rest) cs
  | .any :: rest, cs =>
    match cs with
    | _ :: cs => matchesAll rest cs
    | [] => false
  | .one d :: rest, cs =>
    match cs with
    | c :: cs => c == d && matchesAll rest cs
    | [] => false
  | .among b :: rest, cs =>
    match cs with
    | c :: cs => b.admits c && matchesAll rest cs
    | [] => false
where
  /-- Whether some end of a text passes a test. -/
  anywhere (test : List Char → Bool) : List Char → Bool
    | [] => test []
    | c :: cs => test (c :: cs) || anywhere test cs

def elementsOf (pattern : Marked) : List Element := elements (pattern.length + 1) pattern

def matchesPattern (pattern : Marked) (cs : List Char) : Bool := matchesAll (elementsOf pattern) cs

/-- Whether a pattern may match more than one text. -/
def isPattern (pattern : Marked) : Bool :=
  pattern.any fun (c, quoted) => !quoted && (c == '*' || c == '?' || c == '[')

/-- The text without what a pattern matches at its beginning: the shortest such part, or the
longest. -/
def dropMatchedFront (longest : Bool) (pattern : Marked) (cs : List Char) : List Char :=
  let lengths := List.range (cs.length + 1)
  let es := elementsOf pattern
  match (if longest then lengths.reverse else lengths).find? fun n => matchesAll es (cs.take n) with
  | some n => cs.drop n
  | none => cs

/-- The text without what a pattern matches at its end: the shortest such part, or the longest. -/
def dropMatchedBack (longest : Bool) (pattern : Marked) (cs : List Char) : List Char :=
  let lengths := List.range (cs.length + 1)
  let es := elementsOf pattern
  match (if longest then lengths else lengths.reverse).find? fun n => matchesAll es (cs.drop n) with
  | some n => cs.take n
  | none => cs

end DataQuality.Shell
