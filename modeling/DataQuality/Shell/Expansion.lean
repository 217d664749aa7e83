import DataQuality.Shell.Arithmetic
import DataQuality.Shell.Glob

/-!
# Shell expansion

The fields that a word stands for. An unquoted expansion is split where a separator occurs in it; the
positional parameters become a field each. Running the scripts inside of words is left to the caller.
-/
namespace DataQuality.Shell

/-- Fields that are being put together: the finished ones, last one first, and the one that goes on. -/
structure Fields where
  finished : List Marked
  current : Option Marked
  /-- Whether a blank has finished the last field, so that a separator behind it does not count. -/
  afterBlank : Bool

namespace Fields

def empty : Fields := ⟨[], none, false⟩

/-- Adds characters to the field that goes on. -/
def attach (f : Fields) (ms : Marked) : Fields :=
  ⟨f.finished, some (f.current.getD [] ++ ms), false⟩

def close (f : Fields) : Fields := ⟨f.current.toList ++ f.finished, none, false⟩

/-- Adds a separator. Blanks only end fields; another separator stands behind each field, also behind an
empty one. -/
def separate (f : Fields) (c : Char) : Fields :=
  if isSpace c then { f.close with afterBlank := f.current.isSome || f.afterBlank }
  else if f.current.isSome then f.close
  else if f.afterBlank then { f with afterBlank := false }
  else ⟨[] :: f.finished, none, false⟩

def addSplit (separators : List Char) (f : Fields) (cs : List Char) : Fields :=
  cs.foldl (fun f c => if separators.contains c then f.separate c else f.attach [(c, false)]) f

/-- Adds a value to the field that goes on, or to several if it is split. -/
def add (separators : List Char) (split quoted : Bool) (f : Fields) (cs : List Char) : Fields :=
  if quoted || !split then
    if cs.isEmpty && !quoted then f else f.attach (cs.map (·, quoted))
  else f.addSplit separators cs

/-- Adds values of which each begins a field of its own, but for the first one. -/
def addEach (separators : List Char) (quoted : Bool) (f : Fields) : List String → Fields
  | [] => f
  | [v] => f.add separators true quoted v.toList
  | v :: rest => addEach separators quoted (f.add separators true quoted v.toList).close rest

/-- All fields, first one first. -/
def toList (f : Fields) : List Marked := f.close.finished.reverse

end Fields

def textOf (ms : Marked) : List Char := ms.map (·.1)

/-- What is made of a parameter. `emptyCounts` tells that an empty value counts as none. -/
inductive Use
  | value
  | length
  | default (emptyCounts : Bool) (word : List Char)
  | assign (emptyCounts : Bool) (word : List Char)
  | demand (emptyCounts : Bool) (message : List Char)
  | instead (emptyCounts : Bool) (word : List Char)
  | withoutFront (longest : Bool) (pattern : List Char)
  | withoutBack (longest : Bool) (pattern : List Char)
  deriving DecidableEq, Repr

def readName? : List Char → Option (List Char × List Char)
  | c :: rest =>
    if isNameStart c then some (c :: rest.takeWhile isNameChar, rest.dropWhile isNameChar)
    else if c.isDigit then some (c :: rest.takeWhile Char.isDigit, rest.dropWhile Char.isDigit)
    else if isSpecial c then some ([c], rest)
    else none
  | [] => none

/-- Reads what is made of a parameter, behind its name. -/
def readUse? : List Char → Option Use
  | [] => some .value
  | ':' :: '-' :: word => some (.default true word)
  | '-' :: word => some (.default false word)
  | ':' :: '=' :: word => some (.assign true word)
  | '=' :: word => some (.assign false word)
  | ':' :: '?' :: message => some (.demand true message)
  | '?' :: message => some (.demand false message)
  | ':' :: '+' :: word => some (.instead true word)
  | '+' :: word => some (.instead false word)
  | '#' :: '#' :: pattern => some (.withoutFront true pattern)
  | '#' :: pattern => some (.withoutFront false pattern)
  | '%' :: '%' :: pattern => some (.withoutBack true pattern)
  | '%' :: pattern => some (.withoutBack false pattern)
  | _ => none

def readParameter? (cs : List Char) : Option (List Char × Use) :=
  let asLength : Option (List Char × Use) :=
    match cs with
    | '#' :: rest =>
      match readName? rest with
      | some (name, []) => some (name, .length)
      | _ => none
    | _ => none
  match asLength with
  | some r => some r
  | none => do
    let (name, rest) ← readName? cs
    pure (name, ← readUse? rest)

/-- The text without line ends at its end. -/
def withoutLineEnds (cs : List Char) : List Char := (cs.reverse.dropWhile (· == '\n')).reverse

/-- The word that is given with a parameter. Inside of quotes it is quoted, too. -/
def givenWord? (quoted : Bool) (cs : List Char) : Option Word :=
  if quoted then quotedWord? .braces cs else wholeWord? (cs.length + 1) cs

/-- The value of the names in an arithmetic expression. -/
def integerOf? (m : Machine) (name : String) : Option Int :=
  Arithmetic.ofText? (m.binding name).toList

/-- Binds a name, or ends the shell if its binding may not change. With the option `a`, it is handed on
to other programs. -/
def bindName (name value : String) : Run Unit := do
  let m ← get
  if m.fixed.contains name then fail (name ++ ": is read only")
  modify fun m => m.bind name value
  if m.has 'a' then modify fun m => m.share name

/-- Takes a result, or ends the shell. -/
def orFail {α : Type} (message : String) : Option α → Run α
  | some a => pure a
  | none => fail message

section
variable (substitute : List Char → Run (List Char))

def addValue (split quoted : Bool) (f : Fields) (name : List Char) : Run Fields := do
  let m ← get
  if split && (name = ['@'] || (name = ['*'] && !quoted)) then
    return f.addEach m.separators quoted m.arguments
  match m.value? (if name = ['@'] then ['*'] else name) with
  | some v => return f.add m.separators split quoted v.toList
  | none =>
    if m.has 'u' && name ≠ ['@'] && name ≠ ['*'] && name ≠ ['!'] then
      fail (String.ofList name ++ ": parameter not set")
    else return f.add m.separators split quoted []

/-- Adds what the pieces of a word stand for to fields. Without `split`, all of it belongs to one
field. -/
def expandPieces : Nat → Bool → Fields → Word → Run Fields
  | 0, _, _, _ => fail "too deep"
  | fuel + 1, split, f, pieces =>
    let whole (w : Word) : Run Marked := do
      return (← expandPieces fuel false .empty w).toList.flatten
    let given (quoted : Bool) (word : List Char) : Run Word :=
      orFail "Bad substitution" (givenWord? quoted word)
    let addGiven (quoted : Bool) (f : Fields) (word : List Char) : Run Fields := do
      let w ← given quoted word
      expandPieces fuel split (if quoted && w.isEmpty then f.attach [] else f) w
    let without (quoted : Bool) (name : List Char) (f : Fields) (pattern : List Char)
        (drop : Marked → List Char → List Char) : Run Fields := do
      let p ← whole (← given false pattern)
      let m ← get
      let values := if name = ['@'] || name = ['*'] then m.arguments else
        ((m.value? name).toList)
      if values.isEmpty && m.has 'u' && name ≠ ['@'] && name ≠ ['*'] then
        fail (String.ofList name ++ ": parameter not set")
      let dropped := values.map fun v => String.ofList (drop p v.toList)
      match dropped with
      | [] => return f.add m.separators split quoted []
      | vs =>
        if split then return f.addEach m.separators quoted vs
        else return f.add m.separators false quoted (" ".intercalate vs).toList
    let use (quoted : Bool) (name : List Char) (use : Use) (f : Fields) : Run Fields := do
      let m ← get
      let isThere (emptyCounts : Bool) : Bool :=
        match m.value? name with
        | some v => !(emptyCounts && v.isEmpty)
        | none => false
      match use with
      | .value => addValue split quoted f name
      | .length =>
        if m.has 'u' && (m.value? name).isNone && name ≠ ['@'] && name ≠ ['*'] then
          fail (String.ofList name ++ ": parameter not set")
        return f.add m.separators split quoted
          (Decimal.natDigits ((m.value? name).getD "").length)
      | .default emptyCounts word =>
        if isThere emptyCounts then addValue split quoted f name else addGiven quoted f word
      | .assign emptyCounts word =>
        if isThere emptyCounts then addValue split quoted f name
        else do
          let v := textOf (← whole (← given quoted word))
          if !isName name then fail (String.ofList name ++ ": bad variable name")
          bindName (String.ofList name) (String.ofList v)
          return f.add m.separators split quoted v
      | .demand emptyCounts message =>
        if isThere emptyCounts then addValue split quoted f name
        else
          let text := textOf (← whole (← given quoted message))
          fail (String.ofList name ++ ": " ++
            if text.isEmpty then "parameter not set" else String.ofList text)
      | .instead emptyCounts word =>
        if isThere emptyCounts then addGiven quoted f word
        else return f.add m.separators split quoted []
      | .withoutFront longest pattern =>
        without quoted name f pattern (dropMatchedFront longest)
      | .withoutBack longest pattern =>
        without quoted name f pattern (dropMatchedBack longest)
    pieces.foldlM (fun (f : Fields) piece => do
      match piece with
      | .text cs quoted => return f.attach (cs.map (·, quoted))
      | .parameter expression quoted =>
        let (name, u) ← orFail "Bad substitution" (readParameter? expression)
        use quoted name u f
      | .printed script quoted =>
        let cs := withoutLineEnds ((← substitute script).filter (· != '\x00'))
        return f.add (← get).separators split quoted cs
      | .arithmetic expression quoted =>
        let w ← orFail "Bad substitution" (quotedWord? .arithmetic expression)
        let cs := textOf (← whole w)
        let (n, assigned) ← orFail "arithmetic expression"
          (Arithmetic.value? (integerOf? (← get)) cs)
        for (s, v) in assigned do bindName s (Decimal.ofInt v)
        return f.add (← get).separators split quoted (Decimal.intChars n)) f

/-- How deep expansions may be written inside of one another. -/
def deepest : Nat := 64

def homeOf? (m : Machine) (user : List Char) : Option String :=
  match String.ofList user with
  | "" => m.bindings.lookup "HOME"
  | "root" => some "/root"
  | "daemon" => some "/usr/sbin"
  | "bin" => some "/bin"
  | "nobody" => some "/nonexistent"
  | _ => none

/-- The pieces of a text in which a tilde at the beginning gives way to a home folder. -/
def homeAt (m : Machine) (isLast : Bool) (cs : List Char) : Word :=
  match cs with
  | '~' :: rest =>
    let (user, after) := rest.span (· != '/')
    if after.isEmpty && !isLast then [.text cs false]
    else
      match homeOf? m user with
      | some home => [.text home.toList true, .text after false]
      | none => [.text cs false]
  | cs => [.text cs false]

/-- The word in which a tilde at the beginning gives way to the home folder. -/
def withHome (m : Machine) (w : Word) : Word :=
  match w with
  | .text cs false :: rest => homeAt m rest.isEmpty cs ++ rest
  | w => w

/-- The value of an assignment, in which a tilde gives way to the home folder also behind colons. -/
def withHomes (m : Machine) (w : Word) : Word :=
  match w with
  | .text cs false :: rest =>
    let parts := cs.splitOn ':'
    let words := parts.mapIdx fun i part =>
      let isLast := i + 1 < parts.length || rest.isEmpty
      (if i = 0 then [] else [Piece.text [':'] false]) ++ homeAt m isLast part
    words.flatten ++ rest
  | w => w

/-- The fields that words stand for, before patterns in them give way to paths. -/
def expandFields (w : Word) : Run (List Marked) := do
  return (← expandPieces substitute deepest true .empty (withHome (← get) w)).toList

/-- The texts that words stand for. -/
def expandWords (ws : List Word) : Run (List String) := do
  let fields ← ws.mapM fun w => do
    let fields ← expandFields substitute w
    let m ← get
    return fields.flatMap (glob m)
  return fields.flatten

/-- The one text that a word stands for, with its quoted characters marked. -/
def expandMarked (w : Word) : Run Marked := do
  return (← expandPieces substitute deepest false .empty (withHome (← get) w)).toList.flatten

def expandText (w : Word) : Run String := do
  return String.ofList (textOf (← expandMarked substitute w))

def expandValue (w : Word) : Run String := do
  let ms := (← expandPieces substitute deepest false .empty (withHomes (← get) w)).toList.flatten
  return String.ofList (textOf ms)

end

end DataQuality.Shell
