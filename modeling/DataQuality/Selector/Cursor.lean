import DataQuality.Selector.Reader

/-!
# Reading selectors with a cursor

A selector can also be read by an offset in bytes that is moved through its text, and moved back
where a name turns out not to be that of an axis. Whatever is looked at is a slice of the text, and
a text has a slice at an offset only if the offset is within it and splits no character. The cursor
keeps account of where it has been.
-/
namespace DataQuality.Selector

section Slices

/-- The offset, in bytes, is within the text and splits no character: what is before it is a text,
too. -/
def IsBoundary (s : String) (n : Nat) : Prop := (⟨n⟩ : String.Pos.Raw).IsValid s

instance (s : String) (n : Nat) : Decidable (IsBoundary s n) :=
  inferInstanceAs (Decidable ((⟨n⟩ : String.Pos.Raw).IsValid s))

/-- The slice of a text from an offset on, if there is one. -/
def sliceFrom? (s : String) (n : Nat) : Option String :=
  if h : IsBoundary s n then some (s.sliceFrom (s.pos ⟨n⟩ h)).copy else none

/-- The slice of a text up to an offset, if there is one. -/
def sliceTo? (s : String) (n : Nat) : Option String :=
  if h : IsBoundary s n then some (s.sliceTo (s.pos ⟨n⟩ h)).copy else none

/-- The slice of a text between two offsets, if there is one. -/
def slice? (s : String) (first last : Nat) : Option String :=
  (sliceTo? s last).bind fun before => sliceFrom? before first

end Slices

/-- Why a cursor stops before it has read what it should. -/
inductive Stop
  /-- What stands at this offset is wrong. -/
  | fault (offset : Nat) (reason : Reason)
  /-- A slice of the text was needed that there is not. -/
  | noSlice
  /-- There are no steps left to take. -/
  | noSteps
  deriving DecidableEq

/-- An offset into a text, and every offset that the cursor has been moved to. -/
structure Cursor where
  offset : Nat
  visited : List Nat

/-- The cursor at the front of a text. -/
def Cursor.start : Cursor := ⟨0, [0]⟩

/-- Reading from a text with a cursor. -/
abbrev Reading := ReaderT String (ExceptT Stop (StateM Cursor))

namespace Reading

/-- What reading from a text gives, and where it leaves the cursor. -/
def runOn {α : Type} (m : Reading α) (text : String) (c : Cursor) : Except Stop α × Cursor :=
  (ReaderT.run m text).run.run c

/-- Moves the cursor to an offset. -/
def moveTo (n : Nat) : Reading Unit := modify fun c => ⟨n, n :: c.visited⟩

/-- Moves the cursor on by a number of bytes. -/
def advance (n : Nat) : Reading Unit := do moveTo ((← get).offset + n)

def given {α : Type} : Option α → Reading α
  | some x => pure x
  | none => throw .noSlice

/-- Stops at the cursor. -/
def fail {α : Type} (reason : Reason) : Reading α := do throw (.fault (← get).offset reason)

/-- What `m` reads, if it is there. The cursor stays where `m` has moved it. -/
def attempt {α : Type} (m : Reading α) : Reading (Option α) :=
  tryCatch (some <$> m) fun
    | .fault _ _ => pure none
    | stop => throw stop

/-- The text from the cursor on. -/
def rest : Reading String := do given (sliceFrom? (← read) (← get).offset)

/-- Whether the cursor is at the end of the text, or beyond. -/
def atEnd : Reading Bool := do return decide ((← read).utf8ByteSize ≤ (← get).offset)

/-- The character at the cursor. -/
def peek : Reading (Option Char) := do return (← rest).toList.head?

/-- Moves the cursor over a token, if it is there. -/
def eat (token : String) : Reading Bool := do
  if token.toList.isPrefixOf (← rest).toList then
    advance token.utf8ByteSize
    return true
  else return false

/-- Moves the cursor over blank characters, of which there are fewer than `steps`. -/
def skipBlanksWithin : Nat → Reading Unit
  | 0 => throw .noSteps
  | steps + 1 => do
    match ← peek with
    | some c =>
      if Text.isBlank c then
        advance c.utf8Size
        skipBlanksWithin steps
      else pure ()
    | none => pure ()

/-- Moves the cursor over blank characters. -/
def skipBlanks : Reading Unit := do skipBlanksWithin ((← read).length + 1)

/-- Whether a step may begin at the cursor. -/
def atStepStart : Reading Bool := do return (← peek).any startsStep

/-- Whether a character belongs to a name. It stands at `index` in bytes from the front of the name
and is followed by `next`. -/
def belongs? (whole : String) (index : Nat) (c : Char) (next : Option Char) : Option Bool :=
  if index = 0 then some (Text.isLetter c || c == '_')
  else if c = ':' then
    if next == some ':' then some false
    else (sliceTo? whole index).map fun before => !before.toList.contains ':'
  else some (Text.isLetterOrNumber c || c == '-' || c == '_' || c == '.')

/-- The length in bytes of the name at the front of a text. What is left of the text begins at
`index`, and the name has the length `found` so far. -/
def nameLength? (whole : String) (index found : Nat) : List Char → Option Nat
  | [] => some found
  | c :: more => do
    if ← belongs? whole index c more.head? then
      nameLength? whole (index + c.utf8Size) (index + c.utf8Size) more
    else some found

def name : Reading String := do
  let start := (← get).offset
  let rest ← rest
  let length ← given (nameLength? rest 0 0 rest.toList)
  if length = 0 then fail .noName
  else
    moveTo (start + length)
    given (slice? (← read) start (start + length))

/-- Reads the axis at the front of a step, if it is named, and moves back to the front if not. -/
def axisPrefix : Reading (Option Axis) := do
  let start := (← get).offset
  match ← attempt name with
  | none =>
    moveTo start
    return none
  | some name =>
    if ← eat "::" then
      match Axis.ofName? name with
      | some axis => return some axis
      | none =>
        moveTo start
        fail .unknownAxis
    else
      moveTo start
      return none

/-- Reads where a step leads. -/
def axis : Reading Axis := do
  if ← eat "@" then return .attributes else return (← axisPrefix).getD .child

/-- The length in bytes of the number at the front of a text, whose characters are counted from
`index`. -/
def numberLength (index : Nat) : List Char → Nat
  | [] => index
  | c :: more =>
    if Decimal.isDigit c || c == '.' || (index == 0 && c == '-') then
      numberLength (index + c.utf8Size) more
    else index

def number : Reading Float := do
  let rest ← rest
  let length := numberLength 0 rest.toList
  match Decimal.readFloat? (← given (sliceTo? rest length)).toList with
  | some x =>
    advance length
    return x
  | none => fail .badNumber

/-- Where a character first occurs, in bytes from the front. -/
def offsetOf? (q : Char) : List Char → Option Nat
  | [] => none
  | c :: more => if c = q then some 0 else (offsetOf? q more).map (c.utf8Size + ·)

def literal : Reading Literal := do
  match ← peek with
  | some c =>
    if c = '\'' ∨ c = '"' then
      advance 1
      let rest ← rest
      match offsetOf? c rest.toList with
      | some length =>
        let content ← given (sliceTo? rest length)
        advance (length + 1)
        return .text content
      | none => fail .unterminated
    else if Decimal.isDigit c || c == '-' then return .number (← number)
    else fail .noLiteral
  | none => fail .noLiteral

/-- Moves the cursor over a token, if it is asked for and there. -/
def eatIf (asked : Bool) (token : String) : Reading Bool := if asked then eat token else pure false

def test (axis : Axis) : Reading NodeTest := do
  if ← eat "*" then return .anyName
  else
    let name ← name
    if ← eatIf (axis ≠ .attributes ∧ name = "text") "()" then return .text
    else if ← eatIf (name = "node") "()" then return .anyNode
    else return .name (String.ofList (localPart name.toList))

mutual

def path : Nat → Reading Path
  | 0 => throw .noSteps
  | fuel + 1 => do
    if ← eat "//" then return .mk true (Step.everywhere :: (← steps fuel))
    else if ← eat "/" then
      if ← atStepStart then return .mk true (← steps fuel) else return .mk true []
    else return .mk false (← steps fuel)

/-- Reads at least one step, with slashes between steps. -/
def steps : Nat → Reading (List Step)
  | 0 => throw .noSteps
  | fuel + 1 => do
    let first ← step fuel
    if ← eat "//" then return first :: Step.everywhere :: (← steps fuel)
    else if ← eat "/" then return first :: (← steps fuel)
    else return [first]

def step : Nat → Reading Step
  | 0 => throw .noSteps
  | fuel + 1 => do
    if ← eat ".." then return .mk .parent .anyNode []
    else if ← eat "." then return .mk .self .anyNode []
    else
      let axis ← axis
      let test ← test axis
      return .mk axis test (← conditions fuel)

/-- Reads conditions in brackets, and the blank characters around them. -/
def conditions : Nat → Reading (List Condition)
  | 0 => throw .noSteps
  | fuel + 1 => do
    skipBlanks
    if ← eat "[" then
      let first ← condition fuel
      skipBlanks
      if ← eat "]" then return first :: (← conditions fuel) else fail .noBracket
    else return []

/-- Reads what stands between brackets. -/
def condition : Nat → Reading Condition
  | 0 => throw .noSteps
  | fuel + 1 => do
    skipBlanks
    if (← peek).any Decimal.isDigit then
      match positionOf? (← number) with
      | some n => return .position n
      | none => fail .noPosition
    else
      let path ← path fuel
      skipBlanks
      if ← eat "!=" then
        skipBlanks
        return .compares path false (← literal)
      else if ← eat "=" then
        skipBlanks
        return .compares path true (← literal)
      else return .present path

end

/-- Reads at least one path, with bars between paths, to the end. -/
def branches : Nat → Reading (List Path)
  | 0 => throw .noSteps
  | fuel + 1 => do
    let first ← path fuel
    skipBlanks
    if ← eat "|" then
      skipBlanks
      return first :: (← branches fuel)
    else if ← atEnd then return [first]
    else fail .unexpected

def selector : Reading (List Path) := do
  skipBlanks
  if ← atEnd then fail .empty else branches (fuelFor (← read).length)

end Reading

end DataQuality.Selector
