import DataQuality.Decimal.Real
import DataQuality.Selector.Syntax
import DataQuality.Text.Letters

/-!
# Reading selectors

A reader takes the characters that are left and gives what it has read together with the characters
after it, or says where it stopped and why.
-/
namespace DataQuality

namespace Selector

/-- Where reading stopped, as the characters that were left, and why. -/
structure Fault where
  rest : List Char
  reason : Reason
  deriving DecidableEq

/-- The characters after the blank ones at the front. -/
def skipBlank (cs : List Char) : List Char := cs.dropWhile Text.isBlank

/-- A character with which a step may begin. -/
def startsStep (c : Char) : Bool :=
  Text.isLetter c || c == '_' || c == '*' || c == '@' || c == '.'

/-- The characters of a name after its first. A single colon may stand once among them; two in a row
end the name. -/
def nameTail (colonSeen : Bool) : List Char → List Char
  | [] => []
  | c :: rest =>
    if c = ':' then
      if colonSeen || rest.head? == some ':' then [] else c :: nameTail true rest
    else if Text.isLetterOrNumber c || c == '-' || c == '_' || c == '.' then
      c :: nameTail colonSeen rest
    else []

def readName? : List Char → Option (List Char × List Char)
  | [] => none
  | c :: rest =>
    if Text.isLetter c || c == '_' then
      let more := nameTail false rest
      some (c :: more, rest.drop more.length)
    else none

def localPart (name : List Char) : List Char :=
  (name.reverse.takeWhile (· != ':')).reverse

/-- Reads the axis at the front of a step, if it is named. -/
def readAxis (cs : List Char) : Except Fault (Option Axis × List Char) :=
  match readName? cs with
  | some (name, ':' :: ':' :: rest) =>
    match Axis.ofName? (String.ofList name) with
    | some axis => .ok (some axis, rest)
    | none => .error ⟨cs, .unknownAxis⟩
  | _ => .ok (none, cs)

/-- The characters of a number at the front: digits and points, with a minus sign before them. -/
def numberChars : List Char → List Char
  | '-' :: cs => '-' :: cs.takeWhile fun c => Decimal.isDigit c || c == '.'
  | cs => cs.takeWhile fun c => Decimal.isDigit c || c == '.'

def readNumber (cs : List Char) : Except Fault (Float × List Char) :=
  let number := numberChars cs
  match Decimal.readFloat? number with
  | some x => .ok (x, cs.drop number.length)
  | none => .error ⟨cs, .badNumber⟩

/-- Whether a number from one on is whole. Doubles from `2 ^ 53` on all are. -/
def isWhole (x : Float) : Bool :=
  x.toUInt64.toFloat == x || 9007199254740992.0 ≤ x && x.isFinite

/-- The position that a number stands for: a whole number from one on. -/
def positionOf? (x : Float) : Option Nat :=
  if x < 1.0 || !isWhole x then none else some x.toUInt64.toNat

def readLiteral : List Char → Except Fault (Literal × List Char)
  | [] => .error ⟨[], .noLiteral⟩
  | c :: rest =>
    if c = '\'' ∨ c = '"' then
      let (content, after) := rest.span (· != c)
      match after with
      | _ :: after => .ok (.text (String.ofList content), after)
      | [] => .error ⟨rest, .unterminated⟩
    else if Decimal.isDigit c || c == '-' then
      (readNumber (c :: rest)).map fun (x, after) => (.number x, after)
    else .error ⟨c :: rest, .noLiteral⟩

def readTest (axis : Axis) : List Char → Except Fault (NodeTest × List Char)
  | '*' :: rest => .ok (.anyName, rest)
  | cs =>
    match readName? cs with
    | none => .error ⟨cs, .noName⟩
    | some (name, rest) =>
      match rest with
      | '(' :: ')' :: after =>
        if axis ≠ .attributes ∧ name = ['t', 'e', 'x', 't'] then .ok (.text, after)
        else if name = ['n', 'o', 'd', 'e'] then .ok (.anyNode, after)
        else .ok (.name (String.ofList (localPart name)), rest)
      | _ => .ok (.name (String.ofList (localPart name)), rest)

mutual

def readPath : Nat → List Char → Except Fault (Path × List Char)
  | 0, cs => .error ⟨cs, .unexpected⟩
  | fuel + 1, '/' :: '/' :: rest => do
    let (steps, rest) ← readSteps fuel rest
    pure (.mk true (Step.everywhere :: steps), rest)
  | fuel + 1, '/' :: rest =>
    if rest.head?.any startsStep then do
      let (steps, rest) ← readSteps fuel rest
      pure (.mk true steps, rest)
    else pure (.mk true [], rest)
  | fuel + 1, cs => do
    let (steps, rest) ← readSteps fuel cs
    pure (.mk false steps, rest)

/-- Reads at least one step, with slashes between steps. -/
def readSteps : Nat → List Char → Except Fault (List Step × List Char)
  | 0, cs => .error ⟨cs, .unexpected⟩
  | fuel + 1, cs => do
    let (step, rest) ← readStep fuel cs
    match rest with
    | '/' :: '/' :: rest =>
      let (steps, rest) ← readSteps fuel rest
      pure (step :: Step.everywhere :: steps, rest)
    | '/' :: rest =>
      let (steps, rest) ← readSteps fuel rest
      pure (step :: steps, rest)
    | _ => pure ([step], rest)

def readStep : Nat → List Char → Except Fault (Step × List Char)
  | 0, cs => .error ⟨cs, .unexpected⟩
  | _ + 1, '.' :: '.' :: rest => pure (.mk .parent .anyNode [], rest)
  | _ + 1, '.' :: rest => pure (.mk .self .anyNode [], rest)
  | fuel + 1, '@' :: rest => do
    let (test, rest) ← readTest .attributes rest
    let (conditions, rest) ← readConditions fuel rest
    pure (.mk .attributes test conditions, rest)
  | fuel + 1, cs => do
    let (named, rest) ← readAxis cs
    let axis := named.getD .child
    let (test, rest) ← readTest axis rest
    let (conditions, rest) ← readConditions fuel rest
    pure (.mk axis test conditions, rest)

/-- Reads conditions in brackets, and the blank characters around them. -/
def readConditions : Nat → List Char → Except Fault (List Condition × List Char)
  | 0, cs => .error ⟨cs, .unexpected⟩
  | fuel + 1, cs =>
    match skipBlank cs with
    | '[' :: rest => do
      let (condition, rest) ← readCondition fuel rest
      match skipBlank rest with
      | ']' :: rest =>
        let (conditions, rest) ← readConditions fuel rest
        pure (condition :: conditions, rest)
      | rest => .error ⟨rest, .noBracket⟩
    | rest => pure ([], rest)

/-- Reads what stands between brackets. -/
def readCondition : Nat → List Char → Except Fault (Condition × List Char)
  | 0, cs => .error ⟨cs, .unexpected⟩
  | fuel + 1, cs =>
    let cs := skipBlank cs
    if cs.head?.any Decimal.isDigit then do
      let (x, rest) ← readNumber cs
      match positionOf? x with
      | some n => pure (.position n, rest)
      | none => .error ⟨rest, .noPosition⟩
    else do
      let (path, rest) ← readPath fuel cs
      match skipBlank rest with
      | '!' :: '=' :: rest =>
        let (literal, rest) ← readLiteral (skipBlank rest)
        pure (.compares path false literal, rest)
      | '=' :: rest =>
        let (literal, rest) ← readLiteral (skipBlank rest)
        pure (.compares path true literal, rest)
      | rest => pure (.present path, rest)

end

/-- Reads at least one path, with bars between paths, to the end. -/
def readBranches : Nat → List Char → Except Fault (List Path)
  | 0, cs => .error ⟨cs, .unexpected⟩
  | fuel + 1, cs => do
    let (path, rest) ← readPath fuel cs
    match skipBlank rest with
    | [] => pure [path]
    | '|' :: rest =>
      let paths ← readBranches fuel (skipBlank rest)
      pure (path :: paths)
    | rest => .error ⟨rest, .unexpected⟩

/-- Steps enough for reading any selector of this length. -/
def fuelFor (length : Nat) : Nat := 5 * length + 10

/-- Reads the characters of a selector. -/
def readAll (cs : List Char) : Except Fault (List Path) :=
  match skipBlank cs with
  | [] => .error ⟨[], .empty⟩
  | rest => readBranches (fuelFor cs.length) rest

/-- The number of bytes of some characters. -/
def byteLength (cs : List Char) : Nat := cs.foldl (fun n c => n + c.utf8Size) 0

end Selector

/-- A selector: the paths it is a union of, and its text. -/
structure Selector where
  text : String
  branches : List Selector.Path

def Selector.parse (s : String) : Except Selector.Error Selector :=
  match Selector.readAll s.toList with
  | .ok branches => .ok ⟨s, branches⟩
  | .error fault =>
    .error ⟨s, Selector.byteLength s.toList - Selector.byteLength fault.rest, fault.reason⟩

namespace Selector

@[simp] theorem byteLength_nil : byteLength [] = 0 := rfl

theorem byteLength_append (cs ds : List Char) :
    byteLength (cs ++ ds) = byteLength cs + byteLength ds := by
  have hsum (n : Nat) (cs : List Char) :
      cs.foldl (fun n c => n + c.utf8Size) n = n + (cs.map Char.utf8Size).sum := by
    induction cs generalizing n with
    | nil => rfl
    | cons c cs ih => rw [List.foldl_cons, ih, List.map_cons, List.sum_cons, Nat.add_assoc]
  unfold byteLength
  rw [hsum, hsum, hsum, List.map_append, List.sum_append]
  omega

theorem byteLength_singleton (c : Char) : byteLength [c] = c.utf8Size := Nat.zero_add _

theorem byteLength_cons (c : Char) (cs : List Char) :
    byteLength (c :: cs) = c.utf8Size + byteLength cs := by
  rw [← List.singleton_append, byteLength_append, byteLength_singleton]

theorem byteLength_pos {cs : List Char} (h : cs ≠ []) : 0 < byteLength cs := by
  obtain ⟨c, more, rfl⟩ := List.exists_cons_of_ne_nil h
  have := c.utf8Size_pos
  rw [byteLength_cons]
  omega

end Selector

end DataQuality
