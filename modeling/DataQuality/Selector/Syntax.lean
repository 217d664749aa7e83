import DataQuality.Text.Quoted
import DataQuality.Decimal.Integer

/-!
# Selectors

A selector is a union of location paths. A path goes from a node to others step by step; each step
follows an axis, keeps the nodes that pass a test, and filters them by conditions.
-/
namespace DataQuality.Selector

/-- Where a step leads. -/
inductive Axis
  | child
  | descendant
  | descendantOrSelf
  | attributes
  | self
  | parent
  deriving DecidableEq, Repr

/-- What a step keeps of the nodes on its axis. -/
inductive NodeTest
  | name (wanted : String)
  | anyName
  | text
  | anyNode
  deriving DecidableEq, Repr

/-- What a string-value is compared with. -/
inductive Literal
  | text (content : String)
  | number (value : Float)

mutual

/-- What a step asks of the nodes it has found. -/
inductive Condition
  /-- The node stands at this place among them, counted from one. -/
  | position (n : Nat)
  /-- A path from the node finds something. -/
  | present (path : Path)
  /-- A path from the node finds something whose string-value equals, or does not equal, a
  literal. -/
  | compares (path : Path) (equal : Bool) (literal : Literal)

/-- One step of a path. -/
inductive Step
  | mk (axis : Axis) (test : NodeTest) (conditions : List Condition)

/-- A way from a node to others: from the top if it is absolute, and then step by step. -/
inductive Path
  | mk (absolute : Bool) (steps : List Step)

end

/-- The step that a double slash stands for: to the node itself and everything below it. -/
def Step.everywhere : Step := .mk .descendantOrSelf .anyNode []

def Axis.name : Axis → String
  | .child => "child"
  | .descendant => "descendant"
  | .descendantOrSelf => "descendant-or-self"
  | .attributes => "attribute"
  | .self => "self"
  | .parent => "parent"

def Axis.all : List Axis := [.child, .descendant, .descendantOrSelf, .attributes, .self, .parent]

def Axis.ofName? (s : String) : Option Axis := all.find? (·.name == s)

/-- What is wrong with the text of a selector. -/
inductive Reason
  | empty
  | unexpected
  | noBracket
  | unknownAxis
  | noName
  | noPosition
  | unterminated
  | noLiteral
  | badNumber
  deriving DecidableEq, Repr

def Reason.message : Reason → String
  | .empty => "empty selector"
  | .unexpected => "unexpected input"
  | .noBracket => "expected ']'"
  | .unknownAxis => "unsupported axis"
  | .noName => "expected a name"
  | .noPosition => "position must be a positive integer"
  | .unterminated => "unterminated string literal"
  | .noLiteral => "expected a literal"
  | .badNumber => "invalid number"

/-- A text that is no selector, and the offset in bytes at which reading it stopped. -/
structure Error where
  expression : String
  offset : Nat
  reason : Reason
  deriving DecidableEq

def Error.message (e : Error) : String :=
  "invalid selector " ++ Text.quoted e.expression ++ " at offset " ++ Decimal.ofNat e.offset ++ ": " ++
    e.reason.message

@[simp] theorem Axis.ofName?_name (a : Axis) : Axis.ofName? a.name = some a := by
  cases a <;> decide

end DataQuality.Selector
