import DataQuality.Markup.Node
import DataQuality.Selector.Reader

/-!
# Selection

Evaluating a selector gives nodes and attributes in document order, each once. A path is evaluated
in a scope, which says where absolute paths start. In the scope of a document they start at its
root. In the scope of a unit they start at the node above the unit, which then has nothing below it
but the unit, nothing above it, and no attributes.
-/
namespace DataQuality.Selector

open Markup

/-- Something selected: a node, or an attribute of a node and its place among the attributes. -/
inductive Item
  | node (place : Place)
  | attr (owner : Place) (slot : Nat) (content : Attribute)

namespace Item

def stringValue : Item → String
  | node p => p.node.stringValue
  | attr _ _ a => a.value

/-- The place of a node; attributes have none of their own. -/
def place? : Item → Option Place
  | node p => some p
  | attr _ _ _ => none

/-- Whether an item is an empty text or an empty attribute. Elements never are. -/
def isBlank : Item → Bool
  | node ⟨_, .text s⟩ => s.isEmpty
  | node _ => false
  | attr _ _ a => a.value.isEmpty

/-- Where an item stands in document order: a node before its attributes, attributes in order, and
then what is below the node. -/
def key : Item → List Nat × Nat
  | node p => (p.location, 0)
  | attr p slot _ => (p.location, slot + 1)

end Item

/-- Whether one location comes before another in document order. -/
def locationBefore : List Nat → List Nat → Bool
  | [], [] => false
  | [], _ :: _ => true
  | _ :: _, [] => false
  | i :: is, j :: js => i < j || (i == j && locationBefore is js)

/-- Whether one key comes no later than another. -/
def keyLe (a b : List Nat × Nat) : Bool :=
  locationBefore a.1 b.1 || (a.1 == b.1 && a.2 ≤ b.2)

/-- Items of an ordered list without those that stand where the one before them does. -/
def dropRepeated : List Item → List Item
  | [] => []
  | [x] => [x]
  | x :: y :: rest =>
    if x.key == y.key then dropRepeated (x :: rest) else x :: dropRepeated (y :: rest)
  termination_by items => items.length

/-- Items in document order, each once. -/
def inOrder (items : List Item) : List Item :=
  dropRepeated (items.mergeSort fun a b => keyLe a.key b.key)

/-- Where paths are evaluated. -/
structure Scope where
  document : Node
  /-- Where absolute paths start. -/
  top : Place
  /-- The only thing below the top, unless the top is the root of the document. -/
  unit : Option Place

def Scope.ofDocument (document : Node) : Scope := ⟨document, Place.top document, none⟩

/-- The scope of a unit. A root is a document of its own. -/
def Scope.ofUnit (document : Node) (unit : Place) : Scope :=
  match unit.parent? document with
  | some above => ⟨document, above, some unit⟩
  | none => ofDocument document

def NodeTest.admits : NodeTest → Node → Bool
  | .name wanted, n => n.isNamed wanted
  | .anyName, n => n.isElement
  | .text, n => n.isText
  | .anyNode, _ => true

def NodeTest.admitsAttribute : NodeTest → Attribute → Bool
  | .name wanted, a => a.name == wanted
  | .anyName, _ => true
  | .anyNode, _ => true
  | .text, _ => false

def admitted (test : NodeTest) (places : List Place) : List Item :=
  (places.filter fun p => test.admits p.node).map .node

/-- The attributes of a place that pass a test, counted from `slot`. -/
def admittedAttributes (test : NodeTest) (owner : Place) (slot : Nat) :
    List Attribute → List Item
  | [] => []
  | a :: rest =>
    let more := admittedAttributes test owner (slot + 1) rest
    if test.admitsAttribute a then .attr owner slot a :: more else more

/-- The unit below a place, if the place is the top of the scope of a unit. -/
def Scope.unitBelow? (scope : Scope) (p : Place) : Option Place :=
  if p.location = scope.top.location then scope.unit else none

/-- The places that an axis leads to from a place, attributes aside. -/
def Scope.places (scope : Scope) (axis : Axis) (p : Place) : List Place :=
  match scope.unitBelow? p, axis with
  | some unit, .child => [unit]
  | some unit, .descendant => unit.descendantsOrSelf
  | some unit, .descendantOrSelf => p :: unit.descendantsOrSelf
  | some _, .parent => []
  | none, .child => p.children
  | none, .descendant => p.descendants
  | none, .descendantOrSelf => p.descendantsOrSelf
  | none, .parent => (p.parent? scope.document).toList
  | _, .self => [p]
  | _, .attributes => []

def Scope.candidates (scope : Scope) (axis : Axis) (test : NodeTest) (p : Place) : List Item :=
  match axis with
  | .attributes =>
    if (scope.unitBelow? p).isSome then []
    else admittedAttributes test p 0 p.node.attributes
  | _ => admitted test (scope.places axis p)

/-- Whether a string-value equals a literal. A number is compared with the number that the value,
trimmed, is read as. -/
def Literal.equals : Literal → String → Bool
  | .text content, s => s == content
  | .number x, s =>
    match Decimal.readTrimmed? s with
    | some y => y == x
    | none => false

mutual

def Path.select (scope : Scope) : Path → Place → List Item
  | .mk absolute steps, p => Steps.select scope steps [.node (if absolute then scope.top else p)]

/-- What some steps find from these items, one step after the other. -/
def Steps.select (scope : Scope) : List Step → List Item → List Item
  | [], items => items
  | step :: rest, items =>
    Steps.select scope rest
      (inOrder (items.flatMap fun item =>
        match item with
        | .node p => Step.select scope step p
        | .attr _ _ _ => []))

def Step.select (scope : Scope) : Step → Place → List Item
  | .mk axis test conditions, p =>
    Conditions.filter scope conditions (scope.candidates axis test p)

def Conditions.filter (scope : Scope) : List Condition → List Item → List Item
  | [], items => items
  | condition :: rest, items =>
    Conditions.filter scope rest (Condition.filter scope condition items)

/-- What is left of some items after a condition. Attributes never satisfy one that has a path. -/
def Condition.filter (scope : Scope) : Condition → List Item → List Item
  | .position n, items => (items.drop (n - 1)).take 1
  | .present path, items =>
    items.filter fun item =>
      match item with
      | .node p => !(Path.select scope path p).isEmpty
      | .attr _ _ _ => false
  | .compares path equal literal, items =>
    items.filter fun item =>
      match item with
      | .node p => (Path.select scope path p).any fun found =>
          literal.equals found.stringValue == equal
      | .attr _ _ _ => false

end

/-- What some paths find from a place, in document order. -/
def selectAll (scope : Scope) (paths : List Path) (p : Place) : List Item :=
  inOrder (paths.flatMap fun path => path.select scope p)


def select (s : Selector) (document : Node) (context : Place) : List Item :=
  selectAll (Scope.ofDocument document) s.branches context

/-- What a selector finds from a unit of a document, as if the unit were a document of its own. -/
def selectUnit (s : Selector) (document : Node) (unit : Place) : List Item :=
  selectAll (Scope.ofUnit document unit) s.branches unit

def selectPlaces (s : Selector) (document : Node) (context : Place) : List Place :=
  (s.select document context).filterMap Item.place?

def selectStrings (s : Selector) (document : Node) (context : Place) : List String :=
  (s.select document context).map Item.stringValue

@[simp] theorem dropRepeated_nil : dropRepeated [] = [] := by simp [dropRepeated]

end DataQuality.Selector
