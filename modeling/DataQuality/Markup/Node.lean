/-!
# Document trees

A document is a tree. Its nodes are elements, texts, comments and processing instructions, below one
root. A place is a node together with the way that leads to it from the root.
-/
namespace DataQuality.Markup

/-- An attribute: its namespace, its local name and its value. -/
structure Attribute where
  space : Option String
  name : String
  value : String
  deriving DecidableEq, Repr

/-- A node with everything below it. -/
inductive Node
  | root (children : List Node)
  | element (name : String) (attributes : List Attribute) (children : List Node)
  | text (content : String)
  | comment (content : String)
  | instruction (target : String) (content : Option String)

namespace Node

def children : Node → List Node
  | root cs => cs
  | element _ _ cs => cs
  | _ => []

/-- The attributes of a node. Only elements have any. -/
def attributes : Node → List Attribute
  | element _ as _ => as
  | _ => []

def elementName? : Node → Option String
  | element name _ _ => some name
  | _ => none

def isElement (n : Node) : Bool := n.elementName?.isSome

def isNamed (n : Node) (name : String) : Bool := n.elementName? == some name

def isText : Node → Bool
  | text _ => true
  | _ => false

/-- The content of a text, of a comment, or of the text that an element begins with. -/
def leadingText? : Node → Option String
  | text s => some s
  | comment s => some s
  | instruction _ _ => none
  | element _ _ (text s :: _) => some s
  | _ => none

mutual

/-- The characters of all texts in a node, in document order. -/
def textChars : Node → List Char
  | root cs => textCharsAll cs
  | element _ _ cs => textCharsAll cs
  | text s => s.toList
  | comment _ => []
  | instruction _ _ => []

def textCharsAll : List Node → List Char
  | [] => []
  | n :: rest => n.textChars ++ textCharsAll rest

end

/-- The string-value of a node: all texts in it, one after the other. -/
def stringValue (n : Node) : String := String.ofList n.textChars

/-- The value of the first attribute of this name that belongs to no namespace. -/
def attribute? (n : Node) (name : String) : Option String :=
  (n.attributes.find? fun a => a.space == none && a.name == name).map (·.value)

def child? (n : Node) (name : String) : Option Node := n.children.find? (·.isNamed name)

/-- The child elements of this name, in order. -/
def childrenNamed (n : Node) (name : String) : List Node := n.children.filter (·.isNamed name)

/-- The text that the first child element of this name begins with. -/
def childText? (n : Node) (name : String) : Option String := (n.child? name).bind leadingText?

def childAttribute? (n : Node) (name key : String) : Option String :=
  (n.child? name).bind (·.attribute? key)

/-- The node at the end of a way down, given by the index of the child to take at each step. -/
def at? (n : Node) : List Nat → Option Node
  | [] => some n
  | i :: rest => (n.children[i]?).bind (·.at? rest)

@[simp] theorem at?_nil (n : Node) : n.at? [] = some n := rfl

@[simp] theorem children_text (s : String) : (text s).children = [] := rfl

@[simp] theorem textChars_text (s : String) : (text s).textChars = s.toList := by simp [textChars]

end Node

/-- A node of a document and the way to it from the root. -/
structure Place where
  location : List Nat
  node : Node

namespace Place

def top (document : Node) : Place := ⟨[], document⟩

/-- The place of each of these children, counted from `i`. -/
def enumerate (location : List Nat) (i : Nat) : List Node → List Place
  | [] => []
  | n :: rest => ⟨location ++ [i], n⟩ :: enumerate location (i + 1) rest

def children (p : Place) : List Place := enumerate p.location 0 p.node.children

mutual

/-- The places at and below the node at `location`, in document order. -/
def below (location : List Nat) : Node → List Place
  | .root cs => ⟨location, .root cs⟩ :: belowAll location 0 cs
  | .element name as cs => ⟨location, .element name as cs⟩ :: belowAll location 0 cs
  | .text s => [⟨location, .text s⟩]
  | .comment s => [⟨location, .comment s⟩]
  | .instruction target s => [⟨location, .instruction target s⟩]

/-- The places at and below each of these children, counted from `i`. -/
def belowAll (location : List Nat) (i : Nat) : List Node → List Place
  | [] => []
  | n :: rest => below (location ++ [i]) n ++ belowAll location (i + 1) rest

end

/-- A place and all places below it, in document order. -/
def descendantsOrSelf (p : Place) : List Place := below p.location p.node

/-- The places below a place, in document order. -/
def descendants (p : Place) : List Place := p.descendantsOrSelf.tail

def parent? (document : Node) (p : Place) : Option Place :=
  match p.location with
  | [] => none
  | _ => (document.at? p.location.dropLast).map fun n => ⟨p.location.dropLast, n⟩

/-- Every place of a document other than the root, in document order. -/
def all (document : Node) : List Place := (top document).descendants

@[simp] theorem children_top (document : Node) :
    (top document).children = enumerate [] 0 document.children := rfl

end Place

end DataQuality.Markup
