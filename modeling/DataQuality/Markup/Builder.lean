import DataQuality.Markup.Node
import DataQuality.Markup.Reference

/-!
# Building a tree from tokens

Tokens are taken one by one. Start tags open elements and end tags close them; prefixes are resolved
to namespaces when a start tag ends; texts that follow each other become one node; an entity named in
a text is replaced by the tokens of its own text.
-/
namespace DataQuality.Markup

/-- A namespace and the prefix it is known by, if it is not the default one. -/
structure Binding where
  space : Option (List Char)
  uri : List Char
  deriving DecidableEq

/-- An element whose end tag has not been met. -/
structure Frame where
  tag : QName
  attributes : List Attribute
  bindings : List Binding
  /-- What is in the element so far, last node first. -/
  nodes : List Node

/-- A tree under construction. -/
structure Builder where
  /-- What is below the root so far, last node first. -/
  nodes : List Node
  /-- The open elements, innermost first. -/
  frames : List Frame
  /-- Attributes of a start tag that has not ended. -/
  attributes : List RawAttribute
  /-- Namespaces bound in a start tag that has not ended. -/
  bindings : List Binding
  /-- Whether a start tag was met since the text or entity began. -/
  tagSeen : Bool
  /-- Whether the next text is a node of its own, because a start tag without an end came before
  it. -/
  textEnded : Bool
  /-- How many entities have been named inside the one that stands in the document. -/
  references : Nat

namespace Builder

/-- A tree of which nothing is built. -/
def empty : Builder := ⟨[], [], [], [], false, false, 0⟩

/-- The namespace that the prefix `xml` stands for. -/
def xmlUri : List Char := "http://www.w3.org/XML/1998/namespace".toList

/-- The namespace of the prefix that binds prefixes. -/
def xmlnsUri : List Char := "http://www.w3.org/2000/xmlns/".toList

/-- The prefix of names that belong to every document. -/
def xmlName : List Char := ['x', 'm', 'l']

/-- The name that binds namespaces. -/
def xmlnsName : List Char := ['x', 'm', 'l', 'n', 's']

def append (b : Builder) (n : Node) : Builder :=
  match b.frames with
  | [] => { b with nodes := n :: b.nodes }
  | f :: rest => { b with frames := { f with nodes := n :: f.nodes } :: rest }

/-- A list of nodes, last first, with a text after it. Texts that follow each other become one, unless
the last one has `ended`. -/
def joinText (ended : Bool) (nodes : List Node) (cs : List Char) : List Node :=
  match ended, nodes with
  | false, .text s :: rest => .text (String.ofList (s.toList ++ cs)) :: rest
  | _, nodes => .text (String.ofList cs) :: nodes

/-- Puts a text after the last node. -/
def appendText (b : Builder) (cs : List Char) : Builder :=
  let join := joinText b.textEnded
  let b := { b with textEnded := false }
  match b.frames with
  | [] => { b with nodes := join b.nodes cs }
  | f :: rest => { b with frames := { f with nodes := join f.nodes cs } :: rest }

/-- Takes an attribute of a start tag whose value has been expanded: it binds a namespace, or is kept
until the tag ends. -/
def takeAttribute? (b : Builder) (name : QName) (value : List Char) : Option Builder :=
  if name.space = xmlnsName then
    if value = xmlnsUri then none
    else if name.name = xmlName then if value = xmlUri then some b else none
    else if value = xmlUri then none
    else if b.bindings.any fun x => x.space == some name.name then none
    else some { b with bindings := b.bindings ++ [⟨some name.name, value⟩] }
  else if name.name = xmlnsName then
    if value = xmlUri ∨ value = xmlnsUri then none
    else some { b with bindings := b.bindings ++ [⟨none, value⟩] }
  else some { b with attributes := b.attributes ++ [⟨name, value⟩] }

/-- The namespaces known inside a start tag: those bound in it, then those of the element around
it. -/
def knownBindings (b : Builder) : List Binding :=
  b.bindings ++ match b.frames with | f :: _ => f.bindings | [] => []

/-- The namespace that a prefix stands for. -/
def uriOf? (bindings : List Binding) (space : Option (List Char)) : Option (List Char) :=
  (bindings.find? (·.space == space)).map (·.uri)

/-- The attribute that a written one stands for. One without a prefix belongs to no namespace. -/
def resolveAttribute? (bindings : List Binding) (a : RawAttribute) : Option Attribute :=
  let make (space : Option (List Char)) : Attribute :=
    ⟨space.map String.ofList, String.ofList a.name.name, String.ofList a.value⟩
  if a.name.space = xmlName then some (make (some xmlUri))
  else if a.name.space = [] then some (make none)
  else (uriOf? bindings (some a.name.space)).map fun uri => make (some uri)

/-- Whether two of some attributes have the same namespace and name. -/
def hasRepeated : List Attribute → Bool
  | [] => false
  | a :: rest => rest.any (fun x => x.space == a.space && x.name == a.name) || hasRepeated rest

/-- Resolves the attributes that were met, two of which may not have one name. They are forgotten
with the namespaces that were bound among them. -/
def resolveAttributes? (b : Builder) : Option (List Attribute × Builder) := do
  let attributes ← b.attributes.mapM (resolveAttribute? b.knownBindings)
  if hasRepeated attributes then none
  pure (attributes, { b with attributes := [], bindings := [] })

/-- Ends a start tag: resolves its names, and opens the element or puts it after the last node. -/
def endStartTag? (b : Builder) (tag : QName) (opened : Bool) : Option Builder := do
  let bindings := b.knownBindings
  let (attributes, b) ← b.resolveAttributes?
  if tag.space ≠ [] ∧ uriOf? bindings (some tag.space) = none then none
  if opened then
    pure { b with frames := ⟨tag, attributes, bindings, []⟩ :: b.frames }
  else pure (b.append (.element (String.ofList tag.name) attributes []))

/-- Takes an end tag, which must have the name of the innermost open element. Attributes of a start
tag that did not end before are dropped. -/
def endTag? (b : Builder) (tag : QName) : Option Builder :=
  match b.tagSeen, b.frames with
  | true, f :: rest => do
    let (_, b) ← b.resolveAttributes?
    if f.tag = tag then
      let node := Node.element (String.ofList tag.name) f.attributes f.nodes.reverse
      pure ({ b with frames := rest }.append node)
    else none
  | _, _ => none

/-- A text so far, last character first, with one more character written in it. Line ends become line
feeds. -/
def pushTextChar (buffer : List Char) (c : Char) (atEnd : Bool) : List Char :=
  match buffer with
  | '\r' :: rest =>
    if atEnd && c == '\r' then '\n' :: '\n' :: rest
    else if c != '\n' then c :: '\n' :: rest
    else '\n' :: rest
  | _ => if atEnd && c == '\r' then '\n' :: buffer else c :: buffer

def lineEndsFrom (buffer : List Char) : List Char → List Char
  | [] => buffer.reverse
  | c :: rest => lineEndsFrom (pushTextChar buffer c rest.isEmpty) rest

/-- Puts what is gathered of a text after the last node, if there is anything. -/
def flush (b : Builder) (buffer : List Char) : Builder :=
  if buffer.isEmpty then b else b.appendText buffer.reverse

/-- Takes a text whose characters so far are `buffer`, last first. A character named outside all
entities is taken as it is, and so is the one written after it. `expand` takes the text of an
entity. -/
def takeTextWith (expand : Builder → List Char → Option Builder) (entities : List Entity)
    (inside : Bool) : Nat → Bool → List Char → Builder → List Char → Option Builder
  | 0, _, _, _, _ => none
  | _ + 1, _, buffer, b, [] => some (b.flush buffer)
  | fuel + 1, asIs, buffer, b, c :: cs =>
    if c != '&' then
      let buffer := if asIs then c :: buffer else pushTextChar buffer c cs.isEmpty
      takeTextWith expand entities inside fuel false buffer b cs
    else
      match readReference? cs with
      | none => none
      | some (.char c, rest) =>
        if inside then
          takeTextWith expand entities inside fuel false (pushTextChar buffer c rest.isEmpty) b rest
        else takeTextWith expand entities inside fuel true (c :: buffer) b rest
      | some (.entity name, rest) => do
        let text ← Entity.lookup? entities name
        let references ← countReference? inside b.references
        let b ← expand { b.flush buffer with references := references } text
        let b := if inside then b else { b with references := 0 }
        takeTextWith expand entities inside fuel false [] b rest

/-- Expands and takes the attributes of a start tag. -/
def takeAttributes? (entities : List Entity) (depth : Nat) :
    Builder → List RawAttribute → Option Builder
  | b, [] => some b
  | b, a :: rest => do
    let (value, references) ← attributeValue? entities depth b.references a.value
    let b ← { b with references := references }.takeAttribute? a.name value
    takeAttributes? entities depth b rest

/-- Takes a token inside which entities may stand `depth` deep. -/
def takeToken? (expand : Builder → List Char → Option Builder) (entities : List Entity)
    (depth : Nat) (b : Builder) : Token → Option Builder
  | .tag name attributes ending => do
    if name.space = xmlnsName then none
    let b ← takeAttributes? entities depth { b with tagSeen := true } attributes
    match ending with
    | .missing => pure { b with textEnded := true }
    | .opened => b.endStartTag? name true
    | .closed => b.endStartTag? name false
  | .endTag name => b.endTag? name
  | .text raw =>
    if raw.contains '&' || raw.contains '\r' then
      takeTextWith expand entities (depth != maxDepth) (raw.length + 1) false [] b raw
    else some (b.appendText raw)
  | .literal raw =>
    if raw.contains '\r' then some (b.appendText (lineEndsFrom [] raw)) else some (b.appendText raw)
  | .comment content => some (b.append (.comment (String.ofList content)))
  | .instruction target content =>
    let content := if content.isEmpty then none else some (String.ofList content)
    some (b.append (.instruction (String.ofList target) content))

/-- Takes the text of an entity inside which entities may stand `depth - 1` deep. -/
def expandEntity (entities : List Entity) : Nat → Builder → List Char → Option Builder
  | 0, _, _ => none
  | depth + 1, b, cs => do
    let (tokens, _) ← scanContent? (cs.length + 1) 0 cs
    let after ← tokens.foldlM (takeToken? (expandEntity entities depth) entities depth)
      { b with tagSeen := false }
    pure { after with tagSeen := b.tagSeen }

def takeTokens? (entities : List Entity) (b : Builder) (tokens : List Token) : Option Builder :=
  tokens.foldlM (takeToken? (expandEntity entities maxDepth) entities maxDepth) b

/-- The finished tree: every element is closed, and the root has an element below it. -/
def finish? (b : Builder) : Option Node :=
  if b.frames.isEmpty && b.nodes.any Node.isElement then some (.root b.nodes.reverse) else none

end Builder

end DataQuality.Markup
