import DataQuality.Markup.Token

/-!
# References

A reference in a text or an attribute names a character by number, one of the five characters of
markup by name, or an entity, which stands for a text of its own.
-/
namespace DataQuality.Markup

/-- An entity and the text it stands for. -/
structure Entity where
  name : List Char
  value : List Char
  deriving DecidableEq

inductive Reference
  | char (c : Char)
  | entity (name : List Char)
  deriving DecidableEq

/-- The value of a hexadecimal digit. -/
def hexValue? (c : Char) : Option Nat :=
  if '0' ≤ c && c ≤ '9' then some (c.toNat - 48)
  else if 'a' ≤ c && c ≤ 'f' then some (c.toNat - 87)
  else if 'A' ≤ c && c ≤ 'F' then some (c.toNat - 55)
  else none

/-- The number written by digits of a base, if it fits into 32 bits. -/
def numberOf? (base : Nat) (digits : List Nat) : Option Nat :=
  let n := digits.foldl (fun n d => n * base + d) 0
  if digits.isEmpty || 4294967296 ≤ n then none else some n

/-- The character with a number; numbers of no character give the replacement character. Characters
that may not stand in a document are refused. -/
def charOf? (n : Nat) : Option Char :=
  let c := if h : n.isValidChar then Char.ofNatAux n h else '\uFFFD'
  if isAllowed c then some c else none

def readCharNumber? : List Char → Option (Char × List Char)
  | 'x' :: cs =>
    let (ds, rest) := cs.span fun c => (hexValue? c).isSome
    ((numberOf? 16 (ds.filterMap hexValue?)).bind charOf?).map fun c => (c, rest)
  | cs =>
    let (ds, rest) := cs.span Decimal.isDigit
    ((numberOf? 10 (ds.map Decimal.digitValue)).bind charOf?).map fun c => (c, rest)

/-- What a name refers to: one of five characters, or an entity. -/
def Reference.ofName (name : List Char) : Reference :=
  if name = ['q', 'u', 'o', 't'] then .char '"'
  else if name = ['a', 'm', 'p'] then .char '&'
  else if name = ['a', 'p', 'o', 's'] then .char '\''
  else if name = ['l', 't'] then .char '<'
  else if name = ['g', 't'] then .char '>'
  else .entity name

def readReference? (cs : List Char) : Option (Reference × List Char) := do
  let (reference, rest) ←
    match cs with
    | '#' :: number => (readCharNumber? number).map fun (c, rest) => (Reference.char c, rest)
    | _ => (readName? cs).map fun (name, rest) => (Reference.ofName name, rest)
  match rest with
  | ';' :: rest => pure (reference, rest)
  | _ => none

def Entity.lookup? (entities : List Entity) (name : List Char) : Option (List Char) :=
  (entities.find? (·.name == name)).map (·.value)

/-- How deep entities may stand in entities. -/
def maxDepth : Nat := 10

/-- How many entities may be named inside one that stands in a document. -/
def maxReferences : Nat := 255

/-- Counts one more reference to an entity. Only those inside an entity count. -/
def countReference? (inside : Bool) (references : Nat) : Option Nat :=
  if !inside then some references
  else if references = maxReferences then none
  else some (references + 1)

/-- A character of an attribute value as it is written: white space becomes a space, and a carriage
return before a line feed is dropped. -/
def plainValueChar (c : Char) (next : Option Char) : List Char :=
  if c = '\r' ∧ next = some '\n' then []
  else if c = '\n' ∨ c = '\r' ∨ c = '\t' then [' ']
  else [c]

/-- The value of an attribute, once its references are replaced. Inside an entity a less-than sign
may not be named. `expand` replaces references in the text of an entity. Gives the value and the
number of references counted. -/
def expandValueWith (expand : Nat → List Char → Option (List Char × Nat)) (entities : List Entity)
    (inside : Bool) : Nat → Nat → List Char → Option (List Char × Nat)
  | 0, _, _ => none
  | _ + 1, references, [] => some ([], references)
  | fuel + 1, references, c :: cs =>
    if c != '&' then do
      let (value, references) ← expandValueWith expand entities inside fuel references cs
      pure (plainValueChar c cs.head? ++ value, references)
    else
      match readReference? cs with
      | none => none
      | some (.char c, rest) =>
        if inside && c == '<' then none
        else do
          let (value, references) ← expandValueWith expand entities inside fuel references rest
          pure ((if inside then plainValueChar c none else [c]) ++ value, references)
      | some (.entity name, rest) => do
        let text ← Entity.lookup? entities name
        let references ← countReference? inside references
        let (first, references) ← expand references text
        let references := if inside then references else 0
        let (value, references) ← expandValueWith expand entities inside fuel references rest
        pure (first ++ value, references)

/-- Replaces the references in the text of an entity inside which entities may stand `depth - 1`
deep. -/
def expandEntityValue (entities : List Entity) : Nat → Nat → List Char → Option (List Char × Nat)
  | 0, _, _ => none
  | depth + 1, references, cs =>
    expandValueWith (expandEntityValue entities depth) entities true (cs.length + 1) references cs

/-- The value of an attribute that is met inside an entity, or outside of all, with the references
counted so far. -/
def attributeValue? (entities : List Entity) (depth references : Nat) (raw : List Char) :
    Option (List Char × Nat) :=
  expandValueWith (expandEntityValue entities depth) entities (depth != maxDepth)
    (raw.length + 1) references raw

end DataQuality.Markup
