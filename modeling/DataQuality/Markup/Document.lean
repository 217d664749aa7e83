import DataQuality.Markup.Builder

/-!
# Documents

A document is an optional declaration, an optional document type, and one element, with comments and
processing instructions around them. The document type may name entities; of several with one name
the first counts.
-/
namespace DataQuality.Markup

/-- A prolog: the comments and instructions in it, and the entities it declares. -/
structure Prolog where
  tokens : List Token
  entities : List Entity

/-- Reads the white space, comments and instructions at the front. -/
def readMisc? : Nat → List Char → Option (List Token × List Char)
  | 0, _ => none
  | fuel + 1, cs =>
    let cs := skipSpace cs
    match after? "<!--" cs with
    | some body => do
      let (content, rest) ← readComment? body
      let (tokens, rest) ← readMisc? fuel rest
      pure (.comment content :: tokens, rest)
    | none =>
      if beginsWith "<?" cs then do
        let (target, content, rest) ← readInstruction? cs
        let (tokens, rest) ← readMisc? fuel rest
        pure (.instruction target content :: tokens, rest)
      else some ([], cs)

/-- White space between the parts of a declaration: needed unless the declaration or the text
ends. -/
def declarationSpace? (cs : List Char) : Option (List Char) :=
  if cs.isEmpty || beginsWith "?>" cs then some cs else needSpace? cs

/-- Reads a part of a declaration, if it is there. -/
def readOptionalPart? (name : String) (cs : List Char) : Option (List Char) :=
  if beginsWith name cs then do
    let (_, rest) ← readAttribute? cs
    declarationSpace? rest
  else some cs

def readDeclaration? (cs : List Char) : Option (List Char) :=
  match after? "<?xml" cs with
  | some rest =>
    if rest.head? = some ' ' then do
      let rest ← declarationSpace? rest
      if !beginsWith "version" rest then none
      let rest ← readOptionalPart? "version" rest
      let rest ← readOptionalPart? "encoding" rest
      let rest ←
        if beginsWith "standalone" rest then (readAttribute? rest).map (·.2) else some rest
      after? "?>" (skipSpace rest)
    else some cs
  | none => some cs

def readQuoted? : List Char → Option (List Char × List Char)
  | quote :: rest =>
    if quote = '"' ∨ quote = '\'' then
      let (value, after) := rest.span (· != quote)
      match after with
      | _ :: tail => some (value, tail)
      | [] => none
    else none
  | [] => none

/-- Reads the whereabouts of an external text, if they are given. -/
def readExternal? (cs : List Char) : Option (Bool × List Char) :=
  if beginsWith "SYSTEM" cs || beginsWith "PUBLIC" cs then do
    let rest ← needSpace? (cs.drop 6)
    let (_, rest) ← readQuoted? rest
    if beginsWith "SYSTEM" cs then pure (true, rest)
    else do
      let rest ← needSpace? rest
      let (_, rest) ← readQuoted? rest
      pure (true, rest)
  else some (false, cs)

/-- Reads the note that an external entity is no text, if it is there. -/
def readNotation? (cs : List Char) : Option (List Char) :=
  match after? "NDATA" (skipSpace cs) with
  | some rest => do
    let rest ← needSpace? rest
    let (_, rest) ← readName? rest
    pure rest
  | none => some (skipSpace cs)

/-- Reads what an entity stands for; an external one stands for nothing here. -/
def readDefinition? (general : Bool) (cs : List Char) : Option (Option (List Char) × List Char) :=
  match cs.head? with
  | some 'S' | some 'P' => do
    let (isExternal, rest) ← readExternal? cs
    if !isExternal then none
    let rest ← if general then readNotation? rest else some rest
    pure (none, rest)
  | _ => (readQuoted? cs).map fun (value, rest) => (some value, rest)

def readEntity? (cs : List Char) : Option (List Entity × List Char) := do
  let cs ← needSpace? cs
  let (general, cs) ←
    match cs with
    | '%' :: rest => (needSpace? rest).map fun rest => (false, rest)
    | _ => some (true, cs)
  let (name, cs) ← readName? cs
  let cs ← needSpace? cs
  let (value, cs) ← readDefinition? general cs
  match skipSpace cs with
  | '>' :: rest => pure (value.toList.map fun v => ⟨name, v⟩, rest)
  | _ => none

/-- Whether a declaration begins that is passed over. -/
def beginsIgnored (cs : List Char) : Bool :=
  beginsWith "<!ELEMENT" cs || beginsWith "<!ATTLIST" cs || beginsWith "<!NOTATION" cs

/-- Reads the declarations of a document type up to its end. -/
def readSubset? : Nat → List Char → Option (Prolog × List Char)
  | 0, _ => none
  | fuel + 1, cs =>
    if cs.isEmpty then some (⟨[], []⟩, [])
    else
      let cs := skipSpace cs
      match after? "<!ENTITY" cs, after? "<!--" cs with
      | some body, _ => do
        let (declared, rest) ← readEntity? body
        let (prolog, rest) ← readSubset? fuel rest
        pure ({ prolog with entities := declared ++ prolog.entities }, rest)
      | none, some body => do
        let (content, rest) ← readComment? body
        let (prolog, rest) ← readSubset? fuel rest
        pure ({ prolog with tokens := .comment content :: prolog.tokens }, rest)
      | none, none =>
        if beginsWith "<?" cs then do
          let (target, content, rest) ← readInstruction? cs
          let (prolog, rest) ← readSubset? fuel rest
          pure ({ prolog with tokens := .instruction target content :: prolog.tokens }, rest)
        else
          match cs with
          | ']' :: rest =>
            match skipSpace rest with
            | '>' :: rest => some (⟨[], []⟩, rest)
            | _ => none
          | _ =>
            if beginsIgnored cs then do
              let (_, rest) ← splitAt? ">" cs
              readSubset? fuel rest
            else none

/-- Reads a document type after its opening. -/
def readDoctype? (cs : List Char) : Option (Prolog × List Char) := do
  let cs ← needSpace? cs
  let (_, cs) ← readName? cs
  let (_, cs) ← readExternal? (skipSpace cs)
  match skipSpace cs with
  | '>' :: rest => pure (⟨[], []⟩, rest)
  | '[' :: rest => readSubset? (rest.length + 1) rest
  | _ => none

/-- Reads the document type, if there is one, and what follows up to the element. -/
def readProlog? (cs : List Char) : Option (Prolog × List Char) := do
  let (before, cs) ← readMisc? (cs.length + 1) cs
  match after? "<!DOCTYPE" cs with
  | some body => do
    let (prolog, cs) ← readDoctype? body
    let (after, cs) ← readMisc? (cs.length + 1) cs
    pure (⟨before ++ prolog.tokens ++ after, prolog.entities⟩, cs)
  | none => pure (⟨before, []⟩, cs)

def readElement? (cs : List Char) : Option (List Token × List Char) :=
  match cs with
  | '<' :: rest => do
    let (name, attributes, ending, rest) ← readTag? rest
    if ending = .opened then do
      let (tokens, rest) ← scanContent? (rest.length + 1) 0 rest
      pure (.tag name attributes ending :: tokens, rest)
    else pure ([.tag name attributes ending], rest)
  | _ => some ([], cs)

/-- Reads a document. Gives its root, or nothing if the text is not well-formed. -/
def parse? (s : String) : Option Node := do
  let cs := match s.toList with | '\uFEFF' :: rest => rest | cs => cs
  let cs ← readDeclaration? cs
  let (prolog, cs) ← readProlog? cs
  let (element, cs) ← readElement? (skipSpace cs)
  let (after, cs) ← readMisc? (cs.length + 1) cs
  if !cs.isEmpty then none
  let b ← Builder.takeTokens? prolog.entities .empty (prolog.tokens ++ element ++ after)
  b.finish?

def rootElement? (document : Node) : Option Place :=
  (Place.top document).children.find? (·.node.isElement)

end DataQuality.Markup
