import DataQuality.Decimal.Integer

/-!
# Tokens of content

The content of an element is a sequence of tags, texts, literal sections, comments and processing
instructions. Scanning cuts it into these without looking at what the names and references in it
mean, only at which characters may stand in a document, in names, and at the beginning of names.
-/
namespace DataQuality.Markup

/-- Whether a code point lies in one of these ranges. -/
def inRanges (ranges : List (Nat × Nat)) (n : Nat) : Bool :=
  ranges.any fun (first, last) => first ≤ n && n ≤ last

/-- White space between the parts of a tag. -/
def isSpace (c : Char) : Bool := c == ' ' || c == '\t' || c == '\n' || c == '\r'

/-- A character that may stand in a document. -/
def isAllowed (c : Char) : Bool :=
  let n := c.toNat
  if n < 32 then isSpace c else n != 0xFFFE && n != 0xFFFF

/-- The code points with which a name may begin. -/
def nameStartRanges : List (Nat × Nat) := [
  (0x3A, 0x3A), (0x41, 0x5A), (0x5F, 0x5F), (0x61, 0x7A), (0xC0, 0xD6), (0xD8, 0xF6), (0xF8, 0x2FF),
  (0x370, 0x37D), (0x37F, 0x1FFF), (0x200C, 0x200D), (0x2070, 0x218F), (0x2C00, 0x2FEF),
  (0x3001, 0xD7FF), (0xF900, 0xFDCF), (0xFDF0, 0xFFFD), (0x10000, 0xEFFFF)]

/-- The code points that may stand in a name but not begin it. -/
def nameInnerRanges : List (Nat × Nat) :=
  [(0x2D, 0x2E), (0x30, 0x39), (0xB7, 0xB7), (0x300, 0x36F), (0x203F, 0x2040)]

/-- A character with which a name may begin. -/
def isNameStart (c : Char) : Bool := inRanges nameStartRanges c.toNat

/-- A character that may stand in a name. -/
def isNameChar (c : Char) : Bool := isNameStart c || inRanges nameInnerRanges c.toNat

/-- A name with the prefix before its colon, if it has one. -/
structure QName where
  space : List Char
  name : List Char
  deriving DecidableEq, Repr

/-- An attribute as it is written. -/
structure RawAttribute where
  name : QName
  value : List Char
  deriving DecidableEq, Repr

/-- How a start tag ends. -/
inductive TagEnd
  | opened
  | closed
  /-- The text ends inside the tag. -/
  | missing
  deriving DecidableEq, Repr

/-- A piece of content. -/
inductive Token
  | tag (name : QName) (attributes : List RawAttribute) (ending : TagEnd)
  | endTag (name : QName)
  | text (raw : List Char)
  | literal (raw : List Char)
  | comment (content : List Char)
  | instruction (target content : List Char)
  deriving DecidableEq, Repr

/-- The characters after the white space at the front. -/
def skipSpace (cs : List Char) : List Char := cs.dropWhile isSpace

/-- The characters after the white space at the front, of which there must be some. -/
def needSpace? (cs : List Char) : Option (List Char) :=
  if cs.head?.any isSpace then some (skipSpace cs) else none

def beginsWith (marker : String) (cs : List Char) : Bool := marker.toList.isPrefixOf cs

def after? (marker : String) (cs : List Char) : Option (List Char) :=
  if beginsWith marker cs then some (cs.drop marker.length) else none

def splitAt? (marker : String) : List Char → Option (List Char × List Char)
  | [] => none
  | c :: rest =>
    if beginsWith marker (c :: rest) then some ([], (c :: rest).drop marker.length)
    else (splitAt? marker rest).map fun (before, after) => (c :: before, after)

/-- Splits at the first occurrence of a marker, before which only allowed characters may stand. -/
def readUntil? (marker : String) (cs : List Char) : Option (List Char × List Char) :=
  match splitAt? marker cs with
  | some (before, after) => if before.all isAllowed then some (before, after) else none
  | none => none

def occurs (marker : String) (cs : List Char) : Bool := (splitAt? marker cs).isSome

/-- Reads a name, colons included. -/
def readName? : List Char → Option (List Char × List Char)
  | [] => none
  | c :: rest =>
    if isNameStart c then
      let (more, after) := rest.span isNameChar
      some (c :: more, after)
    else none

/-- Whether a part of a name is empty or begins as a name does. -/
def startsName (cs : List Char) : Bool := cs.head?.all isNameStart

/-- Reads a name with at most one colon in it. Only the part before the colon may be empty. -/
def readQName? (cs : List Char) : Option (QName × List Char) :=
  let (name, rest) := cs.span isNameChar
  let (first, second) := name.span (· != ':')
  let q : QName :=
    match second with
    | _ :: after => ⟨first, after⟩
    | [] => ⟨[], first⟩
  if q.name.isEmpty || q.name.contains ':' || !startsName q.space || !startsName q.name then none
  else some (q, rest)

/-- Reads an equals sign with white space around it. -/
def readEquals? (cs : List Char) : Option (List Char) :=
  match skipSpace cs with
  | '=' :: rest => some (skipSpace rest)
  | _ => none

/-- Reads a quoted value, in which neither its quote nor a less-than sign may stand. -/
def readValue? : List Char → Option (List Char × List Char)
  | quote :: rest =>
    if quote = '"' ∨ quote = '\'' then
      let (value, after) := rest.span fun c => isAllowed c && c != quote && c != '<'
      match after with
      | c :: tail => if c = quote then some (value, tail) else none
      | [] => none
    else none
  | [] => none

def readAttribute? (cs : List Char) : Option (RawAttribute × List Char) := do
  let (name, rest) ← readQName? cs
  let rest ← readEquals? rest
  let (value, rest) ← readValue? rest
  pure (⟨name, value⟩, rest)

/-- Reads the attributes and the end of a start tag. An attribute must have white space before it. -/
def readAttributes? : Nat → List Char → Option (List RawAttribute × TagEnd × List Char)
  | 0, _ => none
  | _ + 1, [] => some ([], .missing, [])
  | fuel + 1, c :: cs =>
    match skipSpace (c :: cs) with
    | '/' :: '>' :: rest => some ([], .closed, rest)
    | '>' :: rest => some ([], .opened, rest)
    | rest =>
      if isSpace c then
        match readAttribute? rest with
        | some (a, rest) =>
          (readAttributes? fuel rest).map fun (as, ending, after) => (a :: as, ending, after)
        | none => none
      else none

/-- Reads a start tag after its less-than sign. -/
def readTag? (cs : List Char) : Option (QName × List RawAttribute × TagEnd × List Char) := do
  let (name, rest) ← readQName? cs
  let (attributes, ending, rest) ← readAttributes? (rest.length + 1) rest
  pure (name, attributes, ending, rest)

def readEndTag? (cs : List Char) : Option (QName × List Char) := do
  let (name, rest) ← readQName? cs
  match skipSpace rest with
  | '>' :: rest => pure (name, rest)
  | _ => none

/-- Reads a comment after its opening. Two hyphens in a row may not stand in it, nor one at its
end. -/
def readComment? (cs : List Char) : Option (List Char × List Char) := do
  let (content, rest) ← readUntil? "-->" cs
  if occurs "--" content || content.getLast? == some '-' then none else pure (content, rest)

def readInstruction? (cs : List Char) : Option (List Char × List Char × List Char) := do
  if beginsWith "<?xml " cs then none
  let rest ← after? "<?" cs
  let (target, rest) ← readName? rest
  let (content, rest) ← readUntil? "?>" (skipSpace rest)
  pure (target, content, rest)

/-- Reads a text up to the next less-than sign. The end mark of a literal section may not stand in
it. -/
def readText? (cs : List Char) : Option (List Char × List Char) :=
  let (text, rest) := cs.span (· != '<')
  if text.all isAllowed && !occurs "]]>" text then some (text, rest) else none

/-- Scans content inside `depth` elements that it opened itself. Content ends with the text, or with
an end tag for which it has no start tag. Gives the tokens and what follows them. -/
def scanContent? : Nat → Nat → List Char → Option (List Token × List Char)
  | 0, _, _ => none
  | _ + 1, _, [] => some ([], [])
  | fuel + 1, depth, '<' :: cs =>
    let more (token : Token) (depth : Nat) (rest : List Char) : Option (List Token × List Char) :=
      (scanContent? fuel depth rest).map fun (tokens, after) => (token :: tokens, after)
    match cs with
    | '!' :: _ =>
      match after? "!--" cs, after? "![CDATA[" cs with
      | some body, _ => do
        let (content, rest) ← readComment? body
        more (.comment content) depth rest
      | none, some body => do
        let (raw, rest) ← readUntil? "]]>" body
        more (.literal raw) depth rest
      | none, none => none
    | '?' :: _ => do
      let (target, content, rest) ← readInstruction? ('<' :: cs)
      more (.instruction target content) depth rest
    | '/' :: body => do
      let (name, rest) ← readEndTag? body
      match depth with
      | 0 => pure ([.endTag name], rest)
      | depth + 1 => more (.endTag name) depth rest
    | _ => do
      let (name, attributes, ending, rest) ← readTag? cs
      more (.tag name attributes ending) (if ending = .opened then depth + 1 else depth) rest
  | fuel + 1, depth, cs => do
    let (raw, rest) ← readText? cs
    let (tokens, after) ← scanContent? fuel depth rest
    pure (.text raw :: tokens, after)

@[simp] theorem skipSpace_nil : skipSpace [] = [] := rfl

end DataQuality.Markup
