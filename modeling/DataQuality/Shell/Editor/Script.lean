import DataQuality.Shell.Format
import DataQuality.Shell.Regex.Reader

/-!
# Scripts of the line editor

What a script for editing lines says: instructions of which each applies to the lines that its addresses
mean.
-/
namespace DataQuality.Shell.Editor

/-- Which lines are meant. -/
inductive Address
  | line (n : Nat)
  | last
  /-- Lines that match; without an expression, the one that was used last. -/
  | matching (r : Option Regex) (folds : Bool)
  /-- Every so manieth line from one on. -/
  | step (first stride : Nat)
  deriving Repr

inductive RangeEnd
  | address (a : Address)
  /-- So many lines further on. -/
  | after (n : Nat)
  /-- At the next line whose number is a multiple. -/
  | multiple (n : Nat)
  deriving Repr

/-- The lines that an instruction applies to. -/
structure Selection where
  first : Option Address
  last : Option RangeEnd
  /-- Whether the range begins before the first line. -/
  fromZero : Bool
  negated : Bool
  deriving Repr

/-- A part of what a match is replaced by. -/
inductive Replacement
  | text (cs : List Char)
  /-- The part of the match with a number, zero for all of it. -/
  | part (n : Nat)
  /-- How the letters behind it are written, by the letter for it. -/
  | letters (c : Char)
  deriving Repr

/-- The exchange of matches for something else. -/
structure Substitution where
  regex : Option Regex
  folds : Bool
  replacement : List Replacement
  every : Bool
  /-- Which match is the first one to be replaced. -/
  earliest : Nat
  prints : Bool
  file : Option String
  deriving Repr

/-- What an instruction does. -/
inductive Action
  | opening
  | closing
  | label (name : String)
  | append (text : List Char)
  | insert (text : List Char)
  | change (text : List Char)
  | branch (name : String)
  | branchIf (name : String)
  | branchUnless (name : String)
  | delete
  | deleteFirst
  | toHold (appends : Bool)
  | fromHold (appends : Bool)
  | exchange
  | reveal
  | next (appends : Bool)
  | print
  | printFirst
  | quit (status : Nat) (silently : Bool)
  | read (file : String)
  | write (file : String)
  | number
  | substitute (s : Substitution)
  | transform (pairs : List (Char × Char))
  | clear
  deriving Repr

structure Instruction where
  selection : Selection
  action : Action
  deriving Repr

/-- How expressions are written in scripts. -/
def spelling (extended : Bool) : Regex.Spelling := ⟨extended, true⟩

/-- Splits off what stands before a delimiter. Behind a backslash the delimiter stands for itself, and
between brackets it does not count in an expression. -/
def untilDelimiter? (delimiter : Char) (isRegex : Bool) :
    Nat → Bool → List Char → Option (List Char × List Char)
  | 0, _, _ => none
  | fuel + 1, inBrackets, cs =>
    let next (taken : List Char) (inBrackets : Bool) (rest : List Char) :=
      (untilDelimiter? delimiter isRegex fuel inBrackets rest).map fun (more, after) =>
        (taken ++ more, after)
    match cs with
    | [] => none
    | '\\' :: c :: rest =>
      if c = delimiter then next (if isRegex && c.isAlphanum then ['\\', c] else [c]) inBrackets rest
      else if c = '\n' && isRegex then next ['\n'] inBrackets rest
      else next ['\\', c] inBrackets rest
    | '[' :: '^' :: ']' :: rest =>
      if isRegex && !inBrackets && delimiter != '[' then next ['[', '^', ']'] true rest
      else next ['['] inBrackets ('^' :: ']' :: rest)
    | '[' :: ']' :: rest =>
      if isRegex && !inBrackets && delimiter != '[' then next ['[', ']'] true rest
      else next ['['] inBrackets (']' :: rest)
    | c :: rest =>
      if c = delimiter && !inBrackets then some ([], rest)
      else if isRegex && c = '[' then next [c] true rest
      else if c = ']' then next [c] false rest
      else next [c] inBrackets rest

/-- Splits off what stands before a delimiter. -/
def untilMark? (delimiter : Char) (isRegex : Bool) (cs : List Char) : Option (List Char × List Char) :=
  untilDelimiter? delimiter isRegex (cs.length + 1) false cs

/-- Reads an expression; an empty one stands for the last one that was used. -/
def readRegex? (extended : Bool) (cs : List Char) : Option (Option Regex) :=
  if cs.isEmpty then some none else (Regex.ofText? (spelling extended) cs).map some

def readNumber? (cs : List Char) : Option (Nat × List Char) :=
  let (ds, rest) := cs.span Decimal.isDigit
  if ds.isEmpty then none else some (Decimal.natOfDigits ds, rest)

/-- The text without blanks at the front. -/
def skipBlanks (cs : List Char) : List Char := cs.dropWhile fun c => c == ' ' || c == '\t'

/-- Reads an address, if there is one. -/
def readAddress? (extended : Bool) (cs : List Char) : Option (Option Address × List Char) :=
  let regex (delimiter : Char) (rest : List Char) : Option (Option Address × List Char) := do
    let (text, after) ← untilMark? delimiter true rest
    let r ← readRegex? extended text
    let flags := after.takeWhile fun c => c == 'I' || c == 'M'
    pure (some (.matching r (flags.contains 'I')), after.drop flags.length)
  match cs with
  | '$' :: rest => some (some .last, rest)
  | '/' :: rest => regex '/' rest
  | '\\' :: c :: rest => regex c rest
  | cs =>
    match readNumber? cs with
    | some (n, '~' :: rest) =>
      match readNumber? rest with
      | some (k, rest) => some (some (.step n k), rest)
      | none => some (some (.step n 0), rest)
    | some (n, rest) => some (some (.line n), rest)
    | none => some (none, cs)

def readEnd? (extended : Bool) (cs : List Char) : Option (RangeEnd × List Char) :=
  match cs with
  | '+' :: rest => (readNumber? rest).map fun (n, rest) => (.after n, rest)
  | '~' :: rest => (readNumber? rest).map fun (n, rest) => (.multiple n, rest)
  | cs =>
    match readAddress? extended cs with
    | some (some a, rest) => some (.address a, rest)
    | _ => none

/-- Reads which lines are meant. -/
def readSelection? (extended : Bool) (cs : List Char) : Option (Selection × List Char) := do
  let (first, cs) ← readAddress? extended cs
  let cs := skipBlanks cs
  let (last, cs) ←
    match first, cs with
    | some _, ',' :: rest => (readEnd? extended (skipBlanks rest)).map fun (e, cs) => (some e, cs)
    | _, cs => some (none, cs)
  let cs := skipBlanks cs
  let negated := cs.head? == some '!'
  let cs := if negated then (cs.dropWhile fun c => c == '!' || c == ' ') else cs
  let isZero := match first with
    | some (.line 0) => true
    | _ => false
  match isZero, last with
  | false, last => pure (⟨first, last, false, negated⟩, cs)
  | true, some (.address (.matching r f)) =>
    pure (⟨first, some (.address (.matching r f)), true, negated⟩, cs)
  | true, _ => none

/-- Reads what a match is replaced by. -/
def readReplacement : List Char → List Replacement
  | [] => []
  | '&' :: rest => .part 0 :: readReplacement rest
  | '\\' :: c :: rest =>
    if c.isDigit then .part (c.toNat - 48) :: readReplacement rest
    else if ['U', 'L', 'u', 'l', 'E'].contains c then .letters c :: readReplacement rest
    else .text [(Regex.control? c).getD c] :: readReplacement rest
  | c :: rest => .text [c] :: readReplacement rest

def readFlags? : Nat → Substitution → List Char → Option (Substitution × List Char)
  | 0, _, _ => none
  | fuel + 1, s, cs =>
    match cs with
    | 'g' :: rest => readFlags? fuel { s with every := true } rest
    | 'p' :: rest => readFlags? fuel { s with prints := true } rest
    | 'i' :: rest => readFlags? fuel { s with folds := true } rest
    | 'I' :: rest => readFlags? fuel { s with folds := true } rest
    | 'm' :: rest => readFlags? fuel s rest
    | 'M' :: rest => readFlags? fuel s rest
    | 'w' :: rest =>
      let (name, rest) := (skipBlanks rest).span (· != '\n')
      some ({ s with file := some (String.ofList name) }, rest)
    | cs =>
      match readNumber? cs with
      | some (0, _) => none
      | some (n, rest) => readFlags? fuel { s with earliest := n } rest
      | none => some (s, cs)

/-- The characters of a text in which some are written behind a backslash. -/
def plainChars : List Char → List Char
  | '\\' :: c :: rest => (Regex.control? c).getD c :: plainChars rest
  | c :: rest => c :: plainChars rest
  | [] => []

/-- Reads a text up to the end of its last line; a line that ends with a backslash goes on. -/
def readText : List Char → List Char × List Char
  | [] => ([], [])
  | '\\' :: '\n' :: rest => let (cs, after) := readText rest; ('\n' :: cs, after)
  | '\\' :: c :: rest => let (cs, after) := readText rest; (c :: cs, after)
  | '\n' :: rest => ([], rest)
  | c :: rest => let (cs, after) := readText rest; (c :: cs, after)

/-- Reads the text of an instruction, behind its letter. -/
def readTextOf (cs : List Char) : List Char × List Char :=
  let cs :=
    match skipBlanks cs with
    | '\\' :: rest =>
      match skipBlanks rest with
      | '\n' :: below => skipBlanks below
      | inline => inline
    | cs => cs
  let (text, rest) := readText cs
  (text ++ ['\n'], rest)

/-- Whether nothing but the end of an instruction stands at the front, and the text after it. -/
def readEndOf? (cs : List Char) : Option (List Char) :=
  match skipBlanks cs with
  | [] => some []
  | ';' :: rest => some rest
  | '\n' :: rest => some rest
  | '\x7d' :: rest => some ('\x7d' :: rest)
  | '#' :: rest => some ('#' :: rest)
  | _ => none

/-- Reads an instruction without its selection. -/
def readAction? (extended : Bool) (cs : List Char) : Option (Action × List Char) :=
  let ended (a : Action) (rest : List Char) : Option (Action × List Char) :=
    (readEndOf? rest).map (a, ·)
  let named (f : String → Action) (rest : List Char) : Option (Action × List Char) :=
    let (name, rest) := (skipBlanks rest).span fun c => c != '\n' && c != ';'
    let name := (name.reverse.dropWhile isSpace).reverse
    some (f (String.ofList name), rest)
  let filed (f : String → Action) (rest : List Char) : Option (Action × List Char) :=
    let (name, rest) := (skipBlanks rest).span (· != '\n')
    if name.isEmpty then none else some (f (String.ofList name), rest)
  let quitting (silently : Bool) (rest : List Char) : Option (Action × List Char) :=
    match readNumber? (skipBlanks rest) with
    | some (n, rest) => ended (.quit n silently) rest
    | none => ended (.quit 0 silently) rest
  match cs with
  | '\x7b' :: rest => some (.opening, rest)
  | '\x7d' :: rest => (readEndOf? rest).map (.closing, ·)
  | ':' :: rest =>
    let (name, rest) := (skipBlanks rest).span fun c => !isSpace c && c != ';'
    if name.isEmpty then none else some (.label (String.ofList name), rest)
  | 'a' :: rest => text .append rest
  | 'i' :: rest => text .insert rest
  | 'c' :: rest => text .change rest
  | 'b' :: rest => named .branch rest
  | 't' :: rest => named .branchIf rest
  | 'T' :: rest => named .branchUnless rest
  | 'd' :: rest => ended .delete rest
  | 'D' :: rest => ended .deleteFirst rest
  | 'h' :: rest => ended (.toHold false) rest
  | 'H' :: rest => ended (.toHold true) rest
  | 'g' :: rest => ended (.fromHold false) rest
  | 'G' :: rest => ended (.fromHold true) rest
  | 'x' :: rest => ended .exchange rest
  | 'l' :: rest => ended .reveal rest
  | 'n' :: rest => ended (.next false) rest
  | 'N' :: rest => ended (.next true) rest
  | 'p' :: rest => ended .print rest
  | 'P' :: rest => ended .printFirst rest
  | 'q' :: rest => quitting false rest
  | 'Q' :: rest => quitting true rest
  | 'r' :: rest => filed .read rest
  | 'w' :: rest => filed .write rest
  | '=' :: rest => ended .number rest
  | 'z' :: rest => ended .clear rest
  | 's' :: delimiter :: rest => do
    if delimiter = '\n' || delimiter = '\\' then none
    let (pattern, rest) ← untilMark? delimiter true rest
    let (replacement, rest) ← untilMark? delimiter false rest
    let r ← readRegex? extended pattern
    let (s, rest) ← readFlags? (rest.length + 1)
      ⟨r, false, readReplacement replacement, false, 1, false, none⟩ rest
    ended (.substitute s) rest
  | 'y' :: delimiter :: rest => do
    let (earliest, rest) ← untilMark? delimiter false rest
    let (latest, rest) ← untilMark? delimiter false rest
    let (a, b) := (plainChars earliest, plainChars latest)
    if a.length ≠ b.length then none
    ended (.transform (a.zip b)) rest
  | _ => none
where
  /-- Reads an instruction with a text. -/
  text (f : List Char → Action) (rest : List Char) : Option (Action × List Char) :=
    if (skipBlanks rest).isEmpty then none
    else
      let (t, rest) := readTextOf rest
      some (f t, rest)

/-- Reads the instructions of a script. `depth` is the number of blocks that are open. -/
def readInstructions? (extended : Bool) : Nat → Nat → List Char → Option (List Instruction)
  | 0, _, _ => none
  | fuel + 1, depth, cs =>
    match cs.dropWhile fun c => isSpace c || c == ';' with
    | [] => if depth = 0 then some [] else none
    | '#' :: rest => readInstructions? extended fuel depth (rest.dropWhile (· != '\n'))
    | cs => do
      let (selection, cs) ← readSelection? extended cs
      let (action, cs) ← readAction? extended cs
      let isBare := selection.first.isNone && !selection.negated
      let depth ← match action with
        | .opening => some (depth + 1)
        | .closing => if depth = 0 || !isBare then none else some (depth - 1)
        | .label _ => if isBare then some depth else none
        | _ => some depth
      pure (⟨selection, action⟩ :: (← readInstructions? extended fuel depth cs))

/-- The labels that instructions name. -/
def Action.goal? : Action → Option String
  | .branch s => some s
  | .branchIf s => some s
  | .branchUnless s => some s
  | _ => none

/-- Reads a script. Every label that is named has to be there. -/
def read? (extended : Bool) (cs : List Char) : Option (List Instruction) := do
  let is ← readInstructions? extended (cs.length + 1) 0 cs
  let labels := is.filterMap fun i =>
    match i.action with
    | .label s => some s
    | _ => none
  if (is.filterMap fun i => i.action.goal?).all fun s => s = "" || labels.contains s then pure is
  else none

end DataQuality.Shell.Editor
