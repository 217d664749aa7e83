import DataQuality.Decimal.Rounded
import DataQuality.Shell.Format
import DataQuality.Shell.Token

/-!
# Tokens and values of scanning programs

The text of a program for scanning records is a row of numbers, texts, expressions between slashes, names,
reserved words, signs and line ends. A slash divides where an operand has just ended, and opens an expression
elsewhere.

A value is a number or a text, and each can be taken for the other. A text that has been read counts as a
number if it looks like one.
-/
namespace DataQuality.Shell.Scan

/-- What a program is made of. -/
inductive Token
  | number (x : Float)
  | text (cs : List Char)
  | regex (cs : List Char)
  | name (s : String)
  /-- A name directly before a parenthesis. -/
  | called (s : String)
  | builtin (s : String)
  | reserved (s : String)
  | sign (s : String)
  | lineEnd

/-- The words that hold a program together. -/
def reservedWords : List String :=
  ["BEGIN", "END", "function", "func", "if", "else", "while", "for", "do", "break", "continue", "next",
    "nextfile", "exit", "return", "delete", "in", "getline", "print", "printf"]

/-- The functions that every program has. -/
def builtinNames : List String :=
  ["length", "substr", "index", "split", "sub", "gsub", "match", "sprintf", "sin", "cos", "atan2",
    "exp", "log", "sqrt", "int", "rand", "srand", "tolower", "toupper", "system", "close", "fflush"]

/-- The signs of two characters. -/
def longSigns : List String :=
  ["&&", "||", "==", "!=", "<=", ">=", "++", "--", "+=", "-=", "*=", "/=", "%=", "^=", "!~", ">>"]

def shortSigns : List Char :=
  ['\x7b', '\x7d', '(', ')', '[', ']', ';', ',', '+', '-', '*', '/', '%', '^', '!', '>', '<', '|', '?',
    ':', '~', '$', '=']

def Token.endsOperand : Token → Bool
  | .number _ => true
  | .text _ => true
  | .regex _ => true
  | .name _ => true
  | .builtin _ => true
  | .sign s => [")", "]", "++", "--"].contains s
  | _ => false

/-- The characters of a text up to the quote that closes it, with escapes replaced. -/
def readText? : Nat → List Char → Option (List Char × List Char)
  | 0, _ => none
  | fuel + 1, cs =>
    let next (taken : List Char) (rest : List Char) : Option (List Char × List Char) :=
      (readText? fuel rest).map fun (more, after) => (taken ++ more, after)
    match cs with
    | [] => none
    | '\n' :: _ => none
    | '"' :: rest => some ([], rest)
    | '\\' :: '\n' :: rest => next [] rest
    | '\\' :: '"' :: rest => next ['"'] rest
    | '\\' :: '/' :: rest => next ['/'] rest
    | '\\' :: c :: rest =>
      match readOctal? (c :: rest), escapedLetter? c with
      | some (d, rest), _ => next [d] rest
      | none, some d => next (if c = 'e' then ['\\', 'e'] else [d]) rest
      | none, none => next ['\\', c] rest
    | c :: rest => next [c] rest

/-- The characters of an expression up to the slash that closes it. Between brackets, and behind a
backslash, a slash closes nothing. -/
def readRegex? : Nat → Bool → List Char → Option (List Char × List Char)
  | 0, _, _ => none
  | fuel + 1, inBrackets, cs =>
    let next (taken : List Char) (inBrackets : Bool) (rest : List Char) :=
      (readRegex? fuel inBrackets rest).map fun (more, after) => (taken ++ more, after)
    match cs with
    | [] => none
    | '\n' :: _ => none
    | '/' :: rest => if inBrackets then next ['/'] true rest else some ([], rest)
    | '\\' :: '/' :: rest => next ['/'] inBrackets rest
    | '\\' :: c :: rest => next ['\\', c] inBrackets rest
    | '[' :: '^' :: ']' :: rest =>
      if inBrackets then next ['['] true ('^' :: ']' :: rest) else next ['[', '^', ']'] true rest
    | '[' :: ']' :: rest =>
      if inBrackets then next ['['] true (']' :: rest) else next ['[', ']'] true rest
    | '[' :: rest => next ['['] true rest
    | ']' :: rest => next [']'] false rest
    | c :: rest => next [c] inBrackets rest

def tokenOfName (s : String) (rest : List Char) : Token :=
  if reservedWords.contains s then .reserved s
  else if builtinNames.contains s then .builtin s
  else if rest.head? = some '(' then .called s
  else .name s

/-- The tokens of a program; `none` if something in it cannot be read. -/
def tokens? : Nat → Option Token → List Char → Option (List Token)
  | 0, _, _ => none
  | fuel + 1, last, cs =>
    let next (t : Token) (rest : List Char) : Option (List Token) :=
      (tokens? fuel (some t) rest).map (t :: ·)
    match cs with
    | [] => some []
    | '\n' :: rest => next .lineEnd rest
    | '\\' :: '\n' :: rest => tokens? fuel last rest
    | '#' :: rest => tokens? fuel last (rest.dropWhile (· != '\n'))
    | '"' :: rest => do
      let (text, after) ← readText? (rest.length + 1) rest
      next (.text text) after
    | c :: rest =>
      if isSpace c then tokens? fuel last rest
      else if isNameStart c then
        let name := cs.takeWhile isNameChar
        let after := cs.dropWhile isNameChar
        next (tokenOfName (String.ofList name) after) after
      else if c.isDigit || (c = '.' && rest.head?.any Char.isDigit) then do
        let (x, after) ← Decimal.readFloatPrefix? cs
        next (.number x) after
      else if c = '/' && !last.any Token.endsOperand then do
        let (text, after) ← readRegex? (rest.length + 1) false rest
        next (.regex text) after
      else
        let long := String.ofList (cs.take 2)
        if longSigns.contains long then next (.sign long) (cs.drop 2)
        else if shortSigns.contains c then next (.sign (String.ofList [c])) rest
        else none

/-- The tokens of a whole program. -/
def tokensOf? (cs : List Char) : Option (List Token) := tokens? (cs.length + 1) none cs

inductive Value
  /-- What a name has before it is given a value. -/
  | nothing
  | number (x : Float)
  | text (cs : List Char)
  /-- A text that has been read. -/
  | given (cs : List Char)

namespace Value

/-- The number at the front of a text and what follows it. -/
def readNumber? (cs : List Char) : Option (Float × List Char) :=
  let cs := cs.dropWhile isSpace
  let body := match cs with
    | '-' :: rest => rest
    | '+' :: rest => rest
    | rest => rest
  if body.head?.any fun c => c.isDigit || c == '.' then Decimal.readFloatPrefix? cs else none

/-- Whether all of a text is a number. -/
def isNumeric (cs : List Char) : Bool :=
  match readNumber? cs with
  | some (_, rest) => rest.all isSpace
  | none => false

def toNumber : Value → Float
  | nothing => 0.0
  | number x => x
  | text cs => ((readNumber? cs).map (·.1)).getD 0.0
  | given cs => ((readNumber? cs).map (·.1)).getD 0.0

def countsAsNumber : Value → Bool
  | nothing => true
  | number _ => true
  | text _ => false
  | given cs => isNumeric cs

/-- The integer that a number is cut down to. -/
def toInteger (x : Float) : Int := if x.isNaN then 0 else x.toInt64.toInt

def ofBool (b : Bool) : Value := number (if b then 1.0 else 0.0)

def ofNat (n : Nat) : Value := number (Float.ofNat n)

def isTrue : Value → Bool
  | nothing => false
  | number x => x != 0.0
  | text cs => !cs.isEmpty
  | given cs => if isNumeric cs then (given cs).toNumber != 0.0 else !cs.isEmpty

end Value

/-- What a format makes of values; `none` if there are too few. -/
def formatted? : Nat → List Char → List Value → Option (List Char)
  | 0, _, _ => none
  | fuel + 1, cs, vs =>
    let more (taken rest : List Char) (vs : List Value) : Option (List Char) :=
      (formatted? fuel rest vs).map (taken ++ ·)
    match cs with
    | [] => some []
    | '%' :: '%' :: rest => more ['%'] rest vs
    | '%' :: directive => do
      let widths := vs.map fun v => Decimal.ofInt (Value.toInteger v.toNumber)
      let (d, rest, left) ← readDirective? directive widths
      match vs.drop (widths.length - left.length) with
      | [] => none
      | v :: vs =>
        let plain (v : Value) : List Char :=
          match v with
          | .nothing => []
          | .text cs => cs
          | .given cs => cs
          | .number x => plainNumber x
        let shown : List Char :=
          match d.conversion, v with
          | 'c', .number x => d.pad [Char.ofNat ((Value.toInteger x).toNat % 256)]
          | 'c', v => d.pad ((plain v).take 1)
          | 's', v =>
            let cs := plain v
            d.pad (cs.take (d.precision.getD cs.length))
          | c, v =>
            match formOf? c with
            | some form => d.showReal form v.toNumber
            | none => (d.showInteger? (Value.toInteger v.toNumber)).getD []
        more shown rest vs
    | c :: rest => more [c] rest vs
where
  /-- A number as a text, with six digits unless it is whole. -/
  plainNumber (x : Float) : List Char :=
    if x == x.floor && x.abs < 9.2e18 then Decimal.intChars (Value.toInteger x)
    else (Decimal.rounded .general 6 x).toList

/-- The text that a value is taken for; `format` is for numbers that are not whole. -/
def Value.toText (format : List Char) : Value → List Char
  | nothing => []
  | text cs => cs
  | given cs => cs
  | number x =>
    if x == x.floor && x.abs < 9.2e18 then Decimal.intChars (toInteger x)
    else (formatted? (format.length + 1) format [number x]).getD []

/-- Whether a comparison of two values holds. They are compared as texts unless both count as
numbers. -/
def Value.compare (format : List Char) (operator : String) (a b : Value) : Bool :=
  if a.countsAsNumber && b.countsAsNumber then
    let (x, y) := (a.toNumber, b.toNumber)
    match operator with
    | "<" => x < y
    | "<=" => x ≤ y
    | ">" => y < x
    | ">=" => y ≤ x
    | "==" => x == y
    | _ => x != y
  else
    let (s, t) := (String.ofList (a.toText format), String.ofList (b.toText format))
    match operator with
    | "<" => s < t
    | "<=" => !(t < s)
    | ">" => t < s
    | ">=" => !(s < t)
    | "==" => s == t
    | _ => s != t

end DataQuality.Shell.Scan
