import DataQuality.Json.Value

/-!
# Reading JSON

The reader accepts exactly the JSON grammar. It judges neither the size of numbers nor the pairing
of surrogates: whoever uses a value does.
-/
namespace DataQuality.Json

/-- A character that may stand between tokens. -/
def isSpace (c : Char) : Bool := c == ' ' || c == '\t' || c == '\n' || c == '\r'

/-- The characters after the space at the front. -/
def skipSpace (cs : List Char) : List Char := cs.dropWhile isSpace

/-- The value of a hexadecimal digit. -/
def hexValue? (c : Char) : Option Nat :=
  if '0' ≤ c && c ≤ '9' then some (c.toNat - 48)
  else if 'a' ≤ c && c ≤ 'f' then some (c.toNat - 87)
  else if 'A' ≤ c && c ≤ 'F' then some (c.toNat - 55)
  else none

/-- Reads the four digits of a character named by number. -/
def readHex4? : List Char → Option (Nat × List Char)
  | a :: b :: c :: d :: rest => do
    let a ← hexValue? a
    let b ← hexValue? b
    let c ← hexValue? c
    let d ← hexValue? d
    pure (((a * 16 + b) * 16 + c) * 16 + d, rest)
  | _ => none

/-- The character after a backslash, when it is not a character named by number. -/
def escaped? : Char → Option Char
  | '"' => some '"'
  | '\\' => some '\\'
  | '/' => some '/'
  | 'b' => some '\x08'
  | 'f' => some '\x0c'
  | 'n' => some '\n'
  | 'r' => some '\r'
  | 't' => some '\t'
  | _ => none

/-- The first half of a surrogate pair. -/
def isHighSurrogate (n : Nat) : Bool := 0xD800 ≤ n && n ≤ 0xDBFF

/-- The second half of a surrogate pair. -/
def isLowSurrogate (n : Nat) : Bool := 0xDC00 ≤ n && n ≤ 0xDFFF

/-- A character named by number, and what follows. A pair of surrogates names one character; half a
pair names none. -/
def readNamed? (cs : List Char) : Option (Option Char × List Char) :=
  match readHex4? cs with
  | none => none
  | some (n, rest) =>
    if isHighSurrogate n then
      match rest with
      | '\\' :: 'u' :: tail =>
        match readHex4? tail with
        | some (m, after) =>
          if isLowSurrogate m then
            some (some (Char.ofNat (0x10000 + (n - 0xD800) * 0x400 + (m - 0xDC00))), after)
          else some (none, rest)
        | none => none
      | _ => some (none, rest)
    else if isLowSurrogate n then some (none, rest)
    else some (some (Char.ofNat n), rest)

/-- Reads the rest of a string whose characters so far are `acc`, nearest first; `acc` is `none` once
half a surrogate pair was met. -/
def readStringFrom : Nat → Option (List Char) → List Char → Option (Option String × List Char)
  | 0, _, _ => none
  | _ + 1, _, [] => none
  | fuel + 1, acc, c :: rest =>
    if c = '"' then some (acc.map fun cs => String.ofList cs.reverse, rest)
    else if c = '\\' then
      match rest with
      | 'u' :: tail =>
        match readNamed? tail with
        | some (ch, after) =>
          readStringFrom fuel (acc.bind fun cs => ch.map fun c => c :: cs) after
        | none => none
      | e :: tail =>
        match escaped? e with
        | some ch => readStringFrom fuel (acc.map fun cs => ch :: cs) tail
        | none => none
      | [] => none
    else if c.toNat < 32 then none
    else readStringFrom fuel (acc.map fun cs => c :: cs) rest

def readString (cs : List Char) : Option (Option String × List Char) :=
  readStringFrom (cs.length + 1) (some []) cs

/-- Whether a string is written without escapes; its opening quote is already read. -/
def isPlain (cs : List Char) : Bool :=
  (cs.dropWhile fun c => c != '"' && c != '\\').head? == some '"'

/-- Reads the digits before a point: a lone zero, or digits that do not begin with zero. -/
def readWhole? (cs : List Char) : Option (List Char × List Char) :=
  let (ds, rest) := cs.span Decimal.isDigit
  match ds with
  | [] => none
  | '0' :: _ :: _ => none
  | _ => some (ds, rest)

/-- Reads a point and the digits after it, if there is a point. -/
def readFraction? : List Char → Option (Option (List Char) × List Char)
  | '.' :: cs =>
    let (ds, rest) := cs.span Decimal.isDigit
    if ds.isEmpty then none else some (some ds, rest)
  | cs => some (none, cs)

def readExponentDigits? (cs : List Char) : Option (Option Int × List Char) :=
  let (negative, unsigned) : Bool × List Char :=
    match cs with
    | '-' :: rest => (true, rest)
    | '+' :: rest => (false, rest)
    | rest => (false, rest)
  let (ds, rest) := unsigned.span Decimal.isDigit
  if ds.isEmpty then none
  else
    let n : Int := Decimal.natOfDigits ds
    some (some (if negative then -n else n), rest)

/-- Reads an exponent, if there is one. -/
def readExponent? : List Char → Option (Option Int × List Char)
  | 'e' :: cs => readExponentDigits? cs
  | 'E' :: cs => readExponentDigits? cs
  | cs => some (none, cs)

def readNumber? (cs : List Char) : Option (Decimal.Literal × List Char) := do
  let (negative, unsigned) : Bool × List Char :=
    match cs with
    | '-' :: rest => (true, rest)
    | rest => (false, rest)
  let (whole, afterWhole) ← readWhole? unsigned
  let (fraction, afterFraction) ← readFraction? afterWhole
  let (exponent, rest) ← readExponent? afterFraction
  pure (⟨negative, whole, fraction, exponent⟩, rest)

mutual

/-- Reads a value that starts at the front. -/
def readValue : Nat → List Char → Option (Json × List Char)
  | 0, _ => none
  | fuel + 1, cs =>
    match skipSpace cs with
    | 'n' :: 'u' :: 'l' :: 'l' :: rest => some (.null, rest)
    | 't' :: 'r' :: 'u' :: 'e' :: rest => some (.bool true, rest)
    | 'f' :: 'a' :: 'l' :: 's' :: 'e' :: rest => some (.bool false, rest)
    | '"' :: rest => (readString rest).map fun (s, after) => (.string s, after)
    | '[' :: rest =>
      match skipSpace rest with
      | ']' :: after => some (.array [], after)
      | _ => (readItems fuel rest).map fun (items, after) => (.array items, after)
    | '\x7b' :: rest =>
      match skipSpace rest with
      | '\x7d' :: after => some (.object [], after)
      | _ => (readFields fuel rest).map fun (fields, after) => (.object fields, after)
    | rest => (readNumber? rest).map fun (n, after) => (.number n, after)

/-- Reads the items of an array, at least one, and the closing bracket. -/
def readItems : Nat → List Char → Option (List Json × List Char)
  | 0, _ => none
  | fuel + 1, cs =>
    match readValue fuel cs with
    | none => none
    | some (item, rest) =>
      match skipSpace rest with
      | ',' :: more => (readItems fuel more).map fun (items, after) => (item :: items, after)
      | ']' :: after => some ([item], after)
      | _ => none

/-- Reads the fields of an object, at least one, and the closing brace. -/
def readFields : Nat → List Char → Option (List (Name × Json) × List Char)
  | 0, _ => none
  | fuel + 1, cs =>
    match skipSpace cs with
    | '"' :: start =>
      match readString start with
      | none => none
      | some (content, afterName) =>
        let name : Name := ⟨content, isPlain start⟩
        match skipSpace afterName with
        | ':' :: body =>
          match readValue fuel body with
          | none => none
          | some (value, rest) =>
            match skipSpace rest with
            | ',' :: more =>
              (readFields fuel more).map fun (fields, after) => ((name, value) :: fields, after)
            | '\x7d' :: after => some ([(name, value)], after)
            | _ => none
        | _ => none
    | _ => none

end

/-- Reads a text that holds one value and nothing else but space. -/
def parse (s : String) : Option Json :=
  match readValue (2 * s.length + 2) s.toList with
  | some (j, rest) => if (skipSpace rest).isEmpty then some j else none
  | none => none

@[simp] theorem skipSpace_nil : skipSpace [] = [] := rfl

end DataQuality.Json
