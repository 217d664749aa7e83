import DataQuality.Decimal.Shortest
import DataQuality.Json.Value
import DataQuality.Text.Quoted

/-!
# Writing JSON

A value is written without any space, or with every item on a line of its own. Strings escape the
quote, the backslash and the controls, and nothing else.
-/
namespace DataQuality.Json

/-- How one character is written inside a string. -/
def escapedChar (c : Char) : List Char :=
  if c = '"' then ['\\', '"']
  else if c = '\\' then ['\\', '\\']
  else if c = '\x08' then ['\\', 'b']
  else if c = '\x0c' then ['\\', 'f']
  else if c = '\n' then ['\\', 'n']
  else if c = '\r' then ['\\', 'r']
  else if c = '\t' then ['\\', 't']
  else if c.toNat < 32 then
    ['\\', 'u', '0', '0', Text.hexDigit (c.toNat / 16), Text.hexDigit (c.toNat % 16)]
  else [c]

/-- The written form of a string. -/
def stringChars (s : String) : List Char := '"' :: (s.toList.flatMap escapedChar ++ ['"'])

mutual

/-- The characters of a value, without any space. -/
def chars : Json → List Char
  | .null => ['n', 'u', 'l', 'l']
  | .bool true => ['t', 'r', 'u', 'e']
  | .bool false => ['f', 'a', 'l', 's', 'e']
  | .number l => l.chars
  | .string s => stringChars (s.getD "")
  | .array items => '[' :: (itemChars items ++ [']'])
  | .object fields => '\x7b' :: (fieldChars fields ++ ['\x7d'])

/-- The characters of the items of an array, with commas between them. -/
def itemChars : List Json → List Char
  | [] => []
  | [j] => j.chars
  | j :: rest => j.chars ++ ',' :: itemChars rest

/-- The characters of the fields of an object, with commas between them. -/
def fieldChars : List (Name × Json) → List Char
  | [] => []
  | [(name, value)] => stringChars (name.content.getD "") ++ ':' :: value.chars
  | (name, value) :: rest =>
    stringChars (name.content.getD "") ++ ':' :: (value.chars ++ ',' :: fieldChars rest)

end

/-- The written form of a value, without any space. -/
def render (j : Json) : String := String.ofList j.chars

def newLine (depth : Nat) : List Char := '\n' :: List.replicate (2 * depth) ' '

mutual

/-- The characters of a value that stands at a depth, with every item on a line of its own. -/
def prettyChars : Nat → Json → List Char
  | _, .null => ['n', 'u', 'l', 'l']
  | _, .bool true => ['t', 'r', 'u', 'e']
  | _, .bool false => ['f', 'a', 'l', 's', 'e']
  | _, .number l => l.chars
  | _, .string s => stringChars (s.getD "")
  | _, .array [] => ['[', ']']
  | depth, .array items => '[' :: (prettyItems (depth + 1) items ++ newLine depth ++ [']'])
  | _, .object [] => ['\x7b', '\x7d']
  | depth, .object fields =>
    '\x7b' :: (prettyFields (depth + 1) fields ++ newLine depth ++ ['\x7d'])

/-- The items of an array, each on a line of its own. -/
def prettyItems : Nat → List Json → List Char
  | _, [] => []
  | depth, [j] => newLine depth ++ prettyChars depth j
  | depth, j :: rest => newLine depth ++ prettyChars depth j ++ ',' :: prettyItems depth rest

/-- The fields of an object, each on a line of its own. -/
def prettyFields : Nat → List (Name × Json) → List Char
  | _, [] => []
  | depth, [(name, value)] =>
    newLine depth ++ stringChars (name.content.getD "") ++ ':' :: ' ' :: prettyChars depth value
  | depth, (name, value) :: rest =>
    newLine depth ++ stringChars (name.content.getD "") ++ ':' :: ' ' ::
      (prettyChars depth value ++ ',' :: prettyFields depth rest)

end

/-- The written form of a value, with every item on a line of its own. -/
def pretty (j : Json) : String := String.ofList (prettyChars 0 j)

/-- The value of a double: its shortest literal, or `null` for what is no finite number. -/
def ofFloat (x : Float) : Json :=
  if x.isFinite then .number (Decimal.Literal.ofFiniteFloat x) else .null

@[simp] theorem chars_null : chars .null = ['n', 'u', 'l', 'l'] := by simp [chars]

end DataQuality.Json
