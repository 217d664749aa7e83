import DataQuality.Decimal.Integer

/-!
# JSON values

A value keeps everything that a reader may later ask about: number literals as they were written, the
fields of an object in order, repeated ones included, and whether their names needed escapes.

A literal without point and exponent is an integer when it fits into 64 bits; minus zero does not
count as one. Every other literal is a real number. Its value is found from the digits that fit into
64 bits and one multiplication or division by a power of ten, so the last bit may differ from the
nearest double.
-/
namespace DataQuality

/-- The name of a field. -/
structure Json.Name where
  /-- What is named; `none` is a name that holds half of a surrogate pair. -/
  content : Option String
  /-- Whether every character is written as itself, and none by an escape. -/
  isPlain : Bool
  deriving DecidableEq

/-- A JSON value. -/
inductive Json
  | null
  | bool (b : Bool)
  | number (literal : Decimal.Literal)
  /-- A string; `none` is one that names half of a surrogate pair. It may be passed over but not
  read. -/
  | string (content : Option String)
  | array (items : List Json)
  | object (fields : List (Json.Name × Json))

namespace Json

/-- The value of a text. -/
def ofString (s : String) : Json := .string (some s)

def Name.ofString (s : String) : Name := ⟨some s, true⟩

/-- The value of an integer. -/
def ofInt (i : Int) : Json := .number (.ofInt i)

/-- The value of an optional datum. -/
def ofOption {α : Type} (f : α → Json) : Option α → Json
  | some a => f a
  | none => .null

def record (fields : List (String × Json)) : Json :=
  .object (fields.map fun (name, value) => (.ofString name, value))

/-- The greatest unsigned 64-bit integer. -/
def maxUInt64 : Nat := 18446744073709551615

/-- The integer that a literal stands for, between the least signed and the greatest unsigned 64-bit
integer. -/
def integer? (l : Decimal.Literal) : Option Int :=
  if l.fraction.isSome || l.exponent.isSome then none
  else
    let n := Decimal.natOfDigits l.whole
    if l.negative then
      if n = 0 || Decimal.minInt64.natAbs < n then none else some (-(n : Int))
    else if n ≤ maxUInt64 then some n
    else none

/-- Digits taken into a 64-bit number, and the power of ten they still lack. -/
structure Significand where
  value : Nat
  exponent : Int
  full : Bool
  deriving DecidableEq

/-- Takes a digit before the point. Once a digit does not fit, it and all that follow are only
counted. -/
def Significand.takeWhole (s : Significand) (c : Char) : Significand :=
  let next := s.value * 10 + Decimal.digitValue c
  if s.full || maxUInt64 < next then { s with exponent := s.exponent + 1, full := true }
  else { s with value := next }

/-- Takes a digit after the point. Once a digit does not fit, it and all that follow are dropped. -/
def Significand.takeFraction (s : Significand) (c : Char) : Significand :=
  let next := s.value * 10 + Decimal.digitValue c
  if s.full || maxUInt64 < next then { s with full := true }
  else { s with value := next, exponent := s.exponent - 1 }

/-- The digits of a literal as far as they fit. -/
def significand (l : Decimal.Literal) : Significand :=
  let whole := l.whole.foldl Significand.takeWhole ⟨0, 0, false⟩
  (l.fraction.getD []).foldl Significand.takeFraction { whole with full := false }

def tenPower (n : Nat) : Float := Float.ofScientific 1 false n

/-- Brings a significand to a power of ten; `none` when the result is too great. -/
def scaleFloat : Nat → Float → Int → Option Float
  | 0, f, _ => some f
  | fuel + 1, f, e =>
    if e.natAbs ≤ 308 then
      if 0 ≤ e then
        let g := f * tenPower e.natAbs
        if g.isInf then none else some g
      else some (f / tenPower e.natAbs)
    else if f == 0.0 then some f
    else if 0 ≤ e then none
    else scaleFloat fuel (f / tenPower 308) (e + 308)

/-- The greatest exponent that is taken at its word. -/
def maxExponent : Nat := 2147483647

/-- The value of a literal as a double; `none` when it is too great. -/
def float? (l : Decimal.Literal) : Option Float :=
  let signed (f : Float) : Float := if l.negative then -f else f
  match integer? l with
  | some i => some (signed (Float.ofScientific i.natAbs false 0))
  | none =>
    let s := significand l
    match l.exponent with
    | some e =>
      if maxExponent < e.natAbs then
        if s.value != 0 && 0 < e then none else some (signed 0.0)
      else
        let sum := s.exponent + e
        (scaleFloat 8 (Float.ofScientific s.value false 0) sum).map signed
    | none => (scaleFloat 8 (Float.ofScientific s.value false 0) s.exponent).map signed

end Json

end DataQuality
