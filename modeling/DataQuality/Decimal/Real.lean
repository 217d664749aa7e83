import DataQuality.Decimal.Integer

/-!
# Real numbers in decimal

Reading a decimal gives the double nearest to it. The written form is an optional sign and then
either the name of an infinity or of a value that is no number, in any letter case, or digits with
at most one point among them and an optional exponent.
-/
namespace DataQuality.Decimal

/-- A decimal number `coefficient · 10 ^ exponent` with a sign of its own. -/
structure Scientific where
  negative : Bool
  coefficient : Nat
  exponent : Int
  deriving DecidableEq

/-- The positive infinity. -/
def infinity : Float := 1.0 / 0.0

/-- The value that is no number. -/
def notANumber : Float := 0.0 / 0.0

/-- The double nearest to a decimal number. Beyond 400 decimal places on either side the answer is
known from the size of the number alone. -/
def Scientific.toFloat (d : Scientific) : Float :=
  let magnitude : Float :=
    if d.coefficient = 0 then 0.0
    else
      let size : Int := (natDigits d.coefficient).length + d.exponent
      if 400 < size then infinity
      else if size < -400 then 0.0
      else if d.exponent < 0 then Float.ofScientific d.coefficient true d.exponent.natAbs
      else Float.ofScientific d.coefficient false d.exponent.toNat
  if d.negative then -magnitude else magnitude

/-- Splits the leading digits off. -/
def spanDigits (cs : List Char) : List Char × List Char := cs.span isDigit

/-- Reads an optional exponent, which must be all that is left. -/
def readExponent? : List Char → Option Int
  | [] => some 0
  | c :: cs => if c = 'e' || c = 'E' then readInt? cs else none

/-- Reads an unsigned decimal number: digits before or after a point, then an optional exponent. -/
def readUnsigned? (negative : Bool) (cs : List Char) : Option Scientific :=
  let (whole, afterWhole) := spanDigits cs
  let (fraction, afterFraction) :=
    match afterWhole with
    | '.' :: rest => spanDigits rest
    | rest => ([], rest)
  if whole.isEmpty && fraction.isEmpty then none
  else
    (readExponent? afterFraction).map fun e =>
      ⟨negative, natOfDigits (whole ++ fraction), e - fraction.length⟩

/-- Reads a value by name, in any ASCII letter case. -/
def readNamed? (cs : List Char) : Option Float :=
  let name := String.ofList (cs.map Char.toLower)
  if name = "inf" || name = "infinity" then some infinity
  else if name = "nan" then some notANumber
  else none

/-- Reads a number without its sign. -/
def readMagnitude? (negative : Bool) (cs : List Char) : Option Float :=
  match readNamed? cs with
  | some x => some (if negative then -x else x)
  | none => (readUnsigned? negative cs).map Scientific.toFloat

/-- Reads a real number. Nothing may stand around it. -/
def readFloat? : List Char → Option Float
  | '-' :: cs => readMagnitude? true cs
  | '+' :: cs => readMagnitude? false cs
  | cs => readMagnitude? false cs

/-- Reads a real number with blank characters allowed around it. -/
def readTrimmed? (s : String) : Option Float := readFloat? (Text.trimChars s.toList)

@[simp] theorem readExponent?_nil : readExponent? [] = some 0 := rfl

end DataQuality.Decimal
