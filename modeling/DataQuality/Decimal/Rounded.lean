import DataQuality.Decimal.Real
import DataQuality.Decimal.Shortest

/-!
# Rounded decimals of doubles

A double is written with a given number of digits behind the point, or with a given number of digits
altogether. The digits are those of the decimal nearest to the double itself; of two equally near ones
the even one counts.
-/
namespace DataQuality.Decimal

/-- The natural number nearest to a quotient; of two equally near ones the even one. -/
def roundedQuotient (a b : Nat) : Nat :=
  let n := a / b
  let rest := 2 * (a - n * b)
  if rest < b then n else if b < rest then n + 1 else if n % 2 = 0 then n else n + 1

/-- The natural number nearest to a double times a power of ten. -/
def Binary.times (b : Binary) (power : Int) : Nat :=
  let s := b.scale (-power)
  roundedQuotient s.value s.denominator

/-- The digits of a double with some places behind the point. -/
def Binary.fixed (b : Binary) (places : Nat) (keepsPoint : Bool) : List Char :=
  let n := b.times places
  let whole := natDigits (n / Nat.pow 10 places)
  if places = 0 then whole ++ if keepsPoint then ['.'] else []
  else whole ++ '.' :: padded places (n % Nat.pow 10 places)

/-- The first digit of a double and some after it, as one number, and the power of ten of the first
one. -/
def Binary.leading (b : Binary) (places : Nat) : Nat × Int :=
  if b.mantissa = 0 then (0, 0) else search 4 (b.magnitude + 1)
where
  /-- Tries a power of ten and then smaller ones. -/
  search : Nat → Int → Nat × Int
    | 0, power => (b.times (places - power), power)
    | steps + 1, power =>
      let n := b.times (places - power)
      if Nat.pow 10 (places + 1) ≤ n then (n / 10, power + 1)
      else if Nat.pow 10 places ≤ n then (n, power)
      else search steps (power - 1)

/-- The written form of a power of ten: a sign and at least two digits. -/
def powerChars (e : Int) : List Char :=
  (if e < 0 then '-' else '+') :: (if e.natAbs < 10 then ['0'] else []) ++ natDigits e.natAbs

/-- A double as a digit with some places behind the point and a power of ten. -/
def Binary.scientific (b : Binary) (places : Nat) (keepsPoint : Bool) : List Char :=
  let (n, power) := b.leading places
  let ds := padded (places + 1) n
  let digits :=
    match ds.tail with
    | [] => ds ++ if keepsPoint then ['.'] else []
    | rest => ds.take 1 ++ '.' :: rest
  digits ++ 'e' :: powerChars power

/-- The text without zeros at the end of its places, and without a point at its end. -/
def withoutZeros (cs : List Char) : List Char :=
  if cs.contains '.' then
    match (cs.reverse.dropWhile (· == '0')) with
    | '.' :: rest => rest.reverse
    | rest => rest.reverse
  else cs

/-- A double with some number of digits at most: positionally or with a power of ten, whichever is
shorter. -/
def Binary.general (b : Binary) (digits : Nat) (keepsZeros : Bool) : List Char :=
  let digits := max digits 1
  let (_, power) := b.leading (digits - 1)
  if -4 ≤ power && power < digits then
    let cs := b.fixed ((digits : Int) - 1 - power).toNat keepsZeros
    if keepsZeros then cs else withoutZeros cs
  else
    let cs := b.scientific (digits - 1) keepsZeros
    if keepsZeros then cs
    else withoutZeros (cs.takeWhile (· != 'e')) ++ cs.dropWhile (· != 'e')

/-- How a double is written down. -/
inductive Form
  | fixed
  | scientific
  | general
  deriving DecidableEq, Repr

/-- A double without its sign, rounded to some places or digits. -/
def roundedChars (form : Form) (precision : Nat) (keepsZeros : Bool) (x : Float) : List Char :=
  if x.isNaN then ['n', 'a', 'n']
  else if x.isInf then ['i', 'n', 'f']
  else
    let b := Binary.ofBits x.toBits.toNat
    match form with
    | .fixed => b.fixed precision keepsZeros
    | .scientific => b.scientific precision keepsZeros
    | .general => b.general precision keepsZeros

/-- Whether a double has the sign of negative numbers. -/
def isNegative (x : Float) : Bool := !x.isNaN && Nat.pow 2 63 ≤ x.toBits.toNat

/-- A double with its sign, rounded to some places or digits. -/
def rounded (form : Form) (precision : Nat) (x : Float) : String :=
  String.ofList ((if isNegative x then ['-'] else []) ++ roundedChars form precision false x)

/-- Reads a real number at the front of a text, as much of it as there is. -/
def readFloatPrefix? (cs : List Char) : Option (Float × List Char) :=
  let (negative, body) : Bool × List Char :=
    match cs with
    | '-' :: rest => (true, rest)
    | '+' :: rest => (false, rest)
    | rest => (false, rest)
  let named (name : String) (x : Float) : Option (Float × List Char) :=
    if (body.take name.length).map Char.toLower = name.toList then
      some (if negative then -x else x, body.drop name.length)
    else none
  let (whole, afterWhole) := spanDigits body
  let (fraction, afterFraction) :=
    match afterWhole with
    | '.' :: rest => spanDigits rest
    | rest => ([], rest)
  if whole.isEmpty && fraction.isEmpty then
    (named "infinity" infinity).or ((named "inf" infinity).or (named "nan" notANumber))
  else
    let (e, rest) : Int × List Char :=
      match afterFraction with
      | c :: more =>
        if c = 'e' || c = 'E' then
          let (sign, digits) : List Char × List Char :=
            match more with
            | '-' :: ds => (['-'], ds)
            | '+' :: ds => (['+'], ds)
            | ds => ([], ds)
          let (ds, after) := spanDigits digits
          if ds.isEmpty then (0, afterFraction) else ((readInt? (sign ++ ds)).getD 0, after)
        else (0, afterFraction)
      | [] => (0, [])
    let d : Scientific := ⟨negative, natOfDigits (whole ++ fraction), e - fraction.length⟩
    some (d.toFloat, rest)

end DataQuality.Decimal
