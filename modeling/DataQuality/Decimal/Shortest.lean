import DataQuality.Decimal.Integer

/-!
# The shortest decimal of a double

A finite double is `m · 2 ^ q` for whole numbers `m` and `q`. The reals that are read back as it form
an interval around it. Among the decimals in that interval, those with the fewest digits are taken,
and of these the nearest to the double.
-/
namespace DataQuality.Decimal

/-- A positive finite double as `mantissa · 2 ^ exponent`. -/
structure Binary where
  mantissa : Nat
  exponent : Int
  /-- Whether the next smaller double is nearer than the next greater one. -/
  isBoundary : Bool
  deriving DecidableEq

/-- The parts of a finite double other than its sign. -/
def Binary.ofBits (bits : Nat) : Binary :=
  let fraction : Nat := bits % Nat.pow 2 52
  let biased : Nat := bits / Nat.pow 2 52 % Nat.pow 2 11
  if biased = 0 then ⟨fraction, -1074, false⟩
  else ⟨Nat.pow 2 52 + fraction, (biased : Int) - 1075, fraction == 0 && biased != 1⟩

/-- Decimal digits and the power of ten of the last one. -/
structure Digits where
  digits : Nat
  exponent : Int
  deriving DecidableEq

/-- `4 · mantissa · 2 ^ exponent` and the two ends of its interval over one common denominator, when
everything is divided by `10 ^ grid`. -/
structure Scaled where
  low : Nat
  value : Nat
  high : Nat
  denominator : Nat

/-- Brings a double and its interval to a decimal grid. -/
def Binary.scale (b : Binary) (grid : Int) : Scaled :=
  let two : Nat := Nat.pow 2 b.exponent.natAbs
  let ten : Nat := Nat.pow 10 grid.natAbs
  let up := (if 0 ≤ b.exponent then two else 1) * (if grid < 0 then ten else 1)
  let down := 4 * (if b.exponent < 0 then two else 1) * (if 0 ≤ grid then ten else 1)
  let below := if b.isBoundary then 1 else 2
  ⟨(4 * b.mantissa - below) * up, 4 * b.mantissa * up, (4 * b.mantissa + 2) * up, down⟩

/-- Whether a whole number of grid steps is read back as the double. The ends of the interval are,
exactly when the mantissa is even. -/
def Scaled.admits (s : Scaled) (closed : Bool) (n : Nat) : Bool :=
  let x := n * s.denominator
  if closed then s.low ≤ x && x ≤ s.high else s.low < x && x < s.high

/-- The admitted neighbour of the double on the grid, the nearer one if both are; of two equally near
the even one. -/
def Scaled.nearest? (s : Scaled) (closed : Bool) : Option Nat :=
  let n := s.value / s.denominator
  match s.admits closed n, s.admits closed (n + 1) with
  | false, false => none
  | true, false => some n
  | false, true => some (n + 1)
  | true, true =>
    let rest := 2 * (s.value - n * s.denominator)
    if rest < s.denominator then some n
    else if s.denominator < rest then some (n + 1)
    else if n % 2 = 0 then some n else some (n + 1)

/-- Searches ever finer grids, from `grid` down. -/
def Binary.search (b : Binary) : Nat → Int → Digits
  | 0, grid => ⟨(b.scale grid).value / (b.scale grid).denominator, grid⟩
  | steps + 1, grid =>
    match (b.scale grid).nearest? (b.mantissa % 2 == 0) with
    | some n => if n = 0 then b.search steps (grid - 1) else ⟨n, grid⟩
    | none => b.search steps (grid - 1)

/-- The power of ten of the leading digit of a double, or one more. -/
def Binary.magnitude (b : Binary) : Int :=
  (((Nat.log2 b.mantissa : Int) + b.exponent) * 30103) / 100000 + 1

/-- The shortest digits that are read back as the double. -/
def Binary.shortest (b : Binary) : Digits :=
  let d := b.search 19 (b.magnitude + 1)
  stripZeros 20 d
where
  /-- Moves zeros at the end of the digits into the exponent. -/
  stripZeros : Nat → Digits → Digits
    | 0, d => d
    | n + 1, d =>
      if d.digits % 10 = 0 && d.digits != 0 then stripZeros n ⟨d.digits / 10, d.exponent + 1⟩ else d

/-- How digits are written: positionally, and with at least one place after the point, when the point
falls at most sixteen places after the first digit and at most four zeros follow the point;
otherwise with an exponent. -/
def Digits.literal (negative : Bool) (d : Digits) : Literal :=
  let ds := natDigits d.digits
  let point : Int := ds.length + d.exponent
  if 0 ≤ d.exponent && point ≤ 16 then
    ⟨negative, ds ++ List.replicate d.exponent.toNat '0', some ['0'], none⟩
  else if 0 < point && point ≤ 16 then
    ⟨negative, ds.take point.toNat, some (ds.drop point.toNat), none⟩
  else if -5 < point && point ≤ 0 then
    ⟨negative, ['0'], some (List.replicate point.natAbs '0' ++ ds), none⟩
  else
    match ds.tail with
    | [] => ⟨negative, ds, none, some (point - 1)⟩
    | rest => ⟨negative, ds.take 1, some rest, some (point - 1)⟩

def Literal.ofFiniteFloat (x : Float) : Literal :=
  let bits := x.toBits.toNat
  let negative := bits / Nat.pow 2 63 == 1
  let b := Binary.ofBits (bits % Nat.pow 2 63)
  if b.mantissa = 0 then ⟨negative, ['0'], some ['0'], none⟩ else b.shortest.literal negative

end DataQuality.Decimal
