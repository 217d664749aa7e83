import DataQuality.Text.Blank

/-!
# Whole numbers in decimal

Reading accepts an optional sign and at least one ASCII digit, nothing else, and refuses a number
outside the range of 64-bit integers. Writing gives the shortest digits, with a minus sign where the
number is negative. A number that need not be whole is written by its parts: digits, perhaps a point
and more digits, perhaps an exponent.
-/
namespace DataQuality.Decimal

def isDigit (c : Char) : Bool := '0' ≤ c && c ≤ '9'

/-- The number that a digit stands for. -/
def digitValue (c : Char) : Nat := c.toNat - 48

/-- The number written by a list of digits, most significant first. -/
def natOfDigits (ds : List Char) : Nat := ds.foldl (fun n c => 10 * n + digitValue c) 0

/-- The number written by a non-empty list of characters, if all of them are digits. -/
def readNat? (cs : List Char) : Option Nat :=
  if !cs.isEmpty && cs.all isDigit then some (natOfDigits cs) else none

/-- The integer written by an optional sign and digits. -/
def readInt? : List Char → Option Int
  | '-' :: ds => (readNat? ds).map fun n => -(n : Int)
  | '+' :: ds => (readNat? ds).map fun n => (n : Int)
  | ds => (readNat? ds).map fun n => (n : Int)

/-- The least 64-bit integer. -/
def minInt64 : Int := -9223372036854775808

/-- The greatest 64-bit integer. -/
def maxInt64 : Int := 9223372036854775807

/-- The 64-bit integer with this value, if there is one. -/
def int64? (i : Int) : Option Int64 :=
  if minInt64 ≤ i ∧ i ≤ maxInt64 then some (Int64.ofInt i) else none

/-- The 64-bit integer written by an optional sign and digits. -/
def readInt64? (cs : List Char) : Option Int64 := (readInt? cs).bind int64?

/-- The decimal digits of a natural number. -/
def natDigits (n : Nat) : List Char := Nat.toDigits 10 n

/-- The decimal form of an integer. -/
def intChars : Int → List Char
  | .ofNat n => natDigits n
  | .negSucc n => '-' :: natDigits (n + 1)

/-- The decimal form of a natural number. -/
def ofNat (n : Nat) : String := String.ofList (natDigits n)

/-- The decimal form of an integer. -/
def ofInt (i : Int) : String := String.ofList (intChars i)

/-- The decimal form of a 64-bit integer. -/
def ofInt64 (i : Int64) : String := ofInt i.toInt

/-- The digits of a number below ten to the power `width`, with zeros in front to fill the width. -/
def padded (width n : Nat) : List Char :=
  let ds := natDigits n
  List.replicate (width - ds.length) '0' ++ ds

@[simp] theorem natOfDigits_nil : natOfDigits [] = 0 := rfl

theorem natOfDigits_append_singleton (ds : List Char) (c : Char) :
    natOfDigits (ds ++ [c]) = 10 * natOfDigits ds + digitValue c := by
  simp [natOfDigits, List.foldl_append]

theorem int64?_toInt (i : Int64) : int64? i.toInt = some i := by
  have h1 := i.le_toInt
  have h2 := i.toInt_lt
  have h : minInt64 ≤ i.toInt ∧ i.toInt ≤ maxInt64 := by
    unfold minInt64 maxInt64
    omega
  simp [int64?, h]

/-- A written number. -/
structure Literal where
  negative : Bool
  whole : List Char
  fraction : Option (List Char)
  exponent : Option Int
  deriving DecidableEq, Repr

namespace Literal

/-- The characters of an exponent, which always shows its sign. -/
def exponentChars (e : Int) : List Char :=
  'e' :: (if 0 ≤ e then '+' :: intChars e else intChars e)

/-- The characters of a written number. -/
def chars (l : Literal) : List Char :=
  (if l.negative then ['-'] else []) ++ l.whole ++
    (match l.fraction with | some f => '.' :: f | none => []) ++
    (match l.exponent with | some e => exponentChars e | none => [])

def ofInt (i : Int) : Literal := ⟨i < 0, natDigits i.natAbs, none, none⟩

end Literal

end DataQuality.Decimal
