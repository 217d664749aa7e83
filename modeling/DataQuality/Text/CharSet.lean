/-!
# Sets of characters

A set of characters is the ascending list of code points at which membership changes, so a
character belongs exactly when an odd number of boundaries lie at or below it.
-/
namespace DataQuality.Text

/-- A set of characters, given by the code points where membership flips, in ascending order. -/
structure CharSet where
  boundaries : Array Nat

namespace CharSet

/-- Whether a character belongs to the set. -/
def contains (s : CharSet) (c : Char) : Bool :=
  s.boundaries.countP (· ≤ c.toNat) % 2 == 1

end CharSet

end DataQuality.Text
