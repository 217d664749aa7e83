import DataQuality.Json.Decode
import DataQuality.Text.LetterCase

/-!
# Codelists

A codelist gives names to codes. Letter case does not matter in codes; of several names for one code
the last counts.
-/
namespace DataQuality

/-- A codelist: each code, in upper case, with its name. -/
structure Codelist where
  entries : List (String × String)
  deriving DecidableEq

namespace Codelist

/-- The codelist without codes. -/
def empty : Codelist := ⟨[]⟩

def insert (c : Codelist) (code name : String) : Codelist :=
  let key := Text.upper code
  ⟨c.entries.filter (fun e => e.1 != key) ++ [(key, name)]⟩

def ofList (pairs : List (String × String)) : Codelist :=
  pairs.foldl (fun c (code, name) => c.insert code name) empty

def nameOf? (c : Codelist) (code : String) : Option String := c.entries.lookup (Text.upper code)

/-- The number of codes. -/
def size (c : Codelist) : Nat := c.entries.length

/-- Reads a codelist: an object of codes and names. -/
def ofJson? : Json → Option Codelist
  | .object fields => do
    let pairs ← fields.mapM fun (code, name) => do pure (← code.content, ← name.asString?)
    pure (ofList pairs)
  | _ => none

end Codelist

end DataQuality
