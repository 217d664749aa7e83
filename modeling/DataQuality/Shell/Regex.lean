import DataQuality.Shell.Pattern

/-!
# Regular expressions

What regular expressions match. A match is looked for from left to right; of the matches that begin at
one place the longest one counts, and inside of it each part is as long as it can be, the first one
first.
-/
namespace DataQuality.Shell

/-- A place in a text, by what stands around it. -/
inductive Edge
  | textStart
  | textEnd
  | wordStart
  | wordEnd
  | wordBorder
  | noWordBorder
  /-- No character of a word before it. -/
  | noWordBefore
  /-- No character of a word behind it. -/
  | noWordAfter
  deriving DecidableEq, Repr

/-- A regular expression. -/
inductive Regex
  | empty
  | one (c : Char)
  | any
  | among (b : Bracket)
  | edge (e : Edge)
  /-- A part with a number. -/
  | part (n : Nat) (r : Regex)
  /-- What the part with a number has matched. -/
  | again (n : Nat)
  | both (a b : Regex)
  | either (a b : Regex)
  | repeated (r : Regex) (least : Nat) (most : Option Nat)
  deriving Repr

namespace Regex

/-- How far a text has been matched. -/
structure Reached where
  /-- The number of characters before this place. -/
  place : Nat
  previous : Option Char
  rest : List Char
  /-- The numbers of the parts that have been matched, with where each of them begins and its text. -/
  parts : List (Nat × Nat × List Char)

/-- A character that belongs to a word. -/
def isWordChar (c : Char) : Bool := c.isAlphanum || c == '_'

/-- Whether a place is one of a kind. -/
def Reached.isAt (s : Reached) (e : Edge) : Bool :=
  let before := s.previous.any isWordChar
  let after := s.rest.head?.any isWordChar
  match e with
  | .textStart => s.previous.isNone
  | .textEnd => s.rest.isEmpty
  | .wordStart => !before && after
  | .wordEnd => before && !after
  | .wordBorder => before != after
  | .noWordBorder => before == after
  | .noWordBefore => !before
  | .noWordAfter => !after

/-- The place after the next character. -/
def Reached.step (s : Reached) : Reached :=
  match s.rest with
  | c :: rest => { s with place := s.place + 1, previous := some c, rest := rest }
  | [] => s

/-- The place some characters further on. -/
def Reached.steps (s : Reached) : Nat → Reached
  | 0 => s
  | n + 1 => s.step.steps n

/-- Places with the furthest one first. Of those at one place with the same parts, only the first one
is kept. -/
def tidy (states : List Reached) : List Reached :=
  match states with
  | [] => []
  | [s] => [s]
  | states => thin (states.mergeSort fun a b => b.place ≤ a.place)
where
  /-- Drops what stands behind its like. -/
  thin : List Reached → List Reached
    | a :: b :: rest =>
      if a.place = b.place && a.parts == b.parts then thin (a :: rest) else a :: thin (b :: rest)
    | states => states

/-- Whether two characters are the same, perhaps but for their case. -/
def same (folds : Bool) (a b : Char) : Bool := a == b || (folds && a.toLower == b.toLower)

/-- Whether an expression is met by single characters, and by which ones. -/
def admits? (folds : Bool) : Regex → Option (Char → Bool)
  | .one d => some fun c => same folds c d
  | .any => some fun _ => true
  | .among b => some fun c =>
    if folds && !b.negated then b.admits c.toLower || b.admits c.toUpper
    else if folds then b.admits c.toLower && b.admits c.toUpper
    else b.admits c
  | _ => none

/-- The places that further steps lead to, none of them twice. -/
def onward (step : Reached → List Reached) :
    Nat → List Reached → List Reached → List Reached
  | 0, seen, _ => seen
  | rounds + 1, seen, front =>
    let isNew (s : Reached) : Bool := !seen.any fun t => t.place == s.place && t.parts == s.parts
    match (tidy (front.flatMap step)).filter isNew with
    | [] => seen
    | front => onward step rounds (seen ++ front) front

/-- Where matches of an expression end that begin at some place, the furthest end first. -/
def ends (folds : Bool) : Regex → Reached → List Reached
  | .empty, s => [s]
  | .one d, s => if s.rest.head?.any (same folds · d) then [s.step] else []
  | .any, s => if s.rest.isEmpty then [] else [s.step]
  | .among b, s =>
    match admits? folds (.among b), s.rest with
    | some test, c :: _ => if test c then [s.step] else []
    | _, _ => []
  | .edge e, s => if s.isAt e then [s] else []
  | .part n r, s => (ends folds r s).map fun t =>
    { t with parts := (n, s.place, s.rest.take (t.place - s.place)) :: t.parts.filter (·.1 != n) }
  | .again n, s =>
    match s.parts.lookup n with
    | some (_, text) =>
      let fits := text.length ≤ s.rest.length && (text.zip s.rest).all fun (a, b) => same folds a b
      if fits then [s.steps text.length] else []
    | none => []
  | .both a b, s => tidy ((ends folds a s).flatMap (ends folds b))
  | .either a b, s => tidy (ends folds a s ++ ends folds b s)
  | .repeated r least most, s =>
    match admits? folds r with
    | some test =>
      let met := (s.rest.takeWhile test).length
      let count := min met (most.getD met)
      if count < least then []
      else ((List.range (count - least + 1)).foldl (fun (found, t) _ => (t :: found, Reached.step t))
        (([] : List Reached), s.steps least)).1
    | none =>
      let begun := (List.range least).foldl (fun states _ => tidy (states.flatMap (ends folds r))) [s]
      let rounds := match most with
        | some n => n - least
        | none => s.rest.length + 1
      tidy (onward (ends folds r) rounds begun begun)

/-- A match: where it begins, its text, and the texts of the parts. -/
structure Found where
  place : Nat
  text : List Char
  parts : List (Nat × List Char)

/-- The first match at a place or behind it, and how far the text has been matched then. -/
def findFrom (folds : Bool) (r : Regex) : List Char → Reached → Option (Found × Reached)
  | rest, s =>
    match ends folds r s with
    | t :: _ =>
      some (⟨s.place, rest.take (t.place - s.place), t.parts.map fun (n, _, text) => (n, text)⟩,
        { t with parts := [] })
    | [] =>
      match rest with
      | _ :: rest => findFrom folds r rest s.step
      | [] => none

/-- The place before a text. -/
def Reached.start (cs : List Char) : Reached := ⟨0, none, cs, []⟩

/-- The first match in a text. -/
def find? (folds : Bool) (r : Regex) (cs : List Char) : Option Found :=
  (findFrom folds r cs (.start cs)).map (·.1)

/-- Whether an expression matches somewhere in a text. -/
def isFound (folds : Bool) (r : Regex) (cs : List Char) : Bool := (find? folds r cs).isSome

/-- All matches in a text, one behind the other, at most some number of them. Behind an empty match the
search goes on with the next character, and no empty match follows another one directly. -/
def findAll (folds : Bool) (r : Regex) : Nat → Reached → Option Nat → List Found
  | 0, _, _ => []
  | fuel + 1, s, last =>
    match findFrom folds r s.rest s with
    | none => []
    | some (found, after) =>
      if found.text.isEmpty then
        let further := if after.rest.isEmpty then [] else findAll folds r fuel after.step none
        if last = some found.place then further else found :: further
      else found :: findAll folds r fuel after (some after.place)

/-- All matches in a whole text. -/
def matchesIn (folds : Bool) (r : Regex) (cs : List Char) : List Found :=
  findAll folds r (cs.length + 2) (.start cs) none

end Regex

end DataQuality.Shell
