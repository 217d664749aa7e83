import DataQuality.Text.Blank

/-!
# Rule sentences

A rule is written as a sentence of one of eight templates. A template fixes the words of a sentence
and leaves places for selectors, which contain no blank character, and for a number or the name of a
kind of value. A text is read by the template that its beginning fits. What follows the sentence does
not matter, but for the name of a kind of value: it ends at the last question mark of its line.
-/
namespace DataQuality

/-- What a sentence says about the selectors in it. -/
inductive Sentence (σ : Type)
  | isPresent (path : σ)
  | eitherPresent (first second : σ)
  | exactlyOnePresent (first second : σ)
  | presentTimes (path : σ) (times : String)
  | presentMoreThan (path : σ) (times : String)
  | longerThan (path : σ) (length : String)
  | sumsTo (path : σ) (total : String)
  | isInteger (path : σ)
  | isIsoDate (path : σ)
  /-- The kind of value is one for which there is no check. -/
  | isOther (path : σ) (kind : String)
  deriving DecidableEq, Repr

namespace Sentence

def map {σ τ : Type} (f : σ → τ) : Sentence σ → Sentence τ
  | isPresent p => .isPresent (f p)
  | eitherPresent p q => .eitherPresent (f p) (f q)
  | exactlyOnePresent p q => .exactlyOnePresent (f p) (f q)
  | presentTimes p n => .presentTimes (f p) n
  | presentMoreThan p n => .presentMoreThan (f p) n
  | longerThan p n => .longerThan (f p) n
  | sumsTo p n => .sumsTo (f p) n
  | isInteger p => .isInteger (f p)
  | isIsoDate p => .isIsoDate (f p)
  | isOther p kind => .isOther (f p) kind

/-- The sentence that a value is of a kind. Two kinds have a check. -/
def ofKind {σ : Type} (path : σ) (kind : List Char) : Sentence σ :=
  let kind := String.ofList kind
  if kind = "iso date" then .isIsoDate path
  else if kind = "integer" then .isInteger path
  else .isOther path kind

/-- The templates, each named for what its sentences say. -/
inductive Template
  | isA
  | longerThan
  | sumsTo
  | presentTimes
  | presentMoreThan
  | exactlyOnePresent
  | eitherPresent
  | isPresent
  deriving DecidableEq, Repr

namespace Template

def all : List Template :=
  [isA, longerThan, sumsTo, presentTimes, presentMoreThan, exactlyOnePresent, eitherPresent,
    isPresent]

/-- The characters up to the first blank one, and what follows. -/
def word (cs : List Char) : List Char × List Char := cs.span fun c => !Text.isBlank c

def after? (words : String) (cs : List Char) : Option (List Char) :=
  if words.toList.isPrefixOf cs then some (cs.drop words.length) else none

/-- The characters before the last question mark. -/
def beforeLastMark? (cs : List Char) : Option (List Char) :=
  match cs.reverse.dropWhile (· != '?') with
  | _ :: before => some before.reverse
  | [] => none

/-- The ending of a count, with one time or several. -/
def endsTimes (cs : List Char) : Bool := (after? " times?" cs).isSome || (after? " time?" cs).isSome

/-- Reads a sentence of a template at the beginning of a text. -/
def read? (template : Template) (cs : List Char) : Option (Sentence String) :=
  let (path, rest) := word cs
  let path := String.ofList path
  match template with
  | isA => do
    let rest ← (after? " is an " rest).or (after? " is a " rest)
    let kind ← beforeLastMark? (rest.takeWhile (· != '\n'))
    pure (ofKind path kind)
  | longerThan => do
    let rest ← after? " has more than " rest
    let (number, rest) := word rest
    let _ ← after? " characters?" rest
    pure (.longerThan path (String.ofList number))
  | sumsTo => do
    let rest ← after? " sum to " rest
    let number ← beforeLastMark? (word rest).1
    pure (.sumsTo path (String.ofList number))
  | presentTimes => do
    let rest ← after? " exists " rest
    let (number, rest) := word rest
    if endsTimes rest then pure (.presentTimes path (String.ofList number)) else none
  | presentMoreThan => do
    let rest ← after? " exists more than " rest
    let (number, rest) := word rest
    if endsTimes rest then pure (.presentMoreThan path (String.ofList number)) else none
  | exactlyOnePresent => do
    let rest ← after? "only one of " cs
    let (first, rest) := word rest
    let rest ← after? " or " rest
    let (second, rest) := word rest
    let _ ← after? " exists?" rest
    pure (.exactlyOnePresent (String.ofList first) (String.ofList second))
  | eitherPresent => do
    let rest ← after? " or " rest
    let (second, rest) := word rest
    let _ ← after? " exists?" rest
    pure (.eitherPresent path (String.ofList second))
  | isPresent => do
    let _ ← after? " exists?" rest
    pure (.isPresent path)

end Template

/-- Reads a sentence of any of these templates, the first that fits. -/
def readBy? (templates : List Template) (s : String) : Option (Sentence String) :=
  templates.findSome? fun t => t.read? s.toList

def read? (s : String) : Option (Sentence String) := readBy? Template.all s

theorem Template.mem_all (t : Template) : t ∈ all := by cases t <;> decide

end Sentence

end DataQuality
