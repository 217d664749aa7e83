import DataQuality.Decimal.Real
import DataQuality.Selector.Selection
import DataQuality.Sentence.Template

/-!
# Evaluating rules

A predicate is a sentence whose selectors have been read. One that could not be read shows only when
the predicate is evaluated. Evaluating a predicate on a unit of a document tells whether it holds,
does not hold, or cannot be decided, or ends in an error. Paths see nothing but the unit.
-/
namespace DataQuality

/-- What is known of a predicate. -/
inductive Truth
  | holds
  | fails
  | unknown
  deriving DecidableEq, Repr

/-- What is known of a predicate that can be decided. -/
def Truth.ofBool (b : Bool) : Truth := if b then .holds else .fails

/-- What a number in a sentence must be. -/
inductive OperandKind
  | integer
  | number
  deriving DecidableEq, Repr

def OperandKind.name : OperandKind → String
  | .integer => "integer"
  | .number => "number"

/-- Why a predicate cannot be evaluated. -/
inductive EvalError
  | selector (error : Selector.Error)
  /-- The number in the sentence is not what it must be. -/
  | operand (text : String) (wanted : OperandKind)
  /-- A selected value is no number. -/
  | notANumber (text : String)
  /-- There is no check for the kind of value that the sentence names. -/
  | unsupportedKind (kind : String)
  deriving DecidableEq

def EvalError.message : EvalError → String
  | selector e => e.message
  | operand text wanted =>
    "rule operand " ++ Text.quoted text ++ " is not a valid " ++ wanted.name
  | notANumber text => "selected value " ++ Text.quoted text ++ " is not a number"
  | unsupportedKind kind => "no check for values of kind " ++ Text.quoted kind

/-- A selector of a rule, or why it could not be read. -/
abbrev RuleSelector := Except Selector.Error Selector

/-- A sentence whose selectors have been read. -/
abbrev Predicate := Sentence RuleSelector

def Sentence.compile (s : Sentence String) : Predicate := s.map Selector.parse

namespace Predicate

open Markup

def found (document : Node) (unit : Place) : RuleSelector → Except EvalError (List Selector.Item)
  | .ok s => .ok (s.selectUnit document unit)
  | .error e => .error (.selector e)

/-- How many of the things that a selector finds in a unit are not blank. -/
def countPresent (document : Node) (unit : Place) (s : RuleSelector) : Except EvalError Nat :=
  (found document unit s).map fun items => items.countP fun i => !i.isBlank

/-- Whether a selector finds something that is not blank in a unit. -/
def findsAny (document : Node) (unit : Place) (s : RuleSelector) : Except EvalError Bool :=
  (countPresent document unit s).map fun n => 0 < n

/-- The number in a sentence that counts. -/
def count (text : String) : Except EvalError Int :=
  match Decimal.readInt64? (Text.trimChars text.toList) with
  | some i => .ok i.toInt
  | none => .error (.operand text .integer)

/-- The sum of some values after `sum`. Empty ones are left out. -/
def sumFrom (sum : Float) : List String → Except EvalError Float
  | [] => .ok sum
  | value :: rest =>
    if value.isEmpty then sumFrom sum rest
    else
      match Decimal.readTrimmed? value with
      | some x => sumFrom (sum + x) rest
      | none => .error (.notANumber value)

/-- Whether a value, trimmed, is an optional sign and digits. -/
def isWhole (value : String) : Bool :=
  let digits :=
    match Text.trimChars value.toList with
    | '+' :: cs => cs
    | '-' :: cs => cs
    | cs => cs
  !digits.isEmpty && digits.all Decimal.isDigit

def evaluate (document : Node) (unit : Place) : Predicate → Except EvalError Truth
  | .isPresent p => (findsAny document unit p).map Truth.ofBool
  | .eitherPresent p q => do
    if ← findsAny document unit p then pure .holds
    else (findsAny document unit q).map Truth.ofBool
  | .exactlyOnePresent p q => do
    let first ← findsAny document unit p
    let second ← findsAny document unit q
    pure (Truth.ofBool (first != second))
  | .presentTimes p times => do
    let n ← countPresent document unit p
    let wanted ← count times
    pure (Truth.ofBool ((n : Int) == wanted))
  | .presentMoreThan p times => do
    let n ← countPresent document unit p
    let limit ← count times
    pure (Truth.ofBool (limit < (n : Int)))
  | .longerThan p length => do
    let limit ← count length
    let items ← found document unit p
    pure (Truth.ofBool (items.any fun i => limit < (i.stringValue.length : Int)))
  | .sumsTo p total =>
    match Decimal.readTrimmed? total with
    | none => .error (.operand total .number)
    | some expected => do
      let items ← found document unit p
      let sum ← sumFrom 0.0 (items.map Selector.Item.stringValue)
      pure (Truth.ofBool (sum == expected))
  | .isInteger p => do
    let items ← found document unit p
    pure (Truth.ofBool (!items.isEmpty && items.all fun i => isWhole i.stringValue))
  | .isIsoDate _ => pure .unknown
  | .isOther _ kind => .error (.unsupportedKind kind)

end Predicate

end DataQuality
