import DataQuality.Id
import DataQuality.Text.Blank
import DataQuality.Text.LetterCase
import DataQuality.Text.Quoted

/-!
# Rule definitions

A rule is a sentence with an identifier and the level it applies to: an activity, a transaction inside
an activity, or an organisation. A plain rule source has one activity rule on each line, known by its
line number, so that editing one line leaves the identifiers of the others alone.
-/
namespace DataQuality

/-- The granularity at which a rule or metric is evaluated. -/
inductive Level
  | activity
  | transaction
  | organisation
  deriving DecidableEq, Repr

/-- A text that names no level, trimmed and in lower case. -/
structure LevelError where
  text : String
  deriving DecidableEq

def LevelError.message (e : LevelError) : String := "unknown level: " ++ Text.quoted e.text

namespace Level

def all : List Level := [.activity, .transaction, .organisation]

/-- The name of a level in rule files and configurations. -/
def name : Level → String
  | .activity => "activity"
  | .transaction => "transaction"
  | .organisation => "organisation"

def ofName? (s : String) : Option Level := all.find? (·.name == s)

/-- Reads a level: blank characters around it and letter case do not matter, and the organisation
level has two spellings. -/
def parse (s : String) : Except LevelError Level :=
  let key := Text.lower (Text.trim s)
  if key = "organization" then .ok .organisation
  else
    match ofName? key with
    | some l => .ok l
    | none => .error ⟨key⟩

@[simp] theorem ofName?_name (l : Level) : ofName? l.name = some l := by
  cases l <;> decide

end Level

/-- A rule sentence and when it runs. -/
structure RuleDefinition where
  id : RuleId
  sentence : String
  level : Level
  /-- Rules that are not active are compiled but never evaluated. -/
  active : Bool
  deriving DecidableEq

namespace RuleDefinition

/-- Activity rules with the identifiers from `n` on. -/
def numberFrom (n : Nat) : List String → List RuleDefinition
  | [] => []
  | line :: rest => ⟨⟨Int64.ofNat n⟩, line, .activity, true⟩ :: numberFrom (n + 1) rest

/-- The rules of a plain source, one for each line, comments and blank lines included. -/
def ofLines (source : String) : List RuleDefinition := numberFrom 1 (Text.lines source)

/-- A sentence that stands for no rule: a comment or a blank line. -/
def isIgnored (sentence : String) : Bool :=
  sentence.toList.head? = some '#' || Text.isAllBlank sentence

@[simp] theorem length_numberFrom (n : Nat) (ls : List String) :
    (numberFrom n ls).length = ls.length := by
  induction ls generalizing n with
  | nil => rfl
  | cons l ls ih => simp [numberFrom, ih]

/-- The identifiers of a plain source count on. -/
theorem id_of_mem_numberFrom {n : Nat} {lines : List String} {d : RuleDefinition}
    (hd : d ∈ numberFrom n lines) : ∃ i < lines.length, d.id = ⟨Int64.ofNat (n + i)⟩ := by
  induction lines generalizing n with
  | nil => cases hd
  | cons line rest ih =>
    rcases List.mem_cons.1 hd with rfl | hd
    · exact ⟨0, Nat.zero_lt_succ _, rfl⟩
    · obtain ⟨i, hi, hid⟩ := ih hd
      exact ⟨i + 1, Nat.succ_lt_succ hi, by rw [hid, Nat.add_assoc, Nat.add_comm 1]⟩

end RuleDefinition

end DataQuality
