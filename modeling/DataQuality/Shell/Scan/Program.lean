import DataQuality.Shell.Regex

/-!
# Scanning programs

A program for scanning records is a row of rules: each has a pattern that tells for which records it is
meant, and statements that are carried out for these.
-/
namespace DataQuality.Shell.Scan

inductive Expression
  | number (x : Float)
  | text (cs : List Char)
  /-- Whether the record matches. -/
  | regex (r : Regex)
  | variable (name : String)
  | element (name : String) (keys : List Expression)
  | field (e : Expression)
  /-- Gives a place a new value, perhaps made of the old one by an operator. -/
  | assign (operator : Option String) (place e : Expression)
  /-- Gives a place a value that is greater or less by one; `late` tells that the old value counts. -/
  | step (up late : Bool) (place : Expression)
  | choice (test a b : Expression)
  | both (a b : Expression)
  | either (a b : Expression)
  | not (e : Expression)
  | minus (e : Expression)
  | plus (e : Expression)
  | arithmetic (operator : String) (a b : Expression)
  | compare (operator : String) (a b : Expression)
  | join (a b : Expression)
  | fits (e pattern : Expression)
  | among (keys : List Expression) (name : String)
  | call (name : String) (arguments : List Expression)
  | builtin (name : String) (arguments : List Expression)
  /-- Reads the next record. -/
  | takeRecord (place : Option Expression)
  | takeFrom (file : Expression) (place : Option Expression)
  | takePrinted (command : Expression) (place : Option Expression)

/-- Where something is printed to. -/
inductive Goal
  | file (name : Expression)
  | fileEnd (name : Expression)
  | command (script : Expression)

inductive Statement
  | evaluate (e : Expression)
  | print (es : List Expression) (goal : Option Goal)
  | format (es : List Expression) (goal : Option Goal)
  | row (ss : List Statement)
  | conditional (test : Expression) (body otherwise : Statement)
  | repeated (test : Expression) (body : Statement)
  | repeatedLate (body : Statement) (test : Expression)
  | counted (first : Statement) (test : Option Expression) (step body : Statement)
  | each (name array : String) (body : Statement)
  | leave
  | again
  | nextRecord
  | nextFile
  | exit (status : Option Expression)
  | giveBack (value : Option Expression)
  | delete (name : String) (keys : Option (List Expression))

/-- For which records a rule is meant. -/
inductive Pattern
  | first
  | last
  | every
  | when (e : Expression)
  | range (first last : Expression)

/-- A rule. Without statements, it prints the record. -/
structure Rule where
  pattern : Pattern
  body : Option Statement

/-- A function of a program. -/
structure Function where
  name : String
  parameters : List String
  body : Statement

structure Program where
  rules : List Rule
  functions : List Function

/-- A program with one more rule in front. -/
def Program.withRule (p : Program) (r : Rule) : Program := { p with rules := r :: p.rules }

def Program.withFunction (p : Program) (f : Function) : Program :=
  { p with functions := f :: p.functions }

def Program.reads (p : Program) : Bool := p.rules.any fun r =>
  match r.pattern with
  | .first => false
  | _ => true

end DataQuality.Shell.Scan
