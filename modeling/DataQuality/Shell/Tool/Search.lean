import DataQuality.Shell.Regex.Reader
import DataQuality.Shell.Tool.Walk

/-!
# Searching lines

The tool that searches files for lines, and shows, counts or only finds them.
-/
namespace DataQuality.Shell.Tool

/-- What lines are searched for. -/
structure Searched where
  regex : Regex
  folds : Bool
  /-- Whether the lines are meant that do not match. -/
  inverted : Bool

def Searched.isMeant (s : Searched) (l : List Char) : Bool :=
  Regex.isFound s.folds s.regex l != s.inverted

/-- The plain spelling of some signs of a richer notation. -/
def plainSpelling : List Char → List Char
  | '\\' :: 'd' :: rest => "[0-9]".toList ++ plainSpelling rest
  | '\\' :: 'D' :: rest => "[^0-9]".toList ++ plainSpelling rest
  | '\\' :: c :: rest => '\\' :: c :: plainSpelling rest
  | '(' :: '?' :: ':' :: rest => '(' :: plainSpelling rest
  | c :: rest => c :: plainSpelling rest
  | [] => []

/-- The expression that options ask for. -/
def searched? (g : Given) (patterns : List (List Char)) : Option Searched := do
  let kind := (g.last? ['E', 'F', 'G', 'P']).getD 'G'
  let read (p : List Char) : Option Regex :=
    if kind = 'F' then some (Regex.ofLiteral p)
    else if kind = 'P' then Regex.ofText? ⟨true, true⟩ (plainSpelling p)
    else Regex.ofText? ⟨kind == 'E', false⟩ p
  let r := Regex.ofAlternatives (← patterns.mapM read)
  let r :=
    if g.has 'x' then .both (.edge .textStart) (.both r (.edge .textEnd))
    else if g.has 'w' then .both (.edge .noWordBefore) (.both r (.edge .noWordAfter))
    else r
  pure ⟨r, g.has 'i' || g.has 'y', g.has 'v'⟩

/-- The patterns that arguments give, and the operands that are left. -/
def patternsOf (g : Given) : Run (Option (List (List Char) × List String)) := do
  let given := (g.values 'e').flatMap fun s => s.toList.splitOn '\n'
  match g.value? 'f' with
  | some name =>
    match ← textOf? "grep" name with
    | some cs => return some (given ++ lines cs, g.operands)
    | none => return none
  | none =>
    if g.has 'e' then return some (given, g.operands)
    else
      match g.operands with
      | p :: rest => return some (p.toList.splitOn '\n', rest)
      | [] => return none

/-- What is shown of the lines of a file: those that are meant, with those around them. -/
def shownLines (g : Given) (s : Searched) (name : List Char) (ls : List (List Char)) : List Char :=
  let number (c : Char) : Nat := (((g.value? c).or (g.value? 'C')).bind number?).getD 0
  let (before, after) := (number 'B', number 'A')
  let around := 0 < before || 0 < after
  let most := (((g.value? 'm').bind number?)).getD ls.length
  let numbered := ls.zipIdx 1
  let meant := ((numbered.filter fun (l, _) => s.isMeant l).take most).map (·.2)
  let lead (n : Nat) (sign : Char) : List Char :=
    (if name.isEmpty then [] else name ++ [sign]) ++
      (if g.has 'n' then Decimal.natDigits n ++ [sign] else [])
  let shown (l : List Char) (n : Nat) : List Char :=
    if g.has 'o' then
      if s.inverted then []
      else ((Regex.matchesIn s.folds s.regex l).filter fun f => !f.text.isEmpty).flatMap fun f =>
        lead n ':' ++ f.text ++ ['\n']
    else lead n ':' ++ l ++ ['\n']
  if !around then (numbered.filter fun (_, n) => meant.contains n).flatMap fun (l, n) => shown l n
  else
    let isNear (n : Nat) : Bool := meant.any fun k => k ≤ n + before && n ≤ k + after
    let near := numbered.filter fun (_, n) => isNear n
    ((near.foldl (fun ((last, out) : Nat × List (List Char)) (l, n) =>
      let gap := if last != 0 && last + 1 < n then ['-', '-', '\n'] else []
      (n, (gap ++ if meant.contains n then shown l n
        else if g.has 'o' then [] else lead n '-' ++ l ++ ['\n']) :: out)) (0, [])).2).reverse.flatten

/-- The files to search: those that operands name, and with the option `r` those in folders. -/
def filesToSearch (g : Given) (operands : List String) : Run (List String) := do
  let m ← get
  let recursive := g.has 'r' || g.has 'R'
  let operands := if operands.isEmpty then [if recursive then "." else "-"] else operands
  if !recursive then return operands
  let isWanted (path : String) : Bool :=
    let name := ((path.toList.splitOn '/').getLast?).getD []
    let fits (p : String) : Bool := matchesPattern (p.toList.map (·, false)) name
    (!g.has 'I' || (g.values 'I').any fits) && !(g.values 'X').any fits
  return operands.flatMap fun name =>
    if isFolderAt m true name then (filesUnder m name).filter isWanted else [name]

/-- Searches files for lines. -/
def grep : Action := fun g => do
  match ← patternsOf g with
  | none => refuse "grep" "a pattern is missing" 2
  | some (patterns, operands) =>
    match searched? g patterns with
    | none => refuse "grep" "invalid pattern" 2
    | some s => do
      let names ← filesToSearch g operands
      let several := 1 < operands.length || g.has 'r' || g.has 'R'
      let named := (several || g.has 'H') && !g.has 'h'
      let (found, failed) ← names.foldlM (fun ((found, failed) : Bool × Bool) name => do
        if found && g.has 'q' then return (found, failed)
        match ← (if g.has 's' && name != "-" then do
            return (← readFile name).toOption else textOf? "grep" name) with
        | none => return (found, true)
        | some cs =>
          let ls := linesBy (if g.has 'z' then '\x00' else '\n') cs
          let most := ((g.value? 'm').bind number?).getD ls.length
          let count := min most (ls.filter s.isMeant).length
          let label := (if name = "-" then "(standard input)" else name).toList
          let lead := if named then label else []
          if !g.has 'q' then
            if g.has 'l' then print (if 0 < count then label ++ ['\n'] else [])
            else if g.has 'L' then print (if 0 < count then [] else label ++ ['\n'])
            else if g.has 'c' then
              print ((if named then lead ++ [':'] else []) ++ Decimal.natDigits count ++ ['\n'])
            else print (shownLines g s lead ls)
          let hit := if g.has 'L' then count = 0 else 0 < count
          return (found || hit, failed)) (false, false)
      return if found && g.has 'q' then 0 else if failed then 2 else statusOf found

def searchOptions : Options where
  flags := "EFGPivwxclLqsnbHhorRyazZTU"
  valued := "efmABCIX"
  optional := "K"
  names := [("extended-regexp", 'E'), ("fixed-strings", 'F'), ("basic-regexp", 'G'),
    ("perl-regexp", 'P'), ("regexp", 'e'), ("file", 'f'), ("ignore-case", 'i'), ("invert-match", 'v'),
    ("word-regexp", 'w'), ("line-regexp", 'x'), ("count", 'c'), ("color", 'K'), ("colour", 'K'),
    ("files-without-match", 'L'), ("files-with-matches", 'l'), ("max-count", 'm'),
    ("only-matching", 'o'), ("quiet", 'q'), ("silent", 'q'), ("no-messages", 's'),
    ("with-filename", 'H'), ("no-filename", 'h'), ("line-number", 'n'), ("after-context", 'A'),
    ("before-context", 'B'), ("context", 'C'), ("recursive", 'r'), ("dereference-recursive", 'R'),
    ("include", 'I'), ("exclude", 'X'), ("text", 'a'), ("null-data", 'z'), ("null", 'Z')]

def searchTools : List (String × Utility) := [
  ("grep", ⟨searchOptions, 2, id, grep⟩),
  ("egrep", ⟨searchOptions, 2, id, fun g => grep (g.withOption 'E' "")⟩),
  ("fgrep", ⟨searchOptions, 2, id, fun g => grep (g.withOption 'F' "")⟩)]

end DataQuality.Shell.Tool
