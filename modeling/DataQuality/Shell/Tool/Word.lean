import DataQuality.Shell.Condition
import DataQuality.Shell.Format
import DataQuality.Shell.Tool.Disk
import DataQuality.Shell.Tool.Expression

/-!
# Tools for words

Tools that print what their arguments say: words, formatted texts, rows of numbers and parts of paths.
-/
namespace DataQuality.Shell.Tool

/-- Runs on without an end. A program whose output nobody reads any more ends then, and another one when
its time is over. -/
def runForever {α : Type} : Run α := do
  let m ← get
  if m.feeds then throw (.ended (.killed 13))
  match m.deadline with
  | some d =>
    modifyWorld fun w => w.setClock (max w.clock d)
    throw .expired
  | none => throw (.ended (.killed 9))

/-- Prints words as a shell does by itself: escapes in them are replaced. -/
def echoInShell (args : List String) : Run Nat := do
  let (ending, args) : List Char × List String :=
    match args with
    | "-n" :: rest => ([], rest)
    | rest => (['\n'], rest)
  let (cs, stopped) := unescapedAll (" ".intercalate args).toList
  print (cs ++ if stopped then [] else ending)
  return 0

/-- Prints words. Escapes in them are replaced only if they are asked for. -/
def echo (args : List String) : Run Nat := do
  let isOption (a : String) : Bool :=
    match a.toList with
    | '-' :: c :: rest => (c :: rest).all ['n', 'e', 'E'].contains
    | _ => false
  let letters := (args.takeWhile isOption).flatMap fun a => a.toList.drop 1
  let text := (" ".intercalate (args.dropWhile isOption)).toList
  let escapes := (letters.filter (· != 'n')).getLast? == some 'e'
  let (cs, stopped) := if escapes then unescapedAll text else (text, false)
  print (cs ++ if stopped || letters.contains 'n' then [] else ['\n'])
  return 0

/-- Prints its arguments as a format says; `none` if there is no format. -/
def printf? (args : List String) : Option (Run Nat) :=
  match if args.head? = some "--" then args.tail else args with
  | [] => none
  | f :: args => some do
    let shown := formatAll (args.length + 1) f.toList args
    print shown.text
    return shown.status

/-- Prints its arguments as a format says. -/
def printf (args : List String) : Run Nat := do
  match printf? args with
  | none => refuse "printf" "missing operand" 1
  | some body => return min 1 (← body)

/-- A decimal number: so many units of some decimal place. -/
structure Fixed where
  units : Int
  places : Nat
  deriving DecidableEq, Repr

namespace Fixed

/-- Reads a decimal number. -/
def ofText? (s : String) : Option Fixed :=
  let (negative, cs) : Bool × List Char :=
    match s.toList with
    | '-' :: rest => (true, rest)
    | '+' :: rest => (false, rest)
    | cs => (false, cs)
  let (whole, rest) := cs.span Decimal.isDigit
  let part : Option (List Char) :=
    match rest with
    | [] => some []
    | '.' :: ds => if ds.all Decimal.isDigit then some ds else none
    | _ => none
  match part with
  | some part =>
    if whole.isEmpty && part.isEmpty then none
    else
      let n : Int := Decimal.natOfDigits (whole ++ part)
      some ⟨if negative then -n else n, part.length⟩
  | none => none

/-- The number of units at another place, at least as far behind the point. -/
def unitsAt (x : Fixed) (places : Nat) : Int := x.units * (Nat.pow 10 (places - x.places) : Nat)

/-- Decimal digits with some of them behind the point. -/
def chars (units : Int) (places : Nat) : List Char :=
  let ds := Decimal.natDigits units.natAbs
  let ds := List.replicate (places + 1 - ds.length) '0' ++ ds
  let whole := ds.take (ds.length - places)
  let part := ds.drop (ds.length - places)
  (if units < 0 then ['-'] else []) ++ whole ++ if places = 0 then [] else '.' :: part

end Fixed

/-- How numbers in a row are shown. -/
structure RowStyle where
  between : String := "\n"
  /-- Whether all numbers get the same width. -/
  even : Bool := false
  format : Option String := none

/-- Reads the options for a row of numbers. A minus sign before a digit is the sign of a number. -/
def readRowStyle? (style : RowStyle) : List String → Option (RowStyle × List String)
  | a :: rest =>
    let valued (c : Char) (value : String) : RowStyle :=
      if c = 's' then { style with between := value } else { style with format := some value }
    match a.toList with
    | ['-', '-'] => some (style, rest)
    | '-' :: '-' :: name =>
      match String.ofList (name.takeWhile (· != '=')), name.dropWhile (· != '=') with
      | "equal-width", [] => readRowStyle? { style with even := true } rest
      | "separator", _ :: value => readRowStyle? (valued 's' (String.ofList value)) rest
      | "format", _ :: value => readRowStyle? (valued 'f' (String.ofList value)) rest
      | _, _ => none
    | '-' :: c :: more =>
      if c.isDigit || c = '.' then some (style, a :: rest)
      else if c = 'w' && more.isEmpty then readRowStyle? { style with even := true } rest
      else if c = 's' || c = 'f' then
        match more, rest with
        | [], value :: rest => readRowStyle? (valued c value) rest
        | [], [] => none
        | more, rest => readRowStyle? (valued c (String.ofList more)) rest
      else none
    | _ => some (style, a :: rest)
  | [] => some (style, [])

/-- The most numbers of a row that are printed. -/
def mostNumbers : Nat := 1000000

def numberRow (style : RowStyle) (first step last : Fixed) : List Char :=
  let places := max first.places (max step.places last.places)
  let shownPlaces := max first.places step.places
  let (a, d, b) := (first.unitsAt places, step.unitsAt places, last.unitsAt places)
  let count : Int := if 0 < d then (b - a) / d + 1 else (a - b) / (-d) + 1
  let unit : Int := (Nat.pow 10 (places - shownPlaces) : Nat)
  let number (i : Nat) : List Char := Fixed.chars (Int.tdiv (a + i * d) unit) shownPlaces
  let width := max (number 0).length (Fixed.chars (Int.tdiv b unit) shownPlaces).length
  let filled (cs : List Char) : List Char :=
    let missing := List.replicate (width - cs.length) '0'
    match cs with
    | '-' :: ds => '-' :: missing ++ ds
    | ds => missing ++ ds
  let show1 (i : Nat) : List Char :=
    match style.format with
    | some f => (format (f.length + 1) f.toList [String.ofList (number i)]).text
    | none => if style.even then filled (number i) else number i
  let shown := (List.range (min count.toNat mostNumbers)).map show1
  if shown.isEmpty then [] else style.between.toList.intercalate shown ++ ['\n']

/-- Prints a row of numbers. -/
def seq (args : List String) : Run Nat := do
  match readRowStyle? {} args with
  | none => refuse "seq" "invalid option" 1
  | some (style, operands) =>
    let one : Fixed := ⟨1, 0⟩
    let show1 (first step last : Fixed) : Run Nat := do
      if step.units = 0 then return ← refuse "seq" "invalid Zero increment value: '0'" 1
      print (numberRow style first step last)
      return 0
    match operands.mapM Fixed.ofText? with
    | some [last] => show1 one one last
    | some [first, last] => show1 first one last
    | some [first, step, last] => show1 first step last
    | _ => refuse "seq" "invalid floating point argument" 1

/-- Prints a line again and again. -/
def yes (args : List String) : Run Nat := do
  let line := (if args.isEmpty then "y" else " ".intercalate args).toList ++ ['\n']
  print (List.replicate (World.mostZeros / line.length + 1) line).flatten
  if (← get).broken then return 1
  runForever

/-- Prints the last names of paths, without an ending if one is given. -/
def basename : Action := fun g => do
  let several := g.has 'a' || g.has 's'
  let (names, ending) : List String × String :=
    match several, g.operands with
    | false, [name, ending] => ([name], ending)
    | _, names => (names, (g.value? 's').getD "")
  if names.isEmpty || (!several && 1 < names.length) then
    return ← refuse "basename" "wrong number of operands" 1
  for s in names do
    let name := lastName s
    let short :=
      if name ≠ ending && name.endsWith ending then (name.dropEnd ending.length).toString else name
    print (short.toList ++ [if g.has 'z' then '\x00' else '\n'])
  return 0

/-- Prints paths without their last names. -/
def dirname : Action := fun g => do
  if g.operands.isEmpty then return ← refuse "dirname" "missing operand" 1
  for s in g.operands do
    print ((folderName s).toList ++ [if g.has 'z' then '\x00' else '\n'])
  return 0

/-- The least divisors, one after the other. -/
def divisors : Nat → Nat → Nat → List Nat
  | 0, _, n => [n]
  | fuel + 1, d, n =>
    if n < 2 then []
    else if n < d * d then [n]
    else if n % d = 0 then d :: divisors fuel d (n / d)
    else divisors fuel (d + 1) n

/-- The most divisors that are tried. -/
def mostDivisors : Nat := 1000000

/-- Prints the prime divisors of numbers. -/
def factor : Action := fun g => do
  let input ← if g.operands.isEmpty then readAllOn 0 else pure []
  let words := ((input.splitOnP isSpace).filter fun w => !w.isEmpty).map String.ofList
  forEach (g.operands ++ words) fun s => do
    match number? (if s.startsWith "+" then (s.drop 1).toString else s) with
    | none => refuse "factor" (s ++ " is not a valid positive integer") 1
    | some n =>
      let ds := (divisors mostDivisors 2 n).map fun d => " " ++ Decimal.ofNat d
      printLine (Decimal.ofNat n ++ ":" ++ String.join ds)
      return 0

/-- The tools of this module that have options. -/
def wordTools : List (String × Utility) := [
  ("basename", ⟨⟨"az", "s", "", [("multiple", 'a'), ("suffix", 's'), ("zero", 'z')], false⟩, 1, id,
    basename⟩),
  ("dirname", ⟨⟨"z", "", "", [("zero", 'z')], true⟩, 1, id, dirname⟩),
  ("factor", ⟨⟨"h", "", "", [("exponents", 'h')], true⟩, 1, id, factor⟩)]

end DataQuality.Shell.Tool
