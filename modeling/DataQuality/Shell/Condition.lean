import DataQuality.Shell.Channel

/-!
# Shell conditions

Tests of texts, integers and files. Several tests may be joined; "and" binds before "or". A condition
that makes no sense has no truth value.
-/
namespace DataQuality.Shell

open Files (Entry Path)

def rightsOf (m : Machine) (p : Path) : Nat :=
  match m.tree.rights.lookup p with
  | some n => n
  | none =>
    let isProgram := p.dropLast == ["bin"] || p.dropLast == ["usr", "bin"]
    if m.tree.isFolder p || isProgram then 0o755 else 0o644

namespace Condition

/-- The operators that stand between two operands. -/
def betweenOperators : List String :=
  ["=", "!=", "<", ">", "-eq", "-ne", "-lt", "-le", "-gt", "-ge", "-nt", "-ot", "-ef"]

/-- The operators that stand before an operand. -/
def beforeOperators : List String :=
  ["-n", "-z", "-e", "-f", "-d", "-r", "-w", "-x", "-s", "-h", "-L", "-p", "-S", "-b", "-c", "-t",
    "-u", "-g", "-k", "-O", "-G"]

/-- The integer that a text stands for; blanks around it do not count. -/
def integer? (s : String) : Option Int :=
  let cs := (s.toList.dropWhile isSpace).reverse.dropWhile isSpace
  (Decimal.readInt? cs.reverse).filter fun i => Decimal.minInt64 ≤ i && i ≤ Decimal.maxInt64

/-- The truth of a comparison of two integers. -/
def compare? (a b : String) (holds : Int → Int → Bool) : Option Bool := do
  pure (holds (← integer? a) (← integer? b))

/-- Whether one path has been changed after another one. -/
def isNewer (m : Machine) (a b : String) : Bool :=
  match m.path? a, m.path? b with
  | some p, some q => m.tree.has p && m.tree.has q && m.world.isNewer p q
  | _, _ => false

/-- The truth of an operator between two operands. -/
def between? (m : Machine) (a operator b : String) : Option Bool :=
  match operator with
  | "=" => some (a == b)
  | "!=" => some (a != b)
  | "<" => some (a < b)
  | ">" => some (b < a)
  | "-eq" => compare? a b fun x y => x == y
  | "-ne" => compare? a b fun x y => x != y
  | "-lt" => compare? a b fun x y => x < y
  | "-le" => compare? a b fun x y => x ≤ y
  | "-gt" => compare? a b fun x y => x > y
  | "-ge" => compare? a b fun x y => x ≥ y
  | "-nt" => some (isNewer m a b)
  | "-ot" => some (isNewer m b a)
  | "-ef" =>
    match m.path? a, m.path? b with
    | some p, some q => some (m.tree.has p && (m.tree.group p).contains q)
    | _, _ => some false
  | _ => some false

/-- The truth of an operator before an operand; none if the operand makes no sense. -/
def before? (m : Machine) (operator a : String) : Option Bool :=
  let path := m.path? a
  let entry : Option Entry := path.bind m.tree.lookup?
  let isDevice := path.any isDevice
  let mayRun := path.any fun p => m.tree.isFolder p || rightsOf m p &&& 0o111 != 0
  match operator, entry with
  | "-n", _ => some (a != "")
  | "-z", _ => some (a == "")
  | "-h", _ => some (isLink m a)
  | "-L", _ => some (isLink m a)
  | "-t", _ => (integer? a).map fun _ => false
  | "-e", some _ => some true
  | "-r", some _ => some true
  | "-w", some _ => some true
  | "-O", some _ => some true
  | "-G", some _ => some true
  | "-f", some (.file _) => some !isDevice
  | "-c", some (.file _) => some isDevice
  | "-s", some (.file content) => some !content.isEmpty
  | "-s", some .folder => some true
  | "-d", some .folder => some true
  | "-x", some _ => some mayRun
  | "-u", some _ => some (path.any fun p => rightsOf m p &&& 0o4000 != 0)
  | "-g", some _ => some (path.any fun p => rightsOf m p &&& 0o2000 != 0)
  | "-k", some _ => some (path.any fun p => rightsOf m p &&& 0o1000 != 0)
  | _, _ => some false
where
  /-- Whether a written path leads to a link. -/
  isLink (m : Machine) (a : String) : Bool :=
    match ((m.route a).reach m.tree).toOption.bind m.tree.lookup? with
    | some (.link _) => true
    | _ => false

/-- Whether the argument at the front is taken as an operand although it may be an operator before
one: nothing follows it, or what follows is an operator between two. -/
def isOperand : List String → Bool
  | [] => true
  | [_] => false
  | s :: _ :: _ => betweenOperators.contains s

mutual

/-- Reads conditions of which one has to hold. -/
def anyOf? (m : Machine) : Nat → List String → Option (Bool × List String)
  | 0, _ => none
  | fuel + 1, args => do
    match ← allOf? m fuel args with
    | (a, "-o" :: rest) =>
      let (b, rest) ← anyOf? m fuel rest
      pure (a || b, rest)
    | r => pure r

/-- Reads conditions all of which have to hold. -/
def allOf? (m : Machine) : Nat → List String → Option (Bool × List String)
  | 0, _ => none
  | fuel + 1, args => do
    match ← negated? m fuel args with
    | (a, "-a" :: rest) =>
      let (b, rest) ← allOf? m fuel rest
      pure (a && b, rest)
    | r => pure r

/-- Reads a condition, perhaps negated. -/
def negated? (m : Machine) : Nat → List String → Option (Bool × List String)
  | 0, _ => none
  | fuel + 1, args =>
    match args with
    | "!" :: rest => (negated? m fuel rest).map fun (a, after) => (!a, after)
    | _ => single? m fuel args

/-- Reads a single condition. Without any argument it does not hold. -/
def single? (m : Machine) : Nat → List String → Option (Bool × List String)
  | 0, _ => none
  | fuel + 1, args =>
    match args with
    | [] => some (false, [])
    | a :: rest =>
      if a = "(" && !rest.isEmpty then do
        match ← anyOf? m fuel rest with
        | (b, ")" :: after) => pure (b, after)
        | _ => none
      else if beforeOperators.contains a && !isOperand rest then
        match rest with
        | b :: after => (before? m a b).map (·, after)
        | [] => none
      else
        match rest with
        | operator :: b :: after =>
          if betweenOperators.contains operator then (between? m a operator b).map (·, after)
          else some (a != "", rest)
        | _ => some (a != "", rest)

end

/-- The truth of a condition. -/
def holds? (m : Machine) (args : List String) : Option Bool :=
  let direct : Option (Option Bool) :=
    match args with
    | [a, operator, b] =>
      if betweenOperators.contains operator then some (between? m a operator b) else none
    | _ => none
  match direct with
  | some truth => truth
  | none =>
    match anyOf? m (4 * args.length + 4) args with
    | some (truth, []) => some truth
    | _ => none

/-- The status of a condition: zero if it holds, one if not, two if it makes no sense. -/
def status (m : Machine) (args : List String) : Nat :=
  match holds? m args with
  | some truth => statusOf truth
  | none => 2

/-- The first argument that would have to be an integer and is none. -/
def wrongNumber? : List String → Option String
  | a :: operator :: b :: rest =>
    let isNumeric := ["-eq", "-ne", "-lt", "-le", "-gt", "-ge"].contains operator
    if isNumeric && (integer? a).isNone then some a
    else if isNumeric && (integer? b).isNone then some b
    else wrongNumber? (operator :: b :: rest)
  | _ => none

/-- What is said about a condition that makes no sense. -/
def complaint (args : List String) : String :=
  match wrongNumber? args, args with
  | some a, _ => "Illegal number: " ++ a
  | none, [] => "argument expected"
  | none, a :: _ => a ++ ": unexpected operator"

end Condition

end DataQuality.Shell
