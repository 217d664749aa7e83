import DataQuality.Decimal.Rounded
import DataQuality.Shell.Pattern
import DataQuality.Shell.Tool.Input

/-!
# Tools for the order of lines

Tools that bring lines into an order, or that compare lines which are in order already.
-/
namespace DataQuality.Shell.Tool

/-- How parts of lines are compared. -/
structure SortKind where
  letters : List Char
  deriving DecidableEq

/-- Whether one of the letters that say how to compare is given. -/
def SortKind.has (k : SortKind) (c : Char) : Bool := k.letters.contains c

/-- A place in a line: a field and a character in it, both counted from one. -/
structure LinePlace where
  field : Nat
  char : Nat
  skipsBlanks : Bool

/-- What lines are compared by. -/
structure SortKey where
  first : LinePlace
  last : Option LinePlace
  kind : SortKind

/-- The fields of a line: what stands between separators, or words with the blanks before them. -/
def fieldsOf (separator : Option Char) (l : List Char) : List (List Char) :=
  match separator with
  | some c => l.splitOn c
  | none => words (l.length + 1) l
where
  /-- Words with the blanks before them. -/
  words : Nat → List Char → List (List Char)
    | 0, _ => []
    | fuel + 1, l =>
      let isBlank (c : Char) : Bool := c == ' ' || c == '\t' || c == '\n'
      let (blanks, rest) := l.span isBlank
      let (word, rest) := rest.span (!isBlank ·)
      if rest.isEmpty then [blanks ++ word] else (blanks ++ word) :: words fuel rest

/-- Where a field of a line begins, and where it ends. -/
def fieldBounds (separator : Option Char) (l : List Char) (n : Nat) : Nat × Nat :=
  let fields := fieldsOf separator l
  let between := if separator.isSome then 1 else 0
  let begins := (fields.take (n - 1)).foldl (fun sum f => sum + (f.length + between)) 0
  let begins := min begins l.length
  (begins, min l.length (begins + (fields[n - 1]?.getD []).length))

/-- The number of blanks at the front. -/
def blanksAt (l : List Char) : Nat := (l.takeWhile fun c => c == ' ' || c == '\t').length

def SortKey.part (k : SortKey) (separator : Option Char) (l : List Char) : List Char :=
  let (begins, _) := fieldBounds separator l k.first.field
  let begins := if k.first.skipsBlanks then begins + blanksAt (l.drop begins) else begins
  let begins := min l.length (begins + k.first.char - 1)
  let ends :=
    match k.last with
    | none => l.length
    | some p =>
      let (low, high) := fieldBounds separator l p.field
      if p.char = 0 then high
      else
        let low := if p.skipsBlanks then low + blanksAt (l.drop low) else low
        min l.length (low + p.char)
  (l.take ends).drop begins

/-- A number at the front of a text: its sign, its digits before the point and those behind it. -/
def leadingNumber (cs : List Char) : Bool × Nat × List Char :=
  let cs := cs.dropWhile fun c => c == ' ' || c == '\t'
  let (negative, cs) : Bool × List Char :=
    match cs with
    | '-' :: rest => (true, rest)
    | rest => (false, rest)
  let (whole, rest) := cs.span Decimal.isDigit
  let fraction :=
    match rest with
    | '.' :: rest => rest.takeWhile Decimal.isDigit
    | _ => []
  let fraction := (fraction.reverse.dropWhile (· == '0')).reverse
  let n := Decimal.natOfDigits whole
  (negative && (n != 0 || !fraction.isEmpty), n, fraction)

def compareText (a b : List Char) : Ordering :=
  match a, b with
  | [], [] => .eq
  | [], _ => .lt
  | _, [] => .gt
  | x :: a, y :: b => if x < y then .lt else if y < x then .gt else compareText a b

/-- Compares the numbers at the front of texts. -/
def compareNumbers (a b : List Char) : Ordering :=
  let (sa, na, fa) := leadingNumber a
  let (sb, nb, fb) := leadingNumber b
  let sizes := (compare na nb).then (compareText fa fb)
  match sa, sb with
  | false, false => sizes
  | true, true => sizes.swap
  | true, false => .lt
  | false, true => .gt

/-- The place of a month in a year, by the first letters of its name. -/
def monthOf (cs : List Char) : Nat :=
  let name := String.ofList (((cs.dropWhile isSpace).take 3).map Char.toUpper)
  let months := ["JAN", "FEB", "MAR", "APR", "MAY", "JUN", "JUL", "AUG", "SEP", "OCT", "NOV", "DEC"]
  let i := months.idxOf name
  if i < 12 then i + 1 else 0

/-- The rank of the sign for the size of a number at the front. -/
def sizeRank (cs : List Char) : Nat :=
  let rest := (cs.dropWhile isSpace).dropWhile fun c => c.isDigit || c == '.' || c == '-'
  match rest with
  | c :: _ => " KMGTPEZY".toList.idxOf (c.toUpper) % 9
  | [] => 0

/-- Compares texts in which numbers count as numbers. -/
def compareVersions : Nat → List Char → List Char → Ordering
  | 0, _, _ => .eq
  | fuel + 1, a, b =>
    match a, b with
    | [], [] => .eq
    | [], _ => .lt
    | _, [] => .gt
    | x :: a', y :: b' =>
      if x.isDigit && y.isDigit then
        let (da, ra) := a.span Char.isDigit
        let (db, rb) := b.span Char.isDigit
        (compare (Decimal.natOfDigits da) (Decimal.natOfDigits db)).then (compareVersions fuel ra rb)
      else
        let rank (c : Char) : Nat :=
          if c == '~' then 0 else if c.isDigit then 1 else if c.isAlpha then 2 + c.toNat
          else 1000 + c.toNat
        if rank x < rank y then .lt
        else if rank y < rank x then .gt
        else compareVersions fuel a' b'

/-- Compares real numbers at the front of texts; what is no number comes first. -/
def compareReals (a b : List Char) : Ordering :=
  let value (cs : List Char) : Option Float :=
    (Decimal.readFloatPrefix? (cs.dropWhile isSpace)).map (·.1)
  match value a, value b with
  | none, none => .eq
  | none, some _ => .lt
  | some _, none => .gt
  | some x, some y => if x < y then .lt else if y < x then .gt else .eq

/-- Compares parts of lines, but for the opposite order. -/
def SortKind.compareParts (k : SortKind) (a b : List Char) : Ordering :=
  if k.has 'n' then compareNumbers a b
  else if k.has 'g' then compareReals a b
  else if k.has 'h' then
    let negative (cs : List Char) : Bool := (leadingNumber cs).1
    let ranks := compare (sizeRank a) (sizeRank b)
    match negative a, negative b with
    | false, false => ranks.then (compareNumbers a b)
    | true, true => ranks.swap.then (compareNumbers a b)
    | true, false => .lt
    | false, true => .gt
  else if k.has 'M' then compare (monthOf a) (monthOf b)
  else if k.has 'V' then compareVersions (a.length + b.length + 1) a b
  else
    let counted (cs : List Char) : List Char :=
      let cs := if k.has 'd' then cs.filter fun c => c.isAlphanum || c == ' ' || c == '\t' else cs
      let cs := if k.has 'i' then cs.filter fun c => ' ' ≤ c && c ≤ '~' else cs
      if k.has 'f' then cs.map Char.toUpper else cs
    compareText (counted a) (counted b)

/-- How lines are sorted. -/
structure Sorting where
  separator : Option Char
  keys : List SortKey
  kind : SortKind
  stable : Bool
  unique : Bool

def Sorting.compareKeys (s : Sorting) (a b : List Char) : Ordering :=
  s.keys.foldl (fun o k =>
    o.then (
      let c := k.kind.compareParts (k.part s.separator a) (k.part s.separator b)
      if k.kind.has 'r' then c.swap else c)) .eq

/-- Compares lines: by the keys, and where these are the same, as they stand. -/
def Sorting.compare (s : Sorting) (a b : List Char) : Ordering :=
  let byKeys := s.compareKeys a b
  if (s.stable || s.unique) && !s.keys.isEmpty then byKeys
  else
    let whole := compareText a b
    byKeys.then (if s.kind.has 'r' then whole.swap else whole)

/-- Keeps the first of lines in a row that are the same. -/
def Sorting.distinct (s : Sorting) : List (List Char) → List (List Char)
  | a :: b :: rest =>
    if s.compare a b == .eq then distinct s (a :: rest) else a :: distinct s (b :: rest)
  | ls => ls
termination_by ls => ls.length

def Sorting.sort (s : Sorting) (ls : List (List Char)) : List (List Char) :=
  let sorted := ls.mergeSort fun a b => s.compare a b != .gt
  if s.unique then s.distinct sorted else sorted

/-- Reads a place in a line: a field, perhaps a character in it, and letters. -/
def readPlace? (char : Nat) (cs : List Char) : Option (LinePlace × List Char × List Char) := do
  let (field, rest) := cs.span Decimal.isDigit
  if field.isEmpty then none
  let (char, rest) : Nat × List Char :=
    match rest with
    | '.' :: rest => (Decimal.natOfDigits (rest.takeWhile Decimal.isDigit), rest.dropWhile Decimal.isDigit)
    | rest => (char, rest)
  let (letters, rest) := rest.span Char.isAlpha
  if Decimal.natOfDigits field = 0 || !letters.all "bdfgiMhnRrV".toList.contains then none
  pure (⟨Decimal.natOfDigits field, char, letters.contains 'b'⟩, letters, rest)

/-- Reads a key. Where it does not say how to compare, the global letters do. -/
def readKey? (global : List Char) (s : String) : Option SortKey := do
  let (first, letters, rest) ← readPlace? 1 s.toList
  let (last, more, rest) ←
    match rest with
    | ',' :: rest => do
      let (p, more, rest) ← readPlace? 0 rest
      pure (some p, more, rest)
    | rest => pure (none, [], rest)
  if !rest.isEmpty || first.char = 0 then none
  let own := letters ++ more
  let skips := global.contains 'b' && own.isEmpty
  pure ⟨{ first with skipsBlanks := first.skipsBlanks || skips },
    last.map fun p => { p with skipsBlanks := p.skipsBlanks || skips },
    ⟨if own.isEmpty then global else own⟩⟩

def Sorting.ofGiven? (g : Given) : Option Sorting := do
  let letters := "bdfgiMhnRrV".toList.filter g.has
  let keys ← (g.values 'k').mapM (readKey? letters)
  let separator ← match g.value? 't' with
    | none => some none
    | some s =>
      match s.toList with
      | [c] => some (some c)
      | ['\\', '0'] => some (some '\x00')
      | _ => none
  let ordering := letters.filter (· != 'r')
  let keys := if keys.isEmpty && !ordering.isEmpty then
      [⟨⟨1, 1, letters.contains 'b'⟩, none, ⟨letters⟩⟩]
    else keys
  pure ⟨separator, keys, ⟨letters⟩, g.has 's', g.has 'u'⟩

/-- Sorts lines, or tells whether they are sorted. -/
def sort : Action := fun g => do
  match Sorting.ofGiven? g with
  | none => refuse "sort" "invalid key" 2
  | some s => do
    let ending := if g.has 'z' then '\x00' else '\n'
    let (cs, fine) ← wholeText "sort" g.operands
    if !fine then return 2
    let ls := linesBy ending cs
    if g.has 'c' || g.has 'C' then
      let wrong := (ls.zip ls.tail).find? fun (a, b) =>
        let c := s.compare a b
        c == .gt || (s.unique && c == .eq)
      match wrong with
      | some (_, l) =>
        if g.has 'c' then say "sort" ("-: disorder: " ++ String.ofList l)
        return 1
      | none => return 0
    let sorted := unlines ending (s.sort ls)
    match g.value? 'o' with
    | none =>
      print sorted
      return 0
    | some name =>
      match ← writeFile .replace name sorted with
      | .ok _ => return 0
      | .error e => refuse "sort" (name ++ ": " ++ e.message) 2

/-- Groups of lines in a row that are the same by some part of them. -/
def groupLines (part : List Char → List Char) : List (List Char) → List (List (List Char))
  | [] => []
  | l :: rest =>
    match groupLines part rest with
    | (k :: group) :: groups =>
      if part l = part k then (l :: k :: group) :: groups else [l] :: (k :: group) :: groups
    | groups => [l] :: groups

/-- Keeps one of lines in a row that are the same. -/
def uniq : Action := fun g => do
  let count (c : Char) : Nat := ((g.value? c).bind number?).getD 0
  let skipField (l : List Char) : List Char :=
    (l.dropWhile fun c => c == ' ' || c == '\t').dropWhile fun c => !(c == ' ' || c == '\t')
  let part (l : List Char) : List Char :=
    let l := (List.range (count 'f')).foldl (fun l _ => skipField l) l
    let l := l.drop (count 's')
    let l := if g.has 'w' then l.take (count 'w') else l
    if g.has 'i' then l.map Char.toLower else l
  let ending := if g.has 'z' then '\x00' else '\n'
  if 2 < g.operands.length then return ← refuse "uniq" "extra operand" 1
  let (cs, fine) ← wholeText "uniq" (g.operands.take 1)
  if !fine then return 1
  let groups := groupLines part (linesBy ending cs)
  let groups := groups.filter fun group =>
    (!(g.has 'd' || g.has 'D') || 1 < group.length) && (!g.has 'u' || group.length = 1)
  let shown := groups.flatMap fun group =>
    if g.has 'D' then group
    else
      let l := group.head?.getD []
      [if g.has 'c' then padded 7 (Decimal.natDigits group.length) ++ ' ' :: l else l]
  match g.operands.drop 1 with
  | name :: _ =>
    match ← writeFile .replace name (unlines ending shown) with
    | .ok _ => return 0
    | .error e => refuse "uniq" (name ++ ": " ++ e.message) 1
  | [] =>
    print (unlines ending shown)
    return 0

/-- What two sorted rows of lines have for themselves and in common: each line with a number for where
it is. -/
def compared : Nat → List (List Char) → List (List Char) → List (Nat × List Char)
  | 0, _, _ => []
  | _ + 1, [], [] => []
  | fuel + 1, a :: as, [] => (1, a) :: compared fuel as []
  | fuel + 1, [], b :: bs => (2, b) :: compared fuel [] bs
  | fuel + 1, a :: as, b :: bs =>
    match compareText a b with
    | .lt => (1, a) :: compared fuel as (b :: bs)
    | .gt => (2, b) :: compared fuel (a :: as) bs
    | .eq => (3, a) :: compared fuel as bs

/-- Shows which lines two sorted files have for themselves and which ones in common. -/
def comm : Action := fun g => do
  match g.operands with
  | [a, b] => do
    match ← textOf? "comm" a, ← textOf? "comm" b with
    | some x, some y =>
      let between := ((g.value? 'd').getD "\t").toList
      let (x, y) := (lines x, lines y)
      for (n, l) in compared (x.length + y.length + 1) x y do
        let hides (k : Nat) : Bool := g.has (Char.ofNat (48 + k))
        if !hides n then
          let before := ((List.range n).filter fun k => 0 < k && !hides k).length
          print ((List.replicate before between).flatten ++ l ++ ['\n'])
      return 0
    | _, _ => return 1
  | _ => refuse "comm" "two files are compared" 1

/-- Joins lines of two files that have a field in common. -/
def join : Action := fun g => do
  let field (c : Char) : Nat := (((g.value? c).or (g.value? 'j')).bind number?).getD 1
  let separator : Option Char := (g.value? 't').bind fun s => s.toList.head?
  let split (l : List Char) : List (List Char) :=
    match separator with
    | some c => l.splitOn c
    | none => (l.splitOnP fun c => c == ' ' || c == '\t').filter fun f => !f.isEmpty
  let key (n : Nat) (fs : List (List Char)) : List Char :=
    let k := fs[n - 1]?.getD []
    if g.has 'i' then k.map Char.toLower else k
  match g.operands with
  | [a, b] => do
    match ← textOf? "join" a, ← textOf? "join" b with
    | some x, some y =>
      let (n, m) := (field '1', field '2')
      let rows := (lines x).map split
      let others := (lines y).map split
      let between := [separator.getD ' ']
      let shown (fs : List (List Char)) : Run Unit := print (between.intercalate fs ++ ['\n'])
      let without (n : Nat) (fs : List (List Char)) : List (List Char) := fs.eraseIdx (n - 1)
      let whole (n : Nat) (fs : List (List Char)) : List (List Char) :=
        (fs[n - 1]?.getD []) :: without n fs
      let wanted (c : Char) (k : String) : Bool := (g.values c).contains k
      let pairs := !g.has 'v'
      for r in rows do
        let partners := others.filter fun o => key m o == key n r
        if pairs then
          for o in partners do shown ((r[n - 1]?.getD []) :: without n r ++ without m o)
        if partners.isEmpty && (wanted 'a' "1" || wanted 'v' "1") then shown (whole n r)
      for o in others do
        if !(rows.any fun r => key n r == key m o) && (wanted 'a' "2" || wanted 'v' "2") then
          shown (whole m o)
      return 0
    | _, _ => return 1
  | _ => refuse "join" "two files are joined" 1

/-- Shows its lines or arguments; their order is left open, and here it is the one in which they are
given. -/
def shuf : Action := fun g => do
  let most := ((g.value? 'n').bind number?)
  let given : Option (List (List Char)) :=
    if g.has 'e' then some (g.operands.map String.toList)
    else do
      let s ← g.value? 'i'
      match (s.toList.splitOn '-').map Decimal.readNat? with
      | [some a, some b] => some ((List.range (b + 1 - a)).map fun i => Decimal.natDigits (a + i))
      | _ => none
  let (ls, fine) ← match given with
    | some ls => pure (ls, true)
    | none => do
      let (cs, fine) ← wholeText "shuf" g.operands
      pure (lines cs, fine)
  print (unlines '\n' (ls.take (most.getD ls.length)))
  return statusOf fine

def orderTools : List (String × Utility) := [
  ("sort", ⟨⟨"bdfgiMhnRrVcCmsuz", "kotST", "", [("ignore-leading-blanks", 'b'),
    ("dictionary-order", 'd'), ("ignore-case", 'f'), ("general-numeric-sort", 'g'),
    ("ignore-nonprinting", 'i'), ("month-sort", 'M'), ("human-numeric-sort", 'h'),
    ("numeric-sort", 'n'), ("random-sort", 'R'), ("reverse", 'r'), ("version-sort", 'V'),
    ("check", 'c'), ("key", 'k'), ("merge", 'm'), ("output", 'o'), ("stable", 's'),
    ("field-separator", 't'), ("unique", 'u'), ("zero-terminated", 'z')], true⟩, 2, id, sort⟩),
  ("uniq", ⟨⟨"cdDiuz", "fsw", "", [("count", 'c'), ("repeated", 'd'), ("all-repeated", 'D'),
    ("skip-fields", 'f'), ("ignore-case", 'i'), ("skip-chars", 's'), ("unique", 'u'),
    ("check-chars", 'w'), ("zero-terminated", 'z')], true⟩, 1, id, uniq⟩),
  ("comm", ⟨⟨"123z", "d", "", [("output-delimiter", 'd')], true⟩, 1, id, comm⟩),
  ("join", ⟨⟨"iz", "12jtave", "", [("ignore-case", 'i')], true⟩, 1, id, join⟩),
  ("shuf", ⟨⟨"ez", "nio", "", [("echo", 'e'), ("head-count", 'n'), ("input-range", 'i')], true⟩, 1,
    id, shuf⟩)]

end DataQuality.Shell.Tool
