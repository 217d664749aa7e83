import DataQuality.Shell.Tool.Walk

/-!
# Comparing files

Tools that tell whether files hold the same, and where they differ.
-/
namespace DataQuality.Shell.Tool

/-- The number of characters that two texts have in common at the front. -/
def commonFront : List Char → List Char → Nat
  | a :: as, b :: bs => if a = b then commonFront as bs + 1 else 0
  | _, _ => 0

/-- Compares two files byte by byte. -/
def cmp : Action := fun g => do
  let silent := g.has 's'
  match g.operands with
  | a :: more => do
    let b := more.head?.getD "-"
    if a = b then return 0
    let read (name : String) : Run (Option (List Char)) :=
      if silent && name != "-" then do return (← readFile name).toOption else textOf? "cmp" name
    match ← read a, ← read b with
    | some x, some y =>
      let limit := ((g.value? 'n').bind sized?).getD (max x.length y.length)
      let (x, y) := (x.take limit, y.take limit)
      if x = y then return 0
      if silent then return 1
      let n := commonFront x y
      if n = x.length || n = y.length then
        let short := if n = x.length then a else b
        say "cmp" ("EOF on " ++ short ++ " after byte " ++ Decimal.ofNat n)
        return 1
      if g.has 'l' then
        for ((c, d), i) in (x.zip y).zipIdx 1 do
          if c ≠ d then
            let octal (c : Char) : List Char := padded 3 (Nat.toDigits 8 c.toNat)
            print (Decimal.natDigits i ++ ' ' :: octal c ++ ' ' :: octal d ++ ['\n'])
      else
        printLine (a ++ " " ++ b ++ " differ: char " ++ Decimal.ofNat (n + 1) ++ ", line " ++
          Decimal.ofNat ((x.take n).count '\n' + 1))
      return 1
    | _, _ => return 2
  | [] => refuse "cmp" "missing operand" 2

/-- What becomes of a line on the way from one text to another. -/
inductive Edit
  | keep (l : List Char)
  | drop (l : List Char)
  | add (l : List Char)
  deriving DecidableEq

/-- The table of the lengths of the longest common rows: one row of the table for the lines of `a` that
are left, last one first. -/
def commonTable (same : List Char → List Char → Bool) (b : List (List Char)) :
    List (List Char) → List (List Nat)
  | [] => [List.replicate (b.length + 1) 0]
  | l :: rest =>
    let table := commonTable same b rest
    let below := table.head?.getD []
    row l b below :: table
where
  /-- One row of the table, by the row below it. -/
  row (l : List Char) : List (List Char) → List Nat → List Nat
    | [], _ => [0]
    | k :: ks, below =>
      let more := row l ks below.tail
      let here := if same l k then (below.tail.head?.getD 0) + 1
        else max (below.head?.getD 0) (more.head?.getD 0)
      here :: more

/-- The way from one text to another with the most lines kept. -/
def edits (same : List Char → List Char → Bool) :
    Nat → List (List Char) → List (List Char) → List (List Nat) → List Edit
  | 0, _, _, _ => []
  | _ + 1, [], [], _ => []
  | _ + 1, [], bs, _ => bs.map .add
  | _ + 1, as, [], _ => as.map .drop
  | fuel + 1, a :: as, b :: bs, table =>
    let below := table.tail
    if same a b then .keep a :: edits same fuel as bs (below.map List.tail)
    else
      let ifDropped := (below.head?.bind List.head?).getD 0
      let ifAdded := (table.head?.bind fun r => r.tail.head?).getD 0
      if ifAdded ≤ ifDropped then .drop a :: edits same fuel as (b :: bs) below
      else .add b :: edits same fuel (a :: as) bs (table.map List.tail)

/-- A change: the lines before it in both texts, and the lines that are dropped and added. -/
structure Change where
  before : Nat × Nat
  dropped : List (List Char)
  added : List (List Char)

/-- The changes on the way from one text to another. -/
def changesOf (es : List Edit) : List Change :=
  let finish (pending : Option Change) (done : List Change) : List Change := pending.toList ++ done
  let (_, pending, done) := es.foldl
    (fun ((place, pending, done) : (Nat × Nat) × Option Change × List Change) e =>
      let current := pending.getD ⟨place, [], []⟩
      match e with
      | .keep _ => ((place.1 + 1, place.2 + 1), none, finish pending done)
      | .drop l =>
        ((place.1 + 1, place.2), some { current with dropped := current.dropped ++ [l] }, done)
      | .add l =>
        ((place.1, place.2 + 1), some { current with added := current.added ++ [l] }, done))
    ((0, 0), none, [])
  (finish pending done).reverse

def placeChars (before count : Nat) : List Char :=
  if count = 0 then Decimal.natDigits before
  else if count = 1 then Decimal.natDigits (before + 1)
  else Decimal.natDigits (before + 1) ++ ',' :: Decimal.natDigits (before + count)

def Change.chars (c : Change) : List Char :=
  let letter := if c.dropped.isEmpty then 'a' else if c.added.isEmpty then 'd' else 'c'
  let place := placeChars c.before.1 c.dropped.length ++
    letter :: placeChars c.before.2 c.added.length ++ ['\n']
  let marked (mark : String) (ls : List (List Char)) : List Char :=
    ls.flatMap fun l => mark.toList ++ l ++ ['\n']
  place ++ marked "< " c.dropped ++
    (if letter = 'c' then "---\n".toList else []) ++ marked "> " c.added

def Edit.isChange : Edit → Bool
  | .keep _ => false
  | _ => true

/-- The edits in rows, each with the number of lines before it in both texts: the changes, and up to
`context` lines around them. -/
def hunks (context : Nat) (es : List Edit) : List ((Nat × Nat) × List Edit) :=
  let changes := (es.zipIdx.filter (·.1.isChange)).map (·.2)
  let isShown (i : Nat) : Bool := changes.any fun k => i ≤ k + context && k ≤ i + context
  let found := es.zipIdx.foldl
    (fun (s : (Nat × Nat) × Option ((Nat × Nat) × List Edit) × List ((Nat × Nat) × List Edit))
        entry =>
      let place := s.1
      let next : Nat × Nat :=
        match entry.1 with
        | .keep _ => (place.1 + 1, place.2 + 1)
        | .drop _ => (place.1 + 1, place.2)
        | .add _ => (place.1, place.2 + 1)
      if isShown entry.2 then
        let row := s.2.1.getD (place, [])
        (next, some (row.1, entry.1 :: row.2), s.2.2)
      else (next, none, s.2.1.toList ++ s.2.2))
    ((0, 0), none, [])
  (found.2.1.toList ++ found.2.2).reverse.map fun row => (row.1, row.2.reverse)

/-- Edits as they are shown together. -/
def unified (context : Nat) (a b : String) (es : List Edit) : List Char :=
  let range (before count : Nat) : String :=
    if count = 1 then Decimal.ofNat (before + 1)
    else Decimal.ofNat (if count = 0 then before else before + 1) ++ "," ++ Decimal.ofNat count
  let head := "--- " ++ a ++ "\n+++ " ++ b ++ "\n"
  head.toList ++ (hunks context es).flatMap fun (start, es) =>
    let count (f : Edit → Bool) : Nat := (es.filter f).length
    let old := count fun e => match e with | .add _ => false | _ => true
    let new := count fun e => match e with | .drop _ => false | _ => true
    ("@@ -" ++ range start.1 old ++ " +" ++ range start.2 new ++ " @@\n").toList ++
      es.flatMap fun e =>
        match e with
        | .keep l => ' ' :: l ++ ['\n']
        | .drop l => '-' :: l ++ ['\n']
        | .add l => '+' :: l ++ ['\n']

/-- A line as far as it counts when lines are compared. -/
def counted (g : Given) (l : List Char) : List Char :=
  let l := if g.has 'i' then l.map Char.toLower else l
  if g.has 'w' then l.filter fun c => !(c == ' ' || c == '\t')
  else if g.has 'b' then
    let ws := (l.splitOnP fun c => c == ' ' || c == '\t')
    let ws := (ws.take 1) ++ (ws.drop 1).filter fun w => !w.isEmpty
    [' '].intercalate ws
  else l

/-- Tells how two files differ. -/
def diffFiles (g : Given) (a b : String) : Run Nat := do
  match ← textOf? "diff" a, ← textOf? "diff" b with
  | some x, some y =>
    let ended (cs : List Char) : List (List Char) :=
      if isEnded cs then lines cs
      else (linesWithEnds cs).map fun l =>
        if l.getLast? = some '\n' then l.dropLast else l ++ "\n\\ No newline at end of file".toList
    let (xs, ys) := (ended x, ended y)
    let drop (ls : List (List Char)) : List (List Char) :=
      if g.has 'B' then ls.filter fun l => !l.isEmpty else ls
    let same (k l : List Char) : Bool := counted g k == counted g l
    let (xs, ys) := (drop xs, drop ys)
    if xs.length = ys.length && (xs.zip ys).all fun (k, l) => same k l then
      if g.has 's' then printLine ("Files " ++ a ++ " and " ++ b ++ " are identical")
      return 0
    if g.has 'q' then printLine ("Files " ++ a ++ " and " ++ b ++ " differ")
    else
      let es := edits same (xs.length + ys.length + 1) xs ys (commonTable same ys xs)
      if g.has 'u' || g.has 'U' then print (unified ((g.value? 'U').bind number? |>.getD 3) a b es)
      else print ((changesOf es).flatMap Change.chars)
    return 1
  | _, _ => return 2

/-- Tells how what two folders hold differs, down to some depth. -/
def diffFolders (g : Given) : Nat → String → String → Run Nat
  | 0, _, _ => return 0
  | fuel + 1, a, b => do
    let m ← get
    let (xs, ys) := (namesIn m a, namesIn m b)
    let names := (xs ++ ys.filter fun n => !xs.contains n).mergeSort fun a b => !(b < a)
    forEach names fun n => do
      let only (folder : String) : Run Nat := do
        if g.has 'N' then return 1
        printLine ("Only in " ++ folder ++ ": " ++ n)
        return 1
      if !ys.contains n then only a
      else if !xs.contains n then only b
      else
        let (p, q) := (joined a n, joined b n)
        match isFolderAt m true p, isFolderAt m true q with
        | true, true =>
          if g.has 'r' then diffFolders g fuel p q
          else do
            printLine ("Common subdirectories: " ++ p ++ " and " ++ q)
            return 0
        | false, false => diffFiles g p q
        | _, _ => do
          printLine ("File " ++ p ++ " differs in kind from " ++ q)
          return 1

/-- Tells how files or folders differ. -/
def diff : Action := fun g => do
  match g.operands with
  | [a, b] => do
    let m ← get
    let name (s : String) : String := ((s.splitOn "/").getLast?).getD s
    match isFolderAt m true a, isFolderAt m true b with
    | true, true => diffFolders g deepestFolder a b
    | true, false => diffFiles g (joined a (name b)) b
    | false, true => diffFiles g a (joined b (name a))
    | false, false => diffFiles g a b
  | _ => refuse "diff" "two operands are needed" 2

def comparisonTools : List (String × Utility) := [
  ("cmp", ⟨⟨"bls", "in", "", [("print-bytes", 'b'), ("verbose", 'l'), ("quiet", 's'),
    ("silent", 's'), ("bytes", 'n')], true⟩, 2, id, cmp⟩),
  ("diff", ⟨⟨"abBdeEiNqrstTuwyc", "ICUW", "", [("brief", 'q'), ("report-identical-files", 's'),
    ("ignore-case", 'i'), ("ignore-all-space", 'w'), ("ignore-space-change", 'b'),
    ("ignore-blank-lines", 'B'), ("recursive", 'r'), ("new-file", 'N'), ("unified", 'u'),
    ("side-by-side", 'y'), ("text", 'a')], true⟩, 2, id, diff⟩)]

end DataQuality.Shell.Tool
