import DataQuality.Shell.Tool.Disk

/-!
# Tools that place files

Tools that cut their input into files, that put copies of files with some rights where they belong, and
one that puts things into an order that pairs of them ask for.
-/
namespace DataQuality.Shell.Tool

open Files (Path Tree)

def piecesOf {α : Type} (length : Nat) : Nat → List α → List (List α)
  | 0, _ => []
  | _ + 1, [] => []
  | fuel + 1, xs => xs.take length :: piecesOf length fuel (xs.drop length)

def pieceEnding (isNumber : Bool) (length place : Nat) : String :=
  let base := if isNumber then 10 else 26
  let first := if isNumber then '0'.toNat else 'a'.toNat
  String.ofList ((List.range length).reverse.map fun i =>
    Char.ofNat (first + place / Nat.pow base i % base))

/-- Cuts its input into files of some lines or bytes each. -/
def split : Action := fun g => do
  let (name, start) : String × String :=
    match g.operands with
    | [] => ("-", "x")
    | [name] => (name, "x")
    | name :: start :: _ => (name, start)
  match ← textOf? "split" name with
  | none => return 1
  | some cs => do
    let lineCount := (g.value? 'l').bind number?
    let byteCount := ((g.value? 'b').orElse fun _ => g.value? 'C').bind sized?
    let pieceCount := (g.value? 'n').bind number?
    if lineCount == some 0 || byteCount == some 0 || pieceCount == some 0 then
      return ← refuse "split" "invalid number" 1
    let pieces : List (List Char) :=
      match byteCount, pieceCount with
      | some n, _ => piecesOf n (cs.length + 1) cs
      | none, some k =>
        let size := cs.length / k
        (List.range k).map fun i =>
          if i + 1 = k then cs.drop (i * size) else (cs.drop (i * size)).take size
      | none, none =>
        let ls := linesWithEnds cs
        (piecesOf (lineCount.getD 1000) (ls.length + 1) ls).map List.flatten
    let length := ((g.value? 'a').bind number?).getD 2
    forEach (pieces.zipIdx.map fun (_, i) => Decimal.ofNat i) fun i => do
      let i := (number? i).getD 0
      let goal := start ++ pieceEnding (g.has 'd') length i ++ (g.value? 'S').getD ""
      match ← writeFile .replace goal (pieces[i]?.getD []) with
      | .ok _ => return 0
      | .error e => refuseFile "split" goal e 1

/-- Puts a copy of a file with some rights in a place. -/
def installOne (g : Given) (source goal : String) : Run Nat := do
  if g.has 'D' then
    let m ← get
    let (_, t) := (m.route (folderName goal)).makeFolder.run m.tree
    set (m.withTree t)
  match ← readFile source with
  | .error e => refuseFile "install" source e 1
  | .ok cs => do
    match ← writeFile .replace goal cs with
    | .error e => refuseFile "install" goal e 1
    | .ok _ => do
      let m ← get
      match m.path? goal, rightsBy? 0 ((g.value? 'm').getD "755") false 0 with
      | some p, some n => do
        set (m.withTree (m.tree.allow p n))
        return 0
      | _, _ => refuse "install" "invalid mode" 1

/-- Puts copies of files in their places, or makes folders. -/
def install : Action := fun g => do
  if g.has 'd' then
    if g.operands.isEmpty then return ← refuse "install" "missing file operand" 1
    forEach g.operands fun name => do
      let m ← get
      match (m.route name).makeFolder.run m.tree with
      | (.ok _, t) => do
        set (m.withTree t)
        return 0
      | (.error e, _) => refuseFile "install" name (.ofFileError e) 1
  else
    match goalOf? (← get) g with
    | none =>
      match g.operands, g.has 'D' with
      | [source, goal], true => installOne g source goal
      | _, _ => refuse "install" "missing or wrong destination" 1
    | some (sources, goal) => forEach sources fun s => installOne g s (goal.pathFor s)

/-- Things in an order in which the first one of each pair comes before the second one, as far as there
is one; `pairs` holds those that are not yet fulfilled. -/
def arranged : Nat → List (List Char) → List (List Char × List Char) → List (List Char) × Bool
  | 0, _, _ => ([], true)
  | fuel + 1, things, pairs =>
    let isFree (x : List Char) : Bool := !pairs.any fun (_, b) => b == x
    let (free, others) := things.partition isFree
    if free.isEmpty then
      match things with
      | [] => ([], true)
      | x :: rest =>
        let (more, _) := arranged fuel rest (pairs.filter fun (a, b) => a != x && b != x)
        (x :: more, false)
    else
      let (more, fine) := arranged fuel others (pairs.filter fun (a, _) => !free.contains a)
      (free ++ more, fine)

/-- Prints things in an order that pairs ask for. -/
def tsort : Action := fun g => do
  if 1 < g.operands.length then return ← refuse "tsort" "extra operand" 1
  let (cs, fine) ← wholeText "tsort" g.operands
  if !fine then return 1
  let words := (cs.splitOnP isSpace).filter fun w => !w.isEmpty
  if words.length % 2 = 1 then return ← refuse "tsort" "odd number of tokens" 1
  let pairs := (piecesOf 2 words.length words).filterMap fun p =>
    match p with
    | [a, b] => if a = b then none else some (a, b)
    | _ => none
  let things := words.eraseDups.mergeSort fun a b => !(b < a)
  let (done, fine) := arranged (things.length + 1) things pairs
  print (unlines '\n' done)
  return statusOf fine

def placementTools : List (String × Utility) := [
  ("split", ⟨⟨"deuxz", "abClnS", "", [("suffix-length", 'a'), ("bytes", 'b'), ("line-bytes", 'C'),
    ("numeric-suffixes", 'd'), ("lines", 'l'), ("number", 'n'), ("additional-suffix", 'S')], true⟩, 1,
    id, split⟩),
  ("install", ⟨⟨"bcCdDpsTv", "gmot", "", [("directory", 'd'), ("mode", 'm'), ("owner", 'o'),
    ("group", 'g'), ("target-directory", 't'), ("no-target-directory", 'T'), ("verbose", 'v'),
    ("compare", 'C')], true⟩, 1, id, install⟩),
  ("tsort", ⟨{}, 1, id, tsort⟩)]

end DataQuality.Shell.Tool
