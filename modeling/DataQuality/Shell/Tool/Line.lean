import DataQuality.Shell.Tool.Input

/-!
# Tools for lines

Tools that show the lines of their input, some of them, or in another form, or that count them.
-/
namespace DataQuality.Shell.Tool

/-- Which part of a text is shown: so many lines or bytes from an end of it, or all but so many. -/
structure Part where
  bytes : Bool
  count : Nat
  /-- Whether all but the counted ones are shown. -/
  others : Bool

/-- Reads the size of a part; a `sign` tells that the others are meant. -/
def Part.ofText? (bytes : Bool) (sign : Char) (s : String) : Option Part :=
  match s.toList with
  | c :: rest =>
    if c = '-' || c = '+' then
      (sized? (String.ofList rest)).map fun n => ⟨bytes, n, c == sign⟩
    else (sized? s).map fun n => ⟨bytes, n, false⟩
  | [] => none

/-- The part that options ask for, ten lines without any. -/
def Part.ofGiven? (g : Given) (sign : Char) : Option Part :=
  match g.last? ['n', 'c'] with
  | some c => Part.ofText? (c == 'c') sign ((g.value? c).getD "")
  | none => some ⟨false, 10, false⟩

def firstPart (p : Part) (cs : List Char) : List Char :=
  if p.bytes then if p.others then cs.take (cs.length - p.count) else cs.take p.count
  else
    let ls := linesWithEnds cs
    (if p.others then ls.take (ls.length - p.count) else ls.take p.count).flatten

/-- The last part of a text. Of those to leave out, one less is left out. -/
def lastPart (p : Part) (cs : List Char) : List Char :=
  if p.bytes then if p.others then cs.drop (p.count - 1) else cs.drop (cs.length - p.count)
  else
    let ls := linesWithEnds cs
    (if p.others then ls.drop (p.count - 1) else ls.drop (ls.length - p.count)).flatten

/-- Arguments in which a bare number is the value of the option `n`. -/
def withCount : List String → List String
  | a :: rest =>
    match a.toList with
    | '-' :: c :: more => if c.isDigit then "-n" :: String.ofList (c :: more) :: rest else a :: rest
    | _ => a :: rest
  | [] => []

/-- Shows parts of files, under headings if there are several. -/
def showParts (tool : String) (g : Given) (part : List Char → List Char) : Run Nat := do
  let names := namesOf g.operands
  let headed := (names.length > 1 && !g.has 'q') || g.has 'v'
  let show1 (first : Bool) (name : String) (cs : List Char) : Run Unit := do
    if headed then
      let shown := if name = "-" then "standard input" else name
      print ((if first then "" else "\n") ++ "==> " ++ shown ++ " <==\n").toList
    print (part cs)
  let (_, status) ← names.foldlM (fun ((first, status) : Bool × Nat) name => do
    match ← textOf? tool name with
    | none => return (first, 1)
    | some cs =>
      show1 first name cs
      return (false, status)) (true, 0)
  return status

/-- Shows the first part of files. What follows it in a file that is read as input is left to be
read. -/
def head : Action := fun g => do
  match Part.ofGiven? g '-' with
  | none => refuse "head" "invalid number" 1
  | some p => do
    let before ← get
    let status ← showParts "head" g (firstPart p)
    if namesOf g.operands = ["-"] then
      if let some id := before.stream? 0 then
        if let .file q place appends := before.world.stream id then
          let taken := (firstPart p (before.world.unread id)).length
          modifyWorld fun w => w.setStream id (.file q (place + taken) appends)
    return status

/-- Shows the last part of files. -/
def tail : Action := fun g => do
  match Part.ofGiven? g '+' with
  | none => refuse "tail" "invalid number" 1
  | some p => showParts "tail" g (lastPart p)

/-- A byte in a form that can be seen. -/
def visible (c : Char) : List Char :=
  if c < ' ' then ['^', Char.ofNat (c.toNat + 64)]
  else if c = '\x7f' then ['^', '?']
  else if c.toNat < 128 then [c]
  else
    let low := Char.ofNat (c.toNat - 128)
    ['M', '-'] ++
      (if low < ' ' then ['^', Char.ofNat (low.toNat + 64)]
        else if low = '\x7f' then ['^', '?'] else [low])

/-- Whether a file that is to be read and is not empty is the one that is printed to. -/
def isOutput (m : Machine) (name : String) : Bool :=
  let pathOf (channel : Nat) : Option Files.Path :=
    match (m.stream? channel).map m.world.stream with
    | some (.file p _ _) => some p
    | _ => none
  match pathOf 1, if name = "-" then pathOf 0 else m.path? name with
  | some p, some q => (m.tree.group p).contains q && (m.world.contentOf q).size != 0
  | _, _ => false

/-- Shows files one after the other. -/
def cat : Action := fun g => do
  let m ← get
  let (own, others) := (namesOf g.operands).partition (isOutput m)
  for name in own do say "cat" (name ++ ": input file is output file")
  let (cs, fine) ← if others.isEmpty then pure ([], true) else wholeText "cat" others
  let all := g.has 'A'
  let marked (l : List Char) : List Char :=
    let (body, ending) := l.span (· != '\n')
    let body := body.flatMap fun c =>
      if c = '\t' then (if all || g.has 'T' || g.has 't' then ['^', 'I'] else [c])
      else if all || g.has 'v' || g.has 'e' || g.has 't' then visible c else [c]
    body ++ (if (all || g.has 'E' || g.has 'e') && !ending.isEmpty then ['$'] else []) ++ ending
  let squeezed (ls : List (List Char)) : List (List Char) :=
    if g.has 's' then
      (ls.foldl (fun (kept : List (List Char)) l =>
        if l = ['\n'] && kept.head? = some ['\n'] then kept else l :: kept) []).reverse
    else ls
  let numbered (ls : List (List Char)) : List (List Char) :=
    if g.has 'n' || g.has 'b' then
      (ls.foldl (fun ((n, shown) : Nat × List (List Char)) l =>
        if g.has 'b' && l = ['\n'] then (n, l :: shown)
        else (n + 1, (padded 6 (Decimal.natDigits n) ++ '\t' :: l) :: shown)) (1, [])).2.reverse
    else ls
  if g.options.all fun o => o.1 == 'u' then print cs
  else print ((numbered ((squeezed (linesWithEnds cs)).map marked)).flatten)
  return statusOf (fine && own.isEmpty)

/-- Shows lines in the opposite order. -/
def tac : Action := filtering "tac" fun cs =>
  let ls := linesWithEnds cs
  ls.reverse.flatten

/-- Shows each line backwards. -/
def rev : Action := filtering "rev" fun cs =>
  ((linesWithEnds cs).map fun l =>
    (l.takeWhile (· != '\n')).reverse ++ l.dropWhile (· != '\n')).flatten

/-- Shows lines with numbers in front. -/
def nl : Action := fun g => do
  let width := ((g.value? 'w').bind number?).getD 6
  let between := ((g.value? 's').getD "\t").toList
  let first := ((g.value? 'v').bind number?).getD 1
  let step := ((g.value? 'i').bind number?).getD 1
  let style := (g.value? 'b').getD "t"
  let form := (g.value? 'n').getD "rn"
  let shownNumber (n : Nat) : List Char :=
    let ds := Decimal.natDigits n
    match form with
    | "ln" => ds ++ List.replicate (width - ds.length) ' '
    | "rz" => List.replicate (width - ds.length) '0' ++ ds
    | _ => padded width ds
  let (cs, fine) ← wholeText "nl" g.operands
  let shown := (lines cs).foldl (fun ((n, out) : Nat × List (List Char)) l =>
    if style = "a" || (style = "t" && !l.isEmpty) then
      (n + step, (shownNumber n ++ between ++ l) :: out)
    else (n, (List.replicate (width + between.length) ' ' ++ l) :: out)) (first, [])
  print (unlines '\n' shown.2.reverse)
  return statusOf fine

/-- Every so manieth line, from one of the first ones on. -/
def everyNth (step first : Nat) (ls : List (List Char)) : List (List Char) :=
  ((ls.zipIdx).filter fun (_, i) => i % step = first).map (·.1)

/-- Joins lines of several files, or all lines of each. Where the input is named several times, its lines
are dealt out. -/
def paste : Action := fun g => do
  let between := (unescapedMarks ((g.value? 'd').getD "\t").toList)
  let (texts, fine) ← textsOf "paste" g.operands
  let shares := (texts.filter (·.1 == "-")).length
  let input := lines ((texts.lookup "-").getD [])
  let (all, _) := texts.foldl (fun ((all, seen) : List (List (List Char)) × Nat) (name, cs) =>
    if name = "-" && 1 < shares && !g.has 's' then (all ++ [everyNth shares seen input], seen + 1)
    else (all ++ [lines cs], seen)) ([], 0)
  let joined (ls : List (List Char)) : List Char :=
    (ls.mapIdx fun i l =>
      (if i = 0 then [] else ((between[(i - 1) % between.length]?).getD none).toList) ++ l).flatten
  if g.has 's' then print (unlines '\n' (all.map joined))
  else
    let most := all.foldl (fun n ls => max n ls.length) 0
    print (unlines '\n' ((List.range most).map fun i => joined (all.map fun ls => ls[i]?.getD [])))
  return statusOf fine
where
  /-- The characters that stand between lines, some of them written behind a backslash. -/
  unescapedMarks : List Char → List (Option Char)
    | '\\' :: c :: rest =>
      (match c with
        | 'n' => some '\n'
        | 't' => some '\t'
        | '0' => none
        | c => some c) :: unescapedMarks rest
    | c :: rest => some c :: unescapedMarks rest
    | [] => []

/-- Shows its input, and writes it to files. -/
def tee : Action := fun g => do
  let cs ← readAllOn 0
  let status ← forEach g.operands fun name => do
    match ← writeFile (if g.has 'a' then .append else .replace) name cs with
    | .ok _ => return 0
    | .error e => refuse "tee" (name ++ ": " ++ e.message) 1
  print cs
  return status

/-- What is counted in a text: lines, words, characters, bytes and the longest line. -/
def counts (cs : List Char) : List (Char × Nat) :=
  let words := (cs.splitOnP isSpace).filter fun w => !w.isEmpty
  [('l', cs.count '\n'), ('w', words.length), ('m', cs.length), ('c', cs.length),
    ('L', (lines cs).foldl (fun n l => max n l.length) 0)]

/-- Counts lines, words and bytes. -/
def wc : Action := fun g => do
  let asked := "lwmcL".toList.filter g.has
  let asked := if asked.isEmpty then ['l', 'w', 'c'] else asked
  let (texts, fine) ← textsOf "wc" g.operands
  let rows := texts.map fun (name, cs) => (counts cs, if g.operands.isEmpty then "" else name)
  let total : List (Char × Nat) := "lwmcL".toList.map fun c =>
    (c, rows.foldl (fun n row => if c = 'L' then max n ((row.1.lookup c).getD 0)
      else n + (row.1.lookup c).getD 0) 0)
  let rows := if 1 < g.operands.length then rows ++ [(total, "total")] else rows
  let digits := rows.foldl (fun n row =>
    row.1.foldl (fun n c => max n (Decimal.natDigits c.2).length) n) 1
  let width :=
    if asked.length = 1 && rows.length = 1 then 1
    else if g.operands.isEmpty || g.operands.contains "-" then max 7 digits else digits
  for (row, name) in rows do
    let numbers := asked.map fun c => padded width (Decimal.natDigits ((row.lookup c).getD 0))
    let shown := ([' '] : List Char).intercalate numbers
    print (shown ++ (if name = "" then [] else ' ' :: name.toList) ++ ['\n'])
  return statusOf fine

def lineTools : List (String × Utility) := [
  ("head", ⟨⟨"qvz", "nc", "", [("lines", 'n'), ("bytes", 'c'), ("quiet", 'q'), ("silent", 'q'),
    ("verbose", 'v'), ("zero-terminated", 'z')], true⟩, 1, withCount, head⟩),
  ("tail", ⟨⟨"qvzfF", "ncs", "", [("lines", 'n'), ("bytes", 'c'), ("quiet", 'q'), ("silent", 'q'),
    ("verbose", 'v'), ("zero-terminated", 'z'), ("follow", 'f'), ("retry", 'F')], true⟩, 1,
    withCount, tail⟩),
  ("cat", ⟨⟨"AbeEnstTuv", "", "", [("show-all", 'A'), ("number-nonblank", 'b'), ("show-ends", 'E'),
    ("number", 'n'), ("squeeze-blank", 's'), ("show-tabs", 'T'), ("show-nonprinting", 'v')], true⟩,
    1, id, cat⟩),
  ("tac", ⟨⟨"br", "s", "", [("before", 'b'), ("regex", 'r'), ("separator", 's')], true⟩, 1, id, tac⟩),
  ("rev", ⟨⟨"", "", "", [], true⟩, 1, id, rev⟩),
  ("nl", ⟨⟨"p", "bdfhilnsvw", "", [("body-numbering", 'b'), ("number-width", 'w'),
    ("number-separator", 's'), ("starting-line-number", 'v'), ("line-increment", 'i'),
    ("number-format", 'n')], true⟩, 1, id, nl⟩),
  ("paste", ⟨⟨"sz", "d", "", [("serial", 's'), ("delimiters", 'd'), ("zero-terminated", 'z')], true⟩,
    1, id, paste⟩),
  ("tee", ⟨⟨"aip", "", "", [("append", 'a'), ("ignore-interrupts", 'i')], true⟩, 1, id, tee⟩),
  ("wc", ⟨⟨"clLmw", "", "", [("bytes", 'c'), ("chars", 'm'), ("lines", 'l'),
    ("max-line-length", 'L'), ("words", 'w')], true⟩, 1, id, wc⟩)]

end DataQuality.Shell.Tool
