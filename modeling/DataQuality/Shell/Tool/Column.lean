import DataQuality.Shell.Format
import DataQuality.Shell.Tool.Input

/-!
# Tools for columns and characters

Tools that cut lines into columns or exchange characters, and those that show bytes in other forms.
-/
namespace DataQuality.Shell.Tool

/-- Places from one to another, both counted from one; the last one may be open. -/
structure Span where
  first : Nat
  last : Option Nat

def Span.has (s : Span) (n : Nat) : Bool := s.first ≤ n && s.last.all (n ≤ ·)

def readSpans? (s : String) : Option (List Span) :=
  (s.toList.splitOnP fun c => c == ',' || c == ' ').mapM fun cs =>
    let (low, rest) := cs.span Decimal.isDigit
    let least := if low.isEmpty then 1 else Decimal.natOfDigits low
    match rest with
    | [] => if low.isEmpty || least = 0 then none else some ⟨least, some least⟩
    | '-' :: high =>
      if (low.isEmpty && high.isEmpty) || !high.all Decimal.isDigit || least = 0 then none
      else
        let most := if high.isEmpty then none else some (Decimal.natOfDigits high)
        if most.any (· < least) then none else some ⟨least, most⟩
    | _ => none

/-- Shows parts of lines: characters or fields at some places. -/
def cut : Action := fun g => do
  let way := g.last? ['b', 'c', 'f']
  let separator := match g.value? 'd' with
    | some s => s.toList
    | none => ['\t']
  match way, way.bind fun c => (g.value? c).bind readSpans? with
  | some way, some spans => do
    let fieldOnly := g.has 'd' || g.has 's'
    if separator.length > 1 || (way != 'f' && fieldOnly) then
      return ← refuse "cut" "the delimiter must be a single character" 1
    let c := separator.head?.getD '\x00'
    let between := ((g.value? 'O').map String.toList).getD (if way = 'f' then [c] else [])
    let isShown (n : Nat) : Bool := spans.any (·.has n) != g.has 'C'
    let (cs, fine) ← wholeText "cut" g.operands
    let shown := (lines cs).filterMap fun l =>
      if way = 'f' then
        if !l.contains c then if g.has 's' then none else some l
        else some (between.intercalate (((l.splitOn c).zipIdx 1).filterMap fun (f, n) =>
          if isShown n then some f else none))
      else
        let kept := (l.zipIdx 1).map fun (c, n) => (c, isShown n)
        let runs := (kept.splitOnP fun k => !k.2).filter fun r => !r.isEmpty
        some (between.intercalate (runs.map fun r => r.map (·.1)))
    print (unlines '\n' shown)
    return statusOf fine
  | _, _ => refuse "cut" "you must specify a list of bytes, characters, or fields" 1

/-- What characters are exchanged for others: single ones, and one that is repeated as often as it takes
to fill a place. -/
inductive Exchange
  | one (c : Char)
  | fill (c : Char) (count : Nat)
  | named (name : String)
  deriving DecidableEq

/-- Reads a character, perhaps behind a backslash. -/
def readChar? : List Char → Option (Char × List Char)
  | '\\' :: rest =>
    match readOctal? rest with
    | some r => some r
    | none =>
      match rest with
      | c :: rest => some ((escapedLetter? c).getD c, rest)
      | [] => some ('\\', [])
  | c :: rest => some (c, rest)
  | [] => none

def readExchanges? : Nat → List Char → Option (List Exchange)
  | 0, _ => none
  | _ + 1, [] => some []
  | fuel + 1, cs => do
    let inner : Option (Exchange × List Char) :=
      match cs with
      | '[' :: ':' :: rest =>
        match rest.span (· != ':') with
        | (name, ':' :: ']' :: after) =>
          if classNames.contains (String.ofList name) then
            some (.named (String.ofList name), after)
          else none
        | _ => none
      | '[' :: '=' :: c :: '=' :: ']' :: after => some (.one c, after)
      | '[' :: rest => do
        let (c, rest) ← readChar? rest
        match rest with
        | '*' :: rest =>
          match rest.span Decimal.isDigit with
          | (ds, ']' :: after) =>
            let n := if ds.head? = some '0' then Arithmetic.digitsValue 8 ds
              else Decimal.natOfDigits ds
            some (.fill c n, after)
          | _ => none
        | _ => none
      | _ => none
    match inner with
    | some (e, after) => pure (e :: (← readExchanges? fuel after))
    | none => do
      let (a, rest) ← readChar? cs
      match rest with
      | '-' :: more =>
        match readChar? more with
        | some (b, after) =>
          if b < a then none
          let range := (List.range (b.toNat + 1 - a.toNat)).map fun i =>
            Exchange.one (Char.ofNat (a.toNat + i))
          pure (range ++ (← readExchanges? fuel after))
        | none => pure (.one a :: (← readExchanges? fuel rest))
      | rest => pure (.one a :: (← readExchanges? fuel rest))

/-- All bytes, as characters. -/
def allBytes : List Char := (List.range 256).map Char.ofNat

/-- The characters that exchanges stand for, if a filling one takes `room` places. -/
def Exchange.chars (room : Nat) : Exchange → List Char
  | .one c => [c]
  | .fill c n => List.replicate (if n = 0 then room else n) c
  | .named name => allBytes.filter (isInClass name)

/-- Drops characters of a kind that stand behind their like. -/
def squeezed (isKind : Char → Bool) : List Char → List Char
  | a :: b :: rest =>
    if a = b && isKind a then squeezed isKind (a :: rest) else a :: squeezed isKind (b :: rest)
  | cs => cs
termination_by cs => cs.length

/-- Exchanges, drops or squeezes characters. -/
def tr : Action := fun g => do
  let read (s : String) : Option (List Exchange) := readExchanges? (s.length + 1) s.toList
  let complement := g.has 'c' || g.has 'C'
  match g.operands.mapM read with
  | none => refuse "tr" "invalid range" 1
  | some sets => do
    let wanted := if g.has 'd' then (if g.has 's' then 2 else 1) else if g.has 's' then 1 else 2
    let atMost := if g.has 'd' && !g.has 's' then 1 else 2
    if sets.length < wanted || atMost < sets.length then
      return ← refuse "tr" "wrong number of operands" 1
    let first := (sets[0]?.getD []).flatMap (Exchange.chars 0)
    let first := if complement then allBytes.filter fun c => !first.contains c else first
    let second := sets[1]?.getD []
    let fixed := (second.flatMap (Exchange.chars 0)).length
    let second := second.flatMap (Exchange.chars (first.length - fixed))
    let cs ← readAllOn 0
    if g.has 'd' then
      let kept := cs.filter fun c => !first.contains c
      print (if g.has 's' then squeezed second.contains kept else kept)
      return 0
    if sets.length = 1 then
      print (squeezed first.contains cs)
      return 0
    if second.isEmpty && !g.has 't' then
      return ← refuse "tr" "when not truncating set1, string2 must be non-empty" 1
    let last := second.getLast?.getD ' '
    let room := first.length - second.length
    let second := if g.has 't' then second else second ++ List.replicate room last
    let table := (first.zip second).reverse
    let exchanged := cs.map fun c => (table.lookup c).getD c
    print (if g.has 's' then squeezed second.contains exchanged else exchanged)
    return 0

/-- Breaks lines that are too long. -/
def fold : Action := fun g => do
  let width := ((g.value? 'w').bind number?).getD 80
  let broken (l : List Char) : List (List Char) := pieces (l.length + 1) (g.has 's') width l
  if width = 0 then return ← refuse "fold" "invalid number of columns" 1
  let (cs, fine) ← wholeText "fold" g.operands
  let ls := (lines cs).flatMap broken
  let shown := unlines '\n' ls
  print (if isEnded cs then shown else shown.dropLast)
  return statusOf fine
where
  /-- The pieces of a line, each of some width at most. -/
  pieces : Nat → Bool → Nat → List Char → List (List Char)
    | 0, _, _, l => [l]
    | fuel + 1, atBlanks, width, l =>
      if l.length ≤ width then [l]
      else
        let piece := l.take width
        let upToBlank := (piece.reverse.dropWhile (· != ' ')).reverse
        let piece := if atBlanks && !upToBlank.isEmpty then upToBlank else piece
        piece :: pieces fuel atBlanks width (l.drop piece.length)

/-- Exchanges tabs for blanks. -/
def expand : Action := fun g => do
  let width := max 1 (((g.value? 't').bind number?).getD 8)
  let (cs, fine) ← wholeText "expand" g.operands
  let (_, shown) := cs.foldl (fun ((column, shown) : Nat × List Char) c =>
    if c = '\n' then (0, c :: shown)
    else if c = '\t' then
      let n := width - column % width
      (column + n, List.replicate n ' ' ++ shown)
    else (column + 1, c :: shown)) (0, [])
  print shown.reverse
  return statusOf fine

/-- The digits of a number in some base, with zeros in front. -/
def digitsOf (base width n : Nat) : List Char :=
  let ds := Nat.toDigits base n
  List.replicate (width - ds.length) '0' ++ ds

/-- Rows of so many elements each. -/
def rows {α : Type} (size : Nat) (xs : List α) : List (List α) := split xs.length xs
where
  /-- Splits rows off. -/
  split : Nat → List α → List (List α)
    | 0, _ => []
    | fuel + 1, xs => if xs.isEmpty then [] else xs.take size :: split fuel (xs.drop size)

/-- The form in which bytes are shown. -/
inductive ByteForm
  | number (base width size : Nat) (signed : Bool)
  | chars
  deriving DecidableEq

/-- The form of one byte as a character. -/
def charForm (c : Char) : List Char :=
  match c with
  | '\x00' => ['\\', '0']
  | '\x07' => ['\\', 'a']
  | '\x08' => ['\\', 'b']
  | '\t' => ['\\', 't']
  | '\n' => ['\\', 'n']
  | '\x0b' => ['\\', 'v']
  | '\x0c' => ['\\', 'f']
  | '\r' => ['\\', 'r']
  | c => if ' ' ≤ c && c ≤ '~' then [c] else digitsOf 8 3 c.toNat

/-- The form that an option of `od` asks for. -/
def ByteForm.ofText? (s : String) : Option ByteForm :=
  match s.toList with
  | 'c' :: _ => some .chars
  | 'a' :: _ => some .chars
  | letter :: rest =>
    let size := if rest.isEmpty then 4 else
      match rest with
      | ['C'] => 1
      | ['S'] => 2
      | ['I'] => 4
      | ['L'] => 8
      | ds => Decimal.natOfDigits (ds.takeWhile Decimal.isDigit)
    match letter with
    | 'x' => some (.number 16 (2 * size) size false)
    | 'o' => some (.number 8 ((8 * size + 2) / 3) size false)
    | 'u' => some (.number 10 (match size with | 1 => 3 | 2 => 5 | 4 => 10 | _ => 20) size false)
    | 'd' => some (.number 10 (match size with | 1 => 4 | 2 => 6 | 4 => 11 | _ => 20) size true)
    | _ => none
  | [] => none

def ByteForm.show (f : ByteForm) (bytes : List Char) : List Char :=
  match f with
  | .chars => bytes.flatMap fun c => padded 4 (charForm c)
  | .number base width size signed =>
    (rows size bytes).flatMap fun group =>
      let n : Nat := group.foldr (fun c n => n * 256 + c.toNat) 0
      let limit : Nat := Nat.pow 256 size
      let ds : List Char :=
        if signed then Decimal.intChars (if 2 * n < limit then (n : Int) else (n : Int) - limit)
        else if base = 10 then Decimal.natDigits n
        else digitsOf base width n
      padded (width + 1) ds

/-- Shows bytes. -/
def od : Action := fun g => do
  let asked := g.options.filterMap fun (c, v) =>
    match c with
    | 'c' => some "c"
    | 'b' => some "o1"
    | 'x' => some "x2"
    | 'd' => some "u2"
    | 'o' => some "o2"
    | 't' => some v
    | _ => none
  let forms := (if asked.isEmpty then ["o2"] else asked).mapM ByteForm.ofText?
  match forms with
  | none => refuse "od" "invalid type string" 1
  | some forms => do
    let (cs, fine) ← wholeText "od" g.operands
    let cs := cs.drop (((g.value? 'j').bind sized?).getD 0)
    let cs := match (g.value? 'N').bind sized? with
      | some n => cs.take n
      | none => cs
    let width := match g.value? 'w' with
      | some s => (number? s).getD 32
      | none => 16
    let radix := (g.value? 'A').getD "o"
    let address (n : Nat) : List Char :=
      match radix with
      | "n" => []
      | "d" => digitsOf 10 7 n
      | "x" => digitsOf 16 6 n
      | _ => digitsOf 8 7 n
    for (row, i) in (rows (max 1 width) cs).zipIdx do
      for (f, k) in forms.zipIdx do
        let front := address (i * width)
        print ((if k = 0 then front else List.replicate front.length ' ') ++ f.show row ++ ['\n'])
    if radix != "n" then print (address cs.length ++ ['\n'])
    return statusOf fine

def sixBits : List Char :=
  "ABCDEFGHIJKLMNOPQRSTUVWXYZabcdefghijklmnopqrstuvwxyz0123456789+/".toList

/-- Writes bytes down as characters for six bits each. -/
def encode64 (cs : List Char) : List Char :=
  (rows 3 cs).flatMap fun group =>
    let n := (group ++ List.replicate (3 - group.length) '\x00').foldl (fun n c => n * 256 + c.toNat) 0
    let digits := [n / 262144, n / 4096, n / 64, n].map fun d => sixBits[d % 64]?.getD '='
    digits.take (group.length + 1) ++ List.replicate (3 - group.length) '='

/-- The bytes that characters for six bits each stand for, if they do. -/
def decode64? (cs : List Char) : Option (List Char) := do
  let cs := cs.filter (· != '\n')
  if cs.length % 4 ≠ 0 then none
  let groups ← (rows 4 cs).mapM fun group => do
    let digits := group.takeWhile (· != '=')
    let values ← digits.mapM fun c => if sixBits.contains c then some (sixBits.idxOf c) else none
    let n := (values ++ List.replicate (4 - values.length) 0).foldl (fun n d => n * 64 + d) 0
    let bytes := [n / 65536, n / 256, n].map fun b => Char.ofNat (b % 256)
    pure (bytes.take (values.length - 1))
  pure groups.flatten

/-- Writes bytes down in characters for six bits each, or reads them. -/
def base64 : Action := fun g => do
  let (cs, fine) ← wholeText "base64" g.operands
  if !fine then return 1
  if g.has 'd' then
    match decode64? cs with
    | some bytes =>
      print bytes
      return 0
    | none => refuse "base64" "invalid input" 1
  else
    let width := ((g.value? 'w').bind number?).getD 76
    let shown := encode64 cs
    print (if width = 0 then shown else unlines '\n' (rows width shown))
    return 0

def columnTools : List (String × Utility) := [
  ("cut", ⟨⟨"nszC", "bcdfO", "", [("bytes", 'b'), ("characters", 'c'), ("delimiter", 'd'),
    ("fields", 'f'), ("complement", 'C'), ("only-delimited", 's'), ("output-delimiter", 'O'),
    ("zero-terminated", 'z')], true⟩, 1, id, cut⟩),
  ("tr", ⟨⟨"cCdst", "", "", [("complement", 'c'), ("delete", 'd'), ("squeeze-repeats", 's'),
    ("truncate-set1", 't')], false⟩, 1, id, tr⟩),
  ("fold", ⟨⟨"bs", "w", "", [("bytes", 'b'), ("spaces", 's'), ("width", 'w')], true⟩, 1, id, fold⟩),
  ("expand", ⟨⟨"i", "t", "", [("initial", 'i'), ("tabs", 't')], true⟩, 1, id, expand⟩),
  ("od", ⟨⟨"abcdovx", "AjNt", "w", [("address-radix", 'A'), ("skip-bytes", 'j'),
    ("read-bytes", 'N'), ("format", 't'), ("width", 'w'), ("output-duplicates", 'v')], true⟩, 1, id,
    od⟩),
  ("base64", ⟨⟨"di", "w", "", [("decode", 'd'), ("ignore-garbage", 'i'), ("wrap", 'w')], true⟩, 1,
    id, base64⟩)]

end DataQuality.Shell.Tool
