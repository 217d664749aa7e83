import DataQuality.Shell.Editor.Script

/-!
# Running the line editor

The editor goes through the lines of its input. Each is put into the pattern space, the instructions are
carried out, and what the pattern space holds then is shown. A second space holds text from one line to
the next.
-/
namespace DataQuality.Shell.Editor

/-- A line, and whether it has an end. -/
abbrev Line := List Char × Bool

/-- The end of a range that has been entered. -/
inductive Active
  | untilLine (n : Nat)
  | untilMatch (r : Option Regex) (folds : Bool)
  | untilLast

/-- What the editor holds. -/
structure Editing where
  space : List Char
  /-- Whether the line in the pattern space has an end. -/
  ended : Bool
  hold : List Char
  number : Nat
  rest : List Line
  /-- What has been shown, the last part first. -/
  shown : List (List Char)
  /-- What is shown after the pattern space. -/
  later : List (List Char)
  /-- Whether something has been replaced since the line was read or a branch was taken. -/
  changed : Bool
  /-- The ranges that have been entered, by the places of their instructions. -/
  ranges : List (Nat × Active)
  /-- The expression that was used last. -/
  regex : Option Regex
  /-- What is to be written to files, the last part first. -/
  written : List (String × List Char)
  /-- What files hold that are read. -/
  files : List (String × List Char)
  /-- Whether lines are shown that no instruction shows. -/
  quiet : Bool

/-- How the instructions for a line end. -/
inductive Outcome
  /-- The next line is taken. -/
  | next
  /-- The next line is taken, and the pattern space is not shown. -/
  | silent
  /-- The instructions begin again with what is in the pattern space. -/
  | restart
  | quit (status : Nat) (silently : Bool)
  deriving DecidableEq

namespace Editing

/-- Shows a text. What has been shown before ends its line first. -/
def emit (e : Editing) (cs : List Char) : Editing :=
  let isOpen := e.shown.head?.any fun last => last.getLast?.any (· != '\n')
  { e with shown := cs :: if isOpen then ['\n'] :: e.shown else e.shown }

def showSpace (e : Editing) : Editing :=
  e.emit (e.space ++ if e.ended || !e.rest.isEmpty then ['\n'] else [])

/-- Shows what was to be shown after the pattern space. -/
def showLater (e : Editing) : Editing :=
  { e with shown := e.later ++ e.shown, later := [] }

/-- Whether an expression matches the pattern space; without one, the last one is meant. -/
def isMatch (e : Editing) (r : Option Regex) (folds : Bool) : Bool × Editing :=
  match r.or e.regex with
  | some r => (Regex.isFound folds r e.space, { e with regex := some r })
  | none => (false, e)

def isAt (e : Editing) : Address → Bool × Editing
  | .line n => (e.number == n, e)
  | .last => (e.rest.isEmpty, e)
  | .matching r folds => e.isMatch r folds
  | .step first stride =>
    (if stride = 0 then e.number == first
      else first ≤ e.number && (e.number - first) % stride == 0, e)

/-- The end of a range that begins at the line; `none` if the range ends there, too. -/
def enter (e : Editing) : RangeEnd → Option Active
  | .address (.line n) => if e.number < n then some (.untilLine n) else none
  | .address .last => if e.rest.isEmpty then none else some .untilLast
  | .address (.matching r folds) => some (.untilMatch r folds)
  | .address (.step n _) => if e.number < n then some (.untilLine n) else none
  | .after n => if n = 0 then none else some (.untilLine (e.number + n))
  | .multiple n =>
    if n = 0 || e.number % n = 0 then none else some (.untilLine ((e.number / n + 1) * n))

/-- The editor outside of a range. -/
def leave (e : Editing) (place : Nat) : Editing :=
  { e with ranges := e.ranges.filter (·.1 != place) }

/-- Whether an instruction applies to the line. -/
def applies (e : Editing) (place : Nat) (s : Selection) : Bool × Editing :=
  let (meant, e) : Bool × Editing :=
    match s.first, s.last with
    | none, _ => (true, e)
    | some a, none => e.isAt a
    | some a, some last =>
      let active : Option Active :=
        match e.ranges.lookup place, s.fromZero && e.number == 1, last with
        | some r, _, _ => some r
        | none, true, .address (.matching r folds) => some (.untilMatch r folds)
        | _, _, _ => none
      match active with
      | some (.untilLine n) =>
        if e.number < n then (true, e)
        else if e.number = n then (true, e.leave place)
        else (e.leave place).isAt a
      | some .untilLast => (true, if e.rest.isEmpty then e.leave place else e)
      | some (.untilMatch r folds) =>
        let (ends, e) := e.isMatch r folds
        let e := e.leave place
        (true, if ends then e
          else { e with ranges := (place, .untilMatch r folds) :: e.ranges })
      | none =>
        let (begins, e) := if s.fromZero then (false, e) else e.isAt a
        if begins then
          match e.enter last with
          | some r => (true, { e with ranges := (place, r) :: e.ranges })
          | none => (true, e)
        else (false, e)
  (meant != s.negated, e)

/-- Puts the next line into the pattern space, in place of what it holds or behind it. -/
def takeLine? (e : Editing) (appends : Bool) : Option Editing :=
  match e.rest with
  | [] => none
  | (l, ended) :: rest =>
    some { e with
      space := if appends then e.space ++ '\n' :: l else l
      ended := ended
      number := e.number + 1
      rest := rest }

end Editing

/-- A text in the letters that are asked for: for all of it, and for its first one. -/
def lettered (all first : Option Char) (cs : List Char) : List Char :=
  let whole :=
    match all with
    | some 'U' => cs.map Char.toUpper
    | some 'L' => cs.map Char.toLower
    | _ => cs
  match first, whole with
  | some 'u', c :: rest => c.toUpper :: rest
  | some 'l', c :: rest => c.toLower :: rest
  | _, whole => whole

def replaced (f : Regex.Found) (r : List Replacement) : List Char :=
  let (_, _, parts) := r.foldl
    (fun ((all, first, out) : Option Char × Option Char × List (List Char)) part =>
      match part with
      | .letters 'E' => (none, first, out)
      | .letters c => if c.isUpper then (some c, first, out) else (all, some c, out)
      | .text cs => (all, if cs.isEmpty then first else none, lettered all first cs :: out)
      | .part n =>
        let cs := if n = 0 then f.text else (f.parts.lookup n).getD []
        (all, if cs.isEmpty then first else none, lettered all first cs :: out)) (none, none, [])
  parts.reverse.flatten

/-- The text in which matches have been replaced, and whether there are any. -/
def Substitution.applied (s : Substitution) (r : Regex) (cs : List Char) : List Char × Bool :=
  let found := (Regex.matchesIn s.folds r cs).drop (s.earliest - 1)
  let found := if s.every then found else found.take 1
  let (place, out) := found.foldl (fun ((place, out) : Nat × List (List Char)) f =>
    (f.place + f.text.length,
      replaced f s.replacement :: ((cs.take f.place).drop place) :: out)) (0, [])
  ((cs.drop place :: out).reverse.flatten, !found.isEmpty)

/-- A text in a form that can be seen, with a sign at its end. -/
def revealed (cs : List Char) : List Char :=
  cs.flatMap (fun c =>
    match c with
    | '\\' => ['\\', '\\']
    | '\n' => ['\\', 'n']
    | '\t' => ['\\', 't']
    | '\r' => ['\\', 'r']
    | '\x07' => ['\\', 'a']
    | '\x08' => ['\\', 'b']
    | '\x0b' => ['\\', 'v']
    | '\x0c' => ['\\', 'f']
    | c =>
      if ' ' ≤ c && c ≤ '~' then [c]
      else
        let ds := Nat.toDigits 8 c.toNat
        '\\' :: List.replicate (3 - ds.length) '0' ++ ds) ++ ['$', '\n']

def blockEnd (is : Array Instruction) : Nat → Nat → Nat → Nat
  | 0, _, place => place
  | fuel + 1, depth, place =>
    match is[place]? with
    | none => place
    | some i =>
      match i.action with
      | .opening => blockEnd is fuel (depth + 1) (place + 1)
      | .closing => if depth ≤ 1 then place + 1 else blockEnd is fuel (depth - 1) (place + 1)
      | _ => blockEnd is fuel depth (place + 1)

/-- The place of a label; without a name, the end. -/
def placeOf (is : Array Instruction) (name : String) : Nat :=
  if name = "" then is.size
  else is.findIdx fun i =>
    match i.action with
    | .label s => s == name
    | _ => false

/-- Where a text is written that goes to a file, or to what is shown. -/
def Editing.write (e : Editing) (file : String) (cs : List Char) : Editing :=
  if file = "/dev/stdout" then e.emit cs
  else if file = "/dev/stderr" then e
  else { e with written := (file, cs) :: e.written }

/-- Carries out instructions for the line in the pattern space, from one on. -/
def carryOut (is : Array Instruction) : Nat → Nat → Editing → Outcome × Editing
  | 0, _, e => (.quit 1 true, e)
  | fuel + 1, place, e =>
    match is[place]? with
    | none => (.next, e)
    | some i =>
      let (meant, e) := e.applies place i.selection
      let goOn (e : Editing) : Outcome × Editing := carryOut is fuel (place + 1) e
      let branch (name : String) (e : Editing) : Outcome × Editing :=
        carryOut is fuel (placeOf is name) e
      if !meant then
        match i.action with
        | .opening => carryOut is fuel (blockEnd is (is.size + 1) 0 place) e
        | _ => goOn e
      else
        match i.action with
        | .opening => goOn e
        | .closing => goOn e
        | .label _ => goOn e
        | .append cs => goOn { e with later := cs :: e.later }
        | .insert cs => goOn (e.emit cs)
        | .change cs =>
          let atEnd := i.selection.negated || (e.ranges.lookup place).isNone
          (.silent, if atEnd then e.emit cs else e)
        | .branch name => branch name e
        | .branchIf name => if e.changed then branch name { e with changed := false } else goOn e
        | .branchUnless name =>
          if e.changed then goOn { e with changed := false } else branch name e
        | .delete => (.silent, e)
        | .deleteFirst =>
          match e.space.span (· != '\n') with
          | (_, _ :: rest) => (.restart, { e with space := rest })
          | _ => (.silent, e)
        | .toHold appends =>
          goOn { e with hold := if appends then e.hold ++ '\n' :: e.space else e.space }
        | .fromHold appends =>
          goOn { e with space := if appends then e.space ++ '\n' :: e.hold else e.hold }
        | .exchange => goOn { e with space := e.hold, hold := e.space }
        | .reveal => goOn (e.emit (revealed e.space))
        | .next appends =>
          if e.rest.isEmpty then (.quit 0 false, e)
          else
            let e := if appends || e.quiet then e else e.showSpace
            match e.showLater.takeLine? appends with
            | some e => goOn e
            | none => (.quit 0 false, e)
        | .print => goOn e.showSpace
        | .printFirst => goOn (e.emit (e.space.takeWhile (· != '\n') ++ ['\n']))
        | .quit status silently => (.quit status silently, e)
        | .read file => goOn { e with later := ((e.files.lookup file).getD []) :: e.later }
        | .write file => goOn (e.write file (e.space ++ ['\n']))
        | .number => goOn (e.emit (Decimal.natDigits e.number ++ ['\n']))
        | .clear => goOn { e with space := [] }
        | .transform pairs =>
          goOn { e with space := e.space.map fun c => (pairs.lookup c).getD c }
        | .substitute s =>
          match s.regex.or e.regex with
          | none => goOn e
          | some r =>
            let (cs, hit) := s.applied r e.space
            let e := { e with regex := some r }
            if !hit then goOn e
            else
              let e := { e with space := cs, changed := true }
              let e := if s.prints then e.showSpace else e
              goOn (match s.file with
                | some file => e.write file (e.space ++ ['\n'])
                | none => e)

/-- The most instructions that are carried out for a line. -/
def mostSteps : Nat := 100000

/-- Goes through the lines; gives the status in the end. -/
def edit (is : Array Instruction) : Nat → Bool → Editing → Nat × Editing
  | 0, _, e => (1, e)
  | fuel + 1, restarts, e =>
    match if restarts then some e else { e with changed := false }.takeLine? false with
    | none => (0, e)
    | some e =>
      let (outcome, e) := carryOut is mostSteps 0 e
      let shown := if e.quiet then e else e.showSpace
      match outcome with
      | .next => edit is fuel false shown.showLater
      | .silent => edit is fuel false e.showLater
      | .restart => edit is fuel true e.showLater
      | .quit status silently => (status, if silently then e else shown.showLater)

def Editing.start (quiet : Bool) (files : List (String × List Char)) (ls : List Line) : Editing where
  space := []
  ended := true
  hold := []
  number := 0
  rest := ls
  shown := []
  later := []
  changed := false
  ranges := []
  regex := none
  written := []
  files := files
  quiet := quiet

/-- Edits lines by a script; gives the status, and the editor in the end. -/
def run (is : List Instruction) (quiet : Bool) (files : List (String × List Char)) (ls : List Line) :
    Nat × Editing :=
  edit is.toArray (mostSteps + ls.length) false (.start quiet files ls)

def Editing.output (e : Editing) : List Char := e.shown.reverse.flatten

end DataQuality.Shell.Editor
