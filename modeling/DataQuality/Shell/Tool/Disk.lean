import DataQuality.Shell.Arithmetic
import DataQuality.Shell.Condition
import DataQuality.Shell.Tool.Moment
import DataQuality.Shell.Tool.Walk

/-!
# Tools for files

Tools that make, copy, move and remove files, folders and links, and that set their rights.
-/
namespace DataQuality.Shell.Tool

open Files (Entry Path Tree)

/-- The last name of a written path. -/
def lastName (s : String) : String :=
  let cs := s.toList.reverse.dropWhile (· == '/')
  if cs.isEmpty && s != "" then "/" else String.ofList (cs.takeWhile (· != '/')).reverse

/-- A written path without its last name. -/
def folderName (s : String) : String :=
  let cs := (s.toList.reverse.dropWhile (· == '/')).dropWhile (· != '/')
  let rest := cs.dropWhile (· == '/')
  if !rest.isEmpty then String.ofList rest.reverse
  else if s.toList.head? = some '/' then "/"
  else "."

/-- The path at the end of a written one, where a link at the end is not followed. -/
def reach? (m : Machine) (written : String) : Option Path :=
  ((m.route written).reach m.tree).toOption

/-- What a written path leads to, where a link at the end is not followed. -/
def reached? (m : Machine) (written : String) : Option (Path × Entry) := do
  let p ← reach? m written
  pure (p, ← m.tree.lookup? p)

/-- A message that a tool prints about a file, with its status. -/
def refuseFile (tool name : String) (p : Problem) (status : Nat) : Run Nat :=
  refuse tool (accused tool name ++ ": " ++ p.message) status

/-- The tree in which what one path leads to, with all in it, is found under another one, too. -/
def copiedTree (t : Tree) (source goal : Path) : Tree :=
  let below := t.entries.filter fun (p, _) => source.isPrefixOf p
  below.foldr (fun (p, e) t =>
    let q := goal ++ p.drop source.length
    let t' := match e with
      | .folder => if t.isFolder q then t else t.put q .folder
      | e => t.put q e
    match t.rights.lookup p with
    | some n => t'.allow q n
    | none => t') t

/-- Where things go that are copied, moved or linked: into a folder, or to a path of their own. -/
inductive Goal
  | into (folder : String)
  | exactly (path : String)

/-- The sources and the goal that operands name. -/
def goalOf? (m : Machine) (g : Given) : Option (List String × Goal) :=
  match g.value? 't', g.operands.reverse with
  | some folder, _ => if g.operands.isEmpty then none else some (g.operands, .into folder)
  | none, last :: first :: rest =>
    let sources := (first :: rest).reverse
    if isFolderAt m true last && !g.has 'T' then some (sources, .into last)
    else if rest.isEmpty then some (sources, .exactly last)
    else none
  | none, _ => none

/-- The written path to which something goes. -/
def Goal.pathFor (goal : Goal) (source : String) : String :=
  match goal with
  | .into folder => joined folder (lastName source)
  | .exactly path => path

/-- Copies one file or folder. -/
def copyOne (g : Given) (source goal : String) : Run Nat := do
  let m ← get
  let recursive := g.has 'r' || g.has 'R' || g.has 'a'
  let keepsLinks := g.has 'a' || g.has 'd' || g.has 'P' || recursive
  let found : Option (Path × Entry) :=
    if keepsLinks then reached? m source
    else do
      let p ← m.path? source
      pure (p, ← m.tree.lookup? p)
  let text : Option (List Char) ← match lookAt m source with
    | .ok (p, _) => do
      if isDevice p then pure (← readFile source).toOption else pure none
    | .error _ => pure none
  match text, found, m.path? goal with
  | some cs, _, _ =>
    match ← writeFile .replace goal cs with
    | .ok _ => return 0
    | .error e => refuseFile "cp" goal e 1
  | none, none, _ => refuseFile "cp" source .missing 1
  | none, some _, none => refuseFile "cp" goal .missing 1
  | none, some (p, entry), some q =>
    if p = q then return ← refuse "cp" (source ++ " and " ++ goal ++ " are the same file") 1
    if g.has 'n' && m.tree.has q then return 0
    match entry with
    | .folder =>
      if !recursive then return ← refuse "cp" ("-r not specified; omitting directory " ++ source) 1
      if p.isPrefixOf q then return ← refuse "cp" "cannot copy a directory into itself" 1
      if m.tree.has q && !m.tree.isFolder q then
        return ← refuse "cp" "cannot overwrite non-directory" 1
      if !m.tree.isFolder q.dropLast then return ← refuseFile "cp" goal .missing 1
      let t := m.tree.removeFolder q
      let kept := if m.tree.isFolder q then m.tree else t
      set (m.withTree (copiedTree kept p q))
      return 0
    | .link there =>
      if m.tree.isFolder q || !m.tree.isFolder q.dropLast then return ← refuseFile "cp" goal .isFolder 1
      set (m.withTree (m.tree.put q (.link there)))
      return 0
    | .file content =>
      if m.tree.isFolder q then return ← refuse "cp" "cannot overwrite directory" 1
      if (goal.toList.getLast? = some '/') then return ← refuseFile "cp" goal .noFolder 1
      match device? q with
      | some _ => discard (writeFile .replace goal (Bytes.ofArray content)); return 0
      | none =>
        if (g.has 'l' || g.has 's') && m.tree.isFolder q.dropLast then
          if g.has 'l' && (m.tree.group p).contains q then return 0
          if m.tree.has q then return ← refuseFile "cp" goal .isThere 1
          set (m.withTree (if g.has 'l' then m.tree.tie p q
            else m.tree.put q (.link (Bytes.decode source))))
          return 0
        match m.tree.write? q content with
        | none => refuseFile "cp" goal .missing 1
        | some t =>
          let t := if m.tree.has q then t
            else match m.tree.rights.lookup p with
              | some n => t.allow q (n - (n &&& m.mask))
              | none => t
          let keepsTime := g.has 'p' || g.has 'a'
          set (m.withTree (if keepsTime then t.date q (m.world.changedAt p) else t))
          return 0

/-- Copies files and folders. -/
def cp : Action := fun g => do
  match goalOf? (← get) g with
  | none => refuse "cp" "missing or wrong destination" 1
  | some (sources, goal) => forEach sources fun s => copyOne g s (goal.pathFor s)

/-- Moves one file or folder. -/
def moveOne (g : Given) (source goal : String) : Run Nat := do
  let m ← get
  match reached? m source, reach? m goal with
  | none, _ => refuseFile "mv" source .missing 1
  | some _, none => refuseFile "mv" goal .missing 1
  | some (p, entry), some q =>
    if p = q then return ← refuse "mv" (source ++ " and " ++ goal ++ " are the same file") 1
    if p = [] || p.isPrefixOf q then return ← refuse "mv" "cannot move to a subdirectory of itself" 1
    if g.has 'n' && m.tree.has q then return 0
    let isFolder := m.tree.isFolder p
    let holdsMore := isFolder && ((m.tree.list? q).getD []).length > 0
    if !m.tree.isFolder q.dropLast then refuseFile "mv" goal .missing 1
    else if isFolder && m.tree.has q && !m.tree.isFolder q then refuseFile "mv" goal .noFolder 1
    else if !isFolder && m.tree.isFolder q then refuseFile "mv" goal .isFolder 1
    else if holdsMore then refuseFile "mv" goal .notEmpty 1
    else if (goal.toList.getLast? = some '/') && !isFolder then refuseFile "mv" goal .noFolder 1
    else
      match device? q, entry with
      | some _, .file content =>
        discard (writeFile .replace goal (Bytes.ofArray content))
        modify fun m => m.without p
        return 0
      | _, _ =>
        set { m with world := m.world.move p q }
        return 0

/-- Moves files and folders. -/
def mv : Action := fun g => do
  match goalOf? (← get) g with
  | none => refuse "mv" "missing or wrong destination" 1
  | some (sources, goal) => forEach sources fun s => moveOne g s (goal.pathFor s)

/-- Removes files; with the option `r` also folders, with `d` empty ones. With `f` nothing has to be
there. -/
def rm : Action := fun g => do
  let forced := g.has 'f'
  if g.operands.isEmpty then
    return ← if forced then pure 0 else refuse "rm" "missing operand" 1
  let recursive := g.has 'r' || g.has 'R'
  forEach g.operands fun name => do
    let m ← get
    match reached? m name with
    | none => if forced then return 0 else refuseFile "rm" name .missing 1
    | some (p, .folder) =>
      let name := lastName name
      if p = [] || name = "." || name = ".." then
        refuse "rm" "refusing to remove" 1
      else if recursive || (g.has 'd' && ((m.tree.list? p).getD []).isEmpty) then
        set (m.withoutFolder p)
        return 0
      else refuseFile "rm" name .isFolder 1
    | some (p, _) =>
      set (m.without p)
      return 0

/-- Removes empty folders. -/
def rmdir : Action := fun g => do
  if g.operands.isEmpty then return ← refuse "rmdir" "missing operand" 1
  forEach g.operands fun name =>
    let stages := if g.has 'p' then folders (name.toList.length + 1) name else [name]
    removeAll g stages
where
  /-- A written path and those of the folders that it leads through. -/
  folders : Nat → String → List String
    | 0, _ => []
    | fuel + 1, name =>
      let above := folderName name
      if above = "." || above = "/" then [name] else name :: folders fuel above
  /-- Removes folders one after the other, as long as that can be done. -/
  removeAll (g : Given) : List String → Run Nat
    | [] => return 0
    | name :: rest => do
      let m ← get
      match reached? m name with
      | none => refuseFile "rmdir" name .missing 1
      | some (p, .folder) =>
        if !((m.tree.list? p).getD []).isEmpty || p = [] then
          if g.has 'I' then return 0 else refuseFile "rmdir" name .notEmpty 1
        else
          set (m.withoutFolder p)
          removeAll g rest
      | some _ => refuseFile "rmdir" name .noFolder 1

/-- A part of the rights that a symbolic mode changes. -/
structure RightsChange where
  /-- For whom: the owner, the group and others, as bits for each of the three. -/
  who : Nat
  operator : Char
  what : List Char

def RightsChange.apply (c : RightsChange) (isFolder : Bool) (n : Nat) : Nat :=
  let bit (r : Char) : Nat :=
    match r with
    | 'r' => 0o444
    | 'w' => 0o222
    | 'x' => 0o111
    | 'X' => if isFolder || n &&& 0o111 != 0 then 0o111 else 0
    | 's' => 0o6000
    | 't' => 0o1000
    | 'u' => ((n / 64) % 8) * 73
    | 'g' => ((n / 8) % 8) * 73
    | 'o' => (n % 8) * 73
    | _ => 0
  let bits := (c.what.foldl (fun n r => n ||| bit r) 0) &&& (c.who ||| 0o7000)
  match c.operator with
  | '+' => n ||| bits
  | '-' => n - (n &&& bits)
  | _ => (n - (n &&& c.who)) ||| bits

def readChanges? (mask : Nat) (s : String) : Option (List RightsChange) := do
  let clauses ← (s.toList.splitOn ',').mapM fun cs =>
    let (whom, rest) := cs.span "ugoa".toList.contains
    let who := whom.foldl (fun n c => n ||| (match c with
      | 'u' => 0o700
      | 'g' => 0o070
      | 'o' => 0o007
      | _ => 0o777)) 0
    let who := if whom.isEmpty then 0o777 - mask else who
    operations who (rest.length + 1) rest
  pure clauses.flatten
where
  /-- Reads the operations of a clause. -/
  operations (who : Nat) : Nat → List Char → Option (List RightsChange)
    | 0, _ => none
    | _ + 1, [] => none
    | fuel + 1, c :: rest =>
      if c = '+' || c = '-' || c = '=' then
        let (what, after) := rest.span "rwxXstugo".toList.contains
        let change : RightsChange := ⟨who, c, what⟩
        if after.isEmpty then some [change] else (operations who fuel after).map (change :: ·)
      else none

def rightsBy? (mask : Nat) (mode : String) (isFolder : Bool) (n : Nat) : Option Nat :=
  let cs := mode.toList
  if !cs.isEmpty && cs.all (fun c => '0' ≤ c && c ≤ '7') then
    let n := Arithmetic.digitsValue 8 cs
    if n < 4096 * 2 then some (n % 4096) else none
  else (readChanges? mask mode).map fun cs => cs.foldl (fun n c => c.apply isFolder n) n

/-- Sets rights. -/
def chmod : Action := fun g => do
  let (mode, operands) : Option String × List String :=
    match g.value? 'm', g.operands with
    | some m, operands => (some m, operands)
    | none, m :: rest => (some m, rest)
    | none, [] => (none, [])
  match mode with
  | none => refuse "chmod" "missing operand" 1
  | some mode => do
    if operands.isEmpty then return ← refuse "chmod" "missing operand" 1
    if (rightsBy? (← get).mask mode false 0).isNone then return ← refuse "chmod" "invalid mode" 1
    let m ← get
    let names := operands.flatMap fun name =>
      if g.has 'R' then (pathsUnder m name).map (·.2) else [name]
    forEach names fun name => do
      let m ← get
      match m.path? name with
      | some p =>
        if !m.tree.has p then return ← refuseFile "chmod" name .missing 1
        match rightsBy? m.mask mode (m.tree.isFolder p) (rightsOf m p) with
        | some n =>
          set (m.withTree (m.tree.allow p n))
          return 0
        | none => return 1
      | none => refuseFile "chmod" name .missing 1

/-- Arguments in which a mode that takes rights away is no option. -/
def withMode (args : List String) : List String :=
  args.map fun a =>
    match a.toList with
    | '-' :: c :: _ => if "rwxXst".toList.contains c && a.toList.tail.all "rwxXst,ugoa+-=".toList.contains
        then "-m" ++ a else a
    | _ => a

/-- Makes folders; with the option `p` also those they lie in. -/
def mkdir : Action := fun g => do
  if g.operands.isEmpty then return ← refuse "mkdir" "missing operand" 1
  let mode := g.value? 'm'
  if let some m := mode then
    if (rightsBy? 0 m true 0o777).isNone then return ← refuse "mkdir" "invalid mode" 1
  forEach g.operands fun name => do
    let m ← get
    let withRights (t : Tree) (p : Path) : Tree :=
      match mode.bind fun mode => rightsBy? 0 mode true 0o777 with
      | some n => t.allow p n
      | none => if m.mask = 0o022 then t else t.allow p (0o777 - (0o777 &&& m.mask))
    match (m.route name).follow m.tree with
    | .ok p =>
      if m.tree.isFolder p then
        if g.has 'p' then return 0 else refuseFile "mkdir" name .isThere 1
      else if m.tree.has p then refuseFile "mkdir" name .isThere 1
      else if isThere m name then refuseFile "mkdir" name .isThere 1
      else
        set (m.withTree (withRights (m.tree.put p .folder) p))
        return 0
    | .error e =>
      if g.has 'p' then
        match (m.route name).makeFolder.run m.tree with
        | (.ok _, t) =>
          set (m.withTree (match (m.route name).follow t with
            | .ok p => withRights t p
            | .error _ => t))
          return 0
        | (.error e, t) =>
          set (m.withTree t)
          refuseFile "mkdir" name (.ofFileError e) 1
      else refuseFile "mkdir" name (.ofFileError e) 1

/-- The second that a stamp of digits stands for: month, day, hour and minute, perhaps after a year and
before seconds. -/
def stamp? (s : String) : Option Int := do
  let (digits, seconds) ←
    match s.toList.splitOn '.' with
    | [digits] => some (digits, ['0'])
    | [digits, seconds] => some (digits, seconds)
    | _ => none
  let year : List Char :=
    match digits.length with
    | 8 => "2026".toList
    | 10 => (if digits.take 2 < "69".toList then "20" else "19").toList ++ digits.take 2
    | _ => digits.take 4
  let rest := digits.drop (digits.length - 8)
  let number (place : Nat) : Option Nat := Decimal.readNat? ((rest.drop place).take 2)
  if digits.length % 2 = 1 || digits.length < 8 || 12 < digits.length then none
  let date ← Date.read? (String.ofList
    (year ++ '-' :: rest.take 2 ++ '-' :: (rest.drop 2).take 2))
  let (hour, minute, second) := (← number 4, ← number 6, ← Decimal.readNat? seconds)
  if hour < 24 && minute < 60 && second < 61 then
    pure (date.toDays * 86400 + (hour * 3600 + minute * 60 + second : Nat))
  else none

/-- The second that options name, if they name any. -/
def secondOf (m : Machine) (g : Given) : Except Problem (Option Int) :=
  match g.value? 'd', g.value? 't', g.value? 'r' with
  | some s, _, _ =>
    match Moment.read? ⟨m.world.second, 0⟩ s with
    | some t => .ok (some t.seconds)
    | none => .error .noText
  | none, some s, _ =>
    match stamp? s with
    | some n => .ok (some n)
    | none => .error .noText
  | none, none, some name =>
    match (m.path? name).filter m.tree.has with
    | some p => .ok (some (m.world.changedAt p))
    | none => .error .missing
  | none, none, none => .ok none

/-- Makes files that are not there. The others count as changed from now on, or from the time that is
named. -/
def touch : Action := fun g => do
  if g.operands.isEmpty then return ← refuse "touch" "missing file operand" 1
  match secondOf (← get) g with
  | .error e => refuse "touch" e.message 1
  | .ok second => touchAll g second
where
  /-- Touches the operands. -/
  touchAll (g : Given) (second : Option Int) : Run Nat := do
  let dated (t : Tree) (p : Path) : Tree :=
    match second with
    | some n => t.date p n
    | none => t
  forEach g.operands fun name => do
    let m ← get
    match lookAt m name with
    | .error e => if g.has 'c' then return 0 else refuseFile "touch" name e 1
    | .ok (p, some entry) =>
      if p != [] && (device? p).isNone then set (m.withTree (dated (m.tree.put p entry) p))
      return 0
    | .ok (p, none) =>
      if (device? p).isSome || g.has 'c' then return 0
      else if name.toList.getLast? = some '/' then refuseFile "touch" name .missing 1
      else
        match withNewFile? m p ByteArray.empty with
        | some t =>
          set (m.withTree (dated t p))
          return 0
        | none => refuseFile "touch" name .missing 1

/-- Makes links. What is linked without the option `s` is reached by two paths. -/
def ln : Action := fun g => do
  let m ← get
  let goal := match g.operands with
    | [one] => if (g.value? 't').isNone then some ([one], Goal.into ".") else goalOf? m g
    | _ => goalOf? m g
  let goal := match goal, g.operands.getLast? with
    | some (sources, .into folder), some last =>
      if g.has 'n' && folder = last && !isFolderAt m false last then
        some (sources, Goal.exactly last)
      else goal
    | goal, _ => goal
  match goal with
  | none => refuse "ln" "missing or wrong destination" 1
  | some (sources, goal) => forEach sources fun s => do
    let m ← get
    let name := goal.pathFor s
    match reach? m name with
    | none => refuseFile "ln" name .missing 1
    | some q =>
      if m.tree.isFolder q then refuseFile "ln" name .isThere 1
      else if m.tree.has q && !g.has 'f' then refuseFile "ln" name .isThere 1
      else if !m.tree.isFolder q.dropLast then refuseFile "ln" name .missing 1
      else if g.has 's' then
        if s = "" then refuseFile "ln" name .missing 1
        else
          let m := m.without q
          set (m.withTree (m.tree.put q (.link (Bytes.decode s))))
          return 0
      else
        match reached? m s with
        | none => refuseFile "ln" s .missing 1
        | some (_, .folder) => refuse "ln" "hard link not allowed for directory" 1
        | some (p, _) =>
          if (m.tree.group p).contains q then return ← refuse "ln" "are the same file" 1
          let m := m.without q
          set (m.withTree (m.tree.tie p q))
          return 0

/-- Removes one file. -/
def unlink : Action := fun g => do
  match g.operands with
  | [name] => do
    let m ← get
    match reached? m name with
    | none => refuseFile "unlink" name .missing 1
    | some (_, .folder) => refuseFile "unlink" name .isFolder 1
    | some (p, _) =>
      set (m.without p)
      return 0
  | _ => refuse "unlink" "one operand is needed" 1

/-- Makes files shorter or longer. -/
def truncate : Action := fun g => do
  match g.value? 's' with
  | none => refuse "truncate" "you must specify a size" 1
  | some s => do
    let (sign, digits) : Option Char × String :=
      match s.toList with
      | c :: rest => if c = '+' || c = '-' then (some c, String.ofList rest) else (none, s)
      | [] => (none, s)
    match sized? digits with
    | none => refuse "truncate" "invalid number" 1
    | some n => forEach g.operands fun name => do
      let m ← get
      match lookAt m name with
      | .error e => refuseFile "truncate" name e 1
      | .ok (_, some .folder) => refuseFile "truncate" name .isFolder 1
      | .ok (p, _) =>
        if g.has 'c' && !m.tree.has p then return 0
        let content := m.world.contentOf p
        let size := match sign with
          | some '+' => content.size + n
          | some _ => content.size - n
          | none => n
        let content := (World.overwritten content size ByteArray.empty).extract 0 size
        match m.tree.write? p content with
        | some t =>
          set (m.withTree t)
          return 0
        | none => refuseFile "truncate" name .missing 1

/-- Copies bytes from one file to another. -/
def dd (args : List String) : Run Nat := do
  let value (name : String) : Option String :=
    (args.reverse.find? fun a => a.startsWith (name ++ "=")).map fun a =>
      (a.drop (name.length + 1)).toString
  let known := ["if", "of", "bs", "ibs", "obs", "count", "skip", "seek", "conv", "status", "iflag", "oflag"]
  let isKnown (a : String) : Bool := known.any fun k => a.startsWith (k ++ "=")
  if !args.all isKnown then return ← refuse "dd" "unrecognized operand" 1
  let number (name : String) (default : Nat) : Nat := ((value name).bind sized?).getD default
  let size := number "bs" (number "ibs" 512)
  let cs? ← match value "if" with
    | some name => do
      match ← readFile name with
      | .ok cs => pure (some cs)
      | .error e => do
        say "dd" (name ++ ": " ++ e.message)
        pure none
    | none => pure (some (← readAllOn 0))
  match cs? with
  | none => return 1
  | some cs => do
    let cs := cs.drop (number "skip" 0 * size)
    let cs := match (value "count").bind sized? with
      | some n => cs.take (n * size)
      | none => cs
    let upper := (value "conv").any fun c => c.startsWith "ucase"
    let cs := if upper then cs.map Char.toUpper else cs
    match value "of" with
    | some name =>
      match ← writeFile .replace name cs with
      | .ok _ => return 0
      | .error e => refuseFile "dd" name e 1
    | none =>
      print cs
      return 0

def diskTools : List (String × Utility) := [
  ("cp", ⟨⟨"abdfHilLnpPrRsTuvx", "StZ", "", [("archive", 'a'), ("force", 'f'), ("interactive", 'i'),
    ("link", 'l'), ("no-clobber", 'n'), ("no-dereference", 'P'), ("recursive", 'r'),
    ("symbolic-link", 's'), ("target-directory", 't'), ("no-target-directory", 'T'), ("update", 'u'),
    ("verbose", 'v')], true⟩, 1, id, cp⟩),
  ("mv", ⟨⟨"bfinTuv", "StZ", "", [("force", 'f'), ("interactive", 'i'), ("no-clobber", 'n'),
    ("target-directory", 't'), ("no-target-directory", 'T'), ("update", 'u'), ("verbose", 'v')],
    true⟩, 1, id, mv⟩),
  ("rm", ⟨⟨"fiIrRdv", "", "", [("force", 'f'), ("recursive", 'r'), ("dir", 'd'), ("verbose", 'v'),
    ("one-file-system", 'v'), ("preserve-root", 'v'), ("no-preserve-root", 'v')], true⟩, 1, id, rm⟩),
  ("rmdir", ⟨⟨"pvI", "", "", [("parents", 'p'), ("verbose", 'v'),
    ("ignore-fail-on-non-empty", 'I')], true⟩, 1, id, rmdir⟩),
  ("chmod", ⟨⟨"cfvR", "m", "", [("changes", 'c'), ("silent", 'f'), ("quiet", 'f'), ("verbose", 'v'),
    ("recursive", 'R')], true⟩, 1, withMode, chmod⟩),
  ("mkdir", ⟨⟨"pvZ", "m", "", [("mode", 'm'), ("parents", 'p'), ("verbose", 'v')], true⟩, 1, id,
    mkdir⟩),
  ("touch", ⟨⟨"acfhm", "drt", "", [("no-create", 'c'), ("date", 'd'), ("reference", 'r'),
    ("no-dereference", 'h')], true⟩, 1, id, touch⟩),
  ("ln", ⟨⟨"bdfFiLnPrsTv", "St", "", [("force", 'f'), ("interactive", 'i'), ("logical", 'L'),
    ("no-dereference", 'n'), ("physical", 'P'), ("relative", 'r'), ("symbolic", 's'),
    ("target-directory", 't'), ("no-target-directory", 'T'), ("verbose", 'v')], true⟩, 1, id, ln⟩),
  ("link", ⟨{}, 1, id, ln⟩),
  ("unlink", ⟨{}, 1, id, unlink⟩),
  ("truncate", ⟨⟨"co", "rs", "", [("no-create", 'c'), ("reference", 'r'), ("size", 's')], true⟩, 1, id,
    truncate⟩)]

end DataQuality.Shell.Tool
