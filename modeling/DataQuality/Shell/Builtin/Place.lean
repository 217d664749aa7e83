import DataQuality.Shell.Setting
import DataQuality.Shell.Tool.Disk

/-!
# The place of a shell

The commands by which a shell changes the folder in which it works, and the rights and limits of what it
does there.
-/
namespace DataQuality.Shell

open Files (Path)

/-- The written path of the folder, through which it was reached. -/
def writtenFolder (m : Machine) : String :=
  let given := m.binding "PWD"
  if given.toList.head? == some '/' && m.path? given == some m.folder then given
  else Machine.pathText m.folder

/-- A written path in which points have been followed by their names alone. -/
def tidied (written : String) : String :=
  let names := (written.toList.splitOn '/').foldl (fun (names : List (List Char)) name =>
    if name.isEmpty || name = ['.'] then names
    else if name = ['.', '.'] then names.tail
    else name :: names) []
  String.ofList ('/' :: ['/'].intercalate names.reverse)

/-- Reads the letters that tell how paths are followed: the last one counts. -/
def readPathLetters? (command : String) : Bool → List String → Run (Bool × List String)
  | physical, [] => return (physical, [])
  | physical, a :: rest => do
    match a.toList with
    | ['-', '-'] => return (physical, rest)
    | '-' :: c :: letters =>
      if (c :: letters).all fun c => c == 'L' || c == 'P' then
        readPathLetters? command ((c :: letters).getLast? == some 'P') rest
      else fail (command ++ ": Illegal option -" ++ String.ofList [c])
    | _ => return (physical, a :: rest)

def changeFolder (args : List String) : Run Unit := do
  let (physical, operands) ← readPathLetters? "cd" false args
  let m ← get
  let isBack := operands.head? = some "-"
  let goal :=
    if isBack then m.binding "OLDPWD"
    else operands.head?.getD (m.binding "HOME")
  let goal := if goal = "" then "." else goal
  let isPlain := goal.startsWith "/" || goal = "." || goal = ".." || goal.startsWith "./" ||
    goal.startsWith "../"
  let folders :=
    if isPlain then [] else ((m.binding "CDPATH").toList.splitOn ':').map String.ofList
  let candidates := (folders.filter (· ≠ "")).map (Tool.joined · goal)
  let follow (written : String) : Option (String × Path) := do
    let absolute := if written.startsWith "/" then written else writtenFolder m ++ "/" ++ written
    let path ← if physical then m.path? written else m.path? (tidied absolute)
    if m.tree.isFolder path then
      pure (if physical then Machine.pathText path else tidied absolute, path)
    else none
  match candidates.findSome? follow, follow goal with
  | none, none => fail ("cd: can't cd to " ++ goal)
  | found, direct =>
    let shows := isBack || found.isSome
    if let some (written, path) := found.or direct then
      let before := writtenFolder m
      set { m with folder := path }
      bindName "OLDPWD" before
      bindName "PWD" written
      modify fun m => (m.share "OLDPWD").share "PWD"
      if shows then printLine written
    setStatus 0

def showFolder (args : List String) : Run Unit := do
  let (physical, _) ← readPathLetters? "pwd" false args
  let m ← get
  printLine (if physical then Machine.pathText m.folder else writtenFolder m)
  setStatus 0

/-- Sets the rights that new files do not get, or shows them. -/
def umask (args : List String) : Run Unit := do
  let symbolic := args.head? = some "-S"
  let m ← get
  match if symbolic then args.tail else args with
  | [] => do
    if symbolic then
      let kept := 0o777 - m.mask
      let part (who : String) (shift : Nat) : String :=
        let bits := kept / Nat.pow 2 shift % 8
        who ++ "=" ++ String.ofList ((if bits / 4 % 2 = 1 then ['r'] else []) ++
          (if bits / 2 % 2 = 1 then ['w'] else []) ++ (if bits % 2 = 1 then ['x'] else []))
      printLine (",".intercalate [part "u" 6, part "g" 3, part "o" 0])
    else
      let ds := Nat.toDigits 8 m.mask
      print (List.replicate (4 - ds.length) '0' ++ ds ++ ['\n'])
    setStatus 0
  | mode :: _ => do
    if mode.toList.head?.any Char.isDigit then
      if mode.toList.all fun c => '0' ≤ c && c ≤ '7' then
        set { m with mask := Arithmetic.digitsValue 8 mode.toList % 512, status := 0 }
      else fail ("umask: Illegal number: " ++ mode)
    else
      match Tool.rightsBy? 0 mode false (0o777 - m.mask) with
      | some n => set { m with mask := 0o777 - n % 512, status := 0 }
      | none => fail ("umask: Illegal mode: " ++ mode)

/-- Shows limits, of which there are none, or sets them. -/
def ulimit (args : List String) : Run Unit := do
  let isOption (a : String) : Bool := a.startsWith "-" && 1 < a.length
  let letters := (args.takeWhile isOption).flatMap fun a => a.toList.drop 1
  if let some c := letters.find? (!"HSatfdscmlpnvwrbi".toList.contains ·) then
    fail ("ulimit: Illegal option -" ++ String.ofList [c])
  match args.dropWhile isOption with
  | [] => do
    if !letters.contains 'a' then printLine "unlimited"
  | value :: _ =>
    if value ≠ "unlimited" && (Decimal.readNat? value.toList).isNone then fail "ulimit: bad number"
  setStatus 0

end DataQuality.Shell
