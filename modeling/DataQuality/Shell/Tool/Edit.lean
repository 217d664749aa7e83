import DataQuality.Shell.Editor.Run
import DataQuality.Shell.Tool.Input

/-!
# The tool for editing lines

The editor as a tool: its script and its input come from arguments and files, and what it makes of them is
printed, or put in place of the files.
-/
namespace DataQuality.Shell.Tool

def editorLines (ending : Char) (cs : List Char) : List Editor.Line :=
  let ls := linesBy ending cs
  let isEnded := cs.isEmpty || cs.getLast? == some ending
  if isEnded then ls.map (·, true)
  else (ls.dropLast.map (·, true)) ++ (ls.getLast?.toList.map (·, false))

/-- The text of a script that is given by options, in their order. -/
def scriptOf (options : List (Char × String)) : Run (Option (List Char)) := do
  let parts ← (options.filter fun o => o.1 == 'e' || o.1 == 'f').mapM fun (c, value) => do
    if c = 'e' then return some value.toList
    else return (← textOf? "sed" value).map fun cs => (unlines '\n' (lines cs)).dropLast
  return (parts.mapM id).map fun parts => ['\n'].intercalate parts

def writeEdited (e : Editor.Editing) : Run Unit := do
  for name in (e.written.map (·.1)).reverse.eraseDups do
    let cs := ((e.written.filter (·.1 == name)).map (·.2)).reverse.flatten
    if name = "/dev/stdout" then print cs
    else if name = "/dev/stderr" then printOn 2 cs
    else let _ ← writeFile .replace name cs

/-- What the files hold that instructions read, with their names. -/
def filesRead (is : List Editor.Instruction) : Run (List (String × List Char)) := do
  let named := is.filterMap fun i =>
    match i.action with
    | .read name => some name
    | _ => none
  let texts ← named.mapM fun name => do
    match ← (if name = "/dev/stdin" then return .ok (← readAllOn 0) else readFile name) with
    | .ok cs => return some (name, cs)
    | .error _ => return none
  return texts.reduceOption

/-- Edits lines by a script. -/
def sed : Action := fun g => do
  let given := g.options.any fun o => o.1 == 'e' || o.1 == 'f'
  match given, g.operands with
  | false, [] => refuse "sed" "no script specified" 1
  | _, operands => do
    let options := if given then g.options else [('e', operands.head?.getD "")]
    let files := if given then operands else operands.tail
    match ← scriptOf options with
    | none => return 1
    | some script => do
      match Editor.read? (g.has 'E' || g.has 'r') script with
      | none => refuse "sed" "the script makes no sense" 1
      | some is => do
        let quiet := g.has 'n' || script.take 3 == ['#', 'n', '\n'] || script == ['#', 'n']
        let ending := if g.has 'z' then '\x00' else '\n'
        let extra ← filesRead is
        let edited (cs : List Char) : Run (Nat × List Char) := do
          let (status, e) := Editor.run is quiet extra (editorLines ending cs)
          writeEdited e
          let shown := e.output
          return (status, if ending = '\n' then shown else shown.map fun c =>
            if c = '\n' then ending else c)
        let names := namesOf files
        let (texts, fine) ← textsOf "sed" names
        let missing := if fine then 0 else 2
        if g.has 'i' then
          let statuses ← texts.mapM fun (name, cs) => do
            let (status, shown) ← edited cs
            let suffix := (g.value? 'i').getD ""
            if suffix ≠ "" then
              let _ ← writeFile .replace (name ++ suffix) cs
            let _ ← writeFile .replace name shown
            return status
          return statuses.foldl max missing
        else if g.has 's' then
          let statuses ← texts.mapM fun (_, cs) => do
            let (status, shown) ← edited cs
            print shown
            return status
          return statuses.foldl max missing
        else
          let (status, shown) ← edited (joinedTexts ending (texts.map (·.2)))
          print shown
          return if status = 0 then missing else status
where
  /-- Texts one after the other, each on lines of its own. -/
  joinedTexts (ending : Char) : List (List Char) → List Char
    | [] => []
    | [cs] => cs
    | cs :: rest =>
      let ended := cs.isEmpty || cs.getLast? == some ending || rest.all (·.isEmpty)
      cs ++ (if ended then [] else [ending]) ++ joinedTexts ending rest

def editTools : List (String × Utility) := [
  ("sed", ⟨⟨"nErsuz", "efl", "i", [("quiet", 'n'), ("silent", 'n'), ("expression", 'e'),
    ("file", 'f'), ("in-place", 'i'), ("regexp-extended", 'E'), ("separate", 's'),
    ("unbuffered", 'u'), ("null-data", 'z'), ("line-length", 'l'), ("posix", 'u'),
    ("debug", 'u')], true⟩, 1, id, sed⟩)]

end DataQuality.Shell.Tool
