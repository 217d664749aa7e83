import DataQuality.Shell.Machine
import DataQuality.Shell.Pattern

/-!
# Written paths that match patterns

A pattern for paths has a part between each two slashes. A part that is no pattern stands for itself;
another one stands for the names in a folder that it matches. Names that begin with a point are matched
only by a part that begins with one.
-/
namespace DataQuality.Shell

open Files (Path)

def partsOf (pattern : Marked) : List Marked := pattern.splitOnP fun m => m.1 == '/'

/-- The names in a folder that a written path leads to, as texts of bytes. -/
def namesIn (m : Machine) (written : String) : List String :=
  match (m.route (if written = "" then "." else written)).list? m.tree with
  | some names => names.map Bytes.encode
  | none => []

def matchesName (part : Marked) (name : String) : Bool :=
  let isHidden := name.toList.head? == some '.'
  (!isHidden || part.head?.any fun m => m.1 == '.') && matchesPattern part name.toList

/-- The written paths that a row of parts leads to, each behind what has been written so far. -/
def matching (m : Machine) : List Marked → List String → List String
  | [], written => written
  | part :: rest, written =>
    let ending := if rest.isEmpty then "" else "/"
    let isThere (path : String) : Bool :=
      if rest.isEmpty then ((m.route path).reach m.tree).toOption.any m.tree.has
      else ((m.route path).follow m.tree).toOption.any m.tree.isFolder
    let next :=
      if isPattern part then
        written.flatMap fun before =>
          let names := namesIn m before
          let own := if part.head?.any fun c => c.1 == '.' then [".", ".."] else []
          ((own ++ names).filter (matchesName part)).filterMap fun name =>
            let path := before ++ name
            if isThere path then some (path ++ ending) else none
      else
        let text := String.ofList (part.map (·.1))
        written.filterMap fun before =>
          let path := before ++ text
          if text = "" then (if rest.isEmpty && before = "" then none else some (path ++ ending))
          else if !rest.any isPattern && !rest.isEmpty then some (path ++ ending)
          else if isThere path then some (path ++ ending) else none
    matching m rest next

/-- The written paths that a pattern matches, in order; the pattern's own text if there are none. -/
def glob (m : Machine) (pattern : Marked) : List String :=
  let own := String.ofList (pattern.map (·.1))
  if m.has 'f' || !isPattern pattern then [own]
  else
    match matching m (partsOf pattern) [""] with
    | [] => [own]
    | found => found.mergeSort fun a b => !(b < a)

end DataQuality.Shell
