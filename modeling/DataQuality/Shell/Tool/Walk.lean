import DataQuality.Shell.Glob
import DataQuality.Shell.Tool.Input

/-!
# Walking through folders

The written paths of all that lies in a folder, and of what lies in the folders in it.
-/
namespace DataQuality.Shell.Tool

def joined (written name : String) : String :=
  if written.toList.getLast? = some '/' then written ++ name else written ++ "/" ++ name

/-- Whether a written path leads to a folder; `follows` tells that a link at its end is followed. -/
def isFolderAt (m : Machine) (follows : Bool) (written : String) : Bool :=
  let r := m.route written
  ((if follows then r.follow m.tree else r.reach m.tree)).toOption.any m.tree.isFolder

/-- Whether a written path leads to something, be it a link that leads to nothing. -/
def isThere (m : Machine) (written : String) : Bool :=
  ((m.route written).reach m.tree).toOption.any m.tree.has

/-- The written paths that lie under one, itself first, each with how deep it lies. -/
def under (m : Machine) : Nat → Nat → String → List (Nat × String)
  | 0, depth, written => [(depth, written)]
  | fuel + 1, depth, written =>
    (depth, written) ::
      if isFolderAt m (depth == 0) written then
        (namesIn m written).flatMap fun name => under m fuel (depth + 1) (joined written name)
      else []

/-- How deep folders are walked through. -/
def deepestFolder : Nat := 64

/-- The written paths that lie under one, itself first. -/
def pathsUnder (m : Machine) (written : String) : List (Nat × String) :=
  under m deepestFolder 0 written

def filesUnder (m : Machine) (written : String) : List String :=
  ((pathsUnder m written).filter fun p => !isFolderAt m true p.2).map (·.2)

end DataQuality.Shell.Tool
