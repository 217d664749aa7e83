import DataQuality.Child.Command
import DataQuality.Shell.Evaluation

/-!
# Programs as children

A worker takes the end of a child as it is given, and what is proved of workers holds for every way in
which children may end. This is how a child ends that runs a shell or another program, and what it
leaves in the files.
-/
namespace DataQuality.Shell

open Files (Path Tree)

/-- How the end of a program is seen by the one that started it. -/
def Ending.childStatus : Ending → ChildStatus
  | .exited code => .exited code
  | .killed _ => .signalled

/-- Whether a program can be started: it is there and may be run, and a script says by which program it is
read. -/
def canStart (m : Machine) (program : String) : Bool :=
  match findProgram m usualPath program with
  | .ok (_, .program _) => true
  | .ok (_, .script text) =>
    (interpreter? text).any fun (reader, _) => (runnableAt m reader).toOption.isSome
  | .error _ => false

/-- The program before anything is run, in a folder of a tree. -/
def firstMachine (folder : Path) (tree : Tree) : Machine := Machine.start folder (withSystem tree)

/-- How a program ends that is started with these arguments in a folder, and the files after it. A
program that is not there cannot be started. -/
def runProgram (folder : Path) (tree : Tree) (program : String) (arguments : List String) :
    ChildStatus × Tree :=
  let m := firstMachine folder tree
  let program' := Bytes.encode program
  if !ChildCommand.isStartable program arguments || !canStart m program' then (.notStarted, tree)
  else
    let run := launch (runner deepestRun) deepestLaunch usualPath program' (arguments.map Bytes.encode)
    match run.run m with
    | (.ok ending, m) => (ending.childStatus, withoutSystem tree m.tree)
    | (.error _, m) => (.exited 1, withoutSystem tree m.tree)

end DataQuality.Shell
