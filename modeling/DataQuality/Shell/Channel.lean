import DataQuality.Shell.Pattern
import DataQuality.Shell.Machine

/-!
# Channels

Where a program reads from and prints to. Channels are numbered; each leads to a stream, and several may
lead to the same one. Some paths are those of devices rather than of files.
-/
namespace DataQuality.Shell

open Files (Entry FileError Path)

/-- Why a file cannot be used. -/
inductive Problem
  | missing
  | noFolder
  | isFolder
  | isThere
  | noDevice
  | notEmpty
  | badChannel
  | noText
  deriving DecidableEq, Repr

def Problem.message : Problem → String
  | .missing => "No such file or directory"
  | .noFolder => "Not a directory"
  | .isFolder => "Is a directory"
  | .isThere => "File exists"
  | .noDevice => "No such device or address"
  | .notEmpty => "Directory not empty"
  | .badChannel => "Bad file descriptor"
  | .noText => "Invalid argument"

def Problem.ofFileError : FileError → Problem
  | .missing => .missing
  | .unusable => .noFolder

inductive Device
  | stream (s : Stream)
  /-- Another channel of the program. -/
  | channel (n : Nat)
  | unusable

def device? (p : Path) : Option Device :=
  match p with
  | ["dev", "null"] => some (.stream .nothing)
  | ["dev", "zero"] => some (.stream .zeros)
  | ["dev", "random"] => some (.stream .zeros)
  | ["dev", "urandom"] => some (.stream .zeros)
  | ["dev", "full"] => some (.stream .full)
  | ["dev", "tty"] => some .unusable
  | ["dev", "stdin"] => some (.channel 0)
  | ["dev", "stdout"] => some (.channel 1)
  | ["dev", "stderr"] => some (.channel 2)
  | ["dev", "fd", n] => channel n
  | ["proc", "self", "fd", n] => channel n
  | _ => none
where
  /-- The channel with a written number. -/
  channel (n : String) : Option Device :=
    some (((Decimal.readNat? n.toList).map Device.channel).getD .unusable)

/-- Whether a path is that of a device that stands for a single character after the other. -/
def isDevice (p : Path) : Bool :=
  match device? p with
  | some _ => true
  | none => false

/-- What a written path leads to, with the path itself. -/
def lookAt (m : Machine) (written : String) : Except Problem (Path × Option Entry) :=
  match (m.route written).follow m.tree with
  | .ok p => .ok (p, m.tree.lookup? p)
  | .error e =>
    match device? (m.route written).target with
    | some _ => .ok ((m.route written).target, none)
    | none => .error (.ofFileError e)

/-- The number of the stream that a device leads to. -/
def openDevice (d : Device) : Run (Except Problem Nat) := do
  match d with
  | .unusable => return .error .noDevice
  | .channel n =>
    match (← get).stream? n with
    | some id => return .ok id
    | none => return .error .missing
  | .stream s => modifyGet fun m =>
    let (id, w) := m.world.openStream s
    (.ok id, { m with world := w })

def openPlain (s : Stream) : Run (Except Problem Nat) := openDevice (.stream s)

def openToRead (written : String) : Run (Except Problem Nat) := do
  match lookAt (← get) written with
  | .error e => return .error e
  | .ok (p, entry) =>
    match device? p, entry with
    | some d, _ => openDevice d
    | none, some (.file _) => openPlain (.file p 0 false)
    | none, some .folder => openPlain .nothing
    | none, _ => return .error .missing

/-- How a file is opened to print to it. -/
inductive PrintWay
  /-- In place of what it holds. -/
  | replace
  /-- In place of nothing: it must not be there. -/
  | create
  | append
  /-- From its beginning on, over what it holds. -/
  | over
  deriving DecidableEq, Repr

def newRights (m : Machine) : Nat := 0o666 - (0o666 &&& m.mask)

def withNewFile? (m : Machine) (p : Path) (content : ByteArray) : Option Files.Tree :=
  (m.tree.write? p content).map fun t =>
    if m.mask = 0o022 || m.tree.has p then t else t.allow p (newRights m)

/-- Opens a file to print to it, which is made if it is not there. -/
def openToPrint (way : PrintWay) (written : String) : Run (Except Problem Nat) := do
  let m ← get
  match lookAt m written with
  | .error e => return .error e
  | .ok (p, entry) =>
    match device? p, entry with
    | some d, _ => openDevice d
    | none, some .folder => return .error .isFolder
    | none, some (.file content) =>
      match way with
      | .create => return .error .isThere
      | .append => openPlain (.file p content.size true)
      | .over => openPlain (.file p 0 false)
      | .replace =>
        set (m.withTree (m.tree.put p (.file ByteArray.empty)))
        openPlain (.file p 0 false)
    | none, _ =>
      match withNewFile? m p ByteArray.empty with
      | some t =>
        set (m.withTree t)
        openPlain (.file p 0 (way == .append))
      | none => return .error .missing

/-- What a file holds, or the device that a path is that of. -/
def readFile (written : String) : Run (Except Problem (List Char)) := do
  let m ← get
  match lookAt m written with
  | .error e => return .error e
  | .ok (p, entry) =>
    match device? p, entry with
    | some (.channel n), _ =>
      if (m.stream? n).isNone then return .error .missing else return .ok (← readAllOn n)
    | some (.stream .zeros), _ => return .ok (List.replicate World.mostZeros '\x00')
    | some (.stream .full), _ => return .ok (List.replicate World.mostZeros '\x00')
    | some (.stream _), _ => return .ok []
    | some .unusable, _ => return .error .noDevice
    | none, some (.file content) => return .ok (Bytes.ofArray content)
    | none, some .folder => return .error .isFolder
    | none, _ => return .error .missing

/-- Writes a file, in place of what it held. -/
def writeFile (way : PrintWay) (written : String) (cs : List Char) : Run (Except Problem Unit) := do
  match ← openToPrint way written with
  | .error e => return .error e
  | .ok id =>
    modify fun m =>
      match m.world.print? id cs with
      | some w => { m with world := w }
      | none => { m with broken := true }
    return .ok ()

def withChannel {α : Type} (channel stream : Nat) (body : Run α) : Run α := do
  let m ← get
  let before := m.stream? channel
  set (m.lead channel (some stream))
  let restore : Run Unit := modify fun m => m.lead channel before
  let result ← tryCatch body fun i => do
    restore
    throw i
  restore
  return result

/-- Opens a text that is to be read, or printed to. -/
def openText (cs : List Char) : Run Nat := modifyGet fun m =>
  let (id, w) := m.world.openStream (.text cs [])
  (id, { m with world := w })

/-- Closes the streams that were opened since `mark` and to which nothing leads. -/
def forgetStreams (mark : Nat) : Run Unit := modify fun m =>
  { m with world := m.world.forget mark (m.channels.map (·.2)) }

end DataQuality.Shell
