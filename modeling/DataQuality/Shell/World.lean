import DataQuality.Decimal.Integer
import DataQuality.Files.Route

/-!
# What programs share

Programs read and print bytes. A text of bytes is one of characters each of which stands for the byte of
its number.

Programs that run at the same time share the files, the streams that they read from and print to, a
clock, and the signals that they send one another. Signals have a number and a name. Most of them end
a program that is not prepared for them.
-/
namespace DataQuality.Shell.Bytes

def ofArray (bytes : ByteArray) : List Char := bytes.toList.map fun b => Char.ofNat b.toNat

def toArray (cs : List Char) : ByteArray := ⟨(cs.map fun c => c.toNat.toUInt8).toArray⟩

/-- The text of the bytes by which characters are written down. -/
def encode (s : String) : String :=
  if s.toList.all fun c => c.toNat < 128 then s else String.ofList (ofArray s.toUTF8)

/-- The characters that are written down by the bytes of a text, if there are any. -/
def decode (s : String) : String :=
  if s.toList.all fun c => c.toNat < 128 then s
  else (String.fromUTF8? (toArray s.toList)).getD s

end DataQuality.Shell.Bytes

namespace DataQuality.Shell

namespace Signal

/-- The names of the signals for which no use is laid down. -/
def freeNames : List String :=
  "RTMIN" :: (List.range 15).map (fun n => "RTMIN+" ++ Decimal.ofNat (n + 1)) ++
    (List.range 14).map (fun n => "RTMAX-" ++ Decimal.ofNat (14 - n)) ++ ["RTMAX"]

/-- The names of the signals, by their numbers. Zero is no signal: it stands for the end of a shell. Some
have no name but their number. -/
def names : List String :=
  ["EXIT", "HUP", "INT", "QUIT", "ILL", "TRAP", "ABRT", "BUS", "FPE", "KILL", "USR1", "SEGV", "USR2",
    "PIPE", "ALRM", "TERM", "16", "CHLD", "CONT", "STOP", "TSTP", "TTIN", "TTOU", "URG", "XCPU",
    "XFSZ", "VTALRM", "PROF", "WINCH", "IO", "PWR", "SYS", "32", "33"] ++ freeNames

/-- The number of a signal that is given by number or name. -/
def ofText? (s : String) : Option Nat :=
  match Decimal.readNat? s.toList with
  | some n => if n ≤ 64 then some n else none
  | none =>
    let i := names.idxOf (String.ofList (s.toList.map Char.toUpper))
    if i < names.length then some i else none

def name (n : Nat) : String := names[n]?.getD (Decimal.ofNat n)

/-- Whether a program that is not prepared for a signal is ended by it. -/
def ends (n : Nat) : Bool := n != 0 && n ∉ [17, 18, 19, 20, 21, 22, 23, 28]

/-- Whether a program can be prepared for a signal. -/
def isAvoidable (n : Nat) : Bool := n != 9 && n != 19

end Signal

open Files (Path Tree)

inductive Stream
  /-- Nothing is read, and what is printed is dropped. -/
  | nothing
  /-- Zero characters are read. -/
  | zeros
  /-- Nothing can be printed. -/
  | full
  /-- A text: what is still to be read, and what has been printed and when, the last part first. -/
  | text (unread : List Char) (printed : List (Nat × List Char))
  /-- A file and the place in it from which it is read and printed on; with `appends`, what is printed
  goes to its end. -/
  | file (path : Path) (place : Nat) (appends : Bool)
  deriving DecidableEq, Repr

/-- A signal that has been sent but not yet received. -/
structure Sent where
  /-- The number of the program that receives it. -/
  target : Nat
  signal : Nat
  /-- When it is sent. -/
  time : Nat

/-- A program in the background. -/
structure Task where
  number : Nat
  /-- How it ends. -/
  status : Nat
  /-- When it ends. -/
  finish : Nat
  /-- Whether its end has been awaited. -/
  awaited : Bool

/-- What programs share. -/
structure World where
  tree : Tree
  /-- The streams that are open, by numbers. -/
  streams : List (Nat × Stream)
  /-- A number that no stream has had. -/
  nextStream : Nat
  /-- The time since the beginning, in nanoseconds. -/
  clock : Nat
  /-- The number of the program that was started last. -/
  lastNumber : Nat
  /-- The signals that have been sent but not yet received. -/
  signals : List Sent
  /-- The programs in the background, the last one first. -/
  tasks : List Task

namespace World

def stream (w : World) (id : Nat) : Stream := (w.streams.lookup id).getD .nothing

def setStream (w : World) (id : Nat) (s : Stream) : World :=
  { w with streams := w.streams.map fun (i, old) => if i = id then (i, s) else (i, old) }

/-- Opens a stream, which is given with its number. -/
def openStream (w : World) (s : Stream) : Nat × World :=
  (w.nextStream,
    { w with streams := (w.nextStream, s) :: w.streams, nextStream := w.nextStream + 1 })

/-- The world without the streams that were opened since `mark` and to which nothing leads. -/
def forget (w : World) (mark : Nat) (kept : List Nat) : World :=
  { w with streams := w.streams.filter fun (i, _) => i < mark || kept.contains i }

def setClock (w : World) (time : Nat) : World := { w with clock := time }

/-- The second at which programs begin to run. -/
def beginning : Int := 1767225600

/-- The second at which the world is. -/
def second (w : World) : Int := beginning + w.clock / 1000000000

def changedAt (w : World) (p : Path) : Int := (w.tree.times.lookup p).getD w.second

/-- Whether what one path leads to was changed after what another one leads to. -/
def isNewer (w : World) (p q : Path) : Bool :=
  match w.tree.times.lookup p, w.tree.times.lookup q with
  | none, none =>
    let place (p : Path) : Nat := w.tree.entries.findIdx (·.1 == p)
    !(w.tree.group p).contains q && place p < place q
  | _, _ => w.changedAt q < w.changedAt p

/-- The program in the background with a number. -/
def task? (w : World) (number : Nat) : Option Task := w.tasks.find? (·.number == number)

def changeTask (w : World) (number : Nat) (f : Task → Task) : World :=
  { w with tasks := w.tasks.map fun t => if t.number = number then f t else t }

/-- The bytes of a file, as far as it is there. -/
def contentOf (w : World) (p : Path) : ByteArray :=
  match w.tree.lookup? p with
  | some (.file content) => content
  | _ => ByteArray.empty

/-- How much is read from a stream of zero characters at once. -/
def mostZeros : Nat := 65536

/-- What is still to be read from a stream. -/
def unread (w : World) (id : Nat) : List Char :=
  match w.stream id with
  | .nothing => []
  | .zeros => List.replicate mostZeros '\x00'
  | .full => List.replicate mostZeros '\x00'
  | .text cs _ => cs
  | .file p place _ =>
    let content := w.contentOf p
    Bytes.ofArray (content.extract place content.size)

/-- The world in which some characters have been read from a stream, after which `rest` is left. -/
def skip (w : World) (id : Nat) (count : Nat) (rest : List Char) : World :=
  match w.stream id with
  | .text _ printed => w.setStream id (.text rest printed)
  | .file p place appends => w.setStream id (.file p (place + count) appends)
  | _ => w

/-- The world in which all of a stream has been read. -/
def skipAll (w : World) (id : Nat) : World :=
  match w.stream id with
  | .text _ printed => w.setStream id (.text [] printed)
  | .file p place appends =>
    w.setStream id (.file p (max place (w.contentOf p).size) appends)
  | _ => w

/-- The bytes of a file in which some are written at a place, after zeros if it is shorter. -/
def overwritten (content : ByteArray) (place : Nat) (bytes : ByteArray) : ByteArray :=
  let filled := content ++ ⟨(List.replicate (place - content.size) 0).toArray⟩
  filled.extract 0 place ++ bytes ++ filled.extract (place + bytes.size) filled.size

def print? (w : World) (id : Nat) (cs : List Char) : Option World :=
  match w.stream id with
  | .nothing => some w
  | .zeros => some w
  | .full => if cs.isEmpty then some w else none
  | .text unread printed => some (w.setStream id (.text unread ((w.clock, cs) :: printed)))
  | .file p place appends =>
    if cs.isEmpty || !w.tree.isFile p then some w
    else
      let content := w.contentOf p
      let place := if appends then content.size else place
      let bytes := Bytes.toArray cs
      let tree := w.tree.put p (.file (overwritten content place bytes))
      some ({ w with tree := tree }.setStream id (.file p (place + bytes.size) appends))

/-- The world in which the streams that lead to files lead to other ones. -/
def redirect (w : World) (path : Nat → Path → Path) : World :=
  { w with streams := w.streams.map fun (id, s) =>
      match s with
      | .file p place appends => (id, .file (path id p) place appends)
      | s => (id, s) }

/-- Where a file is kept that is open but to which no path leads any more. -/
def keptPath (id : Nat) : Path := ["", Decimal.ofNat id]

/-- The number of a stream that leads to a file. -/
def streamTo? (w : World) (p : Path) : Option Nat :=
  (w.streams.find? fun (_, s) =>
    match s with
    | .file q _ _ => q == p
    | _ => false).map (·.1)

/-- The world without what a path leads to. A file that is open stays until it is closed. -/
def remove (w : World) (p : Path) : World :=
  let others := (w.tree.group p).tail
  match w.streamTo? p with
  | none => { w with tree := w.tree.erase p }
  | some id =>
    let goal := others.head?.getD (keptPath id)
    let tree := if others.isEmpty then (w.tree.erase p).put goal (.file (w.contentOf p))
      else w.tree.erase p
    { w with tree := tree }.redirect fun _ q => if q = p then goal else q

/-- The world without a folder and all in it. -/
def removeFolder (w : World) (p : Path) : World :=
  let files := (w.streams.filterMap fun (_, s) =>
    match s with
    | .file q _ _ => if p.isPrefixOf q then some q else none
    | _ => none).eraseDups
  let w := files.foldl (fun w q => w.remove q) w
  { w with tree := w.tree.removeFolder p }

/-- The world in which what one path leads to, with all in it, is found under another one. -/
def move (w : World) (source goal : Path) : World :=
  let w := w.removeFolder goal
  let moved (p : Path) : Path :=
    if source.isPrefixOf p then goal ++ p.drop source.length else p
  let tree : Tree :=
    { entries := w.tree.entries.map fun (p, e) => (moved p, e)
      rights := w.tree.rights.map fun (p, n) => (moved p, n)
      groups := w.tree.groups.map fun g => g.map moved
      times := w.tree.times.map fun (p, n) => (moved p, n) }
  { w with tree := tree }.redirect fun _ p => moved p

/-- What has been printed to a stream of text, by one program after the other or by several at a time. -/
def printed (w : World) (id : Nat) : List Char :=
  match w.stream id with
  | .text _ printed =>
    ((printed.reverse.mergeSort fun a b => a.1 ≤ b.1).map (·.2)).flatten
  | _ => []

/-- The world in which what has been printed to a stream is to be read from it. -/
def turn (w : World) (id : Nat) : World := w.setStream id (.text (w.printed id) [])

end World

end DataQuality.Shell
