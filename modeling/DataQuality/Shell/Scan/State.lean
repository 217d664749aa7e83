import DataQuality.Shell.Scan.Reader
import DataQuality.Shell.Scan.Token
import DataQuality.Shell.Tool.Word

/-!
# The state of a scanning program

A text is read record by record, and each record is split into fields. What a program for scanning
records holds while it runs are the values of its names, its arrays, the record at hand and its fields,
and what it reads and prints.
-/
namespace DataQuality.Shell.Scan

/-- What separates fields. -/
inductive Separator
  /-- Blanks, also several, and not at the ends. -/
  | blanks
  /-- Nothing: each character is a field. -/
  | none
  | char (c : Char)
  | regex (r : Regex)

def Separator.ofText : List Char → Separator
  | [' '] => .blanks
  | [] => .none
  | [c] => .char c
  | cs =>
    match regexOf? cs with
    | some r => .regex r
    | Option.none => .none

/-- The parts of a text between matches that are not empty. -/
def splitAt (cs : List Char) (matched : List Regex.Found) : List (List Char) :=
  let (parts, place) := (matched.filter fun f => !f.text.isEmpty).foldl
    (fun ((parts, place) : List (List Char) × Nat) f =>
      ((cs.drop place).take (f.place - place) :: parts, f.place + f.text.length)) ([], 0)
  (cs.drop place :: parts).reverse

/-- The fields of a text. -/
def Separator.split (s : Separator) (cs : List Char) : List (List Char) :=
  if cs.isEmpty then []
  else
    match s with
    | .blanks => (cs.splitOnP isSpace).filter fun f => !f.isEmpty
    | .none => cs.map fun c => [c]
    | .char c => cs.splitOn c
    | .regex r => splitAt cs (Regex.matchesIn false r cs)

/-- The fields of a record; where records are paragraphs, lines separate fields, too. -/
def fieldsOf (inParagraphs : Bool) (s : Separator) (cs : List Char) : List (List Char) :=
  if inParagraphs then (cs.splitOn '\n').flatMap s.split else s.split cs

def readParagraph : List Char → List Char × List Char
  | [] => ([], [])
  | '\n' :: '\n' :: rest => ([], rest.dropWhile (· == '\n'))
  | ['\n'] => ([], [])
  | c :: rest => let (p, after) := readParagraph rest; (c :: p, after)

/-- The next record of a text and what follows it; `separator` is what ends records. -/
def nextRecord? (separator cs : List Char) : Option (List Char × List Char) :=
  if cs.isEmpty then none
  else
    match separator with
    | [] =>
      match cs.dropWhile (· == '\n') with
      | [] => none
      | cs => some (readParagraph cs)
    | [c] => some (cs.takeWhile (· != c), (cs.dropWhile (· != c)).drop 1)
    | separator =>
      match (regexOf? separator).bind fun r => Regex.find? false r cs with
      | some f =>
        if f.text.isEmpty then some (cs, [])
        else some (cs.take f.place, cs.drop (f.place + f.text.length))
      | none =>
        some (if cs.getLast? = some '\n' then cs.dropLast else cs, [])

/-- What a name stands for. -/
inductive Slot
  | value (v : Value)
  | array (id : Nat)
  /-- Nothing yet; if it becomes an array, it is this one. -/
  | pending (id : Nat)

/-- What a program holds. -/
structure State where
  globals : List (String × Slot)
  /-- The names of the function that is running. -/
  locals : List (String × Slot)
  arrays : List (Nat × List (String × Value))
  /-- A number that no array has. -/
  nextArray : Nat
  record : List Char
  fields : List (List Char)
  /-- What is still to be read of the file at hand. -/
  unread : Option (List Char)
  /-- The operands that have not been looked at yet. -/
  operands : List String
  /-- Whether a file has been read. -/
  hasRead : Bool
  /-- What is still to be read of other files and of what commands print, by their names. -/
  sources : List (String × List Char)
  /-- The files that are being written. -/
  written : List String
  /-- What commands will read, the last part first. -/
  pipes : List (String × List (List Char))
  /-- The ranges that have been entered, by the places of their rules. -/
  ranges : List Nat
  seed : Nat
  status : Nat

/-- Why statements are not carried out to their end. -/
inductive Leaving
  | leave
  | again
  | nextRecord
  | nextFile
  | exit
  | giveBack (v : Value)

/-- A part of the run of a program. -/
abbrev Scanning := ExceptT Leaving (StateT State Run)

/-- Something that another program can do. -/
def doing {α : Type} (body : Run α) : Scanning α := liftM body

/-- Ends the program after an error. -/
def failScan {α : Type} (message : String) : Scanning α := do
  doing (Tool.say "awk" message)
  modify fun s => { s with status := 2, pipes := [] }
  throw .exit

namespace State

/-- What a name stands for, if anything. -/
def slot? (s : State) (name : String) : Option Slot :=
  (s.locals.lookup name).or (s.globals.lookup name)

/-- The state in which a name stands for something else. -/
def withSlot (s : State) (name : String) (slot : Slot) : State :=
  let replace (slots : List (String × Slot)) : List (String × Slot) :=
    (name, slot) :: slots.filter (·.1 != name)
  if (s.locals.lookup name).isSome then { s with locals := replace s.locals }
  else { s with globals := replace s.globals }

def value (s : State) (name : String) : Value :=
  match s.slot? name with
  | some (.value v) => v
  | _ => .nothing

/-- How numbers that are not whole become texts. -/
def numberFormat (s : State) : List Char :=
  match s.globals.lookup "CONVFMT" with
  | some (.value v) => v.toText ['%', '.', '6', 'g']
  | _ => ['%', '.', '6', 'g']

def textOf (s : State) (v : Value) : List Char := v.toText s.numberFormat

def text (s : State) (name : String) : List Char := s.textOf (s.value name)

def withRecord (s : State) (cs : List Char) : State :=
  let fields := fieldsOf (s.text "RS").isEmpty (.ofText (s.text "FS")) cs
  { s.withSlot "NF" (.value (.ofNat fields.length)) with record := cs, fields := fields }

def withFields (s : State) (fields : List (List Char)) : State :=
  { s.withSlot "NF" (.value (.ofNat fields.length)) with
    record := (s.text "OFS").intercalate fields
    fields := fields }

/-- Fields brought to some number. -/
def resized (fields : List (List Char)) (n : Nat) : List (List Char) :=
  fields.take n ++ List.replicate (n - fields.length) []

def withValue (s : State) (name : String) (v : Value) : State :=
  let s := s.withSlot name (.value v)
  if name = "NF" && (s.locals.lookup name).isNone then
    s.withFields (resized s.fields (Value.toInteger v.toNumber).toNat)
  else s

/-- The value of a field; the record is the one with the number zero. -/
def field (s : State) (n : Nat) : Value :=
  if n = 0 then .given s.record
  else
    match s.fields[n - 1]? with
    | some cs => .given cs
    | none => .nothing

def withField (s : State) (n : Nat) (cs : List Char) : State :=
  if n = 0 then s.withRecord cs
  else s.withFields ((resized s.fields (max n s.fields.length)).set (n - 1) cs)

/-- The array that a name stands for, with its number. -/
def arrayOf (s : State) (name : String) : Nat × State :=
  match s.slot? name with
  | some (.array id) => (id, s)
  | some (.pending id) => (id, s.withSlot name (.array id))
  | _ => (s.nextArray, { s.withSlot name (.array s.nextArray) with nextArray := s.nextArray + 1 })

/-- The elements of an array, by its number. -/
def elements (s : State) (id : Nat) : List (String × Value) := (s.arrays.lookup id).getD []

def withElements (s : State) (id : Nat) (es : List (String × Value)) : State :=
  { s with arrays := (id, es) :: s.arrays.filter (·.1 != id) }

/-- The state in which a key of an array has a value. A new key comes last. -/
def withElement (s : State) (id : Nat) (key : String) (v : Value) : State :=
  let es := s.elements id
  if (es.lookup key).isSome then
    s.withElements id (es.map fun e => if e.1 = key then (key, v) else e)
  else s.withElements id (es ++ [(key, v)])

def handedOn (s : State) (name : String) : Slot × State :=
  match s.slot? name with
  | some slot => (slot, s)
  | none =>
    (.pending s.nextArray,
      { s.withSlot name (.pending s.nextArray) with nextArray := s.nextArray + 1 })

end State

def getValue (name : String) : Scanning Value := do return (← get).value name

def setValue (name : String) (v : Value) : Scanning Unit := do
  let s ← get
  match s.slot? name with
  | some (.array _) => failScan ("cannot use array " ++ name ++ " as a value")
  | _ => set (s.withValue name v)

def textOf (v : Value) : Scanning (List Char) := do return (← get).textOf v

def countRecord : Scanning Unit := do
  for name in ["NR", "FNR"] do
    let n ← getValue name
    setValue name (.number (n.toNumber + 1.0))

/-- The text that an operand or option gives a name, with escapes replaced. -/
def assignedText (cs : List Char) : List Char :=
  let protectedChars := cs.flatMap fun c => if c = '"' then ['\\', '"'] else [c]
  match readText? (2 * cs.length + 2) (protectedChars ++ ['"']) with
  | some (text, _) => text
  | none => cs

def assignmentOf? (operand : String) : Option (String × List Char) :=
  match operand.toList.span (· != '=') with
  | (name, _ :: value) => if isName name then some (String.ofList name, assignedText value) else none
  | _ => none

/-- Opens the next file that is to be read; tells whether there is one. -/
def openNext : Nat → Scanning Bool
  | 0 => return false
  | fuel + 1 => do
    let s ← get
    match s.operands with
    | [] =>
      if s.hasRead then return false
      let cs ← doing (readAllOn 0)
      modify fun s => { s with unread := some cs, hasRead := true }
      return true
    | operand :: rest =>
      set { s with operands := rest }
      if operand = "" then openNext fuel
      else
        match assignmentOf? operand with
        | some (name, value) =>
          setValue name (.given value)
          openNext fuel
        | none =>
          match ← doing (Tool.textOf? "awk" operand) with
          | some cs =>
            modify fun s => { s with unread := some cs, hasRead := true }
            setValue "FILENAME" (.text operand.toList)
            setValue "FNR" (.number 0.0)
            return true
          | none =>
            modify fun s => { s with status := 2 }
            throw .exit

/-- Takes the next record of the input, if there is one. -/
def takeRecord? : Nat → Scanning (Option (List Char))
  | 0 => return none
  | fuel + 1 => do
    let s ← get
    match s.unread.bind (nextRecord? (s.text "RS")) with
    | some (record, rest) =>
      modify fun s => { s with unread := some rest }
      return some record
    | none =>
      modify fun s => { s with unread := none }
      if ← openNext (s.operands.length + 1) then takeRecord? fuel else return none

end DataQuality.Shell.Scan
