import DataQuality.Decimal.Rounded
import DataQuality.Shell.Arithmetic
import DataQuality.Shell.Pattern

/-!
# Formats

A format is a text with escapes and directives. Each directive shows one argument as a text, a character
or a number; a format that takes arguments is used again until none are left.
-/
namespace DataQuality.Shell

/-- The escapes of one letter that printing tools know. -/
def escapedLetter? : Char → Option Char
  | 'n' => some '\n'
  | 't' => some '\t'
  | 'r' => some '\r'
  | 'a' => some '\x07'
  | 'b' => some '\x08'
  | 'e' => some '\x1b'
  | 'f' => some '\x0c'
  | 'v' => some '\x0b'
  | '\\' => some '\\'
  | _ => none

/-- Reads the digits of a character behind a backslash, at most three octal ones. -/
def readOctal? (cs : List Char) : Option (Char × List Char) :=
  match (cs.take 3).takeWhile fun c => '0' ≤ c && c ≤ '7' with
  | [] => none
  | ds => some (Char.ofNat (Arithmetic.digitsValue 8 ds % 256), cs.drop ds.length)

/-- The text with its escapes replaced, and whether an escape tells to print nothing more. -/
def unescaped : Nat → List Char → List Char × Bool
  | 0, cs => (cs, false)
  | fuel + 1, cs =>
    let next (c : Char) (rest : List Char) : List Char × Bool :=
      let (cs, stopped) := unescaped fuel rest
      (c :: cs, stopped)
    match cs with
    | '\\' :: 'c' :: _ => ([], true)
    | '\\' :: '0' :: rest =>
      match readOctal? rest with
      | some (c, rest) => next c rest
      | none => next '\x00' rest
    | '\\' :: c :: rest =>
      match readOctal? (c :: rest), escapedLetter? c with
      | some (d, rest), _ => next d rest
      | none, some d => next d rest
      | none, none =>
        let (cs, stopped) := unescaped fuel rest
        ('\\' :: c :: cs, stopped)
    | c :: rest => next c rest
    | [] => ([], false)

/-- The text with all of its escapes replaced. -/
def unescapedAll (cs : List Char) : List Char × Bool := unescaped (cs.length + 1) cs

/-- How an argument is shown by a format. -/
structure Directive where
  flags : List Char
  width : Nat
  precision : Option Nat
  conversion : Char

/-- Reads a width or precision at the front, which may be taken from an argument. -/
def readExtent (cs : List Char) (args : List String) : Option Int × List Char × List String :=
  match cs with
  | '*' :: rest => (Arithmetic.ofText? (args.head?.getD "").toList, rest, args.tail)
  | cs =>
    let (ds, rest) := cs.span Decimal.isDigit
    (if ds.isEmpty then none else some (Decimal.natOfDigits ds), rest, args)

/-- Reads a directive after its percent sign, with the arguments that are left then. -/
def readDirective? (cs : List Char) (args : List String) :
    Option (Directive × List Char × List String) :=
  let isFlag (c : Char) : Bool := ['-', '+', ' ', '#', '0'].contains c
  let flags := cs.takeWhile isFlag
  let (width, cs, args) := readExtent (cs.dropWhile isFlag) args
  let flags := if width.any (· < 0) then '-' :: flags else flags
  let (precision, cs, args) : Option Nat × List Char × List String :=
    match cs with
    | '.' :: rest =>
      let (p, rest, args) := readExtent rest args
      (match p with
        | some p => if p < 0 then none else some p.toNat
        | none => some 0, rest, args)
    | rest => (none, rest, args)
  match cs with
  | c :: rest => some (⟨flags, (width.getD 0).natAbs, precision, c⟩, rest, args)
  | [] => none

/-- The integer that an argument stands for: a literal, or a character behind a quote. Tells whether all
of the argument is used up. -/
def formatInteger (s : String) : Int × Bool :=
  match s.toList.dropWhile isSpace with
  | '\'' :: c :: rest => (c.toNat, rest.isEmpty)
  | '"' :: c :: rest => (c.toNat, rest.isEmpty)
  | [] => (0, true)
  | '-' :: ds => read (-1) ds
  | '+' :: ds => read 1 ds
  | ds => read 1 ds
where
  /-- Reads digits behind a sign. -/
  read (sign : Int) (ds : List Char) : Int × Bool :=
    match Arithmetic.readNumber? ds with
    | some (n, rest) =>
      let i := sign * n
      (Arithmetic.nearest i, rest.isEmpty && i == Arithmetic.nearest i)
    | none => (0, false)

/-- The real number that an argument stands for. -/
def formatReal (s : String) : Float × Bool :=
  match s.toList.dropWhile isSpace with
  | [] => (0.0, true)
  | '\'' :: c :: rest => (Float.ofNat c.toNat, rest.isEmpty)
  | '"' :: c :: rest => (Float.ofNat c.toNat, rest.isEmpty)
  | cs =>
    match Decimal.readFloatPrefix? cs with
    | some (x, rest) => (x, rest.isEmpty)
    | none => (0.0, false)

/-- A text brought to the width of a directive. -/
def Directive.pad (d : Directive) (cs : List Char) : List Char :=
  let missing := d.width - cs.length
  if d.flags.contains '-' then cs ++ List.replicate missing ' '
  else List.replicate missing ' ' ++ cs

/-- A number brought to the width of a directive: zeros stand behind the sign. -/
def Directive.padNumber (d : Directive) (fills : Bool) (sign digits : List Char) : List Char :=
  let missing := d.width - (sign.length + digits.length)
  if d.flags.contains '0' && fills && !d.flags.contains '-' then
    sign ++ List.replicate missing '0' ++ digits
  else d.pad (sign ++ digits)

def Directive.sign (d : Directive) (negative : Bool) : List Char :=
  if negative then ['-']
  else if d.flags.contains '+' then ['+']
  else if d.flags.contains ' ' then [' ']
  else []

def Directive.showDigits (d : Directive) (sign digits : List Char) : List Char :=
  let digits := if d.precision = some 0 && digits = ['0'] then [] else digits
  let digits := List.replicate (d.precision.getD 0 - digits.length) '0' ++ digits
  d.padNumber d.precision.isNone sign digits

def Directive.showReal (d : Directive) (form : Decimal.Form) (x : Float) : List Char :=
  let digits := Decimal.roundedChars form (d.precision.getD 6) (d.flags.contains '#') x
  let digits := if d.conversion.isUpper then digits.map Char.toUpper else digits
  let isNumber := !x.isNaN && !x.isInf
  d.padNumber isNumber (d.sign (Decimal.isNegative x)) digits

/-- How a directive shows an integer; `none` if the directive shows none. -/
def Directive.showInteger? (d : Directive) (n : Int) : Option (List Char) :=
  let unsigned : Nat := (n % (Nat.pow 2 64 : Nat)).toNat
  let marked (mark : String) (digits : List Char) : List Char :=
    d.showDigits (if d.flags.contains '#' && unsigned != 0 then mark.toList else []) digits
  match d.conversion with
  | 'd' => some (d.showDigits (d.sign (n < 0)) (Decimal.natDigits n.natAbs))
  | 'i' => some (d.showDigits (d.sign (n < 0)) (Decimal.natDigits n.natAbs))
  | 'u' => some (d.showDigits [] (Decimal.natDigits unsigned))
  | 'o' => some (marked "0" (Nat.toDigits 8 unsigned))
  | 'x' => some (marked "0x" (Nat.toDigits 16 unsigned))
  | 'X' => some (marked "0X" ((Nat.toDigits 16 unsigned).map Char.toUpper))
  | _ => none

/-- The form in which a conversion shows real numbers. -/
def formOf? : Char → Option Decimal.Form
  | 'f' => some .fixed
  | 'F' => some .fixed
  | 'e' => some .scientific
  | 'E' => some .scientific
  | 'g' => some .general
  | 'G' => some .general
  | _ => none

/-- What a directive makes of an argument. -/
structure Shown where
  text : List Char
  /-- Whether the argument is what the directive asks for. -/
  valid : Bool
  /-- Whether the argument tells to print nothing more. -/
  stopped : Bool

/-- How a directive shows an argument; `none` if there is no such directive. -/
def Directive.show? (d : Directive) (a : String) : Option Shown :=
  let cut (cs : List Char) : List Char := cs.take (d.precision.getD cs.length)
  match d.conversion with
  | 's' => some ⟨d.pad (cut a.toList), true, false⟩
  | 'b' =>
    let (cs, stopped) := unescapedAll a.toList
    some ⟨d.pad (cut cs), true, stopped⟩
  | 'c' => some ⟨d.pad (a.toList.take 1), true, false⟩
  | c =>
    match formOf? c with
    | some form =>
      let (x, valid) := formatReal a
      some ⟨d.showReal form x, valid, false⟩
    | none =>
      let (n, valid) := formatInteger a
      (d.showInteger? n).map fun cs => ⟨cs, valid, false⟩

/-- What a format makes of arguments. -/
structure Formatted where
  text : List Char
  /-- The arguments that are left. -/
  rest : List String
  /-- The status: one if an argument is not what a directive asks for, two if there is no such
  directive. -/
  status : Nat
  stopped : Bool

/-- What a format makes of arguments when it is used once. -/
def format : Nat → List Char → List String → Formatted
  | 0, _, args => ⟨[], args, 0, false⟩
  | fuel + 1, cs, args =>
    let next (taken : List Char) (rest : List Char) (args : List String) (status : Nat) : Formatted :=
      let f := format fuel rest args
      { f with text := taken ++ f.text, status := max status f.status }
    match cs with
    | [] => ⟨[], args, 0, false⟩
    | '%' :: '%' :: rest => next ['%'] rest args 0
    | '%' :: directive =>
      let shown : Option (Shown × List Char × List String) := do
        let (d, rest, args) ← readDirective? directive args
        pure (← d.show? (args.head?.getD ""), rest, args)
      match shown with
      | some (s, rest, args) =>
        if s.stopped then ⟨s.text, [], 0, true⟩
        else next s.text rest args.tail (if s.valid then 0 else 1)
      | none => ⟨[], [], 2, true⟩
    | '\\' :: c :: rest =>
      match readOctal? (c :: rest), escapedLetter? c with
      | some (d, rest), _ => next [d] rest args 0
      | none, some d => next [d] rest args 0
      | none, none => next ['\\', c] rest args 0
    | c :: rest => next [c] rest args 0

/-- What a format makes of arguments when it is used again as long as it takes some. -/
def formatAll : Nat → List Char → List String → Formatted
  | 0, _, args => ⟨[], args, 0, false⟩
  | rounds + 1, f, args =>
    let once := format (f.length + 1) f args
    if once.rest.isEmpty || once.stopped || once.rest.length = args.length then once
    else
      let more := formatAll rounds f once.rest
      { more with text := once.text ++ more.text, status := max once.status more.status }

end DataQuality.Shell
