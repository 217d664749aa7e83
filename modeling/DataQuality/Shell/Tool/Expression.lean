import DataQuality.Shell.Regex.Reader
import DataQuality.Shell.Tool.Input

/-!
# Expressions of arguments

The tool that prints the value of an expression: its operators and operands are arguments. Values are
texts; those that are integers are compared and calculated as such.
-/
namespace DataQuality.Shell.Tool.Expression

def integer? (s : String) : Option Int :=
  match s.toList with
  | '+' :: _ => none
  | cs => Decimal.readInt? cs

/-- Whether a value counts as nothing: it is empty or zero. -/
def isNothing (s : String) : Bool := s == "" || integer? s == some 0

/-- The value of a truth value. -/
def truth (b : Bool) : String := if b then "1" else "0"

/-- The part of a text that an expression matches at its beginning: the first numbered part, if there
is one, or the number of characters. -/
def matched? (s pattern : String) : Option String := do
  let r ← Regex.ofText? ⟨false, false⟩ pattern.toList
  let hasPart := (pattern.splitOn "\\(").length > 1
  match Regex.ends false r (.start s.toList) with
  | t :: _ =>
    if hasPart then
      pure (((t.parts.lookup 1).map fun (_, cs) => String.ofList cs).getD "")
    else pure (Decimal.ofNat t.place)
  | [] => pure (if hasPart then "" else "0")

/-- The rank of an operator between two operands; a higher one binds first. -/
def rank? (s : String) : Option Nat :=
  match s with
  | "|" => some 1
  | "&" => some 2
  | "<" => some 3
  | "<=" => some 3
  | "=" => some 3
  | "==" => some 3
  | "!=" => some 3
  | ">=" => some 3
  | ">" => some 3
  | "+" => some 4
  | "-" => some 4
  | "*" => some 5
  | "/" => some 5
  | "%" => some 5
  | ":" => some 6
  | _ => none

/-- The truth of a comparison. -/
def compare (operator a b : String) : Bool :=
  let holds (o : Ordering) : Bool :=
    match operator with
    | "<" => o == .lt
    | "<=" => o != .gt
    | "!=" => o != .eq
    | ">=" => o != .lt
    | ">" => o == .gt
    | _ => o == .eq
  match integer? a, integer? b with
  | some x, some y => holds (Ord.compare x y)
  | _, _ => holds (if a < b then .lt else if b < a then .gt else .eq)

/-- The value of an operator between two operands. -/
def join? (operator a b : String) : Option String :=
  let calculated (f : Int → Int → Option Int) : Option String := do
    pure (Decimal.ofInt (← f (← integer? a) (← integer? b)))
  match operator with
  | "|" => some (if !isNothing a then a else if !isNothing b then b else "0")
  | "&" => some (if isNothing a || isNothing b then "0" else a)
  | "+" => calculated fun x y => some (x + y)
  | "-" => calculated fun x y => some (x - y)
  | "*" => calculated fun x y => some (x * y)
  | "/" => calculated fun x y => if y = 0 then none else some (Int.tdiv x y)
  | "%" => calculated fun x y => if y = 0 then none else some (Int.tmod x y)
  | ":" => matched? a b
  | operator => some (truth (compare operator a b))

/-- The value of an operator between two operands that may have none. The second one does not matter
where the first one decides. -/
def joinValues (operator : String) (a b : Option String) : Option String := do
  let x ← a
  if operator = "|" && !isNothing x then pure x
  else if operator = "&" && isNothing x then pure "0"
  else join? operator x (← b)

mutual

/-- Reads operands that operators of a least rank join, and gives their value, if they have one. -/
def ranked? : Nat → Nat → List String → Option (Option String × List String)
  | 0, _, _ => none
  | fuel + 1, rank, args => do
    let (a, args) ← operand? fuel args
    joined? fuel rank a args

/-- Reads what is joined to an operand by operators of a least rank. -/
def joined? : Nat → Nat → Option String → List String → Option (Option String × List String)
  | 0, _, _, _ => none
  | fuel + 1, rank, a, args =>
    match args with
    | operator :: rest =>
      match rank? operator with
      | some n =>
        if rank ≤ n then do
          let (b, args) ← ranked? fuel (n + 1) rest
          joined? fuel rank (joinValues operator a b) args
        else some (a, args)
      | none => some (a, args)
    | [] => some (a, args)

def operand? : Nat → List String → Option (Option String × List String)
  | 0, _ => none
  | fuel + 1, args =>
    match args with
    | "(" :: rest => do
      match ← ranked? fuel 1 rest with
      | (a, ")" :: args) => pure (a, args)
      | _ => none
    | "+" :: s :: rest => some (some s, rest)
    | "match" :: rest => do
      let (a, rest) ← operand? fuel rest
      let (b, rest) ← operand? fuel rest
      pure (do matched? (← a) (← b), rest)
    | "length" :: rest => do
      let (a, rest) ← operand? fuel rest
      pure (a.map fun s => Decimal.ofNat s.length, rest)
    | "index" :: rest => do
      let (a, rest) ← operand? fuel rest
      let (b, rest) ← operand? fuel rest
      let place (s chars : String) : String :=
        let i := s.toList.findIdx chars.toList.contains
        Decimal.ofNat (if i < s.length then i + 1 else 0)
      pure (do pure (place (← a) (← b)), rest)
    | "substr" :: rest => do
      let (s, rest) ← operand? fuel rest
      let (start, rest) ← operand? fuel rest
      let (count, rest) ← operand? fuel rest
      let part (s : String) (i n : Option Int) : String :=
        match i, n with
        | some i, some n =>
          if i < 1 || n < 1 then "" else String.ofList ((s.toList.drop (i.toNat - 1)).take n.toNat)
        | _, _ => ""
      pure (do pure (part (← s) (integer? (← start)) (integer? (← count))), rest)
    | s :: rest => if s = ")" then none else some (some s, rest)
    | [] => none

end

def value? (args : List String) : Option String :=
  match ranked? (8 * args.length + 8) 1 args with
  | some (v, []) => v
  | _ => none

/-- Prints the value of an expression; the status tells whether it is something. -/
def expr (args : List String) : Run Nat := do
  let args := if args.head? = some "--" then args.tail else args
  match value? args with
  | some v =>
    printLine v
    return statusOf (!isNothing v)
  | none => refuse "expr" "syntax error" 2

end DataQuality.Shell.Tool.Expression
