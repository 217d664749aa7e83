import DataQuality.Decimal.Integer

/-!
# Shell arithmetic

The value of an arithmetic expression over 64-bit integers. Operators bind as in most languages, those
of one rank from the left. A truth value is one or zero. An expression may give names new values.
-/
namespace DataQuality.Shell.Arithmetic

/-- What an expression is written with. -/
inductive Token
  | number (n : Int)
  | name (s : String)
  | sign (s : String)
  deriving DecidableEq, Repr

inductive Expression
  | number (n : Int)
  | name (s : String)
  | before (sign : String) (e : Expression)
  | between (sign : String) (a b : Expression)
  | choice (test a b : Expression)
  /-- Gives a name a new value, perhaps made of the old one by an operator. -/
  | assign (name : String) (sign : Option String) (e : Expression)
  deriving Repr

/-- The signs of two or three characters, longer ones first. -/
def longSigns : List String :=
  ["<<=", ">>=", "||", "&&", "==", "!=", "<=", ">=", "<<", ">>", "+=", "-=", "*=", "/=", "%=", "&=",
    "|=", "^="]

def shortSigns : List Char :=
  ['|', '^', '&', '<', '>', '+', '-', '*', '/', '%', '!', '~', '(', ')', '?', ':', '=']

/-- The value of a digit; letters go on after nine. -/
def digitValue (c : Char) : Nat :=
  if c.isDigit then c.toNat - 48
  else if c.isLower then c.toNat - 87
  else if c.isUpper then c.toNat - 55
  else 99

def digitsValue (base : Nat) (cs : List Char) : Nat :=
  cs.foldl (fun (n : Nat) c => n * base + digitValue c) 0

def spanDigits (base : Nat) (cs : List Char) : List Char × List Char :=
  cs.span fun c => digitValue c < base

/-- Reads a number at the front: hexadecimal, octal or decimal, by how it begins. -/
def readNumber? (cs : List Char) : Option (Nat × List Char) :=
  let hexadecimal (cs : List Char) : Option (Nat × List Char) :=
    match spanDigits 16 cs with
    | ([], _) => none
    | (ds, rest) => some (digitsValue 16 ds, rest)
  let plain : Option (Nat × List Char) :=
    let base := if cs.head? = some '0' then 8 else 10
    match spanDigits base cs with
    | ([], _) => none
    | (ds, rest) => some (digitsValue base ds, rest)
  match cs with
  | '0' :: 'x' :: rest => (hexadecimal rest).or plain
  | '0' :: 'X' :: rest => (hexadecimal rest).or plain
  | _ => plain

/-- The least integer of 64 bits. -/
def least : Int := -9223372036854775808

/-- The greatest integer of 64 bits. -/
def greatest : Int := 9223372036854775807

/-- The nearest integer of 64 bits. -/
def nearest (i : Int) : Int := max least (min greatest i)

/-- Whether a character belongs to a name. -/
def isPart (c : Char) : Bool := c.isAlphanum || c == '_'

/-- Splits an expression into tokens. -/
def tokens? : Nat → List Char → Option (List Token)
  | 0, _ => none
  | _ + 1, [] => some []
  | fuel + 1, c :: rest =>
    if c.isWhitespace then tokens? fuel rest
    else if c.isDigit then do
      let (n, after) ← readNumber? (c :: rest)
      pure (.number (nearest n) :: (← tokens? fuel after))
    else if isPart c then do
      pure (.name (String.ofList (c :: rest.takeWhile isPart)) ::
        (← tokens? fuel (rest.dropWhile isPart)))
    else
      match longSigns.find? fun s => s.toList.isPrefixOf (c :: rest) with
      | some s => do pure (.sign s :: (← tokens? fuel (rest.drop (s.length - 1))))
      | none =>
        if shortSigns.contains c then do pure (.sign (String.ofList [c]) :: (← tokens? fuel rest))
        else none

/-- The 64-bit integer that a value wraps around to. -/
def wrap (i : Int) : Int := Int.bmod i (Nat.pow 2 64)

/-- The integer of a truth value. -/
def truth (b : Bool) : Int := if b then 1 else 0

def bits (i : Int) : UInt64 := UInt64.ofNat (Int.emod i (Nat.pow 2 64 : Nat)).toNat

def ofBits (w : UInt64) : Int := wrap w.toNat

/-- The rank of an operator between two operands; a higher one binds first. -/
def rank? : String → Option Nat
  | "||" => some 1
  | "&&" => some 2
  | "|" => some 3
  | "^" => some 4
  | "&" => some 5
  | "==" => some 6
  | "!=" => some 6
  | "<" => some 7
  | "<=" => some 7
  | ">" => some 7
  | ">=" => some 7
  | "<<" => some 8
  | ">>" => some 8
  | "+" => some 9
  | "-" => some 9
  | "*" => some 10
  | "/" => some 10
  | "%" => some 10
  | _ => none

/-- The value of an operator between two operands. Nothing is divided by zero; division goes toward
zero. -/
def operation? (sign : String) (a b : Int) : Option Int :=
  match sign with
  | "||" => some (truth (a != 0 || b != 0))
  | "&&" => some (truth (a != 0 && b != 0))
  | "|" => some (ofBits (bits a ||| bits b))
  | "^" => some (ofBits (bits a ^^^ bits b))
  | "&" => some (ofBits (bits a &&& bits b))
  | "==" => some (truth (a == b))
  | "!=" => some (truth (a != b))
  | "<" => some (truth (a < b))
  | "<=" => some (truth (a ≤ b))
  | ">" => some (truth (a > b))
  | ">=" => some (truth (a ≥ b))
  | "<<" => some (wrap (a * (Nat.pow 2 (b % 64).toNat : Nat)))
  | ">>" => some (a / (Nat.pow 2 (b % 64).toNat : Nat))
  | "+" => some (wrap (a + b))
  | "-" => some (wrap (a - b))
  | "*" => some (wrap (a * b))
  | "/" => if b = 0 then none else some (wrap (Int.tdiv a b))
  | "%" => if b = 0 then none else some (Int.tmod a b)
  | _ => none

/-- The operator that an assignment applies to the old value; none if the new value replaces it. -/
def assigning? (sign : String) : Option (Option String) :=
  if sign = "=" then some none
  else if longSigns.contains sign && sign.endsWith "=" && (rank? sign).isNone then
    some (some (sign.dropEnd 1).toString)
  else none

mutual

/-- Reads an expression at the front. -/
def readAssignment? : Nat → List Token → Option (Expression × List Token)
  | 0, _ => none
  | fuel + 1, ts =>
    let assigned : Option (String × Option String × List Token) :=
      match ts with
      | .name s :: .sign sign :: rest => (assigning? sign).map fun o => (s, o, rest)
      | _ => none
    match assigned with
    | some (s, o, rest) => (readAssignment? fuel rest).map fun (e, ts) => (.assign s o e, ts)
    | none => readChoice? fuel ts

def readChoice? : Nat → List Token → Option (Expression × List Token)
  | 0, _ => none
  | fuel + 1, ts => do
    let (test, ts) ← readRanked? fuel 1 ts
    match ts with
    | .sign "?" :: rest =>
      let (a, ts) ← readAssignment? fuel rest
      match ts with
      | .sign ":" :: rest =>
        let (b, ts) ← readChoice? fuel rest
        pure (.choice test a b, ts)
      | _ => none
    | _ => pure (test, ts)

/-- Reads operands that operators of a least rank join. -/
def readRanked? : Nat → Nat → List Token → Option (Expression × List Token)
  | 0, _, _ => none
  | fuel + 1, rank, ts => do
    let (a, ts) ← readOperand? fuel ts
    readJoined? fuel rank a ts

/-- Reads what is joined to an operand by operators of a least rank. -/
def readJoined? : Nat → Nat → Expression → List Token → Option (Expression × List Token)
  | 0, _, _, _ => none
  | fuel + 1, rank, a, ts =>
    match ts with
    | .sign s :: rest =>
      match rank? s with
      | some n =>
        if rank ≤ n then do
          let (b, ts) ← readRanked? fuel (n + 1) rest
          readJoined? fuel rank (.between s a b) ts
        else some (a, ts)
      | none => some (a, ts)
    | _ => some (a, ts)

def readOperand? : Nat → List Token → Option (Expression × List Token)
  | 0, _ => none
  | fuel + 1, ts =>
    match ts with
    | .number n :: rest => some (.number n, rest)
    | .name s :: rest => some (.name s, rest)
    | .sign "(" :: rest => do
      match ← readAssignment? fuel rest with
      | (e, .sign ")" :: ts) => pure (e, ts)
      | _ => none
    | .sign s :: rest =>
      if ["-", "+", "!", "~"].contains s then
        (readOperand? fuel rest).map fun (e, ts) => (.before s e, ts)
      else none
    | [] => none

end

/-- The integer that the value of a variable stands for; nothing stands for zero. -/
def ofText? (cs : List Char) : Option Int :=
  let whole (sign : Int) (ds : List Char) : Option Int :=
    match readNumber? ds with
    | some (n, rest) => if rest.all Char.isWhitespace then some (nearest (sign * n)) else none
    | none => none
  match cs.dropWhile Char.isWhitespace with
  | [] => some 0
  | '-' :: ds => whole (-1) ds
  | '+' :: ds => whole 1 ds
  | ds => whole 1 ds

/-- The new values of names, the last one first. -/
abbrev Assigned := List (String × Int)

/-- The value of an expression, by the values of the names in it. Of operands that do not matter the
value is not asked for. -/
def Expression.value (lookup : String → Option Int) : Expression → StateT Assigned Option Int
  | .number n => pure n
  | .name s => valueOf s
  | .before sign e => do
    let n ← e.value lookup
    match sign with
    | "-" => pure (wrap (-n))
    | "!" => pure (truth (n == 0))
    | "~" => pure (wrap (-n - 1))
    | _ => pure n
  | .between sign a b => do
    let x ← a.value lookup
    if sign = "||" && x != 0 then pure 1
    else if sign = "&&" && x == 0 then pure 0
    else
      let y ← b.value lookup
      liftM (operation? sign x y)
  | .choice test a b => do
    if (← test.value lookup) != 0 then a.value lookup else b.value lookup
  | .assign s sign e => do
    let n ← e.value lookup
    let n ← match sign with
      | none => pure n
      | some sign => liftM (operation? sign (← valueOf s) n)
    modify fun assigned => (s, n) :: assigned
    pure n
where
  /-- The value of a name. -/
  valueOf (s : String) : StateT Assigned Option Int := do
    match (← get).lookup s with
    | some n => pure n
    | none => liftM (lookup s)

/-- The value of a written expression and the names that it gives new values, in order. -/
def value? (lookup : String → Option Int) (cs : List Char) : Option (Int × Assigned) := do
  let ts ← tokens? (cs.length + 1) cs
  match ← readAssignment? (8 * ts.length + 8) ts with
  | (e, []) =>
    let (n, assigned) ← (e.value lookup).run []
    pure (n, assigned.reverse)
  | _ => none

end DataQuality.Shell.Arithmetic
