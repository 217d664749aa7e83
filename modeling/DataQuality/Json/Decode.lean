import DataQuality.Json.Value
import DataQuality.Json.Reader

/-!
# Taking values apart

What a value must look like to be read as a datum of some type. A record may be written as an
object, whose unknown fields are passed over and whose known fields come at most once, or as an
array of its fields in order.
-/
namespace DataQuality.Json

def asString? : Json → Option String
  | .string s => s
  | _ => none

/-- A truth value. -/
def asBool? : Json → Option Bool
  | .bool b => some b
  | _ => none

/-- A signed 64-bit integer. -/
def asInt64? : Json → Option Int64
  | .number l => (integer? l).bind Decimal.int64?
  | _ => none

/-- An unsigned 64-bit integer. -/
def asNat64? : Json → Option Nat
  | .number l => (integer? l).bind fun i => if 0 ≤ i then some i.toNat else none
  | _ => none

/-- A double. -/
def asFloat? : Json → Option Float
  | .number l => float? l
  | _ => none

/-- The items of an array, each read the same way. -/
def asList? {α : Type} (item : Json → Option α) : Json → Option (List α)
  | .array items => items.mapM item
  | _ => none

/-- A datum or `null`. -/
def asOption? {α : Type} (item : Json → Option α) : Json → Option (Option α)
  | .null => some none
  | j => (item j).map some

/-- One of several named constants, given by its name or as an object whose only field has that name
and no value. An empty object counts as no value where `emptyIsUnit` says so. -/
def asName? {α : Type} (emptyIsUnit : Bool) (ofName? : String → Option α) : Json → Option α
  | .string s => s.bind ofName?
  | .object [(name, .null)] => name.content.bind ofName?
  | .object [(name, .object [])] => if emptyIsUnit then name.content.bind ofName? else none
  | _ => none

/-- How the fields of a record were given. -/
inductive Fields
  | named (fields : List (String × Json))
  | listed (items : List Json)

/-- The values given under a name, in order. -/
def valuesOf (name : String) (fields : List (String × Json)) : List Json :=
  (fields.filter (·.1 == name)).map (·.2)

def asRecord? (names : List String) : Json → Option Fields
  | .array items => if items.length ≤ names.length then some (.listed items) else none
  | .object fields => do
    let fields ← fields.mapM fun (name, value) => name.content.map fun n => (n, value)
    if names.all fun n => (valuesOf n fields).length ≤ 1 then some (.named fields) else none
  | _ => none

namespace Fields

/-- What was given for a field: the value under its name, or at its place. -/
def get? (fs : Fields) (names : List String) (name : String) : Option Json :=
  match fs with
  | .named fields => (valuesOf name fields).head?
  | .listed items => items[names.idxOf name]?

def required {α : Type} (fs : Fields) (names : List String) (name : String)
    (read : Json → Option α) : Option α :=
  (fs.get? names name).bind read

def withDefault {α : Type} (fs : Fields) (names : List String) (name : String) (default : α)
    (read : Json → Option α) : Option α :=
  match fs.get? names name with
  | some j => read j
  | none => some default

/-- A field that may be `null`; among named fields it may also be left out. -/
def optional {α : Type} (fs : Fields) (names : List String) (name : String)
    (read : Json → Option α) : Option (Option α) :=
  match fs.get? names name, fs with
  | some j, _ => asOption? read j
  | none, .named _ => some none
  | none, .listed _ => none

end Fields

mutual

/-- Whether a value can be held as a whole: its strings and numbers can be read, and it nests at most
`depth` deep. -/
def isReadable : Json → Nat → Bool
  | .null, _ => true
  | .bool _, _ => true
  | .number l, _ => (float? l).isSome
  | .string s, _ => s.isSome
  | .array items, depth => 0 < depth && areReadable items (depth - 1)
  | .object fields, depth => 0 < depth && areReadableFields fields (depth - 1)

/-- Whether every item can be held. -/
def areReadable : List Json → Nat → Bool
  | [], _ => true
  | j :: rest, depth => isReadable j depth && areReadable rest depth

def areReadableFields : List (Name × Json) → Nat → Bool
  | [], _ => true
  | (name, value) :: rest, depth =>
    name.content.isSome && isReadable value depth && areReadableFields rest depth

end

@[simp] theorem asString?_ofString (s : String) : (ofString s).asString? = some s := rfl

@[simp] theorem asOption?_null {α : Type} (item : Json → Option α) :
    asOption? item .null = some none := rfl

end DataQuality.Json
