import Interpose.Json.Value

/-!
# Decoding JSON

Records, enumerations, lists and numbers of fixed width read from a value. A record is an object of
named fields or an array of the same fields in order.
-/

namespace Interpose.Json

inductive DecodeError where
  /-- The value is of another kind than the one that is read. -/
  | kind (expected : String)
  | missing (field : String)
  | repeated (field : String)
  | unknown (name : String)
  | tooMany
  | outOfRange
  deriving Repr, BEq, DecidableEq

abbrev Decoder (α : Type) : Type := Json → Except DecodeError α

def text : Decoder String
  | .string s => .ok s
  | _ => .error (.kind "string")

def flag : Decoder Bool
  | .bool b => .ok b
  | _ => .error (.kind "boolean")

def word64 : Decoder UInt64
  | .natural n => if n < UInt64.size then .ok n.toUInt64 else .error .outOfRange
  | _ => .error (.kind "number")

def word32 : Decoder UInt32
  | .natural n => if n < UInt32.size then .ok n.toUInt32 else .error .outOfRange
  | _ => .error (.kind "number")

/-- Null for nothing, or else the value. -/
def nullable {α : Type} (decode : Decoder α) : Decoder (Option α)
  | .null => .ok none
  | json => (decode json).map some

def listOf {α : Type} (decode : Decoder α) : Decoder (List α)
  | .array items => items.mapM decode
  | _ => .error (.kind "array")

/-- A name of the table, as a string or as the one field, with the value null, of an object. -/
def oneOf {α : Type} (table : List (String × α)) (json : Json) : Except DecodeError α :=
  match json with
  | .string name => named name
  | .object [(name, .null)] => named name
  | _ => .error (.kind "name")
where
  named (name : String) : Except DecodeError α :=
    match table.lookup name with
    | some value => .ok value
    | none => .error (.unknown name)

/-- The first of `names` that two fields carry. -/
def repeated? (names : List String) (fields : List (String × Json)) : Option String :=
  names.find? fun name => 1 < fields.countP (·.1 == name)

/-- The fields of a record, by their names. An open record passes over names that are not declared,
a closed one refuses them. No declared name may come twice, and an array gives its elements to the
declared fields in order. -/
def record (names : List String) (closed : Bool) : Decoder (List (String × Json))
  | .object fields =>
    match repeated? names fields with
    | some name => .error (.repeated name)
    | none =>
      match fields.find? fun field => closed && !names.contains field.1 with
      | some field => .error (.unknown field.1)
      | none => .ok fields
  | .array items =>
    if names.length < items.length then .error .tooMany else .ok (names.zip items)
  | _ => .error (.kind "record")

def required {α : Type} (fields : List (String × Json)) (name : String) (decode : Decoder α) :
    Except DecodeError α :=
  match fields.lookup name with
  | some json => decode json
  | none => .error (.missing name)

def defaulted {α : Type} (fields : List (String × Json)) (name : String) (default : α)
    (decode : Decoder α) : Except DecodeError α :=
  match fields.lookup name with
  | some json => decode json
  | none => .ok default

end Interpose.Json
