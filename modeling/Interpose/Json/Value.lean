/-!
# JSON values

A value as its text gives it: an object keeps its fields in order, repeated ones included, and a
numeral that is no plain natural number keeps its spelling.
-/

namespace Interpose

inductive Json where
  | null
  | bool (value : Bool)
  /-- A numeral of digits alone. -/
  | natural (value : Nat)
  /-- Any other numeral, as it is written: with a sign, a fraction or an exponent. -/
  | numeral (text : String)
  | string (value : String)
  | array (items : List Json)
  | object (fields : List (String × Json))
  /-- Grammatical text that holds no value: an escape without the other half of its surrogate pair,
  or brackets nested deeper than `Json.maxNesting`. It may be skipped, but not read. -/
  | beyond
  deriving Repr, BEq, Inhabited

namespace Json

/-- How deep brackets may nest around a value that is read. -/
def maxNesting : Nat := 127

mutual

/-- How deep arrays and objects nest in a value. -/
def nesting : Json → Nat
  | .array items => nestingOfItems items + 1
  | .object fields => nestingOfFields fields + 1
  | _ => 0

def nestingOfItems : List Json → Nat
  | [] => 0
  | item :: rest => max (nesting item) (nestingOfItems rest)

def nestingOfFields : List (String × Json) → Nat
  | [] => 0
  | (_, value) :: rest => max (nesting value) (nestingOfFields rest)

end

/-- Null for nothing, or else the encoded value. -/
def orNull {α : Type} (encode : α → Json) : Option α → Json
  | none => .null
  | some value => encode value

def listing {α : Type} (encode : α → Json) (values : List α) : Json := .array (values.map encode)

def field? (name : String) : Json → Option Json
  | .object fields => fields.lookup name
  | _ => none

end Json

end Interpose
