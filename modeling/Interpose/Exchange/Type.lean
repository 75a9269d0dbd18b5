import Interpose.Json.Decode
import Interpose.Model.TypeRef

/-!
# Type references as JSON

A type may leave out whether it is a type parameter and its arguments.
-/

namespace Interpose.TypeRef

open Json (Decoder)

mutual

def encode : TypeRef → Json
  | ⟨fullName, shortName, isParameter, arguments⟩ => .object [
      ("fully_qualified_name", .string fullName), ("short_name", .string shortName),
      ("is_type_parameter", .bool isParameter), ("type_arguments", .array (encodeAll arguments))]

def encodeAll : List TypeRef → List Json
  | [] => []
  | type :: rest => encode type :: encodeAll rest

end

def fieldNames : List String :=
  ["fully_qualified_name", "short_name", "is_type_parameter", "type_arguments"]

/-- A type whose arguments nest less deep than `depth`. -/
def decodeWithin : Nat → Decoder TypeRef
  | 0, _ => .error (.kind "record")
  | depth + 1, json => do
    let fields ← Json.record fieldNames false json
    return {
      fullName := ← Json.required fields "fully_qualified_name" Json.text
      shortName := ← Json.required fields "short_name" Json.text
      isParameter := ← Json.defaulted fields "is_type_parameter" false Json.flag
      arguments :=
        ← Json.defaulted fields "type_arguments" [] (Json.listOf (decodeWithin depth)) }

/-- A type of any depth: arguments nest no deeper than the value that holds them. -/
def decode : Decoder TypeRef := fun json => decodeWithin (json.nesting + 1) json

end Interpose.TypeRef
