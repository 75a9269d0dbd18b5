import Interpose.Exchange.Member
import Interpose.Register

/-!
# Catalogs as JSON

A catalog is an array of type definitions. Of a definition only its reference and its kind must be
there.
-/

namespace Interpose

open Json (Decoder)

def TypeKind.word : TypeKind → String
  | interface => "Interface"
  | classType => "Class"
  | structType => "Struct"
  | enumType => "Enum"
  | delegateType => "Delegate"

def TypeKind.decode : Decoder TypeKind :=
  Json.oneOf ([.interface, .classType, .structType, .enumType, .delegateType].map
    fun kind => (kind.word, kind))

def Setter.word : Setter → String
  | absent => "None"
  | set => "Set"
  | init => "InitOnly"

def Setter.decode : Decoder Setter :=
  Json.oneOf ([.absent, .set, .init].map fun setter => (setter.word, setter))

namespace MethodDecl

def encode (method : MethodDecl) : Json := .object [
  ("name", .string method.name), ("return_type", Json.orNull TypeRef.encode method.returnType),
  ("type_parameters", Json.listing .string method.typeParameters),
  ("parameters", Json.listing Parameter.encode method.parameters),
  ("is_static", .bool method.isStatic),
  ("associated_property", Json.orNull .string method.accessorOf),
  ("hook", Json.orNull HookKind.encode method.hook),
  ("has_params_array", .bool method.isVariadic)]

def fieldNames : List String := [
  "name", "return_type", "type_parameters", "parameters", "is_static", "associated_property",
  "hook", "has_params_array"]

def decode : Decoder MethodDecl := fun json => do
  let fields ← Json.record fieldNames false json
  return {
    name := ← Json.required fields "name" Json.text
    returnType := ← Json.defaulted fields "return_type" none (Json.nullable TypeRef.decode)
    typeParameters := ← Json.defaulted fields "type_parameters" [] (Json.listOf Json.text)
    parameters := ← Json.defaulted fields "parameters" [] (Json.listOf Parameter.decode)
    isStatic := ← Json.defaulted fields "is_static" false Json.flag
    accessorOf := ← Json.defaulted fields "associated_property" none (Json.nullable Json.text)
    hook := ← Json.defaulted fields "hook" none (Json.nullable HookKind.decode)
    isVariadic := ← Json.defaulted fields "has_params_array" false Json.flag }

end MethodDecl

namespace PropertyDecl

def encode (property : PropertyDecl) : Json := .object [
  ("name", .string property.name), ("ty", property.type.encode),
  ("has_getter", .bool property.hasGetter), ("setter", .string property.setter.word),
  ("is_static", .bool property.isStatic)]

def decode : Decoder PropertyDecl := fun json => do
  let fields ← Json.record ["name", "ty", "has_getter", "setter", "is_static"] false json
  return {
    name := ← Json.required fields "name" Json.text
    type := ← Json.required fields "ty" TypeRef.decode
    hasGetter := ← Json.defaulted fields "has_getter" false Json.flag
    setter := ← Json.defaulted fields "setter" .absent Setter.decode
    isStatic := ← Json.defaulted fields "is_static" false Json.flag }

end PropertyDecl

namespace TypeDef

def encode (type : TypeDef) : Json := .object [
  ("reference", type.reference.encode), ("kind", .string type.kind.word),
  ("base_type", Json.orNull TypeRef.encode type.baseType),
  ("interfaces", Json.listing TypeRef.encode type.interfaces),
  ("methods", Json.listing MethodDecl.encode type.methods),
  ("properties", Json.listing PropertyDecl.encode type.properties),
  ("events", Json.listing .string type.events),
  ("constructors", Json.listing (Json.listing Parameter.encode) type.constructors)]

def fieldNames : List String := [
  "reference", "kind", "base_type", "interfaces", "methods", "properties", "events",
  "constructors"]

def decode : Decoder TypeDef := fun json => do
  let fields ← Json.record fieldNames false json
  return {
    reference := ← Json.required fields "reference" TypeRef.decode
    kind := ← Json.required fields "kind" TypeKind.decode
    baseType := ← Json.defaulted fields "base_type" none (Json.nullable TypeRef.decode)
    interfaces := ← Json.defaulted fields "interfaces" [] (Json.listOf TypeRef.decode)
    methods := ← Json.defaulted fields "methods" [] (Json.listOf MethodDecl.decode)
    properties := ← Json.defaulted fields "properties" [] (Json.listOf PropertyDecl.decode)
    events := ← Json.defaulted fields "events" [] (Json.listOf Json.text)
    constructors :=
      ← Json.defaulted fields "constructors" [] (Json.listOf (Json.listOf Parameter.decode)) }

end TypeDef

namespace Catalog

def encode (catalog : Catalog) : Json := Json.listing TypeDef.encode catalog.types

def decode : Decoder Catalog := fun json => (Json.listOf TypeDef.decode json).map ofList

end Catalog

end Interpose
