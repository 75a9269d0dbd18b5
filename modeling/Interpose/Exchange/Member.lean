import Interpose.Exchange.Type
import Interpose.Model.Member

/-!
# Parameters, methods and properties as JSON

Enumerations are written by name. A method may leave out its shape, which its return type decides,
and its hook, which is then the usual one for the shape.
-/

namespace Interpose

open Json (Decoder)

def PassMode.word : PassMode → String
  | byValue => "ByValue"
  | byRef => "ByRef"
  | byOut => "ByOut"
  | byIn => "ByIn"

def PassMode.decode : Decoder PassMode :=
  Json.oneOf ([.byValue, .byRef, .byOut, .byIn].map fun mode => (mode.word, mode))

def HookKind.word : HookKind → String
  | processVoid => "ProcessVoid"
  | processValue => "ProcessValue"
  | processAwaitable => "ProcessAwaitable"
  | processAwaitableOfValue => "ProcessAwaitableOfValue"
  | processLightAwaitable => "ProcessLightAwaitable"
  | processLightAwaitableOfValue => "ProcessLightAwaitableOfValue"

def HookKind.encode (kind : HookKind) : Json := .string kind.word

def HookKind.decode : Decoder HookKind :=
  Json.oneOf (HookKind.all.map fun kind => (kind.word, kind))

def ReturnShape.word : ReturnShape → String
  | void => "Void"
  | value => "Value"
  | awaitable => "Awaitable"
  | awaitableOfValue => "AwaitableOfValue"
  | lightAwaitable => "LightAwaitable"
  | lightAwaitableOfValue => "LightAwaitableOfValue"

def ReturnShape.decode : Decoder ReturnShape :=
  Json.oneOf ([.void, .value, .awaitable, .awaitableOfValue, .lightAwaitable,
    .lightAwaitableOfValue].map fun shape => (shape.word, shape))

def Accessor.word : Accessor → String
  | get => "Get"
  | set => "Set"
  | init => "InitOnly"

def Accessor.decode : Decoder Accessor :=
  Json.oneOf ([.get, .set, .init].map fun accessor => (accessor.word, accessor))

namespace Parameter

def encode (parameter : Parameter) : Json := .object [
  ("name", .string parameter.name), ("ty", parameter.type.encode),
  ("mode", .string parameter.mode.word)]

def decode : Decoder Parameter := fun json => do
  let fields ← Json.record ["name", "ty", "mode"] false json
  return {
    name := ← Json.required fields "name" Json.text
    type := ← Json.required fields "ty" TypeRef.decode
    mode := ← Json.defaulted fields "mode" .byValue PassMode.decode }

end Parameter

namespace Method

def encode (method : Method) : Json := .object [
  ("declaring_contract", method.contract.encode), ("name", .string method.name),
  ("shape", .string method.shape.word),
  ("return_type", Json.orNull TypeRef.encode method.returnType),
  ("type_parameters", Json.listing .string method.typeParameters),
  ("parameters", Json.listing Parameter.encode method.parameters),
  ("hook", .string method.hook)]

def fieldNames : List String := [
  "declaring_contract", "name", "shape", "return_type", "type_parameters", "parameters", "hook"]

def decode : Decoder Method := fun json => do
  let fields ← Json.record fieldNames false json
  let contract ← Json.required fields "declaring_contract" TypeRef.decode
  let name ← Json.required fields "name" Json.text
  let returnType ← Json.defaulted fields "return_type" none (Json.nullable TypeRef.decode)
  let shape ← Json.defaulted fields "shape" (.classify returnType) ReturnShape.decode
  let typeParameters ← Json.defaulted fields "type_parameters" [] (Json.listOf Json.text)
  let parameters ← Json.defaulted fields "parameters" [] (Json.listOf Parameter.decode)
  let hook ← Json.defaulted fields "hook" shape.hookKind.defaultSelector Json.text
  return { contract, name, shape, returnType, typeParameters, parameters, hook }

end Method

namespace Property

def encode (property : Property) : Json := .object [
  ("declaring_contract", property.contract.encode), ("name", .string property.name),
  ("ty", property.type.encode),
  ("accessors", Json.listing (fun a => .string a.word) property.accessors)]

def decode : Decoder Property := fun json => do
  let fields ← Json.record ["declaring_contract", "name", "ty", "accessors"] false json
  return {
    contract := ← Json.required fields "declaring_contract" TypeRef.decode
    name := ← Json.required fields "name" Json.text
    type := ← Json.required fields "ty" TypeRef.decode
    accessors := ← Json.required fields "accessors" (Json.listOf Accessor.decode) }

end Property

end Interpose
