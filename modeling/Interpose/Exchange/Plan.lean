import Interpose.Exchange.Member
import Interpose.Model.Plan

/-!
# Plans as JSON
-/

namespace Interpose

open Json (Decoder)

namespace NameSet

def encode (set : NameSet) : Json := Json.listing .string set.names

def decode : Decoder NameSet := fun json => (Json.listOf Json.text json).map ofList

end NameSet

namespace Identity

def encode (identity : Identity) : Json := .object [
  ("namespace", .string identity.scope), ("type_name", .string identity.className),
  ("artifact_name", .string identity.artifact),
  ("fully_qualified_name", .string identity.fullName)]

def decode : Decoder Identity := fun json => do
  let fields ← Json.record ["namespace", "type_name", "artifact_name"] false json
  return {
    scope := ← Json.required fields "namespace" Json.text
    className := ← Json.required fields "type_name" Json.text
    artifact := ← Json.required fields "artifact_name" Json.text }

end Identity

namespace ProxyPlan

def encode (plan : ProxyPlan) : Json := .object [
  ("contract", plan.contract.encode), ("provider", plan.provider.encode),
  ("provider_constructor", Json.listing Parameter.encode plan.providerParameters),
  ("methods", Json.listing Method.encode plan.methods),
  ("properties", Json.listing Property.encode plan.properties),
  ("allow_list", Json.orNull NameSet.encode plan.allowList)]

def fieldNames : List String := [
  "contract", "provider", "provider_constructor", "methods", "properties", "allow_list",
  "identity"]

/-- A plan, with its identity where one is given. -/
def decode : Decoder (ProxyPlan × Option Identity) := fun json => do
  let fields ← Json.record fieldNames false json
  let plan : ProxyPlan := {
    contract := ← Json.required fields "contract" TypeRef.decode
    provider := ← Json.required fields "provider" TypeRef.decode
    providerParameters :=
      ← Json.defaulted fields "provider_constructor" [] (Json.listOf Parameter.decode)
    methods := ← Json.defaulted fields "methods" [] (Json.listOf Method.decode)
    properties := ← Json.defaulted fields "properties" [] (Json.listOf Property.decode)
    allowList := ← Json.defaulted fields "allow_list" none (Json.nullable NameSet.decode) }
  let identity ← Json.defaulted fields "identity" none fun value => (Identity.decode value).map some
  return (plan, identity)

end ProxyPlan

end Interpose
