import Interpose.Exchange.Type
import Interpose.Request

/-!
# Requests as JSON
-/

namespace Interpose

open Json (Decoder)

namespace Location

def encode (location : Location) : Json := .object [
  ("file", .string location.file), ("start", .natural location.start.toNat),
  ("end", .natural location.stop.toNat), ("line", .natural location.line.toNat),
  ("column", .natural location.column.toNat)]

def decode : Decoder Location := fun json => do
  let fields ← Json.record ["file", "start", "end", "line", "column"] false json
  return {
    file := ← Json.required fields "file" Json.text
    start := ← Json.required fields "start" Json.word64
    stop := ← Json.required fields "end" Json.word64
    line := ← Json.required fields "line" Json.word32
    column := ← Json.required fields "column" Json.word32 }

end Location

namespace Request

def encode (request : Request) : Json := .object [
  ("contract", request.contract.encode), ("provider", request.provider.encode),
  ("locations", Json.listing Location.encode request.locations),
  ("allow_list", Json.orNull (Json.listing .string) request.allowList)]

def decode : Decoder Request := fun json => do
  let fields ← Json.record ["contract", "provider", "locations", "allow_list"] false json
  return {
    contract := ← Json.required fields "contract" TypeRef.decode
    provider := ← Json.required fields "provider" TypeRef.decode
    locations := ← Json.defaulted fields "locations" [] (Json.listOf Location.decode)
    allowList :=
      ← Json.defaulted fields "allow_list" none (Json.nullable (Json.listOf Json.text)) }

end Request

end Interpose
