import Interpose.Diagnostic
import Interpose.Model.NameSet
import Interpose.Model.TypeRef

/-!
# Requests

A request asks for a provider in front of a contract. `Pairing.merge` gathers the requests for one
pair of types into one pairing.
-/

namespace Interpose

structure Request where
  contract : TypeRef
  provider : TypeRef
  locations : List Location
  /-- The members to intercept; none stands for all. -/
  allowList : Option (List String)
  deriving Repr, BEq

namespace Request

def forAll (contract provider : TypeRef) : Request := ⟨contract, provider, [], none⟩

def addLocation (request : Request) (location : Location) : Request :=
  { request with locations := request.locations ++ [location] }

def allowing (request : Request) (members : List String) : Request :=
  { request with allowList := some members }

end Request

structure Pairing where
  contract : TypeRef
  provider : TypeRef
  locations : List Location
  allowList : Option NameSet
  deriving Repr, BEq

namespace Pairing

/-- Whether two names are those of the pairing's contract and provider. -/
def joins (pairing : Pairing) (contract provider : String) : Bool :=
  pairing.contract.fullName == contract && pairing.provider.fullName == provider

def ofRequest (request : Request) : Pairing :=
  ⟨request.contract, request.provider, request.locations, request.allowList.map NameSet.ofList⟩

/-- The members that one of two allow-lists names, or all as soon as one of them is for all. -/
def widen : Option NameSet → Option NameSet → Option NameSet
  | some a, some b => some (a.union b)
  | _, _ => none

/-- Adds the locations and the members of a further request for the pair. -/
def absorb (pairing : Pairing) (request : Request) : Pairing :=
  { pairing with
    locations := pairing.locations ++ request.locations
    allowList := widen pairing.allowList (request.allowList.map NameSet.ofList) }

/-- Adds a request to the pairing of its types, or a pairing at the end. -/
def add : List Pairing → Request → List Pairing
  | [], request => [ofRequest request]
  | pairing :: rest, request =>
    if pairing.joins request.contract.fullName request.provider.fullName then
      pairing.absorb request :: rest
    else pairing :: add rest request

/-- One pairing for each pair of types, in the order of their first requests. -/
def merge (requests : List Request) : List Pairing := requests.foldl add []

end Pairing

end Interpose
