import Interpose.Model.Member
import Interpose.Model.NameSet

/-!
# Plans

A plan holds all that one proxy's text depends on but its name: the contract, the provider, the
members to forward and which of them to intercept.
-/

namespace Interpose

structure ProxyPlan where
  contract : TypeRef
  provider : TypeRef
  /-- The parameters of the provider's first constructor. -/
  providerParameters : List Parameter
  methods : List Method
  properties : List Property
  /-- The members to intercept; none stands for all. -/
  allowList : Option NameSet
  deriving Repr, BEq

namespace ProxyPlan

/-- Whether calls of a method go through the provider. -/
def intercepts (plan : ProxyPlan) (method : Method) : Bool :=
  match plan.allowList with
  | none => true
  | some allowed => method.allowKeys.any allowed.contains

/-- Whether another contract declares a member of that name too. -/
def sharesName (plan : ProxyPlan) (contract : TypeRef) (name : String) : Bool :=
  plan.methods.any (fun m => m.name == name && !m.contract.sameType contract) ||
    plan.properties.any fun p => p.name == name && !p.contract.sameType contract

end ProxyPlan

/-- What a proxy is called. -/
structure Identity where
  scope : String
  className : String
  artifact : String
  deriving Repr, DecidableEq

/-- The class's name from the outermost scope. -/
def Identity.fullName (identity : Identity) : String :=
  "global::" ++ identity.scope ++ "." ++ identity.className

end Interpose
