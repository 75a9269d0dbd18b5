import Interpose.Model.Plan
import Interpose.Settings
import Interpose.Source.Artifact
import Interpose.Source.Spelling

/-!
# The dispatcher

The dispatcher finds the proxy for a contract and a provider at run time. It compares the pair with
that of each branch and takes the first that agrees.
-/

namespace Interpose

/-- What stands for one proxy in the dispatcher. -/
structure Branch where
  contract : String
  provider : String
  proxy : String
  /-- How the provider is constructed, unless that takes no arguments. -/
  remark : Option String
  deriving Repr, DecidableEq

namespace Branch

def ofPlan (plan : ProxyPlan) (identity : Identity) : Branch where
  contract := plan.contract.fullName
  provider := plan.provider.fullName
  proxy := identity.fullName
  remark :=
    if plan.providerParameters.isEmpty then none
    else some (plan.provider.shortName ++ "(" ++
      Spelling.commaList (plan.providerParameters.map fun p => p.type.fullName ++ " " ++ p.name) ++
      ")")

/-- The type parameters that stand for the pair asked for. -/
def contractParameter : String := "TContract"

def providerParameter : String := "TProvider"

def condition (branch : Branch) : Script := [
  .line ("if (typeof(" ++ contractParameter ++ ") == typeof(" ++ branch.contract ++ ") &&"),
  .line ("    typeof(" ++ providerParameter ++ ") == typeof(" ++ branch.provider ++ "))")]

def instantiate (branch : Branch) : Script :=
  (branch.remark.map fun text => Step.line ("// " ++ text)).toList ++ branch.condition ++
    Script.block "" [
      .line ("return (" ++ contractParameter ++ ")(object)new " ++ branch.proxy ++ "("),
      .line ("    (" ++ branch.contract ++ ")(object)underlyingImplementation,"),
      .line "    applicableMembers,",
      .line ("    (" ++ branch.provider ++ ")(object)behaviorProvider);")]

def typeOnly (branch : Branch) : Script :=
  branch.condition ++ Script.block "" [.line ("return typeof(" ++ branch.proxy ++ ");")]

end Branch

structure Dispatcher where
  scope : String
  name : String
  contract : String
  allowListType : String
  branches : List Branch
  deriving Repr, DecidableEq

namespace Dispatcher

def ofPlans (settings : Settings) (proxies : List (ProxyPlan × Identity)) : Dispatcher where
  scope := settings.dispatcherNamespace
  name := settings.dispatcherClass
  contract := settings.dispatcherContract
  allowListType := settings.allowListType
  branches := proxies.map fun (plan, identity) => .ofPlan plan identity

/-- Where no branch agrees. -/
def otherwise : Script := [.line "return default;"]

def typeParameters : String :=
  Spelling.typeList [Branch.contractParameter, Branch.providerParameter]

def instantiate (dispatcher : Dispatcher) : Script := [
  .line (Branch.contractParameter ++ " " ++ dispatcher.contract ++ ".Instantiate" ++
    typeParameters ++ "("),
  .line ("    " ++ Branch.contractParameter ++ " underlyingImplementation,"),
  .line ("    " ++ dispatcher.allowListType ++ " applicableMembers,"),
  .line ("    " ++ Branch.providerParameter ++ " behaviorProvider)")] ++
  Script.block "" (Script.spaced (dispatcher.branches.map (·.instantiate) ++ [otherwise]))

def typeSelector (dispatcher : Dispatcher) : Script :=
  Script.block
    ("global::System.Type " ++ dispatcher.contract ++ ".GetDecoratorType" ++ typeParameters ++ "()")
    (Script.spaced (dispatcher.branches.map (·.typeOnly) ++ [otherwise]))

def script (dispatcher : Dispatcher) : Script :=
  Script.block ("public sealed class " ++ dispatcher.name ++ " : " ++ dispatcher.contract)
    (Script.spaced [dispatcher.instantiate, dispatcher.typeSelector])

def artifact (settings : Settings) (proxies : List (ProxyPlan × Identity)) : Artifact :=
  let dispatcher := ofPlans settings proxies
  .ofScope settings.dispatcherArtifact dispatcher.scope dispatcher.script

end Dispatcher

end Interpose
