import Interpose.Proxy.Property
import Interpose.Settings
import Interpose.Source.Artifact

/-!
# Proxies

A proxy is a class that implements a contract: its fields and constructor, the contract's
properties, and its methods.
-/

namespace Interpose.Proxy

structure Field where
  type : String
  name : String
  /-- The constructor's parameter that fills the field. -/
  parameter : String
  deriving Repr, DecidableEq

structure ProxyClass where
  scope : String
  name : String
  contract : String
  fields : List Field
  properties : List PropertyImpl
  methods : List MethodImpl
  deriving Repr, DecidableEq

namespace ProxyClass

def ofPlan (settings : Settings) (plan : ProxyPlan) (identity : Identity) : ProxyClass where
  scope := identity.scope
  name := identity.className
  contract := plan.contract.fullName
  fields := [
    ⟨plan.contract.fullName, underlyingField, "underlyingImplementation"⟩,
    ⟨settings.allowListType, allowListField, "applicableMembers"⟩,
    ⟨plan.provider.fullName, providerField, "behaviorProvider"⟩]
  properties := plan.properties.map (.ofProperty plan settings.notSupported)
  methods := plan.methods.mapIdx fun index method => .ofMethod plan method index

def fieldLines (proxy : ProxyClass) : Script :=
  proxy.fields.map fun f => .line ("private readonly " ++ f.type ++ " " ++ f.name ++ ";")

def constructor (proxy : ProxyClass) : Script :=
  Script.block
    ("public " ++ proxy.name ++ "(" ++
      Spelling.commaList (proxy.fields.map fun f => f.type ++ " " ++ f.parameter) ++ ")")
    (Stmt.script (proxy.fields.map fun f => .assign (.field f.name) (.name f.parameter)))

def script (proxy : ProxyClass) : Script :=
  Script.block ("public sealed class " ++ proxy.name ++ " : " ++ proxy.contract)
    (Script.spaced (proxy.fieldLines :: proxy.constructor ::
      proxy.properties.map (·.script) ++ proxy.methods.flatMap (·.scripts)))

end ProxyClass

def artifact (settings : Settings) (plan : ProxyPlan) (identity : Identity) : Artifact :=
  let proxy := ProxyClass.ofPlan settings plan identity
  .ofScope identity.artifact proxy.scope proxy.script

end Interpose.Proxy
