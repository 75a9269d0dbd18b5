import Interpose.Proxy.Method

/-!
# Properties of a proxy

Reading and writing a property goes straight to the underlying object. What may be set during
construction only cannot be forwarded and throws.
-/

namespace Interpose.Proxy

structure PropertyImpl where
  type : String
  contract : String
  name : String
  /-- The accessors in order, each with its body. -/
  accessors : List (Accessor × List Stmt)
  deriving Repr, DecidableEq

namespace PropertyImpl

/-- The body of one accessor of the property `target`. -/
def forward (target : Expr) (notSupported : String) : Accessor → List Stmt
  | .get => [.give target]
  | .set => [.assign target (.name "value")]
  | .init => [.throwNew notSupported]

def ofProperty (plan : ProxyPlan) (notSupported : String) (property : Property) : PropertyImpl :=
  let target := Expr.member
    (receiver plan property.contract property.name (.field underlyingField)) property.name
  { type := property.type.fullName
    contract := property.contract.fullName
    name := property.name
    accessors := property.accessors.map fun a => (a, forward target notSupported a) }

def keyword : Accessor → String
  | .get => "get"
  | .set => "set"
  | .init => "init"

def script (property : PropertyImpl) : Script :=
  Script.block (property.type ++ " " ++ property.contract ++ "." ++ property.name)
    (property.accessors.flatMap fun (accessor, body) =>
      Script.block (keyword accessor) (Stmt.script body))

end PropertyImpl

end Interpose.Proxy
