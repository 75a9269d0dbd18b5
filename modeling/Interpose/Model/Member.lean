import Interpose.Model.Parameter
import Interpose.Model.Shape

/-!
# Members of a contract

Methods and properties as a proxy forwards them.
-/

namespace Interpose

structure Method where
  contract : TypeRef
  name : String
  shape : ReturnShape
  returnType : Option TypeRef
  typeParameters : List String
  parameters : List Parameter
  /-- The provider's method that calls go through. -/
  hook : String
  deriving Repr, BEq

/-- What tells two methods of one proxy apart. -/
structure MethodKey where
  contract : String
  name : String
  typeParameterCount : Nat
  parameters : List (String × PassMode)
  deriving Repr, DecidableEq

namespace Method

def key (method : Method) : MethodKey where
  contract := method.contract.fullName
  name := method.name
  typeParameterCount := method.typeParameters.length
  parameters := method.parameters.map fun p => (p.type.fullName, p.mode)

def simpleKey (method : Method) : String := method.contract.simpleName ++ "." ++ method.name

def fullKey (method : Method) : String := method.contract.fullName ++ "." ++ method.name

/-- The entries of an allow-list that name the method. -/
def allowKeys (method : Method) : List String := [method.name, method.simpleKey, method.fullKey]

/-- The method's type parameters that some parameter's type mentions, in declaration order. -/
def capturedTypeParameters (method : Method) : List String :=
  method.typeParameters.filter fun name => method.parameters.any (·.type.mentions name)

end Method

inductive Accessor where
  | get
  | set
  | init
  deriving Repr, DecidableEq

structure Property where
  contract : TypeRef
  name : String
  type : TypeRef
  accessors : List Accessor
  deriving Repr, BEq

/-- A property with its accessors in the order get, set, init, each once. There is none without an
accessor or with both kinds of setter. -/
def Property.ofAccessors? (contract : TypeRef) (name : String) (type : TypeRef)
    (accessors : List Accessor) : Option Property :=
  if accessors.isEmpty || (accessors.contains .set && accessors.contains .init) then none
  else
    some ⟨contract, name, type, [Accessor.get, .set, .init].filter accessors.contains⟩

end Interpose
