import Interpose.Hooks
import Interpose.Model.Plan
import Interpose.Request

/-!
# Surfaces

The surface of a contract is what its proxy has to forward: the properties and methods of its
closure, each method bound to a hook of the provider.
-/

namespace Interpose

/-- The elements whose key no earlier element has. -/
def firstByKey {α β : Type} [DecidableEq β] (key : α → β) (seen : List β) : List α → List α
  | [] => []
  | x :: rest =>
    if key x ∈ seen then firstByKey key seen rest
    else x :: firstByKey key (key x :: seen) rest

namespace Surface

def accessors (property : PropertyDecl) : List Accessor :=
  (if property.hasGetter then [.get] else []) ++
    match property.setter with
    | .absent => []
    | .set => [.set]
    | .init => [.init]

/-- The instance properties of one definition that have an accessor. -/
def propertiesOf (type : TypeDef) : List Property :=
  (type.properties.filter (!·.isStatic)).filterMap fun property =>
    Property.ofAccessors? type.reference property.name property.type (accessors property)

/-- What tells two properties of one proxy apart. -/
def propertyKey (property : Property) : String × String :=
  (property.contract.fullName, property.name)

/-- The properties of a closure, those of one name and contract once. -/
def properties (closure : List TypeDef) : List Property :=
  firstByKey propertyKey [] (closure.flatMap propertiesOf)

def isAccessor (properties : List Property) (type : TypeDef) (method : MethodDecl) : Bool :=
  match method.accessorOf with
  | none => false
  | some name => properties.any fun p => propertyKey p == (type.name, name)

def methodDecls (properties : List Property) (type : TypeDef) : List (TypeDef × MethodDecl) :=
  (type.methods.filter fun m => !m.isStatic && !isAccessor properties type m).map (type, ·)

def bind (table : HookTable) (decl : TypeDef × MethodDecl) : Except PlanError Method :=
  let (type, method) := decl
  let shape := ReturnShape.classify method.returnType
  (table.selector shape.hookKind).map fun hook => {
    contract := type.reference
    name := method.name
    shape := shape
    returnType := method.returnType
    typeParameters := method.typeParameters
    parameters := method.parameters
    hook := hook }

/-- The methods of a closure, those of one key once. -/
def methods (table : HookTable) (properties : List Property) (closure : List TypeDef) :
    Except PlanError (List Method) :=
  ((closure.flatMap (methodDecls properties)).mapM (bind table)).map (firstByKey Method.key [])

end Surface

namespace Pairing

def known (catalog : Catalog) (name : String) : Except PlanError TypeDef :=
  match catalog.resolve name with
  | some type => .ok type
  | none => .error (.unknownType name)

/-- The plan of a pairing, its methods bound through the table. -/
def plan (catalog : Catalog) (table : HookTable) (pairing : Pairing) :
    Except PlanError ProxyPlan := do
  let contract ← known catalog pairing.contract.fullName
  let provider ← known catalog pairing.provider.fullName
  let parameters ← match provider.constructors with
    | [] => .error (.noConstructor pairing.provider.fullName)
    | parameters :: _ => .ok parameters
  let closure := catalog.closure contract
  let properties := Surface.properties closure
  let methods ← Surface.methods table properties closure
  return {
    contract := pairing.contract
    provider := pairing.provider
    providerParameters := parameters
    methods := methods
    properties := properties
    allowList := pairing.allowList }

end Pairing

end Interpose
