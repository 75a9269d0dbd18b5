import Interpose.Model.Plan
import Interpose.Proxy.Locals
import Interpose.Source.Code

/-!
# Methods of a proxy

An intercepted method packs its arguments into a context object and hands it to a hook together
with a function that makes the underlying call. Every other method makes that call at once.
-/

namespace Interpose.Proxy

def underlyingField : String := "_underlyingImplementation"

def allowListField : String := "_applicableMembers"

def providerField : String := "_behaviorProvider"

/-- The object on which a member of that contract is used: cast to the contract where another
contract has a member of the name too. -/
def receiver (plan : ProxyPlan) (contract : TypeRef) (member : String) (object : Expr) : Expr :=
  if plan.sharesName contract member then .cast contract.fullName object else object

/-- A class whose objects carry the arguments of one call. -/
structure ContextClass where
  name : String
  typeParameters : List String
  fields : List (String × String)
  deriving Repr, DecidableEq

namespace ContextClass

def nameOf (method : Method) (index : Nat) : String :=
  method.name ++ "MethodContext_" ++ index.repr

def ofMethod (plan : ProxyPlan) (method : Method) (index : Nat) (locals : Locals) :
    ContextClass where
  name := nameOf method index
  typeParameters := method.capturedTypeParameters
  fields := (plan.contract.fullName, locals.underlyingField) ::
    method.parameters.map fun p => (p.type.fullName, Spelling.identifier p.name)

def script (context : ContextClass) : Script :=
  Script.block
    ("private sealed class " ++ context.name ++ Spelling.typeList context.typeParameters)
    (context.fields.map fun field => .line ("public " ++ field.1 ++ " " ++ field.2 ++ ";"))

end ContextClass

structure Header where
  returnType : String
  contract : String
  method : String
  typeParameters : List String
  parameters : List (PassMode × String × String)
  deriving Repr, DecidableEq

namespace Header

def ofMethod (method : Method) : Header where
  returnType :=
    match method.returnType with
    | some type => if method.shape.isVoid then "void" else type.fullName
    | none => "void"
  contract := method.contract.fullName
  method := method.name
  typeParameters := method.typeParameters
  parameters := method.parameters.map fun p =>
    (p.mode, p.type.fullName, Spelling.identifier p.name)

def text (header : Header) : String :=
  header.returnType ++ " " ++ header.contract ++ "." ++ header.method ++
    Spelling.typeList header.typeParameters ++ "(" ++
    Spelling.commaList (header.parameters.map fun (mode, type, name) =>
      Spelling.passed mode (type ++ " " ++ name)) ++ ")"

end Header

/-- An entry that a guard looks for in the allow-list. -/
inductive GuardEntry where
  | nameOf (contract member : String)
  | literal (text : String)
  deriving Repr, DecidableEq

def GuardEntry.text : GuardEntry → String
  | nameOf contract member => "nameof(" ++ contract ++ "." ++ member ++ ")"
  | literal text => "\"" ++ text ++ "\""

/-- Leaves the provider out where there is an allow-list and none of the entries is in it. -/
structure Guard where
  entries : List GuardEntry
  bypass : List Stmt
  deriving Repr, DecidableEq

namespace Guard

def conditions : List GuardEntry → Script
  | [] => []
  | entry :: rest =>
    .line ("    !" ++ (Expr.field allowListField).text ++ ".Contains(" ++ entry.text ++ ")" ++
      (if rest.isEmpty then ")" else " &&")) :: conditions rest

def script (guard : Guard) : Script :=
  .line ("if (" ++ (Expr.field allowListField).text ++ " != null &&") ::
    conditions guard.entries ++ Script.block "" (Stmt.script guard.bypass)

end Guard

structure Packing where
  object : String
  className : String
  typeArguments : List String
  fields : List (String × Expr)
  deriving Repr, DecidableEq

namespace Packing

def assignments : List (String × Expr) → Script
  | [] => []
  | (name, value) :: rest =>
    .line (name ++ " = " ++ value.text ++ (if rest.isEmpty then "" else ",")) :: assignments rest

def script (packing : Packing) : Script :=
  .line ("var " ++ packing.object ++ " = new " ++ packing.className ++
    Spelling.typeList packing.typeArguments) ::
    .enter "" :: assignments packing.fields ++ [.leave "\x7d;"]

end Packing

/-- Hands a context object to a hook together with the function that makes the underlying call. -/
structure HookCall where
  /-- The variable for what the hook returns. -/
  result : Option String
  hook : String
  mode : PassMode
  context : String
  parameter : String
  body : List (List Stmt)
  deriving Repr, DecidableEq

def HookCall.script (call : HookCall) : Script :=
  .line ((match call.result with
      | some name => "var " ++ name ++ " = "
      | none => "") ++
    ((Expr.field providerField).member call.hook).text ++ "(" ++
    Spelling.passed call.mode call.context ++ ", static (" ++ call.parameter ++ ") =>") ::
    .enter "" :: Script.spaced (call.body.map Stmt.script) ++ [.leave "\x7d);"]

structure Interception where
  guard : Guard
  packing : Packing
  hookCall : HookCall
  writeBacks : List Stmt
  ending : List Stmt
  deriving Repr, DecidableEq

def Interception.script (interception : Interception) : Script :=
  Script.spaced [
    interception.guard.script, interception.packing.script, interception.hookCall.script,
    Stmt.script interception.writeBacks, Stmt.script interception.ending]

inductive Body where
  | direct (statements : List Stmt)
  | intercepted (interception : Interception)
  deriving Repr, DecidableEq

def Body.script : Body → Script
  | direct statements => Stmt.script statements
  | intercepted interception => interception.script

/-- A method as the proxy declares it, behind the context class of an intercepted one. -/
structure MethodImpl where
  context : Option ContextClass
  header : Header
  body : Body
  deriving Repr, DecidableEq

namespace MethodImpl

def scripts (method : MethodImpl) : List Script :=
  (method.context.map (·.script)).toList ++
    [Script.block method.header.text method.body.script]

def underlyingCall (plan : ProxyPlan) (method : Method) (object : Expr)
    (arguments : List Argument) : Call where
  target := receiver plan method.contract method.name object
  method := method.name
  typeArguments := method.typeParameters
  arguments := arguments

/-- The call of the underlying object with the caller's own parameters. -/
def directCall (plan : ProxyPlan) (method : Method) : Call :=
  underlyingCall plan method (.field underlyingField)
    (method.parameters.map fun p => .pass p.mode (.name (Spelling.identifier p.name)))

/-- The direct call as a whole body. -/
def directBody (plan : ProxyPlan) (method : Method) : List Stmt :=
  if method.shape.isVoid then [.call (directCall plan method)]
  else [.giveCall (directCall plan method)]

def bypass (plan : ProxyPlan) (method : Method) : List Stmt :=
  directBody plan method ++ if method.shape.isVoid then [.stop] else []

def guard (plan : ProxyPlan) (method : Method) : Guard where
  entries := [
    .nameOf method.contract.fullName method.name, .literal method.simpleKey,
    .literal method.fullKey]
  bypass := bypass plan method

def packing (method : Method) (index : Nat) (locals : Locals) : Packing where
  object := locals.context
  className := ContextClass.nameOf method index
  typeArguments := method.capturedTypeParameters
  fields := (locals.underlyingField, .field underlyingField) ::
    (method.parameters.filter (·.mode.isCaptured)).map fun p =>
      (Spelling.identifier p.name, .name (Spelling.identifier p.name))

def withTemporaries (method : Method) (locals : Locals) : List (Parameter × Option String) :=
  method.parameters.zip locals.temporaries

def slot (context : String) (parameter : Parameter) : Expr :=
  .member (.name context) (Spelling.identifier parameter.name)

/-- Loads a variable for a parameter whose value flows into the call. -/
def load (context : String) : Parameter × Option String → Option Stmt
  | (parameter, some temporary) =>
    if parameter.mode = .byOut then none else some (.declare temporary (slot context parameter))
  | (_, none) => none

/-- The argument that the underlying call gets for a parameter. -/
def argument (context : String) : Parameter × Option String → Argument
  | (parameter, some temporary) =>
    if parameter.mode = .byOut then .declare parameter.type.fullName temporary
    else .pass parameter.mode (.name temporary)
  | (parameter, none) => .pass .byValue (slot context parameter)

/-- Stores a variable for a parameter whose value flows back. -/
def store (context : String) : Parameter × Option String → Option Stmt
  | (parameter, some temporary) =>
    if parameter.mode.writesBack then some (.assign (slot context parameter) (.name temporary))
    else none
  | (_, none) => none

/-- The function that a hook calls: loads, the underlying call, stores, and its result. -/
def closure (plan : ProxyPlan) (method : Method) (locals : Locals) : List (List Stmt) :=
  let context := locals.closureParameter
  let parameters := withTemporaries method locals
  let call := underlyingCall plan method (.member (.name context) locals.underlyingField)
    (parameters.map (argument context))
  [parameters.filterMap (load context),
    [if method.shape.isVoid then .call call else .declareCall locals.innerResult call],
    parameters.filterMap (store context),
    if method.shape.isVoid then [] else [.give (.name locals.innerResult)]]

def hookCall (plan : ProxyPlan) (method : Method) (locals : Locals) : HookCall where
  result := if method.shape.isVoid then none else some locals.result
  hook := method.hook
  mode := if method.shape.isAsynchronous then .byValue else .byIn
  context := locals.context
  parameter := locals.closureParameter
  body := closure plan method locals

def interception (plan : ProxyPlan) (method : Method) (index : Nat) (locals : Locals) :
    Interception where
  guard := guard plan method
  packing := packing method index locals
  hookCall := hookCall plan method locals
  writeBacks := (method.parameters.filter (·.mode.writesBack)).map fun p =>
    .assign (.name (Spelling.identifier p.name)) (slot locals.context p)
  ending := if method.shape.isVoid then [] else [.give (.name locals.result)]

def ofMethod (plan : ProxyPlan) (method : Method) (index : Nat) : MethodImpl :=
  let locals := Locals.ofParameters method.parameters
  if plan.intercepts method then {
    context := some (.ofMethod plan method index locals)
    header := .ofMethod method
    body := .intercepted (interception plan method index locals) }
  else {
    context := none
    header := .ofMethod method
    body := .direct (directBody plan method) }

end MethodImpl

end Interpose.Proxy
