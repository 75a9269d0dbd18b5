import Interpose.Inheritance

/-!
# Hooks

A provider overrides hooks at any level of its class chain. Its table lists the overrides with the
most derived first, so the first entry of a kind is the nearest override.
-/

namespace Interpose

inductive PlanError where
  | unresolvedHook (provider : String) (kind : HookKind)
  | noConstructor (provider : String)
  | unknownType (name : String)
  deriving Repr, DecidableEq

def PlanError.message : PlanError → String
  | unresolvedHook provider kind =>
    "Provider '" ++ provider ++ "' has no reachable " ++ kind.label ++ " hook"
  | noConstructor provider => "Provider '" ++ provider ++ "' has no accessible constructor"
  | unknownType name => "Type '" ++ name ++ "' is not known to the host"

structure HookOverride where
  declaredBy : TypeRef
  kind : HookKind
  selector : String
  deriving Repr, BEq

structure HookTable where
  provider : TypeRef
  /-- The overrides, most derived first. -/
  overrides : List HookOverride
  deriving Repr, BEq

namespace HookTable

/-- The hooks that one definition declares, each under its first method of the kind. -/
def declared (type : TypeDef) : List HookOverride :=
  HookKind.all.filterMap fun kind =>
    (type.methods.find? (·.hook == some kind)).map fun method => ⟨type.reference, kind, method.name⟩

/-- A chain up to and with its first definition of that name. -/
def upTo (base : String) : List TypeDef → List TypeDef
  | [] => []
  | type :: rest => if type.name = base then [type] else type :: upTo base rest

/-- The table of a provider whose chain is looked at up to and with `base`. -/
def build (catalog : Catalog) (provider : TypeDef) (base : String) : HookTable :=
  ⟨provider.reference, (upTo base (catalog.baseChain provider)).flatMap declared⟩

/-- The nearest override of a kind. -/
def resolve (table : HookTable) (kind : HookKind) : Except PlanError HookOverride :=
  match table.overrides.find? (·.kind = kind) with
  | some found => .ok found
  | none => .error (.unresolvedHook table.provider.fullName kind)

/-- The method that the nearest override of a kind declares. -/
def selector (table : HookTable) (kind : HookKind) : Except PlanError String :=
  (table.resolve kind).map (·.selector)

end HookTable

end Interpose
