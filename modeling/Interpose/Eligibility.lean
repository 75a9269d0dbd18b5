import Interpose.Inheritance
import Interpose.Request

/-!
# Eligibility

What speaks against a pairing: first all that is wrong with the contract, then all that is wrong
with the provider.
-/

namespace Interpose

/-- A rule that a pairing breaks. -/
inductive Violation where
  | unknownContract (name : String)
  | notInterface (name : String)
  | openContract (name : String)
  | event (owner name : String)
  | variadic (owner name : String)
  | unknownProvider (name : String)
  | notDerived (name base : String)
  | noConstructor (name : String)
  deriving Repr, DecidableEq

namespace Violation

def code : Violation → String
  | unknownContract _ => Diagnostic.unknownType
  | notInterface _ => Diagnostic.invalidContract
  | openContract _ => Diagnostic.openContract
  | event _ _ => Diagnostic.unsupportedMember
  | variadic _ _ => Diagnostic.variadicMethod
  | unknownProvider _ => Diagnostic.unknownType
  | notDerived _ _ => Diagnostic.invalidProvider
  | noConstructor _ => Diagnostic.noConstructor

def message : Violation → String
  | unknownContract name => "Contract type '" ++ name ++ "' could not be resolved"
  | notInterface name => "Type '" ++ name ++ "' is not an interface and cannot be decorated"
  | openContract name =>
    "Open generic interface '" ++ name ++
      "' cannot be decorated; close it over concrete type arguments"
  | event owner name =>
    "Interface '" ++ owner ++ "' declares event '" ++ name ++
      "'; only methods and properties can be decorated"
  | variadic owner name =>
    "Method '" ++ owner ++ "." ++ name ++
      "' declares a variable-length parameter, which cannot be decorated"
  | unknownProvider name => "Provider type '" ++ name ++ "' could not be resolved"
  | notDerived name base => "Type '" ++ name ++ "' does not derive from '" ++ base ++ "'"
  | noConstructor name => "Provider '" ++ name ++ "' has no accessible constructor"

def diagnostic (violation : Violation) : Diagnostic :=
  .failure violation.code violation.message

end Violation

namespace Pairing

/-- The members of one interface that no proxy can forward. -/
def memberViolations (type : TypeDef) : List Violation :=
  type.events.map (.event type.name) ++
    (type.methods.filter (·.isVariadic)).map fun method => .variadic type.name method.name

def contractViolations (catalog : Catalog) (contract : TypeRef) : List Violation :=
  match catalog.resolve contract.fullName with
  | none => [.unknownContract contract.fullName]
  | some type =>
    if type.kind ≠ .interface then [.notInterface contract.fullName]
    else
      (if contract.isOpen then [.openContract contract.fullName] else []) ++
        (catalog.closure type).flatMap memberViolations

def providerViolations (catalog : Catalog) (base : String) (provider : TypeRef) :
    List Violation :=
  match catalog.resolve provider.fullName with
  | none => [.unknownProvider provider.fullName]
  | some type =>
    (if catalog.derivesFrom type base then [] else [.notDerived provider.fullName base]) ++
      if type.constructors.isEmpty then [.noConstructor provider.fullName] else []

def violations (catalog : Catalog) (base : String) (pairing : Pairing) : List Violation :=
  contractViolations catalog pairing.contract ++ providerViolations catalog base pairing.provider

/-- The violations as diagnostics, each at every location of the pairing. A pairing without any is
eligible. -/
def problems (catalog : Catalog) (base : String) (pairing : Pairing) : List Diagnostic :=
  (pairing.violations catalog base).flatMap (·.diagnostic.atEach pairing.locations)

end Pairing

end Interpose
