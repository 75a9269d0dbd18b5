import Interpose.Digest.Sha256
import Interpose.Model.Plan
import Interpose.Settings
import Interpose.Text.Identifier

/-!
# Naming

Every proxy is named after its provider and its contract. A short name that two types share gets a
part of the digest of the type's full name.
-/

namespace Interpose.Naming

/-- The first digits of the digest of a name. -/
def disambiguator (fullName : String) (length : Nat) : String :=
  String.ofList ((Sha256.hex fullName).take length)

/-- A type's full name and the identifier form of its short name. -/
abbrev Entry := String × String

/-- One entry for each full name, with the short name of its first reference. -/
def roster (types : List TypeRef) : List Entry :=
  types.foldl
    (fun entries type =>
      if entries.any (·.1 == type.fullName) then entries
      else entries ++ [(type.fullName, Text.segment type.shortName)]) []

/-- The part of a name that stands for one type: the identifier form of its short name, with digits
behind it where another type of the roster has the same. A type that is not listed has none. -/
def segmentOf (entries : List Entry) (hashLength : Nat) (fullName : String) : String :=
  match entries.lookup fullName with
  | none => ""
  | some short =>
    if 1 < entries.countP (·.2 == short) then
      short ++ "_" ++ disambiguator fullName hashLength
    else short

/-- The identity of each plan, in order. -/
def identities (settings : Settings) (plans : List ProxyPlan) : List Identity :=
  let length := settings.hashLength.toNat
  let providers := roster (plans.map (·.provider))
  let contracts := roster (plans.map (·.contract))
  plans.map fun plan =>
    let provider := segmentOf providers length plan.provider.fullName
    let contract := segmentOf contracts length plan.contract.fullName
    { scope := settings.rootNamespace ++ "." ++ provider ++ "." ++ contract
      className := settings.proxyClass
      artifact := settings.proxyClass ++ "_" ++ provider ++ "_" ++ contract ++ ".g.cs" }

end Interpose.Naming
