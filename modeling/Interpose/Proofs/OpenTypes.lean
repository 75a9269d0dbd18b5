import Interpose.Proofs.Conformance

/-!
# Open types

A pass asks the first request for a pair whether its contract is open, not the catalog, and asks
nobody about the provider. No open type of the catalog reaches a proxy exactly where none is
overlooked in this way: `run_closed_iff`.
-/

namespace Interpose

namespace Catalog

/-- The name is defined, as a type with a type parameter among its arguments. -/
def HasOpen (catalog : Catalog) (name : String) : Prop :=
  ∃ type, catalog.resolve name = some type ∧ type.reference.isOpen = true

/-- The name is defined, as a type without one. -/
def HasClosed (catalog : Catalog) (name : String) : Prop :=
  ∃ type, catalog.resolve name = some type ∧ type.reference.isOpen = false

theorem hasClosed_iff {catalog : Catalog} {name : String} {type : TypeDef}
    (found : catalog.resolve name = some type) :
    catalog.HasClosed name ↔ ¬ catalog.HasOpen name := by
  simp [HasClosed, HasOpen, found]

end Catalog

namespace Pass

variable {environment : Environment} {catalog : Catalog} {settings : Settings}
variable {requests : List Request}

/-- The first of the requests for a pair calls its contract closed. -/
def CalledClosed (requests : List Request) (types : String × String) : Prop :=
  ∃ first, (Pairing.requesting types requests).head? = some first ∧
    first.contract.isOpen = false

/-- A type of the pair is open by its definition, but nothing that a pass looks at says so. -/
def Overlooked (catalog : Catalog) (requests : List Request) (types : String × String) : Prop :=
  catalog.HasOpen types.1 ∧ CalledClosed requests types ∨ catalog.HasOpen types.2

/-- What a pass knows of a pair that has a proxy. -/
theorem vetted_of_mem_written {proxy : (String × String) × Artifact}
    (member : proxy ∈ written catalog settings requests) :
    CalledClosed requests proxy.1 ∧ (∃ contract, catalog.resolve proxy.1.1 = some contract) ∧
      ∃ provider, catalog.resolve proxy.1.2 = some provider := by
  have listed : proxy.1 ∈ (served catalog settings requests).map ProxyPlan.types :=
    written_types catalog settings requests ▸ List.mem_map_of_mem member
  obtain ⟨plan, planned, types⟩ := List.mem_map.mp listed
  obtain ⟨pairing, merged, made⟩ := List.mem_filterMap.mp planned
  rw [← types, Pairing.served_types made]
  have eligible : pairing.problems catalog settings.providerBase = [] := by
    by_contra rejected
    rw [Pairing.served_eq_none (.inl rejected)] at made
    cases made
  have unbroken := Pairing.problems_eq_nil.mp eligible
  obtain ⟨contract, contractFound, _, closed⟩ := Pairing.contract_of_eligible unbroken
  obtain ⟨provider, providerFound, _⟩ := Pairing.provider_of_eligible unbroken
  obtain ⟨first, leads, same, _⟩ := Pairing.gather_head (Pairing.gather_of_mem_merge merged)
  exact ⟨⟨first, leads, same ▸ closed⟩, ⟨contract, contractFound⟩, provider, providerFound⟩

theorem closed_iff_not_overlooked {proxy : (String × String) × Artifact}
    (member : proxy ∈ written catalog settings requests) :
    catalog.HasClosed proxy.1.1 ∧ catalog.HasClosed proxy.1.2 ↔
      ¬ Overlooked catalog requests proxy.1 := by
  obtain ⟨called, ⟨_, contractFound⟩, _, providerFound⟩ := vetted_of_mem_written member
  rw [Catalog.hasClosed_iff contractFound, Catalog.hasClosed_iff providerFound, Overlooked, not_or,
    not_and_or, or_iff_left (not_not.mpr called)]

/-- The first request for each pair that gets a proxy calls the contract closed. The catalog agrees,
and has a closed provider as well, exactly where no open type of such a pair is overlooked. -/
theorem run_closed_iff {result : Output}
    (succeeds : run environment catalog settings requests = .ok result) :
    (∃ dispatcher, result.artifacts =
      (written catalog settings requests).map (·.2) ++ [dispatcher]) ∧
    (∀ proxy ∈ written catalog settings requests, CalledClosed requests proxy.1) ∧
    ((∀ proxy ∈ written catalog settings requests,
        catalog.HasClosed proxy.1.1 ∧ catalog.HasClosed proxy.1.2) ↔
      ∀ proxy ∈ written catalog settings requests, ¬ Overlooked catalog requests proxy.1) := by
  obtain ⟨_, rfl⟩ := run_ok succeeds
  exact ⟨⟨_, output_artifacts catalog settings requests⟩,
    fun proxy member => (vetted_of_mem_written member).1,
    forall₂_congr fun proxy member => closed_iff_not_overlooked member⟩

def openStore : TypeRef :=
  (TypeRef.named "global::App.IStore" "IStore").close [.parameter "T"]

def openTracing : TypeRef :=
  (TypeRef.named "global::App.Tracing" "Tracing").close [.parameter "T"]

/-- Closed and open types in both roles. -/
def openCatalog : Catalog :=
  let base := TypeRef.named "global::Decorgen.Runtime.BehaviorProvider" "BehaviorProvider"
  let provider (reference : TypeRef) : TypeDef :=
    { TypeDef.bare reference .classType with baseType := some base, constructors := [[]] }
  ⟨[.standardProvider base, provider (.named "global::App.Logging" "Logging"),
    provider openTracing, .bare (.named "global::App.IService" "IService") .interface,
    .bare openStore .interface]⟩

/-- An open contract that is requested by its names alone, and an open provider. -/
def openRequests : List Request := [
  .forAll (.named openStore.fullName openStore.shortName)
    (.named "global::App.Logging" "Logging"),
  .forAll (.named "global::App.IService" "IService") openTracing]

theorem types_openRequests : (written openCatalog {} openRequests).map (·.1) =
    openRequests.map Request.types := by
  rw [written_types]
  decide +kernel

theorem run_openRequests : ∃ result,
    run (.steady 1 false) openCatalog {} openRequests = .ok result ∧
      (written openCatalog {} openRequests).map (·.1) = openRequests.map Request.types ∧
      ¬ ∀ proxy ∈ written openCatalog {} openRequests,
        openCatalog.HasClosed proxy.1.1 ∧ openCatalog.HasClosed proxy.1.2 := by
  have succeeds := @run_uncancelled (.steady 1 false) openCatalog {} (fun _ => rfl)
    Settings.check_default openRequests
  refine ⟨_, succeeds, types_openRequests, fun closed => ?_⟩
  have listed : (openStore.fullName, "global::App.Logging") ∈
      (written openCatalog {} openRequests).map (·.1) :=
    types_openRequests ▸ List.mem_cons_self
  obtain ⟨proxy, member, types⟩ := List.mem_map.mp listed
  obtain ⟨_, called, exactly⟩ := run_closed_iff succeeds
  refine exactly.mp closed proxy member (.inl ⟨?_, called proxy member⟩)
  rw [types]
  exact ⟨.bare openStore .interface, rfl, rfl⟩

end Pass

end Interpose
