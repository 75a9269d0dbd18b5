import Interpose.Proofs.Accounting
import Interpose.Proofs.Refusals
import Interpose.Proofs.Violations

/-!
# Conformant bases

Where the base of all providers declares every hook, an eligible pairing always has a plan: deriving
from the base puts the base's hooks into the table. See `run_conformant`.
-/

namespace Interpose

/-- The definition of a base declares a method for each kind of hook. -/
def Catalog.Conformant (catalog : Catalog) (base : String) : Prop :=
  ∃ type, catalog.resolve base = some type ∧
    ∀ kind, ∃ method ∈ type.methods, method.hook = some kind

/-! ### Hooks -/

namespace HookTable

theorem upTo_sublist (base : String) (chain : List TypeDef) : (upTo base chain).Sublist chain := by
  induction chain with
  | nil => exact List.Sublist.slnil
  | cons type rest ih =>
    rw [upTo]
    split
    · exact (List.nil_sublist rest).cons_cons type
    · exact ih.cons_cons type

theorem exists_mem_upTo {base : String} {chain : List TypeDef}
    (reached : ∃ type ∈ chain, type.name = base) : ∃ type ∈ upTo base chain, type.name = base := by
  induction chain with
  | nil =>
    obtain ⟨type, member, _⟩ := reached
    cases member
  | cons head rest ih =>
    rw [upTo]
    split
    · rename_i named
      exact ⟨head, List.mem_singleton_self head, named⟩
    · rename_i other
      obtain ⟨type, member, named⟩ := reached
      rcases List.mem_cons.mp member with rfl | member
      · exact absurd named other
      · obtain ⟨found, inside, same⟩ := ih ⟨type, member, named⟩
        exact ⟨found, List.mem_cons_of_mem head inside, same⟩

theorem exists_mem_declared {type : TypeDef} {kind : HookKind} (declares : type.Declares kind) :
    ∃ hook ∈ declared type, hook.kind = kind := by
  by_contra missing
  refine find?_declared_eq_none.mp (List.find?_eq_none.mpr fun hook member tagged => ?_) declares
  exact missing ⟨hook, member, of_decide_eq_true tagged⟩

variable {catalog : Catalog} {base : String} {provider : TypeDef}

/-- What derives from a conformant base has every hook in its table. -/
theorem offers_build (conformant : catalog.Conformant base)
    (found : catalog.resolve provider.name = some provider)
    (derived : catalog.derivesFrom provider base) (kind : HookKind) :
    (build catalog provider base).Offers kind := by
  obtain ⟨baseType, baseFound, declares⟩ := conformant
  have reached : ∃ type ∈ catalog.baseChain provider, type.name = base := by
    simpa [Catalog.derivesFrom] using derived
  obtain ⟨type, member, named⟩ := exists_mem_upTo reached
  -- The chain holds what the catalog holds, so it reaches the base's own definition.
  have same : type = baseType := by
    have resolved := Catalog.resolve_of_mem_baseChain found ((upTo_sublist _ _).subset member)
    rw [named, baseFound] at resolved
    exact (Option.some.inj resolved).symm
  obtain ⟨hook, inside, tagged⟩ := exists_mem_declared (declares kind)
  refine ⟨hook, ?_, tagged⟩
  exact List.mem_flatMap.mpr ⟨type, member, same ▸ inside⟩

end HookTable

/-! ### Plans -/

theorem Surface.methods_ok {table : HookTable} (complete : ∀ kind, table.Offers kind)
    (properties : List Property) (closure : List TypeDef) :
    ∃ methods, Surface.methods table properties closure = .ok methods := by
  have bound : ∀ decl ∈ closure.flatMap (methodDecls properties),
      ∃ method, bind table decl = .ok method :=
    fun decl _ => bind_ok_iff.mpr (complete (neededHook decl))
  obtain ⟨methods, made⟩ := mapM_ok bound
  unfold Surface.methods
  rw [made]
  exact ⟨_, rfl⟩

namespace Pairing

variable {catalog : Catalog} {base : String} {pairing : Pairing}

theorem contract_of_eligible (eligible : pairing.violations catalog base = []) :
    ∃ contract, catalog.resolve pairing.contract.fullName = some contract ∧
      contract.kind = .interface ∧ pairing.contract.isOpen = false := by
  obtain ⟨closed, contract, found, interface, _⟩ :=
    contractViolations_eq_nil.mp (List.append_eq_nil_iff.mp eligible).1
  exact ⟨contract, found, interface, closed⟩

theorem provider_of_eligible (eligible : pairing.violations catalog base = []) :
    ∃ provider, catalog.resolve pairing.provider.fullName = some provider ∧
      catalog.derivesFrom provider base ∧ provider.constructors ≠ [] := by
  obtain ⟨provider, found, constructible, reached⟩ :=
    providerViolations_eq_nil.mp (List.append_eq_nil_iff.mp eligible).2
  have listed := (Catalog.resolve_eq_some found).2 ▸ found
  exact ⟨provider, found, (Catalog.derivesFrom_iff listed).mpr reached, constructible⟩

theorem planUpTo_conformant (conformant : catalog.Conformant base)
    (eligible : pairing.problems catalog base = []) :
    ∃ plan, pairing.planUpTo catalog base = .ok plan := by
  have unbroken := problems_eq_nil.mp eligible
  obtain ⟨contract, contractFound, _⟩ := contract_of_eligible unbroken
  obtain ⟨provider, providerFound, derived, constructible⟩ := provider_of_eligible unbroken
  have named : provider.name = pairing.provider.fullName :=
    (Catalog.resolve_eq_some providerFound).2
  have complete := HookTable.offers_build conformant (named ▸ providerFound) derived
  obtain ⟨parameters, others, constructors⟩ := List.exists_cons_of_ne_nil constructible
  obtain ⟨methods, bound⟩ := Surface.methods_ok complete
    (Surface.properties (catalog.closure contract)) (catalog.closure contract)
  rw [planUpTo_of_found providerFound, plan_of_found contractFound providerFound, constructors]
  dsimp only
  rw [bound]
  exact ⟨_, rfl⟩

end Pairing

/-! ### Passes -/

theorem Violation.code_ne (violation : Violation) : violation.code ≠ Diagnostic.unresolvedHook := by
  cases violation <;> simp only [code] <;> decide

theorem code_of_mem_atEach {diagnostic reported : Diagnostic} {locations : List Location}
    (member : reported ∈ diagnostic.atEach locations) : reported.code = diagnostic.code := by
  unfold Diagnostic.atEach at member
  split at member
  · rw [List.mem_singleton.mp member]
  · obtain ⟨location, _, rfl⟩ := List.mem_map.mp member
    rfl

namespace Pass

variable {environment : Environment} {catalog : Catalog} {settings : Settings}
variable {requests : List Request}

/-- With a conformant base no hook is ever missed, and every eligible pairing gets its proxy. -/
theorem run_conformant (uncancelled : ∀ point, environment.cancelled point = false)
    (accepted : settings.check = .ok ()) (conformant : catalog.Conformant settings.providerBase) :
    ∃ output, run environment catalog settings requests = .ok output ∧
      (∀ diagnostic ∈ output.diagnostics, diagnostic.code ≠ Diagnostic.unresolvedHook) ∧
      ∀ pairing ∈ Pairing.merge requests,
        pairing.problems catalog settings.providerBase = [] →
          (∃ plan, pairing.planUpTo catalog settings.providerBase = .ok plan) ∧
            ∃ artifact ∈ output.artifacts,
              (pairing.types, artifact) ∈ written catalog settings requests := by
  refine ⟨_, run_uncancelled uncancelled accepted requests, ?_, ?_⟩
  · intro diagnostic member
    obtain ⟨pairing, merged, reported⟩ := mem_output_diagnostics.mp member
    rcases List.mem_append.mp reported with problem | failure
    · obtain ⟨violation, _, copied⟩ := List.mem_flatMap.mp problem
      rw [code_of_mem_atEach copied]
      exact violation.code_ne
    · unfold Pairing.failures at failure
      split at failure
      · rename_i eligible
        obtain ⟨plan, planned⟩ :=
          Pairing.planUpTo_conformant conformant (List.isEmpty_iff.mp eligible)
        rw [planned] at failure
        cases failure
      · cases failure
  · intro pairing merged eligible
    obtain ⟨plan, planned⟩ := Pairing.planUpTo_conformant conformant eligible
    refine ⟨⟨plan, planned⟩, ?_⟩
    have served : pairing.served catalog settings.providerBase = some plan := by
      rw [Pairing.served, eligible, planned]
      rfl
    obtain ⟨artifact, inside⟩ := mem_written merged served
    refine ⟨artifact, ?_, inside⟩
    rw [output_artifacts]
    exact List.mem_append_left _ (List.mem_map_of_mem inside)

/-- The base with all hooks, a provider that overrides one of them, and one that derives from it. -/
def layeredCatalog : Catalog :=
  let base := TypeRef.named "global::Decorgen.Runtime.BehaviorProvider" "BehaviorProvider"
  let tracing := TypeRef.named "global::App.Tracing" "Tracing"
  let count := MethodDecl.plain "Count" (some (.named "global::System.Int32" "Int32")) []
  ⟨[.standardProvider base,
    { TypeDef.bare tracing .classType with
      baseType := some base, methods := [.ofHook .processVoid] },
    { TypeDef.bare (.named "global::App.Auditing" "Auditing") .classType with
      baseType := some tracing, constructors := [[]] },
    { TypeDef.bare (.named "global::App.IStore" "IStore") .interface with methods := [count] }]⟩

def layeredRequest : Request :=
  .forAll (.named "global::App.IStore" "IStore") (.named "global::App.Auditing" "Auditing")

theorem conformant_layered : layeredCatalog.Conformant ({} : Settings).providerBase := by
  refine ⟨.standardProvider (.named ({} : Settings).providerBase "BehaviorProvider"), rfl, ?_⟩
  intro kind
  exact ⟨.ofHook kind, List.mem_map_of_mem (HookTable.mem_all kind), rfl⟩

theorem run_layered : ∃ output,
    run (.steady 2 false) layeredCatalog {} [layeredRequest] = .ok output ∧
    (∀ diagnostic ∈ output.diagnostics, diagnostic.code ≠ Diagnostic.unresolvedHook) ∧
    (Pairing.ofRequest layeredRequest).problems layeredCatalog ({} : Settings).providerBase = [] ∧
    ∃ artifact ∈ output.artifacts, (layeredRequest.types, artifact) ∈
      written layeredCatalog {} [layeredRequest] := by
  have uncancelled (point : Checkpoint) :
      (Environment.steady 2 false).cancelled point = false := rfl
  obtain ⟨output, succeeds, hooked, proxied⟩ :=
    @run_conformant _ _ _ [layeredRequest] uncancelled Settings.check_default conformant_layered
  have eligible : (Pairing.ofRequest layeredRequest).problems layeredCatalog
      ({} : Settings).providerBase = [] := by decide +kernel
  exact ⟨output, succeeds, hooked, eligible,
    (proxied (.ofRequest layeredRequest) List.mem_cons_self eligible).2⟩

end Pass

end Interpose
