import Interpose.Pass
import Interpose.Proofs.Outcomes
import Interpose.Proofs.Walks

/-!
# Planning

A plan is for the types of its pairing, with the members that the pairing allows and the parameters
of a constructor of the catalog. The simplest pairings have one: `planUpTo_memberless`.
-/

namespace Interpose

namespace Pairing

section

variable {catalog : Catalog} {table : HookTable} {pairing : Pairing}
variable {contract provider : TypeDef}

theorem plan_of_no_contract (missing : catalog.resolve pairing.contract.fullName = none) :
    pairing.plan catalog table = .error (.unknownType pairing.contract.fullName) := by
  simp only [plan, known, missing]
  rfl

theorem plan_of_no_provider
    (contractFound : catalog.resolve pairing.contract.fullName = some contract)
    (missing : catalog.resolve pairing.provider.fullName = none) :
    pairing.plan catalog table = .error (.unknownType pairing.provider.fullName) := by
  simp only [plan, known, contractFound, missing]
  rfl

theorem plan_of_found (contractFound : catalog.resolve pairing.contract.fullName = some contract)
    (providerFound : catalog.resolve pairing.provider.fullName = some provider) :
    pairing.plan catalog table =
      match provider.constructors with
      | [] => .error (.noConstructor pairing.provider.fullName)
      | parameters :: _ =>
        (Surface.methods table (Surface.properties (catalog.closure contract))
          (catalog.closure contract)).map fun methods =>
            ⟨pairing.contract, pairing.provider, parameters, methods,
              Surface.properties (catalog.closure contract), pairing.allowList⟩ := by
  simp only [plan, known, contractFound, providerFound, bind, Except.bind]
  cases provider.constructors with
  | nil => rfl
  | cons parameters rest =>
    dsimp only
    cases Surface.methods table (Surface.properties (catalog.closure contract))
      (catalog.closure contract) <;> rfl

theorem planUpTo_of_found
    (providerFound : catalog.resolve pairing.provider.fullName = some provider) (base : String) :
    pairing.planUpTo catalog base = pairing.plan catalog (.build catalog provider base) := by
  simp only [planUpTo, known, providerFound, bind, Except.bind]

end

theorem resolve_of_known {catalog : Catalog} {name : String} {type : TypeDef}
    (reached : known catalog name = .ok type) : catalog.resolve name = some type := by
  unfold known at reached
  split at reached
  · rename_i found
    cases reached
    exact found
  · cases reached

theorem plan_eq_ok {catalog : Catalog} {table : HookTable} {pairing : Pairing} {plan : ProxyPlan}
    (planned : pairing.plan catalog table = .ok plan) :
    ∃ contract provider parameters rest methods,
      catalog.resolve pairing.contract.fullName = some contract ∧
      catalog.resolve pairing.provider.fullName = some provider ∧
      provider.constructors = parameters :: rest ∧
      Surface.methods table (Surface.properties (catalog.closure contract))
        (catalog.closure contract) = .ok methods ∧
      plan = ⟨pairing.contract, pairing.provider, parameters, methods,
        Surface.properties (catalog.closure contract), pairing.allowList⟩ := by
  unfold Pairing.plan at planned
  obtain ⟨contract, contractReached, planned⟩ := bind_eq_ok planned
  obtain ⟨provider, providerReached, planned⟩ := bind_eq_ok planned
  cases constructors : provider.constructors with
  | nil =>
    rw [constructors] at planned
    cases planned
  | cons parameters rest =>
    rw [constructors] at planned
    obtain ⟨_, first, planned⟩ := bind_eq_ok planned
    obtain ⟨methods, made, planned⟩ := bind_eq_ok planned
    cases first
    cases planned
    exact ⟨contract, provider, parameters, rest, methods, resolve_of_known contractReached,
      resolve_of_known providerReached, constructors, made, rfl⟩

theorem plan_ok {catalog : Catalog} {table : HookTable} {pairing : Pairing} {plan : ProxyPlan}
    (planned : pairing.plan catalog table = .ok plan) :
    plan.contract = pairing.contract ∧ plan.provider = pairing.provider ∧
      plan.allowList = pairing.allowList ∧
      ∃ type ∈ catalog.types, plan.providerParameters ∈ type.constructors := by
  obtain ⟨_, provider, parameters, _, _, _, found, constructors, _, rfl⟩ := plan_eq_ok planned
  exact ⟨rfl, rfl, rfl, provider, (Catalog.resolve_eq_some found).1,
    constructors ▸ List.mem_cons_self⟩

theorem planUpTo_ok {catalog : Catalog} {base : String} {pairing : Pairing} {plan : ProxyPlan}
    (planned : pairing.planUpTo catalog base = .ok plan) :
    plan.contract = pairing.contract ∧ plan.provider = pairing.provider ∧
      plan.allowList = pairing.allowList ∧
      ∃ type ∈ catalog.types, plan.providerParameters ∈ type.constructors := by
  unfold planUpTo at planned
  obtain ⟨provider, _, planned⟩ := bind_eq_ok planned
  exact plan_ok planned

/-- However many locations a pairing has, each violation is reported. -/
theorem problems_eq_nil {catalog : Catalog} {base : String} {pairing : Pairing} :
    pairing.problems catalog base = [] ↔ pairing.violations catalog base = [] := by
  have reported (violation : Violation) :
      violation.diagnostic.atEach pairing.locations ≠ [] := by
    unfold Diagnostic.atEach
    split
    · exact List.cons_ne_nil _ _
    · rename_i located
      intro none
      exact located (List.isEmpty_iff.mpr (List.map_eq_nil_iff.mp none))
  rw [problems, List.flatMap_eq_nil_iff]
  constructor
  · intro silent
    exact List.eq_nil_iff_forall_not_mem.mpr fun violation member =>
      reported violation (silent violation member)
  · intro unbroken violation member
    rw [unbroken] at member
    exact absurd member List.not_mem_nil

end Pairing

/-! ### Contracts without members -/

namespace Catalog

variable {catalog : Catalog}

theorem closure_alone {contract : TypeDef} (alone : contract.interfaces = []) :
    catalog.closure contract = [contract] := by
  rw [closure, walkFrom, interfaceNames, alone, List.map_nil, walk]

theorem derivesFrom_base {type base : TypeDef} {reference : TypeRef}
    (derived : type.baseType = some reference) (apart : reference.fullName ≠ type.name)
    (found : catalog.resolve reference.fullName = some base) :
    catalog.derivesFrom type reference.fullName := by
  have named : base.name = reference.fullName := (resolve_eq_some found).2
  have names : baseNames type = [reference.fullName] := by simp [baseNames, derived]
  rw [derivesFrom, baseChain, walkFrom, names, walk_found (by simpa using apart) found]
  simp [named]

end Catalog

namespace Pairing

variable {catalog : Catalog} {pairing : Pairing} {contract provider base : TypeDef}

/-- An interface on its own. -/
structure Memberless (contract : TypeDef) : Prop where
  kind : contract.kind = .interface
  interfaces : contract.interfaces = []
  methods : contract.methods = []
  properties : contract.properties = []
  events : contract.events = []

theorem problems_memberless
    (contractFound : catalog.resolve pairing.contract.fullName = some contract)
    (memberless : Memberless contract) (closed : ¬ pairing.contract.isOpen)
    (providerFound : catalog.resolve pairing.provider.fullName = some provider)
    {reference : TypeRef} (derived : provider.baseType = some reference)
    (apart : reference.fullName ≠ provider.name)
    (baseFound : catalog.resolve reference.fullName = some base)
    (constructible : provider.constructors ≠ []) :
    pairing.problems catalog reference.fullName = [] := by
  have contracts : contractViolations catalog pairing.contract = [] := by
    simp [contractViolations, contractFound, memberless.kind, closed,
      Catalog.closure_alone memberless.interfaces, memberViolations, memberless.methods,
      memberless.events]
  have providers : providerViolations catalog reference.fullName pairing.provider = [] := by
    simp [providerViolations, providerFound, Catalog.derivesFrom_base derived apart baseFound,
      constructible]
  simp [problems, violations, contracts, providers]

theorem planUpTo_memberless
    (contractFound : catalog.resolve pairing.contract.fullName = some contract)
    (memberless : Memberless contract)
    (providerFound : catalog.resolve pairing.provider.fullName = some provider)
    {parameters : List Parameter} {rest : List (List Parameter)}
    (constructors : provider.constructors = parameters :: rest) (base : String) :
    pairing.planUpTo catalog base =
      .ok ⟨pairing.contract, pairing.provider, parameters, [], [], pairing.allowList⟩ := by
  rw [planUpTo_of_found providerFound, plan_of_found contractFound providerFound, constructors,
    Catalog.closure_alone memberless.interfaces]
  simp [Surface.properties, Surface.propertiesOf, Surface.methods, Surface.methodDecls,
    memberless.methods, memberless.properties, firstByKey, Except.map, pure, Except.pure]

end Pairing

end Interpose
