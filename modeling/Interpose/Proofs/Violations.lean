import Interpose.Proofs.BaseChains
import Interpose.Proofs.Extraction

/-!
# Violations

A pairing is eligible where it breaks no rule. Otherwise each rule that its contract breaks and then
each that its provider breaks is reported, once at every location: `problems_exact`.
-/

namespace Interpose

namespace Catalog

/-- From interface to interface, any number of times. -/
abbrev Inherits (catalog : Catalog) : TypeDef → TypeDef → Prop :=
  Relation.ReflTransGen fun type other =>
    ∃ reference ∈ type.interfaces, catalog.resolve reference.fullName = some other

theorem mem_closure_iff {catalog : Catalog} {contract type : TypeDef}
    (listed : catalog.resolve contract.name = some contract) :
    type ∈ catalog.closure contract ↔ catalog.Inherits contract type := by
  rw [closure, mem_walkFrom_iff listed]
  simp only [mem_followers, interfaceNames, List.mem_map, exists_exists_and_eq_and]

end Catalog

/-! ### Members -/

inductive Member where
  | event (name : String)
  | method (method : MethodDecl)

namespace Member

def ofType (type : TypeDef) : List Member :=
  type.events.map event ++ type.methods.map method

def isForwardable : Member → Bool
  | .event _ => false
  | .method decl => !decl.isVariadic

/-- The declarations of some definitions that no proxy can forward, in order. -/
def unforwardable (order : List TypeDef) : List (TypeDef × Member) :=
  (Surface.declared ofType order).filter fun decl => !decl.2.isForwardable

end Member

inductive Violation.Names : TypeDef × Member → Violation → Prop
  | event {type : TypeDef} {name : String} : Names (type, .event name) (.event type.name name)
  | method {type : TypeDef} {method : MethodDecl} :
      Names (type, .method method) (.variadic type.name method.name)

namespace Pairing

/-- The violation alone where the rule is broken, and nothing where it is kept. -/
def Flags (broken : Prop) (violation : Violation) (violations : List Violation) : Prop :=
  broken ∧ violations = [violation] ∨ ¬ broken ∧ violations = []

/-- What a contract breaks, in order. The definitions that an interface reaches are visited in
preorder, each once. -/
inductive ContractBreaks (catalog : Catalog) (contract : TypeRef) : List Violation → Prop
  | unknown (missing : catalog.resolve contract.fullName = none) :
      ContractBreaks catalog contract [.unknownContract contract.fullName]
  | otherKind {type : TypeDef} (found : catalog.resolve contract.fullName = some type)
      (kind : type.kind ≠ .interface) :
      ContractBreaks catalog contract [.notInterface contract.fullName]
  | interface {type : TypeDef} {order : List TypeDef} {openness members : List Violation}
      (found : catalog.resolve contract.fullName = some type) (kind : type.kind = .interface)
      (opens : Flags contract.isOpen (.openContract contract.fullName) openness)
      (visits : catalog.Visits Catalog.interfaceNames [] [type] order)
      (once : (order.map TypeDef.name).Nodup)
      (reached : ∀ other, other ∈ order ↔ catalog.Inherits type other)
      (named : List.Forall₂ Violation.Names (Member.unforwardable order) members) :
      ContractBreaks catalog contract (openness ++ members)

/-- What a provider breaks, in order. -/
inductive ProviderBreaks (catalog : Catalog) (base : String) (provider : TypeRef) :
    List Violation → Prop
  | unknown (missing : catalog.resolve provider.fullName = none) :
      ProviderBreaks catalog base provider [.unknownProvider provider.fullName]
  | known {type : TypeDef} {derivation construction : List Violation}
      (found : catalog.resolve provider.fullName = some type)
      (derives : Flags (¬ ∃ above, catalog.Climbs type above ∧ above.name = base)
        (.notDerived provider.fullName base) derivation)
      (constructs : Flags (type.constructors = []) (.noConstructor provider.fullName)
        construction) :
      ProviderBreaks catalog base provider (derivation ++ construction)

/-- The diagnostics of one violation after another, each with a copy for every location in order, or
a single copy without one. -/
structure Reported (locations : List Location) (violations : List Violation)
    (diagnostics : List Diagnostic) : Prop where
  length : diagnostics.length = violations.length * max 1 locations.length
  copies : ∀ index violation, violations[index]? = some violation →
    ∀ copy < max 1 locations.length, diagnostics[index * max 1 locations.length + copy]? =
      some ⟨.error, violation.code, violation.message, locations[copy]?⟩

/-- The contract is an interface with members that a proxy can forward, and the provider is a class
above the base that can be constructed. -/
structure Eligible (catalog : Catalog) (base : String) (pairing : Pairing) : Prop where
  contract : ∃ type, catalog.resolve pairing.contract.fullName = some type ∧
    type.kind = .interface ∧ ∀ other, catalog.Inherits type other →
      other.events = [] ∧ ∀ method ∈ other.methods, method.isVariadic = false
  closed : pairing.contract.isOpen = false
  provider : ∃ type, catalog.resolve pairing.provider.fullName = some type ∧
    type.constructors ≠ [] ∧ ∃ above, catalog.Climbs type above ∧ above.name = base

variable {catalog : Catalog} {base : String}

/-! ### Rules -/

theorem Flags.unique {broken : Prop} {violation : Violation} {one two : List Violation}
    (first : Flags broken violation one) (second : Flags broken violation two) : one = two := by
  rcases first with ⟨holds, rfl⟩ | ⟨fails, rfl⟩
  · exact (second.resolve_right fun other => other.1 holds).2.symm
  · exact (second.resolve_left fun other => fails other.1).2.symm

theorem flags_ite {broken : Prop} [Decidable broken] {violation : Violation} :
    Flags broken violation (if broken then [violation] else []) := by
  split
  · rename_i holds
    exact .inl ⟨holds, rfl⟩
  · rename_i fails
    exact .inr ⟨fails, rfl⟩

theorem unforwardable_cons (type : TypeDef) (rest : List TypeDef) :
    Member.unforwardable (type :: rest) =
      type.events.map (fun name => (type, .event name)) ++
        (type.methods.filter (·.isVariadic)).map (fun method => (type, .method method)) ++
          Member.unforwardable rest := by
  simp [Member.unforwardable, Surface.declared, Member.ofType, List.filter_map,
    Function.comp_def, Member.isForwardable]

theorem names_memberViolations (order : List TypeDef) :
    List.Forall₂ Violation.Names (Member.unforwardable order)
      (order.flatMap memberViolations) := by
  induction order with
  | nil => exact .nil
  | cons type rest ih =>
    rw [unforwardable_cons, List.flatMap_cons, memberViolations]
    refine List.rel_append (List.rel_append ?_ ?_) ih
    · simp only [List.forall₂_map_left_iff, List.forall₂_map_right_iff, List.forall₂_same]
      exact fun _ _ => .event
    · simp only [List.forall₂_map_left_iff, List.forall₂_map_right_iff, List.forall₂_same]
      exact fun _ _ => .method

theorem names_unique : Relator.RightUnique Violation.Names := by
  rintro _ _ _ first second
  cases first <;> cases second <;> rfl

theorem contractBreaks_iff {contract : TypeRef} {violations : List Violation} :
    ContractBreaks catalog contract violations ↔
      violations = contractViolations catalog contract := by
  constructor
  · intro breaks
    unfold contractViolations
    cases breaks with
    | unknown missing => rw [missing]
    | otherKind found kind => simp only [found, if_pos kind]
    | interface found kind opens visits _ _ named =>
      obtain rfl := opens.unique flags_ite
      obtain rfl := visits.unique (Catalog.visits_walkFrom catalog Catalog.interfaceNames _)
      obtain rfl := List.right_unique_forall₂' names_unique named (names_memberViolations _)
      simp only [found, kind, ne_eq, not_true_eq_false, if_false, Catalog.closure]
  · rintro rfl
    unfold contractViolations
    split
    · rename_i missing
      exact .unknown missing
    · rename_i type found
      have listed : catalog.resolve type.name = some type :=
        (Catalog.resolve_eq_some found).2 ▸ found
      split
      · rename_i kind
        exact .otherKind found kind
      · rename_i kind
        exact .interface found (not_not.mp kind) flags_ite
          (Catalog.visits_walkFrom catalog Catalog.interfaceNames type)
          (Catalog.walkFrom_nodup catalog Catalog.interfaceNames type)
          (fun _ => Catalog.mem_closure_iff listed) (names_memberViolations _)

theorem providerBreaks_iff {provider : TypeRef} {violations : List Violation} :
    ProviderBreaks catalog base provider violations ↔
      violations = providerViolations catalog base provider := by
  have derivation {type : TypeDef} (listed : catalog.resolve type.name = some type) :
      Flags (¬ ∃ above, catalog.Climbs type above ∧ above.name = base)
        (.notDerived provider.fullName base)
        (if catalog.derivesFrom type base then [] else [.notDerived provider.fullName base]) := by
    rw [← Catalog.derivesFrom_iff listed, ← ite_not]
    exact flags_ite
  have construction {type : TypeDef} : Flags (type.constructors = [])
      (.noConstructor provider.fullName)
      (if type.constructors.isEmpty then [.noConstructor provider.fullName] else []) := by
    simp only [List.isEmpty_iff]
    exact flags_ite
  constructor
  · intro breaks
    unfold providerViolations
    cases breaks with
    | unknown missing => rw [missing]
    | known found derives constructs =>
      obtain rfl := derives.unique (derivation ((Catalog.resolve_eq_some found).2 ▸ found))
      obtain rfl := constructs.unique construction
      rw [found]
  · rintro rfl
    unfold providerViolations
    split
    · rename_i missing
      exact .unknown missing
    · rename_i type found
      exact .known found (derivation ((Catalog.resolve_eq_some found).2 ▸ found)) construction

/-! ### Reports -/

theorem atEach_length (diagnostic : Diagnostic) (locations : List Location) :
    (diagnostic.atEach locations).length = max 1 locations.length := by
  cases locations with
  | nil => rfl
  | cons first rest => simp [Diagnostic.atEach]

theorem getElem?_atEach {diagnostic : Diagnostic} (unplaced : diagnostic.location = none)
    {locations : List Location} {copy : Nat} (within : copy < max 1 locations.length) :
    (diagnostic.atEach locations)[copy]? =
      some { diagnostic with location := locations[copy]? } := by
  cases locations with
  | nil =>
    obtain rfl : copy = 0 := by simpa using within
    rw [List.getElem?_nil, ← unplaced]
    rfl
  | cons first rest =>
    have inside : copy < (first :: rest).length := by simpa using within
    rw [Diagnostic.atEach, if_neg (by simp), List.getElem?_map, List.getElem?_eq_getElem inside]
    rfl

theorem getElem?_flatMap_uniform {α β : Type} {work : α → List β} {size : Nat}
    (uniform : ∀ x, (work x).length = size) {xs : List α} {index : Nat} {x : α}
    (at_index : xs[index]? = some x) {offset : Nat} (within : offset < size) :
    (xs.flatMap work)[index * size + offset]? = (work x)[offset]? := by
  induction xs generalizing index with
  | nil => cases at_index
  | cons head rest ih =>
    rw [List.flatMap_cons]
    cases index with
    | zero =>
      obtain rfl := Option.some.inj at_index
      rw [Nat.zero_mul, Nat.zero_add, List.getElem?_append_left (uniform head ▸ within)]
    | succ index =>
      have behind : (index + 1) * size + offset = (work head).length + (index * size + offset) := by
        rw [uniform, Nat.succ_mul]
        omega
      rw [behind, List.getElem?_append_right (Nat.le_add_right _ _), Nat.add_sub_cancel_left]
      exact ih at_index

theorem reported_problems (pairing : Pairing) :
    Reported pairing.locations (pairing.violations catalog base)
      (pairing.problems catalog base) where
  length := by simp [problems, List.length_flatMap, atEach_length]
  copies index violation at_index copy within := by
    have uniform (violation : Violation) :
        (violation.diagnostic.atEach pairing.locations).length =
          max 1 pairing.locations.length := atEach_length _ _
    rw [problems, getElem?_flatMap_uniform uniform at_index within, getElem?_atEach rfl within]
    rfl

/-! ### Eligibility -/

theorem contractViolations_eq_nil {contract : TypeRef} :
    contractViolations catalog contract = [] ↔ contract.isOpen = false ∧
      ∃ type, catalog.resolve contract.fullName = some type ∧ type.kind = .interface ∧
        ∀ other, catalog.Inherits type other →
          other.events = [] ∧ ∀ method ∈ other.methods, method.isVariadic = false := by
  unfold contractViolations
  cases found : catalog.resolve contract.fullName with
  | none => simp
  | some type =>
    have listed : catalog.resolve type.name = some type :=
      (Catalog.resolve_eq_some found).2 ▸ found
    by_cases kind : type.kind = .interface
    · simp [kind, memberViolations, Catalog.mem_closure_iff listed]
    · simp [kind]

theorem providerViolations_eq_nil {provider : TypeRef} :
    providerViolations catalog base provider = [] ↔
      ∃ type, catalog.resolve provider.fullName = some type ∧ type.constructors ≠ [] ∧
        ∃ above, catalog.Climbs type above ∧ above.name = base := by
  unfold providerViolations
  cases found : catalog.resolve provider.fullName with
  | none => simp
  | some type =>
    have listed : catalog.resolve type.name = some type :=
      (Catalog.resolve_eq_some found).2 ▸ found
    simp only [List.append_eq_nil_iff, Option.some.injEq, exists_eq_left',
      ← Catalog.derivesFrom_iff listed]
    simp [and_comm]

theorem problems_eq_nil_iff {pairing : Pairing} :
    pairing.problems catalog base = [] ↔ pairing.Eligible catalog base := by
  rw [problems_eq_nil, violations, List.append_eq_nil_iff, contractViolations_eq_nil,
    providerViolations_eq_nil]
  constructor
  · rintro ⟨⟨closed, contract⟩, provider⟩
    exact ⟨contract, closed, provider⟩
  · rintro ⟨contract, closed, provider⟩
    exact ⟨⟨closed, contract⟩, provider⟩

/-- No problem is found exactly where a pairing is eligible. Otherwise all that its contract breaks is
reported before all that its provider breaks. -/
theorem problems_exact (catalog : Catalog) (base : String) (pairing : Pairing) :
    (pairing.problems catalog base = [] ↔ pairing.Eligible catalog base) ∧
      ∃ contracts providers,
        (∀ other, ContractBreaks catalog pairing.contract other ↔ other = contracts) ∧
        (∀ other, ProviderBreaks catalog base pairing.provider other ↔ other = providers) ∧
        Reported pairing.locations (contracts ++ providers) (pairing.problems catalog base) :=
  ⟨problems_eq_nil_iff, _, _, fun _ => contractBreaks_iff, fun _ => providerBreaks_iff,
    reported_problems pairing⟩

end Pairing

end Interpose
