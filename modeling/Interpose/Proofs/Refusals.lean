import Interpose.Proofs.Extraction
import Interpose.Proofs.NearestHooks

/-!
# Refusals

A pairing has no plan where a type is unknown, where the provider has no constructor, or where a
method that the proxy forwards needs a hook that the table lacks. The first of these is the reason
given, and no other hook of the table matters: `plan_refuses`.
-/

namespace Interpose

namespace HookTable

def Offers (table : HookTable) (kind : HookKind) : Prop :=
  ∃ hook ∈ table.overrides, hook.kind = kind

instance (table : HookTable) (kind : HookKind) : Decidable (table.Offers kind) :=
  inferInstanceAs (Decidable (∃ hook ∈ table.overrides, _))

/-- The table without its overrides of one kind. -/
def without (table : HookTable) (kind : HookKind) : HookTable :=
  { table with overrides := table.overrides.filter (·.kind ≠ kind) }

end HookTable

namespace Surface

/-- An instance method that is no accessor of a property which its own definition declares and the
surface holds. -/
def Forwarded (decl : TypeDef × MethodDecl) : Prop :=
  decl.2.isStatic = false ∧ ∀ property ∈ decl.1.properties, Accessible (decl.1, property) →
    decl.2.accessorOf ≠ some property.name

instance (decl : TypeDef × MethodDecl) : Decidable (Forwarded decl) :=
  inferInstanceAs (Decidable (_ ∧ _))

def forwarded (order : List TypeDef) : List (TypeDef × MethodDecl) :=
  (declared TypeDef.methods order).filter (Forwarded ·)

def neededHook (decl : TypeDef × MethodDecl) : HookKind :=
  (ReturnShape.classify decl.2.returnType).hookKind

end Surface

namespace Pairing

/-- The methods that the proxy of a pairing forwards, those of its contract's definitions in
preorder. -/
def Forwards (catalog : Catalog) (pairing : Pairing) (methods : List (TypeDef × MethodDecl)) :
    Prop :=
  ∃ contract order, catalog.resolve pairing.contract.fullName = some contract ∧
    catalog.Visits Catalog.interfaceNames [] [contract] order ∧ methods = Surface.forwarded order

/-- The reasons for which a pairing has no plan. Each holds only where those before it do not. -/
inductive Refused (catalog : Catalog) (table : HookTable) (pairing : Pairing) : PlanError → Prop
  | contract (missing : catalog.resolve pairing.contract.fullName = none) :
      Refused catalog table pairing (.unknownType pairing.contract.fullName)
  | provider {contract : TypeDef}
      (contractFound : catalog.resolve pairing.contract.fullName = some contract)
      (missing : catalog.resolve pairing.provider.fullName = none) :
      Refused catalog table pairing (.unknownType pairing.provider.fullName)
  | construction {contract provider : TypeDef}
      (contractFound : catalog.resolve pairing.contract.fullName = some contract)
      (providerFound : catalog.resolve pairing.provider.fullName = some provider)
      (none : provider.constructors = []) :
      Refused catalog table pairing (.noConstructor pairing.provider.fullName)
  | hook {provider : TypeDef} {before after : List (TypeDef × MethodDecl)}
      {decl : TypeDef × MethodDecl}
      (providerFound : catalog.resolve pairing.provider.fullName = some provider)
      (constructible : provider.constructors ≠ [])
      (forwards : pairing.Forwards catalog (before ++ decl :: after))
      (hooked : ∀ earlier ∈ before, table.Offers (Surface.neededHook earlier))
      (unhooked : ¬ table.Offers (Surface.neededHook decl)) :
      Refused catalog table pairing
        (.unresolvedHook table.provider.fullName (Surface.neededHook decl))

end Pairing

/-! ### Missing hooks -/

theorem HookTable.selector_eq_error {table : HookTable} {kind : HookKind} {problem : PlanError} :
    table.selector kind = .error problem ↔
      ¬ table.Offers kind ∧ problem = .unresolvedHook table.provider.fullName kind := by
  rw [selector, map_eq_error, resolve_eq_error, List.find?_eq_none]
  simp [Offers]

theorem HookTable.selector_without {table : HookTable} {kind needed : HookKind}
    (other : needed ≠ kind) : (table.without kind).selector needed = table.selector needed := by
  have same : (table.overrides.filter (·.kind ≠ kind)).find? (·.kind = needed) =
      table.overrides.find? (·.kind = needed) := by
    rw [List.find?_filter]
    congr 1
    funext hook
    simp only [decide_eq_true_eq]
    refine decide_eq_decide.mpr ⟨And.right, ?_⟩
    rintro rfl
    exact ⟨other, rfl⟩
  unfold selector resolve without
  rw [same]

namespace Surface

variable {table : HookTable} {decl : TypeDef × MethodDecl} {problem : PlanError}
variable {properties : List Property} {closure : List TypeDef}

theorem bind_eq_error : bind table decl = .error problem ↔ ¬ table.Offers (neededHook decl) ∧
    problem = .unresolvedHook table.provider.fullName (neededHook decl) :=
  map_eq_error.trans HookTable.selector_eq_error

theorem bind_ok_iff :
    (∃ method, bind table decl = .ok method) ↔ table.Offers (neededHook decl) := by
  constructor
  · rintro ⟨method, bound⟩
    by_contra missing
    rw [bind_eq_error.mpr ⟨missing, rfl⟩] at bound
    cases bound
  · intro offered
    cases bound : bind table decl with
    | error problem => exact absurd offered (bind_eq_error.mp bound).1
    | ok method => exact ⟨method, rfl⟩

theorem bind_without {kind : HookKind} (other : neededHook decl ≠ kind) :
    bind (table.without kind) decl = bind table decl := by
  obtain ⟨type, method⟩ := decl
  exact congrArg (Except.map _) (HookTable.selector_without other)

theorem methods_eq_error : Surface.methods table properties closure = .error problem ↔
    ∃ before decl after, callable properties closure = before ++ decl :: after ∧
      (∀ earlier ∈ before, table.Offers (neededHook earlier)) ∧
      ¬ table.Offers (neededHook decl) ∧
      problem = .unresolvedHook table.provider.fullName (neededHook decl) := by
  rw [Surface.methods, flatMap_methodDecls, map_eq_error, mapM_eq_error]
  simp only [bind_ok_iff, bind_eq_error]

/-! ### The forwarded methods -/

theorem mem_declared {α : Type} {members : TypeDef → List α} {decl : TypeDef × α} :
    decl ∈ declared members closure ↔ decl.1 ∈ closure ∧ decl.2 ∈ members decl.1 := by
  obtain ⟨type, element⟩ := decl
  simp [declared]

theorem mem_keys_properties {key : String × String} :
    key ∈ (Surface.properties closure).map propertyKey ↔
      key ∈ (accessible closure).map declKey := by
  have keys : (accessible closure).map declKey = (closure.flatMap propertiesOf).map propertyKey :=
    List.forall₂_eq_eq_eq ▸ List.forall₂_map_left_iff.mpr (List.forall₂_map_right_iff.mpr
      ((flatMap_propertiesOf closure).imp fun _ _ describes => describes.key))
  rw [Surface.properties, mem_keys_firstByKey, keys]
  exact and_iff_left List.not_mem_nil

/-- Where no two definitions have one name, a property of that name and contract is one of the
definition's own. -/
theorem callable_iff (once : (closure.map TypeDef.name).Nodup) (member : decl.1 ∈ closure) :
    Callable (Surface.properties closure) decl ↔ Forwarded decl := by
  refine and_congr_right fun _ => ⟨fun apart property declares accessed => ?_,
    fun apart property surfaced named => ?_⟩
  · have listed : declKey (decl.1, property) ∈ (accessible closure).map declKey :=
      List.mem_map_of_mem (List.mem_filter.mpr
        ⟨mem_declared.mpr ⟨member, declares⟩, decide_eq_true accessed⟩)
    obtain ⟨held, surfaced, same⟩ := List.mem_map.mp (mem_keys_properties.mpr listed)
    obtain ⟨contract, name⟩ := Prod.mk.inj same
    exact name ▸ apart held surfaced contract
  · obtain ⟨other, listed, same⟩ :=
      List.mem_map.mp (mem_keys_properties.mp (List.mem_map_of_mem surfaced))
    obtain ⟨contract, name⟩ := Prod.mk.inj same
    obtain ⟨declares, accessed⟩ := List.mem_filter.mp listed
    obtain ⟨inside, declares⟩ := mem_declared.mp declares
    have own : other.1 = decl.1 :=
      List.inj_on_of_nodup_map once inside member (contract.trans named)
    rw [← name]
    exact apart other.2 (own ▸ declares) (own ▸ of_decide_eq_true accessed)

theorem callable_properties (once : (closure.map TypeDef.name).Nodup) :
    callable (Surface.properties closure) closure = forwarded closure := by
  refine List.filter_congr fun decl member => ?_
  exact decide_eq_decide.mpr (callable_iff once (mem_declared.mp member).1)

end Surface

/-! ### Plans -/

namespace Pairing

variable {catalog : Catalog} {table : HookTable} {pairing : Pairing} {problem : PlanError}
variable {contract : TypeDef}

theorem forwards_iff (found : catalog.resolve pairing.contract.fullName = some contract)
    {methods : List (TypeDef × MethodDecl)} : pairing.Forwards catalog methods ↔
      Surface.callable (Surface.properties (catalog.closure contract))
        (catalog.closure contract) = methods := by
  have once : ((catalog.closure contract).map TypeDef.name).Nodup :=
    Catalog.walkFrom_nodup catalog Catalog.interfaceNames contract
  rw [Surface.callable_properties once]
  constructor
  · rintro ⟨other, order, again, visits, rfl⟩
    rw [found] at again
    cases again
    rw [visits.unique (Catalog.visits_walkFrom catalog Catalog.interfaceNames contract)]
    rfl
  · rintro rfl
    exact ⟨contract, _, found, Catalog.visits_walkFrom catalog Catalog.interfaceNames contract, rfl⟩

theorem plan_eq_error_iff :
    pairing.plan catalog table = .error problem ↔ Refused catalog table pairing problem := by
  constructor
  · intro failed
    cases contractFound : catalog.resolve pairing.contract.fullName with
    | none =>
      rw [plan_of_no_contract contractFound] at failed
      cases failed
      exact .contract contractFound
    | some contract =>
      cases providerFound : catalog.resolve pairing.provider.fullName with
      | none =>
        rw [plan_of_no_provider contractFound providerFound] at failed
        cases failed
        exact .provider contractFound providerFound
      | some provider =>
        rw [plan_of_found contractFound providerFound] at failed
        cases constructors : provider.constructors with
        | nil =>
          rw [constructors] at failed
          cases failed
          exact .construction contractFound providerFound constructors
        | cons parameters rest =>
          rw [constructors, map_eq_error, Surface.methods_eq_error] at failed
          obtain ⟨before, decl, after, split, hooked, unhooked, rfl⟩ := failed
          exact .hook providerFound (by simp [constructors])
            ((forwards_iff contractFound).mpr split) hooked unhooked
  · intro refused
    cases refused with
    | contract missing => exact plan_of_no_contract missing
    | provider contractFound missing => exact plan_of_no_provider contractFound missing
    | construction contractFound providerFound none =>
      rw [plan_of_found contractFound providerFound, none]
    | hook providerFound constructible forwards hooked unhooked =>
      obtain ⟨contract, _, contractFound, _⟩ := id forwards
      obtain ⟨parameters, rest, constructors⟩ := List.exists_cons_of_ne_nil constructible
      rw [plan_of_found contractFound providerFound, constructors, map_eq_error,
        Surface.methods_eq_error]
      exact ⟨_, _, _, (forwards_iff contractFound).mp forwards, hooked, unhooked, rfl⟩

theorem exists_first {α : Type} {p : α → Prop} [DecidablePred p] {xs : List α}
    (some : ∃ x ∈ xs, p x) : ∃ before x after, xs = before ++ x :: after ∧
      (∀ earlier ∈ before, ¬ p earlier) ∧ p x := by
  obtain ⟨x, first⟩ := Option.isSome_iff_exists.mp
    (List.find?_isSome (p := fun x => decide (p x)).mpr (by simpa using some))
  obtain ⟨holds, before, after, split, fails⟩ := List.find?_eq_some_iff_append.mp first
  exact ⟨before, x, after, split, by simpa using fails, by simpa using holds⟩

theorem exists_plan_eq_error_iff : (∃ problem, pairing.plan catalog table = .error problem) ↔
    catalog.resolve pairing.contract.fullName = none ∨
    catalog.resolve pairing.provider.fullName = none ∨
    (∃ provider, catalog.resolve pairing.provider.fullName = some provider ∧
      provider.constructors = []) ∨
    ∃ methods, pairing.Forwards catalog methods ∧
      ∃ decl ∈ methods, ¬ table.Offers (Surface.neededHook decl) := by
  simp only [plan_eq_error_iff]
  constructor
  · rintro ⟨_, refused⟩
    cases refused with
    | contract missing => exact .inl missing
    | provider _ missing => exact .inr (.inl missing)
    | construction _ found none => exact .inr (.inr (.inl ⟨_, found, none⟩))
    | hook _ _ forwards _ unhooked =>
      exact .inr (.inr (.inr ⟨_, forwards, _, by simp, unhooked⟩))
  · intro reason
    cases contractFound : catalog.resolve pairing.contract.fullName with
    | none => exact ⟨_, .contract contractFound⟩
    | some contract =>
      cases providerFound : catalog.resolve pairing.provider.fullName with
      | none => exact ⟨_, .provider contractFound providerFound⟩
      | some provider =>
        by_cases constructible : provider.constructors = []
        · exact ⟨_, .construction contractFound providerFound constructible⟩
        · have lacking : ∃ methods, pairing.Forwards catalog methods ∧
              ∃ decl ∈ methods, ¬ table.Offers (Surface.neededHook decl) := by
            simpa [contractFound, providerFound, constructible] using reason
          obtain ⟨methods, forwards, missing⟩ := lacking
          obtain ⟨before, decl, after, rfl, hooked, unhooked⟩ := exists_first missing
          exact ⟨_, .hook providerFound constructible forwards
            (fun earlier member => not_not.mp (hooked earlier member)) unhooked⟩

theorem plan_without {kind : HookKind} (unneeded : ∀ methods, pairing.Forwards catalog methods →
    ∀ decl ∈ methods, Surface.neededHook decl ≠ kind) :
    pairing.plan catalog (table.without kind) = pairing.plan catalog table := by
  cases contractFound : catalog.resolve pairing.contract.fullName with
  | none => rw [plan_of_no_contract contractFound, plan_of_no_contract contractFound]
  | some contract =>
    have same : Surface.methods (table.without kind)
        (Surface.properties (catalog.closure contract)) (catalog.closure contract) =
          Surface.methods table (Surface.properties (catalog.closure contract))
            (catalog.closure contract) := by
      unfold Surface.methods
      rw [Surface.flatMap_methodDecls]
      refine congrArg _ (mapM_congr_left fun decl member => ?_)
      exact Surface.bind_without
        (unneeded _ ((forwards_iff contractFound).mpr rfl) decl member)
    cases providerFound : catalog.resolve pairing.provider.fullName with
    | none =>
      rw [plan_of_no_provider contractFound providerFound,
        plan_of_no_provider contractFound providerFound]
    | some provider =>
      rw [plan_of_found contractFound providerFound, plan_of_found contractFound providerFound,
        same]

/-- A pairing has no plan exactly where a type is unknown, the provider has no constructor or a
forwarded method needs a hook that the table lacks. The reason given is the first of these. A kind
of hook that no forwarded method needs may as well be missing. -/
theorem plan_refuses (catalog : Catalog) (table : HookTable) (pairing : Pairing) :
    ((∃ problem, pairing.plan catalog table = .error problem) ↔
      catalog.resolve pairing.contract.fullName = none ∨
      catalog.resolve pairing.provider.fullName = none ∨
      (∃ provider, catalog.resolve pairing.provider.fullName = some provider ∧
        provider.constructors = []) ∨
      ∃ methods, pairing.Forwards catalog methods ∧
        ∃ decl ∈ methods, ¬ table.Offers (Surface.neededHook decl)) ∧
    (∀ problem, pairing.plan catalog table = .error problem ↔
      Refused catalog table pairing problem) ∧
    ∀ kind, (∀ methods, pairing.Forwards catalog methods →
        ∀ decl ∈ methods, Surface.neededHook decl ≠ kind) →
      pairing.plan catalog (table.without kind) = pairing.plan catalog table :=
  ⟨exists_plan_eq_error_iff, fun _ => plan_eq_error_iff, fun _ => plan_without⟩

/-- The shelf has methods without and with a plain result, so it misses the hook for these, but none
of those that may go on after they have returned. -/
theorem plan_refuses_shelf :
    shelfPairing.plan shelfCatalog (shelfTable.without .processValue) =
      .error (.unresolvedHook shelfProvider.name .processValue) ∧
    Refused shelfCatalog (shelfTable.without .processValue) shelfPairing
      (.unresolvedHook shelfProvider.name .processValue) ∧
    (∀ methods, shelfPairing.Forwards shelfCatalog methods →
      ∀ decl ∈ methods, Surface.neededHook decl ≠ .processAwaitable) ∧
    shelfPairing.plan shelfCatalog (shelfTable.without .processAwaitable) =
      shelfPairing.plan shelfCatalog shelfTable := by
  have reason : (match shelfPairing.plan shelfCatalog (shelfTable.without .processValue) with
      | .error problem => some problem
      | .ok _ => none) = some (.unresolvedHook shelfProvider.name .processValue) := by
    decide +kernel
  have failed : shelfPairing.plan shelfCatalog (shelfTable.without .processValue) =
      .error (.unresolvedHook shelfProvider.name .processValue) := by
    split at reason
    · rename_i problem fails
      rw [fails, Option.some.inj reason]
    · cases reason
  have unneeded : ∀ methods, shelfPairing.Forwards shelfCatalog methods →
      ∀ decl ∈ methods, Surface.neededHook decl ≠ .processAwaitable := by
    intro methods forwards
    obtain ⟨contract, _, found, _⟩ := id forwards
    rw [← (forwards_iff found).mp forwards]
    cases found
    decide +kernel
  exact ⟨failed, ((plan_refuses _ _ _).2.1 _).mp failed, unneeded,
    (plan_refuses _ _ _).2.2 _ unneeded⟩

end Pairing

end Interpose
