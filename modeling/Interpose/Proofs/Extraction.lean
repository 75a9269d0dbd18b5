import Interpose.Proofs.Firsts
import Interpose.Proofs.Planning

/-!
# Extraction

A plan holds the surface of its contract's closure: the first property and the first method of each
key, in the order of the closure, and nothing else. No key is lost and none comes twice:
`plan_exact`.
-/

namespace Interpose

/-- Some accessor, a getter before a setter, and one kind of setter at most. -/
structure Property.Sound (property : Property) : Prop where
  accessible : property.accessors ≠ []
  getterFirst : .get ∈ property.accessors → property.accessors.head? = some .get
  oneSetter : ¬ (.set ∈ property.accessors ∧ .init ∈ property.accessors)

theorem Property.sound_ofAccessors? {contract type : TypeRef} {name : String}
    {accessors : List Accessor} {property : Property}
    (made : ofAccessors? contract name type accessors = some property) : property.Sound := by
  obtain ⟨allowed, same⟩ := Option.ite_none_left_eq_some.mp made
  obtain rfl := Option.some.inj same
  rw [Bool.or_eq_true, Bool.and_eq_true, not_or, List.contains_iff_mem, List.contains_iff_mem,
    List.isEmpty_iff] at allowed
  constructor
  · obtain ⟨accessor, member⟩ := List.exists_mem_of_ne_nil _ allowed.1
    refine List.ne_nil_of_mem (List.mem_filter.mpr ⟨?_, List.contains_iff_mem.mpr member⟩)
    cases accessor <;> decide
  · intro readable
    exact congrArg List.head? (List.filter_cons_of_pos (List.mem_filter.mp readable).2)
  · rintro ⟨setter, initializer⟩
    exact allowed.2 ⟨List.contains_iff_mem.mp (List.mem_filter.mp setter).2,
      List.contains_iff_mem.mp (List.mem_filter.mp initializer).2⟩

namespace Surface

variable {table : HookTable} {properties : List Property} {closure : List TypeDef}

/-! ### What a closure declares -/

/-- The members that the definitions of a closure declare, in order, each with its definition. -/
def declared {α : Type} (members : TypeDef → List α) (closure : List TypeDef) :
    List (TypeDef × α) :=
  closure.flatMap fun type => (members type).map (type, ·)

def Accessible (decl : TypeDef × PropertyDecl) : Prop :=
  decl.2.isStatic = false ∧ (decl.2.hasGetter = true ∨ decl.2.setter ≠ .absent)

instance (decl : TypeDef × PropertyDecl) : Decidable (Accessible decl) :=
  inferInstanceAs (Decidable (_ ∧ _))

def accessible (closure : List TypeDef) : List (TypeDef × PropertyDecl) :=
  (declared TypeDef.properties closure).filter (Accessible ·)

/-- An instance method that is no accessor of a property which the same definition declares and the
surface holds. -/
def Callable (properties : List Property) (decl : TypeDef × MethodDecl) : Prop :=
  decl.2.isStatic = false ∧ ∀ property ∈ properties,
    property.contract.fullName = decl.1.name → decl.2.accessorOf ≠ some property.name

instance (properties : List Property) (decl : TypeDef × MethodDecl) :
    Decidable (Callable properties decl) :=
  inferInstanceAs (Decidable (_ ∧ _))

def callable (properties : List Property) (closure : List TypeDef) : List (TypeDef × MethodDecl) :=
  (declared TypeDef.methods closure).filter (Callable properties ·)

def declKey (decl : TypeDef × PropertyDecl) : String × String := (decl.1.name, decl.2.name)

def signature (decl : TypeDef × MethodDecl) : MethodKey where
  contract := decl.1.name
  name := decl.2.name
  typeParameterCount := decl.2.typeParameters.length
  parameters := decl.2.parameters.map fun parameter => (parameter.type.fullName, parameter.mode)

structure Describes (decl : TypeDef × PropertyDecl) (property : Property) : Prop where
  contract : property.contract = decl.1.reference
  name : property.name = decl.2.name
  type : property.type = decl.2.type
  accessors : property.accessors = accessors decl.2

/-- A method is a declaration with the shape of its return type and the table's hook for it. -/
structure Binds (table : HookTable) (decl : TypeDef × MethodDecl) (method : Method) : Prop where
  contract : method.contract = decl.1.reference
  name : method.name = decl.2.name
  returnType : method.returnType = decl.2.returnType
  typeParameters : method.typeParameters = decl.2.typeParameters
  parameters : method.parameters = decl.2.parameters
  shape : method.shape = ReturnShape.classify decl.2.returnType
  hook : table.selector method.shape.hookKind = .ok method.hook

theorem Describes.key {decl : TypeDef × PropertyDecl} {property : Property}
    (describes : Describes decl property) : declKey decl = propertyKey property := by
  rw [propertyKey, describes.contract, describes.name]
  rfl

theorem Binds.key {decl : TypeDef × MethodDecl} {method : Method}
    (binds : Binds table decl method) : signature decl = method.key := by
  rw [Method.key, binds.contract, binds.name, binds.typeParameters, binds.parameters]
  rfl

theorem ofAccessors?_accessors (type : TypeDef) (property : PropertyDecl) :
    Property.ofAccessors? type.reference property.name property.type (accessors property) =
      if property.hasGetter = true ∨ property.setter ≠ .absent then
        some ⟨type.reference, property.name, property.type, accessors property⟩
      else none := by
  cases getter : property.hasGetter <;> cases setter : property.setter <;>
    simp [Property.ofAccessors?, accessors, getter, setter]

theorem propertiesOf_describes (type : TypeDef) :
    List.Forall₂ Describes ((type.properties.map (type, ·)).filter (Accessible ·))
      (propertiesOf type) := by
  unfold propertiesOf
  induction type.properties with
  | nil => exact .nil
  | cons property rest ih =>
    have made := ofAccessors?_accessors type property
    cases static : property.isStatic with
    | true =>
      have hidden : ¬ Accessible (type, property) := by simp [Accessible, static]
      rw [List.map_cons, List.filter_cons_of_neg (by simpa using hidden),
        List.filter_cons_of_neg (by simp [static])]
      exact ih
    | false =>
      rw [List.map_cons, List.filter_cons, List.filter_cons_of_pos (by simp [static])]
      by_cases accessed : property.hasGetter = true ∨ property.setter ≠ .absent
      · rw [if_pos (decide_eq_true ⟨static, accessed⟩), List.filterMap_cons, made, if_pos accessed]
        exact .cons ⟨rfl, rfl, rfl, rfl⟩ ih
      · rw [if_neg (mt of_decide_eq_true fun visible => accessed visible.2),
          List.filterMap_cons, made, if_neg accessed]
        exact ih

theorem bind_binds {decl : TypeDef × MethodDecl} {method : Method}
    (bound : bind table decl = .ok method) : Binds table decl method := by
  obtain ⟨type, declaration⟩ := decl
  unfold bind at bound
  dsimp only at bound
  cases selected : table.selector (ReturnShape.classify declaration.returnType).hookKind with
  | error problem =>
    rw [selected] at bound
    cases bound
  | ok hook =>
    rw [selected] at bound
    cases bound
    exact ⟨rfl, rfl, rfl, rfl, rfl, rfl, selected⟩

theorem isAccessor_iff {type : TypeDef} {method : MethodDecl} :
    isAccessor properties type method = true ↔ ∃ property ∈ properties,
      property.contract.fullName = type.name ∧ method.accessorOf = some property.name := by
  unfold isAccessor
  cases method.accessorOf with
  | none => simp
  | some name => simp [propertyKey, eq_comm (a := name)]

theorem methodDecls_eq (properties : List Property) (type : TypeDef) :
    methodDecls properties type =
      (type.methods.map (type, ·)).filter (Callable properties ·) := by
  rw [methodDecls, List.filter_map]
  refine congrArg _ (List.filter_congr fun method _ => ?_)
  rw [Bool.eq_iff_iff, Function.comp_apply, decide_eq_true_iff, Bool.and_eq_true,
    Bool.not_eq_true', Bool.not_eq_true', ← Bool.not_eq_true (isAccessor _ _ _), isAccessor_iff]
  simp [Callable]

theorem flatMap_propertiesOf (closure : List TypeDef) :
    List.Forall₂ Describes (accessible closure) (closure.flatMap propertiesOf) := by
  rw [accessible, declared, List.filter_flatMap]
  induction closure with
  | nil => exact .nil
  | cons type rest ih => exact List.rel_append (propertiesOf_describes type) ih

theorem flatMap_methodDecls (properties : List Property) (closure : List TypeDef) :
    closure.flatMap (methodDecls properties) = callable properties closure := by
  rw [callable, declared, List.filter_flatMap]
  exact List.flatMap_congr fun type _ => methodDecls_eq properties type

theorem properties_keepsFirst (closure : List TypeDef) :
    KeepsFirst Describes declKey propertyKey (accessible closure) (Surface.properties closure) :=
  keepsFirst (fun _ _ describes => describes.key) (flatMap_propertiesOf closure)

/-- All declarations are bound before any is dropped, but a key does not depend on the hook. -/
theorem methods_keepsFirst {methods : List Method}
    (made : Surface.methods table properties closure = .ok methods) :
    KeepsFirst (Binds table) signature Method.key (callable properties closure) methods := by
  unfold Surface.methods at made
  rw [flatMap_methodDecls] at made
  cases bound : (callable properties closure).mapM (bind table) with
  | error problem =>
    rw [bound] at made
    cases made
  | ok all =>
    rw [bound] at made
    cases made
    exact keepsFirst (fun _ _ binds => binds.key)
      ((mapM_eq_ok bound).imp fun _ _ => bind_binds)

theorem sound_of_mem_properties {property : Property}
    (member : property ∈ Surface.properties closure) : property.Sound := by
  have listed := (firstByKey_sublist propertyKey [] _).subset member
  obtain ⟨type, _, inside⟩ := List.mem_flatMap.mp listed
  obtain ⟨decl, _, made⟩ := List.mem_filterMap.mp inside
  exact Property.sound_ofAccessors? made

/-- The members of a plan are the surface of a closure, no more and no less. -/
structure Exact (table : HookTable) (closure : List TypeDef) (plan : ProxyPlan) : Prop where
  properties : KeepsFirst Describes declKey propertyKey (accessible closure) plan.properties
  sound : ∀ property ∈ plan.properties, property.Sound
  methods : KeepsFirst (Binds table) signature Method.key (callable plan.properties closure)
    plan.methods
  propertiesApart : ∀ one ∈ accessible closure, ∀ two ∈ accessible closure,
    one.1.name ≠ two.1.name → ∃ first ∈ plan.properties, ∃ second ∈ plan.properties,
      first ≠ second ∧ propertyKey first = declKey one ∧ propertyKey second = declKey two
  methodsApart : ∀ one ∈ callable plan.properties closure,
    ∀ two ∈ callable plan.properties closure, one.1.name ≠ two.1.name →
      ∃ first ∈ plan.methods, ∃ second ∈ plan.methods,
        first ≠ second ∧ first.key = signature one ∧ second.key = signature two

end Surface

namespace Pairing

theorem plan_exact {catalog : Catalog} {table : HookTable} {pairing : Pairing} {plan : ProxyPlan}
    (planned : pairing.plan catalog table = .ok plan) :
    ∃ contract, catalog.resolve pairing.contract.fullName = some contract ∧
      Surface.Exact table (catalog.closure contract) plan := by
  obtain ⟨contract, _, _, _, _, found, _, _, made, rfl⟩ := plan_eq_ok planned
  have properties := Surface.properties_keepsFirst (catalog.closure contract)
  have bound := Surface.methods_keepsFirst made
  refine ⟨contract, found, properties,
    fun _ => Surface.sound_of_mem_properties, bound, fun one first two second differ => ?_,
    fun one first two second differ => ?_⟩
  · exact properties.apart first second fun same => differ (Prod.mk.inj same).1
  · exact bound.apart first second fun same => differ (congrArg MethodKey.contract same)

def shelfReference (name : String) : TypeRef := .named ("global::App." ++ name) name

def shelfProvider : TypeDef := .standardProvider (shelfReference "Auditor")

/-- A shelf reads and writes, and both ways lead to what is counted. Some members are static, are
accessors, are declared again or have the name of a member of another interface. -/
def shelfCatalog : Catalog :=
  let interface (name : String) (inherited : List String) : TypeDef :=
    { TypeDef.bare (shelfReference name) .interface with
      interfaces := inherited.map shelfReference }
  let put (mode : PassMode) : MethodDecl :=
    .plain "Put" none [⟨"item", shelfReference "Item", mode⟩]
  let counter (isStatic : Bool) : PropertyDecl :=
    ⟨"Size", shelfReference "Number", true, .set, isStatic⟩
  let getter : MethodDecl :=
    { MethodDecl.plain "get_Size" (some (shelfReference "Number")) [] with
      accessorOf := some "Size" }
  ⟨[{ interface "IShelf" ["IReader", "IWriter"] with
      methods := [put .byValue, put .byRef, put .byValue, { put .byOut with isStatic := true }] },
    { interface "IReader" ["ICounted"] with
      properties := [⟨"Hidden", shelfReference "Number", false, .absent, false⟩, counter true]
      methods := [getter] },
    { interface "IWriter" ["ICounted"] with
      properties := [counter false, counter false], methods := [put .byValue, getter] },
    { interface "ICounted" [] with properties := [counter false], methods := [getter] },
    shelfProvider]⟩

def shelfTable : HookTable := .build shelfCatalog shelfProvider shelfProvider.name

def shelfPairing : Pairing := ⟨shelfReference "IShelf", shelfReference "Auditor", [], none⟩

theorem plan_shelf : ∃ plan contract, shelfPairing.plan shelfCatalog shelfTable = .ok plan ∧
    plan.properties.map (fun property => (property.contract.shortName, property.name)) =
      [("ICounted", "Size"), ("IWriter", "Size")] ∧
    plan.methods.map (fun method => (method.contract.shortName, method.name, method.hook)) =
      [("IShelf", "Put", "Process"), ("IShelf", "Put", "Process"),
        ("IReader", "get_Size", "ProcessWithReturnType"), ("IWriter", "Put", "Process")] ∧
    shelfCatalog.resolve shelfPairing.contract.fullName = some contract ∧
    Surface.Exact shelfTable (shelfCatalog.closure contract) plan := by
  have members : (shelfPairing.plan shelfCatalog shelfTable).toOption.map (fun plan =>
      (plan.properties.map (fun property => (property.contract.shortName, property.name)),
        plan.methods.map fun method => (method.contract.shortName, method.name, method.hook))) =
      some ([("ICounted", "Size"), ("IWriter", "Size")],
        [("IShelf", "Put", "Process"), ("IShelf", "Put", "Process"),
          ("IReader", "get_Size", "ProcessWithReturnType"), ("IWriter", "Put", "Process")]) := by
    decide +kernel
  cases planned : shelfPairing.plan shelfCatalog shelfTable with
  | error problem =>
    rw [planned] at members
    cases members
  | ok plan =>
    rw [planned] at members
    obtain ⟨contract, found, exact⟩ := plan_exact planned
    obtain ⟨properties, methods⟩ := Prod.mk.inj (Option.some.inj members)
    exact ⟨plan, contract, rfl, properties, methods, found, exact⟩

end Pairing

end Interpose
