import Interpose.Proofs.Passes
import Interpose.Proofs.Registers

/-!
# Reachable names

A pass looks up the names that are requested and those that the interfaces and bases of what it
finds lead to, and no others. Catalogs that agree on these names serve it alike, so neither the
order of their definitions nor any other definition matters: `run_reachable`.
-/

namespace Interpose

namespace Catalog

/-- The names that some names lead to over interfaces and bases. -/
inductive Reaches (catalog : Catalog) (asked : List String) : String → Prop
  | asked {name : String} (member : name ∈ asked) : Reaches catalog asked name
  | interface {name : String} {type : TypeDef} {next : TypeRef}
      (reached : Reaches catalog asked name) (found : catalog.resolve name = some type)
      (inherits : next ∈ type.interfaces) : Reaches catalog asked next.fullName
  | base {name : String} {type : TypeDef} {next : TypeRef}
      (reached : Reaches catalog asked name) (found : catalog.resolve name = some type)
      (derives : type.baseType = some next) : Reaches catalog asked next.fullName

/-- Two catalogs give the same for every name that one comes to. -/
def AgreeOn (first second : Catalog) (asked : List String) : Prop :=
  ∀ name, first.Reaches asked name → first.resolve name = second.resolve name

/-- Names that lead to none but themselves are all that one comes to. -/
theorem Reaches.mem {catalog : Catalog} {asked names : List String} (begun : asked ⊆ names)
    (closed : ∀ name ∈ names, ∀ type ∈ catalog.resolve name,
      ∀ other ∈ interfaceNames type ++ baseNames type, other ∈ names)
    {name : String} (reached : catalog.Reaches asked name) : name ∈ names := by
  induction reached with
  | asked member => exact begun member
  | interface _ found inherits ih =>
    exact closed _ ih _ found _ (List.mem_append_left _ (List.mem_map_of_mem inherits))
  | base _ found derives ih =>
    exact closed _ ih _ found _ (List.mem_append_right _ (by simp [baseNames, derives]))

variable {first second : Catalog} {asked : List String}

/-! ### Walks -/

/-- A walk that stays among names on which two catalogs agree is the same in both. -/
theorem walk_congr {among : String → Prop} {next : TypeDef → List String}
    (agree : ∀ name, among name → first.resolve name = second.resolve name)
    (closed : ∀ name type, among name → first.resolve name = some type →
      ∀ other ∈ next type, among other)
    {seen pending : List String} (within : ∀ name ∈ pending, among name) :
    first.walk next seen pending = second.walk next seen pending := by
  fun_induction walk first next seen pending with
  | case1 => rw [walk]
  | case2 seen name rest visited ih =>
    rw [walk_seen visited, ih (List.forall_mem_cons.mp within).2]
  | case3 seen name rest fresh missing ih =>
    obtain ⟨here, others⟩ := List.forall_mem_cons.mp within
    rw [walk_missing (agree name here ▸ missing), ih others]
  | case4 seen name rest fresh type found ih =>
    obtain ⟨here, others⟩ := List.forall_mem_cons.mp within
    rw [walk_found fresh (agree name here ▸ found), ih]
    intro other member
    rcases List.mem_append.mp member with led | waiting
    · exact closed name type here found other led
    · exact others other waiting

variable (agree : first.AgreeOn second asked) {name : String} {type : TypeDef}
  (reached : first.Reaches asked name) (found : first.resolve name = some type)

include agree reached found

theorem closure_congr : first.closure type = second.closure type := by
  have closed : ∀ name type, first.Reaches asked name → first.resolve name = some type →
      ∀ other ∈ interfaceNames type, first.Reaches asked other := by
    intro name type reached found other member
    obtain ⟨next, inherits, rfl⟩ := List.mem_map.mp member
    exact .interface reached found inherits
  exact congrArg (type :: ·) (walk_congr agree closed (closed name type reached found))

theorem baseChain_congr : first.baseChain type = second.baseChain type := by
  have closed : ∀ name type, first.Reaches asked name → first.resolve name = some type →
      ∀ other ∈ baseNames type, first.Reaches asked other := by
    intro name type reached found other member
    obtain ⟨next, derives, rfl⟩ := Option.map_eq_some_iff.mp (Option.mem_toList.mp member)
    exact .base reached found derives
  exact congrArg (type :: ·) (walk_congr agree closed (closed name type reached found))

end Catalog

/-! ### Pairings -/

namespace Pairing

variable {first second : Catalog} {asked : List String} (agree : first.AgreeOn second asked)
  {pairing : Pairing} (contract : first.Reaches asked pairing.contract.fullName)
  (provider : first.Reaches asked pairing.provider.fullName)

include agree

include contract in
theorem contractViolations_congr :
    contractViolations first pairing.contract = contractViolations second pairing.contract := by
  unfold contractViolations
  rw [← agree _ contract]
  split
  · rfl
  · rename_i type found
    rw [Catalog.closure_congr agree contract found]

include provider in
theorem providerViolations_congr (base : String) :
    providerViolations first base pairing.provider =
      providerViolations second base pairing.provider := by
  unfold providerViolations
  rw [← agree _ provider]
  split
  · rfl
  · rename_i type found
    rw [Catalog.derivesFrom, Catalog.derivesFrom, Catalog.baseChain_congr agree provider found]

include contract provider in
theorem problems_congr (base : String) :
    pairing.problems first base = pairing.problems second base := by
  unfold problems violations
  rw [contractViolations_congr agree contract, providerViolations_congr agree provider]

include contract provider in
theorem planUpTo_congr (base : String) :
    pairing.planUpTo first base = pairing.planUpTo second base := by
  unfold planUpTo plan known
  rw [← agree _ contract, ← agree _ provider]
  cases providerFound : first.resolve pairing.provider.fullName with
  | none => rfl
  | some providerType =>
    cases contractFound : first.resolve pairing.contract.fullName with
    | none => rfl
    | some contractType =>
      have table : HookTable.build first providerType base =
          HookTable.build second providerType base := by
        rw [HookTable.build, HookTable.build, Catalog.baseChain_congr agree provider providerFound]
      dsimp only [bind, Except.bind]
      rw [table, Catalog.closure_congr agree contract contractFound]

end Pairing

/-! ### Passes -/

theorem Environment.walk_work_congr {environment : Environment} {α β : Type}
    {point : Nat → Checkpoint} {work other : α → β} {xs : List α}
    (same : ∀ x ∈ xs, work x = other x) :
    environment.walk point work xs = environment.walk point other xs := by
  refine mapM_congr_left ?_
  rintro ⟨x, index⟩ member
  change environment.guarded (point index) (work x) = environment.guarded (point index) (other x)
  rw [same x (List.fst_mem_of_mem_zipIdx member)]

/-- The names that requests ask for. -/
def Request.names (requests : List Request) : List String :=
  requests.flatMap fun request => [request.contract.fullName, request.provider.fullName]

theorem Pairing.names_of_mem_merge {requests : List Request} {pairing : Pairing}
    (merged : pairing ∈ merge requests) :
    pairing.contract.fullName ∈ Request.names requests ∧
      pairing.provider.fullName ∈ Request.names requests := by
  obtain ⟨request, asked, same⟩ :=
    List.mem_map.mp (mem_types_merge.mp (List.mem_map_of_mem (f := types) merged))
  obtain ⟨contract, provider⟩ := Prod.mk.inj same
  rw [← contract, ← provider]
  unfold Request.names
  constructor
  · exact List.mem_flatMap.mpr ⟨request, asked, List.mem_cons_self⟩
  · exact List.mem_flatMap.mpr ⟨request, asked, List.mem_cons_of_mem _ List.mem_cons_self⟩

namespace Pass

/-- A pass knows the catalog only through what it finds out about its pairings. -/
theorem run_congr {environment : Environment} {first second : Catalog} {settings : Settings}
    {requests : List Request}
    (problems : ∀ pairing ∈ Pairing.merge requests,
      pairing.problems first settings.providerBase = pairing.problems second settings.providerBase)
    (plans : ∀ pairing ∈ Pairing.merge requests,
      pairing.planUpTo first settings.providerBase =
        pairing.planUpTo second settings.providerBase) :
    run environment first settings requests = run environment second settings requests := by
  have screens : screen environment first settings.providerBase (Pairing.merge requests) =
      screen environment second settings.providerBase (Pairing.merge requests) := by
    rw [screen_eq_walk, screen_eq_walk]
    exact Environment.walk_work_congr fun pairing merged => by rw [problems pairing merged]
  unfold run
  refine bind_congr_of_ok fun _ _ => ?_
  rw [screens]
  refine bind_congr_of_ok fun screened succeeds => ?_
  have planned : plan environment first settings (eligible screened) =
      plan environment second settings (eligible screened) := by
    rw [screen_eq_walk] at succeeds
    rw [Environment.walk_ok succeeds, eligible_map, plan_eq_walk, plan_eq_walk]
    refine Environment.walk_work_congr fun pairing member => ?_
    rw [plans pairing (List.mem_filter.mp member).1]
  rw [planned]

/-- Catalogs that agree on what the requests lead to serve them alike. So do lists of definitions in
which the last definition of each such name is the same. -/
theorem run_reachable (environment : Environment) (settings : Settings) (requests : List Request) :
    (∀ first second : Catalog, first.AgreeOn second (Request.names requests) →
      run environment first settings requests = run environment second settings requests) ∧
    ∀ history other : List TypeDef,
      (∀ name, (Catalog.ofList history).Reaches (Request.names requests) name →
        TypeDef.lastNamed name history = TypeDef.lastNamed name other) →
      run environment (.ofList history) settings requests =
        run environment (.ofList other) settings requests := by
  have alike : ∀ first second : Catalog, first.AgreeOn second (Request.names requests) →
      run environment first settings requests = run environment second settings requests := by
    intro first second agree
    have reached (pairing : Pairing) (merged : pairing ∈ Pairing.merge requests) :
        first.Reaches (Request.names requests) pairing.contract.fullName ∧
          first.Reaches (Request.names requests) pairing.provider.fullName := by
      obtain ⟨contract, provider⟩ := Pairing.names_of_mem_merge merged
      exact ⟨.asked contract, .asked provider⟩
    refine run_congr ?_ ?_
    · intro pairing merged
      obtain ⟨contract, provider⟩ := reached pairing merged
      exact Pairing.problems_congr agree contract provider _
    · intro pairing merged
      obtain ⟨contract, provider⟩ := reached pairing merged
      exact Pairing.planUpTo_congr agree contract provider _
  refine ⟨alike, fun history other same => alike _ _ fun name reached => ?_⟩
  rw [Catalog.resolve_ofList, Catalog.resolve_ofList]
  exact same name reached

/-- The contract and the provider of the library, with the interface and the base behind them. -/
def libraryTypes : List TypeDef :=
  let shelf := TypeRef.named "global::App.IShelf" "IShelf"
  let base := TypeRef.named "global::Decorgen.Runtime.BehaviorProvider" "BehaviorProvider"
  [.bare shelf .interface,
    { TypeDef.bare (.named "global::App.ILibrary" "ILibrary") .interface with
      interfaces := [shelf] },
    { TypeDef.bare (.named "global::App.Logging" "Logging") .classType with
      baseType := some base, constructors := [[]] },
    .standardProvider base]

/-- The same in another order, behind a draft of the contract and a class that nobody asks for. -/
def libraryHistory : List TypeDef :=
  .bare (.named "global::App.ILibrary" "ILibrary") .classType ::
    .bare (.named "global::App.Reader" "Reader") .classType :: libraryTypes.reverse

def libraryRequest : Request :=
  .forAll (.named "global::App.ILibrary" "ILibrary") (.named "global::App.Logging" "Logging")

theorem reached_library {name : String}
    (reached : (Catalog.ofList libraryHistory).Reaches (Request.names [libraryRequest]) name) :
    name ∈ libraryTypes.map TypeDef.name :=
  reached.mem (by decide) (by decide)

theorem run_libraryHistory :
    (Catalog.ofList libraryHistory).AgreeOn ⟨libraryTypes⟩ (Request.names [libraryRequest]) ∧
    (∀ name, (Catalog.ofList libraryHistory).Reaches (Request.names [libraryRequest]) name →
      TypeDef.lastNamed name libraryHistory = TypeDef.lastNamed name libraryTypes) ∧
    (Catalog.ofList libraryHistory).size = 5 ∧ (Catalog.ofList libraryTypes).size = 4 ∧
    run (.steady 1 false) (.ofList libraryHistory) {} [libraryRequest] =
      run (.steady 1 false) ⟨libraryTypes⟩ {} [libraryRequest] ∧
    run (.steady 1 false) (.ofList libraryHistory) {} [libraryRequest] =
      run (.steady 1 false) (.ofList libraryTypes) {} [libraryRequest] := by
  obtain ⟨catalogs, histories⟩ := run_reachable (.steady 1 false) {} [libraryRequest]
  have agree : (Catalog.ofList libraryHistory).AgreeOn ⟨libraryTypes⟩
      (Request.names [libraryRequest]) := by
    intro name reached
    obtain ⟨type, listed, rfl⟩ := List.mem_map.mp (reached_library reached)
    simp only [libraryTypes, List.mem_cons, List.not_mem_nil, or_false] at listed
    rcases listed with rfl | rfl | rfl | rfl <;> rfl
  have same : ∀ name,
      (Catalog.ofList libraryHistory).Reaches (Request.names [libraryRequest]) name →
        TypeDef.lastNamed name libraryHistory = TypeDef.lastNamed name libraryTypes := by
    intro name reached
    obtain ⟨type, listed, rfl⟩ := List.mem_map.mp (reached_library reached)
    simp only [libraryTypes, List.mem_cons, List.not_mem_nil, or_false] at listed
    rcases listed with rfl | rfl | rfl | rfl <;> rfl
  exact ⟨agree, same, by decide, by decide, catalogs _ _ agree, histories _ _ same⟩

end Pass

end Interpose
