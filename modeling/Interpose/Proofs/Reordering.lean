import Interpose.Proofs.Accounting
import Interpose.Proofs.Gathering
import Interpose.Proofs.Identities

/-!
# The order of requests

As long as the requests refer to each type in one way, their order decides nothing but the order of
what a pass writes and reports: `run_reordered`.
-/

namespace Interpose

/-- References of one full name are the same in everything. -/
def TypeRef.Agree (types : List TypeRef) : Prop :=
  ∀ first ∈ types, ∀ second ∈ types, first.fullName = second.fullName → first = second

/-- The requests that name one type, as contract or as provider, refer to it in the same way. -/
def Request.Agree (requests : List Request) : Prop :=
  TypeRef.Agree (requests.map (·.contract)) ∧ TypeRef.Agree (requests.map (·.provider))

/-! ### Pairings -/

namespace Pairing

/-- Pairings that differ in the order of their locations at most. -/
structure Alike (first second : Pairing) : Prop where
  contract : first.contract = second.contract
  provider : first.provider = second.provider
  allowList : first.allowList = second.allowList
  locations : first.locations.Perm second.locations

section

variable {requests others : List Request} (agree : Request.Agree requests)
variable (reordered : requests.Perm others)

include agree reordered

theorem gather_alike {pairing : Pairing}
    (gathered : gather (requesting pairing.types requests) = some pairing) :
    ∃ other, gather (requesting pairing.types others) = some other ∧ Alike pairing other := by
  have own : (requesting pairing.types requests).Perm (requesting pairing.types others) :=
    reordered.filter _
  obtain ⟨first, asked, contract, provider⟩ := gather_references gathered
  cases regathered : gather (requesting pairing.types others) with
  | none =>
    cases list : requesting pairing.types others with
    | nil => exact absurd (own.mem_iff.mp asked) (by simp [list])
    | cons head rest => simp [list, gather] at regathered
  | some other =>
    obtain ⟨second, askedToo, otherContract, otherProvider⟩ := gather_references regathered
    obtain ⟨firstMember, firstTypes⟩ := mem_requesting.mp asked
    obtain ⟨secondMember, secondTypes⟩ := mem_requesting.mp askedToo
    have same : first.types = second.types := firstTypes.trans secondTypes.symm
    have secondAsked := reordered.mem_iff.mpr secondMember
    refine ⟨other, rfl, ?_⟩
    exact {
      contract := by
        rw [contract, otherContract]
        exact agree.1 _ (List.mem_map_of_mem firstMember) _ (List.mem_map_of_mem secondAsked)
          (Prod.mk.inj same).1
      provider := by
        rw [provider, otherProvider]
        exact agree.2 _ (List.mem_map_of_mem firstMember) _ (List.mem_map_of_mem secondAsked)
          (Prod.mk.inj same).2
      allowList := (allows_gather gathered).unique (allows_gather regathered)
        fun _ => own.mem_iff
      locations := by
        rw [gather_locations gathered, gather_locations regathered]
        exact own.flatMap_right _ }

end

theorem merge_types_perm {requests others : List Request} (reordered : requests.Perm others) :
    ((merge requests).map types).Perm ((merge others).map types) := by
  rw [List.perm_ext_iff_of_nodup (merge_nodup requests) (merge_nodup others)]
  intro types
  rw [mem_types_merge, mem_types_merge]
  exact (reordered.map _).mem_iff

theorem forall₂_filterMap {α β : Type} {relates : α → β → Prop} {find : α → Option β}
    {xs : List α} (found : ∀ x ∈ xs, ∃ y, find x = some y ∧ relates x y) :
    List.Forall₂ relates xs (xs.filterMap find) := by
  induction xs with
  | nil => exact .nil
  | cons x xs ih =>
    obtain ⟨y, first, related⟩ := found x List.mem_cons_self
    rw [List.filterMap_cons_some first]
    exact .cons related (ih fun other member => found other (List.mem_cons_of_mem x member))

/-- Requests in another order are merged into like pairings, in another order. -/
theorem merge_perm {requests others : List Request} (agree : Request.Agree requests)
    (reordered : requests.Perm others) :
    ∃ pairings, List.Forall₂ Alike (merge requests) pairings ∧
      pairings.Perm (merge others) := by
  refine ⟨(merge requests).filterMap fun pairing => gather (requesting pairing.types others),
    forall₂_filterMap fun pairing member => ?_, ?_⟩
  · exact gather_alike agree reordered (gather_of_mem_merge member)
  · have keyed := (merge_types_perm reordered).filterMap
      fun types => gather (requesting types others)
    rwa [filterMap_gather, List.filterMap_map] at keyed

/-! ### Reports and plans of like pairings -/

theorem atEach_perm (diagnostic : Diagnostic) {locations others : List Location}
    (reordered : locations.Perm others) :
    (diagnostic.atEach locations).Perm (diagnostic.atEach others) := by
  have empty : locations.isEmpty = others.isEmpty := by
    rw [Bool.eq_iff_iff, List.isEmpty_iff_length_eq_zero, List.isEmpty_iff_length_eq_zero,
      reordered.length_eq]
  unfold Diagnostic.atEach
  rw [empty]
  split
  · exact .refl _
  · exact reordered.map _

namespace Alike

variable {first second : Pairing} (alike : Alike first second) (catalog : Catalog) (base : String)

include alike

theorem violations : first.violations catalog base = second.violations catalog base := by
  unfold Pairing.violations
  rw [alike.contract, alike.provider]

theorem eligible :
    (first.problems catalog base).isEmpty = (second.problems catalog base).isEmpty := by
  rw [Bool.eq_iff_iff, List.isEmpty_iff, List.isEmpty_iff, problems_eq_nil, problems_eq_nil,
    alike.violations]

theorem problems : (first.problems catalog base).Perm (second.problems catalog base) := by
  unfold Pairing.problems
  rw [alike.violations]
  exact List.Perm.flatMap_left _ fun violation _ => atEach_perm _ alike.locations

theorem planUpTo : first.planUpTo catalog base = second.planUpTo catalog base := by
  unfold Pairing.planUpTo plan
  rw [alike.contract, alike.provider, alike.allowList]

theorem failures : (first.failures catalog base).Perm (second.failures catalog base) := by
  unfold Pairing.failures
  rw [alike.eligible, alike.planUpTo]
  split
  · split
    · exact .refl _
    · exact atEach_perm _ alike.locations
  · exact .refl _

theorem served : first.served catalog base = second.served catalog base := by
  unfold Pairing.served
  rw [alike.eligible, alike.planUpTo]

end Alike

end Pairing

section

variable {α β : Type} {relates : α → α → Prop} {xs ys zs : List α}
variable (related : List.Forall₂ relates xs ys) (reordered : ys.Perm zs)

include related reordered

theorem flatMap_perm {f : α → List β} (each : ∀ x y, relates x y → (f x).Perm (f y)) :
    (xs.flatMap f).Perm (zs.flatMap f) := by
  refine List.Perm.trans ?_ (reordered.flatMap_right f)
  clear reordered
  induction related with
  | nil => exact .refl _
  | cons head _ ih => exact (each _ _ head).append ih

theorem filterMap_perm {f : α → Option β} (each : ∀ x y, relates x y → f x = f y) :
    (xs.filterMap f).Perm (zs.filterMap f) := by
  refine List.Perm.trans (.of_eq ?_) (reordered.filterMap f)
  clear reordered
  induction related with
  | nil => rfl
  | cons head _ ih => rw [List.filterMap_cons, List.filterMap_cons, each _ _ head, ih]

end

/-! ### Names -/

namespace Naming

theorem uniform_of_subset {types others : List TypeRef} (agree : TypeRef.Agree types)
    (within : others ⊆ types) : Uniform others := by
  intro first firstMember second secondMember named
  rw [agree first (within firstMember) second (within secondMember) named]

theorem identities_perm {settings : Settings} {plans others : List ProxyPlan}
    (consistent : Consistent plans) (reordered : plans.Perm others) :
    (plans.zip (identities settings plans)).Perm (others.zip (identities settings others)) := by
  have same (plan : ProxyPlan) : plan ∈ others ↔ plan ∈ plans := reordered.mem_iff.symm
  rw [identities_eq_map consistent fun _ => Iff.rfl, identities_eq_map consistent same,
    ← List.map_prod_left_eq_zip, ← List.map_prod_left_eq_zip]
  exact reordered.map _

end Naming

/-! ### Passes -/

namespace Pass

variable {catalog : Catalog} {settings : Settings} {requests others : List Request}

theorem served_perm (agree : Request.Agree requests) (reordered : requests.Perm others) :
    (served catalog settings requests).Perm (served catalog settings others) := by
  obtain ⟨pairings, alike, merged⟩ := Pairing.merge_perm agree reordered
  exact filterMap_perm alike merged fun _ _ same => same.served catalog settings.providerBase

theorem contracts_subset :
    (served catalog settings requests).map (·.contract) ⊆ requests.map (·.contract) := by
  intro type member
  obtain ⟨plan, inside, rfl⟩ := List.mem_map.mp member
  obtain ⟨request, asked, contract, _⟩ := request_of_mem_served inside
  exact List.mem_map.mpr ⟨request, asked, contract.symm⟩

theorem providers_subset :
    (served catalog settings requests).map (·.provider) ⊆ requests.map (·.provider) := by
  intro type member
  obtain ⟨plan, inside, rfl⟩ := List.mem_map.mp member
  obtain ⟨request, asked, _, provider⟩ := request_of_mem_served inside
  exact List.mem_map.mpr ⟨request, asked, provider.symm⟩

theorem proxies_perm (agree : Request.Agree requests) (reordered : requests.Perm others) :
    (proxies catalog settings requests).Perm (proxies catalog settings others) := by
  refine Naming.identities_perm ⟨?_, ?_⟩ (served_perm agree reordered)
  · exact Naming.uniform_of_subset agree.2 providers_subset
  · exact Naming.uniform_of_subset agree.1 contracts_subset

theorem diagnostics_perm (agree : Request.Agree requests) (reordered : requests.Perm others) :
    (output catalog settings requests).diagnostics.Perm
      (output catalog settings others).diagnostics := by
  obtain ⟨pairings, alike, merged⟩ := Pairing.merge_perm agree reordered
  exact List.Perm.append
    (flatMap_perm alike merged fun _ _ same => same.problems catalog settings.providerBase)
    (flatMap_perm alike merged fun _ _ same => same.failures catalog settings.providerBase)

/-- Requests in another order get each pair of types the same proxy or none, and the same reports. -/
theorem run_reordered {first second : Environment}
    (uncancelled : ∀ point, first.cancelled point = false ∧ second.cancelled point = false)
    (accepted : settings.check = .ok ()) (agree : Request.Agree requests)
    (reordered : requests.Perm others) :
    ∃ before after, run first catalog settings requests = .ok before ∧
      run second catalog settings others = .ok after ∧
      before.artifacts = (written catalog settings requests).map (·.2) ++
        [Dispatcher.artifact settings (proxies catalog settings requests)] ∧
      after.artifacts = (written catalog settings others).map (·.2) ++
        [Dispatcher.artifact settings (proxies catalog settings others)] ∧
      (∀ types, (written catalog settings requests).lookup types =
        (written catalog settings others).lookup types) ∧
      before.diagnostics.Perm after.diagnostics := by
  refine ⟨_, _, run_uncancelled (fun point => (uncancelled point).1) accepted requests,
    run_uncancelled (fun point => (uncancelled point).2) accepted others,
    output_artifacts catalog settings requests, output_artifacts catalog settings others, ?_,
    diagnostics_perm agree reordered⟩
  exact lookup_perm (written_nodup catalog settings requests)
    ((proxies_perm agree reordered).map _)

/-- Two providers of one short name behind one contract; the first is asked for twice. -/
def storeRequests : List Request :=
  let store := TypeRef.named "global::App.IStore" "IStore"
  let logging := TypeRef.named "global::A.Logging" "Logging"
  [(Request.forAll store logging).allowing ["Put", "Get"],
    .forAll store (.named "global::B.Logging" "Logging"),
    (Request.forAll store logging).allowing ["Delete"]]

def storeCatalog : Catalog :=
  let base := TypeRef.named "global::Decorgen.Runtime.BehaviorProvider" "BehaviorProvider"
  let logging (name : String) : TypeDef :=
    { TypeDef.bare (.named name "Logging") .classType with
      baseType := some base, constructors := [[]] }
  ⟨[.standardProvider base, logging "global::A.Logging", logging "global::B.Logging",
    .bare (.named "global::App.IStore" "IStore") .interface]⟩

theorem agree_storeRequests : Request.Agree storeRequests := by
  constructor
  · intro first firstMember second secondMember _
    simp only [storeRequests, Request.forAll, Request.allowing, List.map_cons, List.map_nil,
      List.mem_cons, List.not_mem_nil, or_false, or_self] at firstMember secondMember
    rw [firstMember, secondMember]
  · intro first firstMember second secondMember named
    simp only [storeRequests, Request.forAll, Request.allowing, List.map_cons, List.map_nil,
      List.mem_cons, List.not_mem_nil, or_false] at firstMember secondMember
    rcases firstMember with rfl | rfl | rfl <;> rcases secondMember with rfl | rfl | rfl
    all_goals first | rfl | exact absurd named (by decide)

theorem run_storeRequests : ∃ before after,
    run (.steady 1 false) storeCatalog {} storeRequests = .ok before ∧
      run (.steady 4 false) storeCatalog {} storeRequests.reverse = .ok after ∧
      (∀ types, (written storeCatalog {} storeRequests).lookup types =
        (written storeCatalog {} storeRequests.reverse).lookup types) ∧
      before.diagnostics.Perm after.diagnostics := by
  have uncancelled (point : Checkpoint) : (Environment.steady 1 false).cancelled point = false ∧
      (Environment.steady 4 false).cancelled point = false := ⟨rfl, rfl⟩
  obtain ⟨before, after, first, second, _, _, proxies, diagnostics⟩ :=
    @run_reordered storeCatalog {} _ _ _ _ uncancelled Settings.check_default
      agree_storeRequests (List.reverse_perm storeRequests).symm
  exact ⟨before, after, first, second, proxies, diagnostics⟩

end Pass

end Interpose
