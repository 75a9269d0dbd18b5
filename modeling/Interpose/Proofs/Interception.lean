import Interpose.Proofs.Gathering

/-!
# Interception

A plan intercepts a method exactly where some request for its pair of types asks for the method, so
further requests take nothing back and their order decides nothing: `intercepts_merged`.
-/

namespace Interpose

/-- Whether a request is for a method: it is for all, or its list holds an entry that names it. -/
def Request.AsksFor (request : Request) (method : Method) : Prop :=
  request.allowList = none ∨
    ∃ names, request.allowList = some names ∧ ∃ key ∈ method.allowKeys, key ∈ names

theorem ProxyPlan.intercepts_iff_of_allows {plan : ProxyPlan} {requests : List Request}
    (allows : Pairing.Allows requests plan.allowList) (method : Method) :
    plan.intercepts method ↔ ∃ request ∈ requests, request.AsksFor method := by
  unfold intercepts
  cases carried : plan.allowList with
  | none =>
    rw [carried] at allows
    obtain ⟨request, member, unrestricted⟩ := allows
    exact iff_of_true rfl ⟨request, member, .inl unrestricted⟩
  | some allowed =>
    rw [carried] at allows
    obtain ⟨_, restricted, members⟩ := allows
    simp only [List.any_eq_true, NameSet.contains, List.contains_iff_mem, members]
    constructor
    · rintro ⟨key, named, request, member, names, listed, inside⟩
      exact ⟨request, member, .inr ⟨names, listed, key, named, inside⟩⟩
    · rintro ⟨request, member, unrestricted | ⟨names, listed, key, named, inside⟩⟩
      · exact absurd unrestricted (restricted request member)
      · exact ⟨key, named, request, member, names, listed, inside⟩

namespace Pairing

variable {requests : List Request} {pairing : Pairing} {plan : ProxyPlan}

theorem intercepts_iff_requested (merged : pairing ∈ merge requests)
    (carried : plan.allowList = pairing.allowList) (method : Method) :
    plan.intercepts method ↔
      ∃ request ∈ requests, request.types = pairing.types ∧ request.AsksFor method := by
  have allows : Allows (requesting pairing.types requests) plan.allowList :=
    carried ▸ allows_gather (gather_of_mem_merge merged)
  rw [plan.intercepts_iff_of_allows allows]
  simp only [mem_requesting, and_assoc]

/-- What the requests for a pair of types intercept, any others with these among them intercept. -/
theorem intercepts_mono {others : List Request} (within : requests ⊆ others)
    (merged : pairing ∈ merge requests) (carried : plan.allowList = pairing.allowList)
    {wider : Pairing} (widened : wider ∈ merge others) (same : wider.types = pairing.types)
    {method : Method} (intercepted : plan.intercepts method) :
    ({ plan with allowList := wider.allowList } : ProxyPlan).intercepts method := by
  obtain ⟨request, asked, types, asks⟩ :=
    (intercepts_iff_requested merged carried method).mp intercepted
  exact (intercepts_iff_requested widened rfl method).mpr
    ⟨request, within asked, types.trans same.symm, asks⟩

theorem exists_mem_merge {others : List Request} (within : requests ⊆ others)
    (merged : pairing ∈ merge requests) : ∃ other ∈ merge others, other.types = pairing.types := by
  have requested := mem_types_merge.mp (List.mem_map_of_mem merged)
  exact List.mem_map.mp (mem_types_merge.mpr (List.map_subset _ within requested))

/-- A plan with the allow-list of a pairing intercepts what some request for the pairing's types
asks for. Further requests withdraw no method, and the order of the requests does not matter. -/
theorem intercepts_merged (merged : pairing ∈ merge requests)
    (carried : plan.allowList = pairing.allowList) (method : Method) :
    (plan.intercepts method ↔
      ∃ request ∈ requests, request.types = pairing.types ∧ request.AsksFor method) ∧
    (∀ further, ∃ wider ∈ merge (requests ++ further), wider.types = pairing.types ∧
      (plan.intercepts method →
        ({ plan with allowList := wider.allowList } : ProxyPlan).intercepts method)) ∧
    ∀ others, requests.Perm others → ∃ other ∈ merge others, other.types = pairing.types ∧
      (({ plan with allowList := other.allowList } : ProxyPlan).intercepts method ↔
        plan.intercepts method) := by
  refine ⟨intercepts_iff_requested merged carried method, fun further => ?_,
    fun others reordered => ?_⟩
  · have within : requests ⊆ requests ++ further := List.subset_append_left _ _
    obtain ⟨wider, widened, same⟩ := exists_mem_merge within merged
    exact ⟨wider, widened, same, intercepts_mono within merged carried widened same⟩
  · obtain ⟨other, remerged, same⟩ := exists_mem_merge reordered.subset merged
    refine ⟨other, remerged, same, ?_⟩
    rw [intercepts_iff_requested remerged rfl, intercepts_iff_requested merged carried, same]
    simp only [reordered.mem_iff]

/-- Requests for one provider, each for a single member, and between them one for another. -/
def queueRequests : List Request :=
  let queue := TypeRef.named "global::App.IQueue" "IQueue"
  let logging := TypeRef.named "global::App.Logging" "Logging"
  [(Request.forAll queue logging).allowing ["Push"],
    .forAll queue (.named "global::App.Tracing" "Tracing"),
    (Request.forAll queue logging).allowing ["IQueue.Pop"]]

def queuePlan : ProxyPlan where
  contract := .named "global::App.IQueue" "IQueue"
  provider := .named "global::App.Logging" "Logging"
  providerParameters := []
  methods := []
  properties := []
  allowList := some ⟨["IQueue.Pop", "Push"]⟩

def popMethod : Method where
  contract := .named "global::App.IQueue" "IQueue"
  name := "Pop"
  shape := .value
  returnType := some (.named "global::System.Object" "Object")
  typeParameters := []
  parameters := []
  hook := "ProcessWithReturnType"

theorem intercepts_queueRequests :
    ∃ pairing ∈ merge queueRequests, queuePlan.allowList = pairing.allowList ∧
      queuePlan.intercepts popMethod ∧
      ¬ queuePlan.intercepts { popMethod with name := "Clear" } ∧
      ∀ further, ∃ wider ∈ merge (queueRequests ++ further), wider.types = pairing.types ∧
        ({ queuePlan with allowList := wider.allowList } : ProxyPlan).intercepts popMethod := by
  have merged : (⟨queuePlan.contract, queuePlan.provider, [], queuePlan.allowList⟩ : Pairing) ∈
      merge queueRequests := List.mem_cons_self
  have carried : queuePlan.allowList = queuePlan.allowList := rfl
  obtain ⟨decided, widened, _⟩ := intercepts_merged merged carried popMethod
  have asked : queuePlan.intercepts popMethod := by
    refine decided.mpr ⟨_, List.mem_cons_of_mem _ (List.mem_cons_of_mem _ List.mem_cons_self), rfl,
      .inr ⟨_, rfl, "IQueue.Pop", ?_, List.mem_singleton_self _⟩⟩
    decide
  refine ⟨_, merged, rfl, asked, by decide, fun further => ?_⟩
  obtain ⟨wider, member, same, keeps⟩ := widened further
  exact ⟨wider, member, same, keeps asked⟩

end Pairing

end Interpose
