import Interpose.Model.Plan
import Interpose.Proofs.Firsts
import Interpose.Request

/-!
# Merging

However often a pair of types is requested, merging leaves one pairing for it: `merge_types`,
`merge_nodup`. Requests for other pairs have no part in it: `merge_filter`.
-/

namespace Interpose

/-- The names of the types that a request joins. -/
def Request.types (request : Request) : String × String :=
  (request.contract.fullName, request.provider.fullName)

def ProxyPlan.types (plan : ProxyPlan) : String × String :=
  (plan.contract.fullName, plan.provider.fullName)

namespace Pairing

def types (pairing : Pairing) : String × String :=
  (pairing.contract.fullName, pairing.provider.fullName)

theorem joins_iff {pairing : Pairing} {contract provider : String} :
    pairing.joins contract provider = true ↔ pairing.types = (contract, provider) := by
  simp [joins, types]

@[simp] theorem types_absorb (pairing : Pairing) (request : Request) :
    (pairing.absorb request).types = pairing.types := rfl

@[simp] theorem types_ofRequest (request : Request) : (ofRequest request).types = request.types :=
  rfl

theorem add_types (pairings : List Pairing) (request : Request) :
    (add pairings request).map types =
      if request.types ∈ pairings.map types then pairings.map types
      else pairings.map types ++ [request.types] := by
  induction pairings with
  | nil => simp [add]
  | cons pairing rest ih =>
    unfold add
    by_cases same : pairing.types = request.types
    · have joined := joins_iff.mpr same
      simp [joined, same]
    · have apart : ¬ pairing.joins request.contract.fullName request.provider.fullName :=
        fun joined => same (joins_iff.mp joined)
      have other : request.types ≠ pairing.types := fun equal => same equal.symm
      simp only [apart, Bool.false_eq_true, if_false, List.map_cons, ih, List.mem_cons, other,
        false_or]
      split <;> rfl

/-- The pairings are for the pairs of types in the order of their first requests. -/
theorem merge_types (requests : List Request) :
    (merge requests).map types = (requests.map Request.types).eraseDups := by
  induction requests using List.reverseRecOn with
  | nil => rfl
  | append_singleton requests request ih =>
    rw [merge, List.foldl_concat, add_types, ← merge, ih, List.map_append, List.map_singleton,
      eraseDups_concat]

theorem merge_nodup (requests : List Request) : ((merge requests).map types).Nodup := by
  rw [merge_types]
  exact eraseDups_nodup _

theorem mem_types_merge {requests : List Request} {types : String × String} :
    types ∈ (merge requests).map Pairing.types ↔ types ∈ requests.map Request.types := by
  rw [merge_types, List.mem_eraseDups]

theorem filter_add (keep : String × String → Bool) (pairings : List Pairing) (request : Request) :
    (add pairings request).filter (fun pairing => keep pairing.types) =
      if keep request.types then add (pairings.filter fun pairing => keep pairing.types) request
      else pairings.filter fun pairing => keep pairing.types := by
  induction pairings with
  | nil => rw [add, List.filter_nil, List.filter_cons, types_ofRequest, List.filter_nil, add]
  | cons pairing rest ih =>
    rw [add]
    by_cases joined : pairing.joins request.contract.fullName request.provider.fullName
    · have same : pairing.types = request.types := joins_iff.mp joined
      by_cases kept : keep request.types
      · simp [joined, same, kept, add]
      · simp [joined, same, kept]
    · by_cases kept : keep pairing.types
      · by_cases asked : keep request.types
        · simp [joined, kept, asked, ih, add]
        · simp [joined, kept, asked, ih]
      · simp [joined, kept, ih]

/-- The requests for some of the pairs are merged into just the pairings of these. -/
theorem merge_filter (keep : String × String → Bool) (requests : List Request) :
    merge (requests.filter fun request => keep request.types) =
      (merge requests).filter fun pairing => keep pairing.types := by
  suffices general : ∀ pairings : List Pairing,
      (requests.filter fun request => keep request.types).foldl add
          (pairings.filter fun pairing => keep pairing.types) =
        (requests.foldl add pairings).filter fun pairing => keep pairing.types from general []
  induction requests with
  | nil => exact fun _ => rfl
  | cons request requests ih =>
    intro pairings
    rw [List.foldl_cons, ← ih, filter_add]
    by_cases kept : keep request.types
    · simp [kept]
    · simp [kept]

end Pairing

end Interpose
