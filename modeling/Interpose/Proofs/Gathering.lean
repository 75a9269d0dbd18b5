import Interpose.Proofs.Merging
import Interpose.Proofs.NameSets

/-!
# Gathering

A pairing is gathered from the requests for its types alone: `gather_of_mem_merge`. What it allows
is decided by the requests whatever their order: `Allows.unique`.
-/

namespace Interpose

namespace Pairing

/-- The pairing that requests for one pair of types come to. -/
def gather : List Request → Option Pairing
  | [] => none
  | first :: rest => some (rest.foldl absorb (ofRequest first))

theorem foldl_add_alone {pairing : Pairing} {requests : List Request}
    (alone : ∀ request ∈ requests, request.types = pairing.types) :
    requests.foldl add [pairing] = [requests.foldl absorb pairing] := by
  induction requests generalizing pairing with
  | nil => rfl
  | cons request requests ih =>
    have joined : pairing.joins request.contract.fullName request.provider.fullName :=
      joins_iff.mpr (alone request List.mem_cons_self).symm
    have absorbed : add [pairing] request = [pairing.absorb request] := if_pos joined
    rw [List.foldl_cons, List.foldl_cons, absorbed]
    exact ih fun other member => alone other (List.mem_cons_of_mem _ member)

theorem merge_alone {types : String × String} {requests : List Request}
    (alone : ∀ request ∈ requests, request.types = types) :
    merge requests = (gather requests).toList := by
  cases requests with
  | nil => rfl
  | cons first rest =>
    refine foldl_add_alone fun request member => ?_
    rw [types_ofRequest, alone first List.mem_cons_self]
    exact alone request (List.mem_cons_of_mem _ member)

/-- The requests for a pair of types. -/
def requesting (types : String × String) (requests : List Request) : List Request :=
  requests.filter fun request => request.types == types

theorem mem_requesting {types : String × String} {requests : List Request} {request : Request} :
    request ∈ requesting types requests ↔ request ∈ requests ∧ request.types = types := by
  simp [requesting]

theorem gather_of_mem_merge {requests : List Request} {pairing : Pairing}
    (member : pairing ∈ merge requests) :
    gather (requesting pairing.types requests) = some pairing := by
  have alone : ∀ request ∈ requesting pairing.types requests, request.types = pairing.types :=
    fun request asked => (mem_requesting.mp asked).2
  have own := merge_filter (· == pairing.types) requests
  change merge (requesting pairing.types requests) = _ at own
  rw [merge_alone alone] at own
  have kept : pairing ∈ (merge requests).filter fun other => other.types == pairing.types :=
    List.mem_filter.mpr ⟨member, beq_self_eq_true _⟩
  exact Option.mem_toList.mp (own ▸ kept)

theorem filterMap_gather (requests : List Request) :
    ((merge requests).map types).filterMap (fun types => gather (requesting types requests)) =
      merge requests := by
  rw [List.filterMap_map]
  calc
    _ = (merge requests).filterMap some := List.filterMap_congr fun _ => gather_of_mem_merge
    _ = merge requests := List.filterMap_some

/-! ### What requests allow -/

/-- Whether an allow-list is what the requests allow together: all members where one of them asks for
all, otherwise those that some request names. -/
def Allows (requests : List Request) : Option NameSet → Prop
  | none => ∃ request ∈ requests, request.allowList = none
  | some allowed => allowed.Ascending ∧ (∀ request ∈ requests, request.allowList ≠ none) ∧
      ∀ name, name ∈ allowed.names ↔
        ∃ request ∈ requests, ∃ names, request.allowList = some names ∧ name ∈ names

theorem Allows.unique {requests others : List Request} {a b : Option NameSet}
    (first : Allows requests a) (second : Allows others b)
    (same : ∀ request, request ∈ requests ↔ request ∈ others) : a = b := by
  cases a with
  | none =>
    cases b with
    | none => rfl
    | some allowed =>
      obtain ⟨request, member, unrestricted⟩ := first
      exact absurd unrestricted (second.2.1 request ((same request).mp member))
  | some allowed =>
    cases b with
    | none =>
      obtain ⟨request, member, unrestricted⟩ := second
      exact absurd unrestricted (first.2.1 request ((same request).mpr member))
    | some other =>
      rw [first.1.eq_of_mem_iff second.1 fun name => ?_]
      rw [first.2.2, second.2.2]
      simp only [same]

theorem allows_ofRequest (request : Request) : Allows [request] (ofRequest request).allowList := by
  cases listed : request.allowList with
  | none =>
    rw [ofRequest, listed]
    exact ⟨request, List.mem_singleton_self request, listed⟩
  | some names =>
    rw [ofRequest, listed]
    refine ⟨NameSet.ofList_ascending names, ?_, fun name => ?_⟩
    · simp [listed]
    · simp [listed]

theorem allows_absorb {requests : List Request} {pairing : Pairing}
    (allows : Allows requests pairing.allowList) (request : Request) :
    Allows (requests ++ [request]) (pairing.absorb request).allowList := by
  cases earlier : pairing.allowList with
  | none =>
    rw [earlier] at allows
    obtain ⟨first, member, unrestricted⟩ := allows
    rw [absorb, earlier]
    exact ⟨first, List.mem_append_left _ member, unrestricted⟩
  | some allowed =>
    rw [earlier] at allows
    obtain ⟨ascending, restricted, members⟩ := allows
    cases listed : request.allowList with
    | none =>
      rw [absorb, earlier, listed]
      exact ⟨request, List.mem_append_right _ (List.mem_singleton_self request), listed⟩
    | some names =>
      rw [absorb, earlier, listed]
      refine ⟨NameSet.union_ascending ascending _, fun other member => ?_, fun name => ?_⟩
      · rcases List.mem_append.mp member with member | last
        · exact restricted other member
        · rw [List.mem_singleton.mp last, listed]
          exact Option.some_ne_none names
      · rw [NameSet.mem_union, NameSet.mem_ofList, members]
        simp [List.mem_append, or_and_right, exists_or, listed]

theorem allows_foldl_absorb {earlier : List Request} {pairing : Pairing}
    (allows : Allows earlier pairing.allowList) (requests : List Request) :
    Allows (earlier ++ requests) (requests.foldl absorb pairing).allowList := by
  induction requests generalizing earlier pairing with
  | nil => rwa [List.append_nil]
  | cons request requests ih =>
    rw [List.append_cons]
    exact ih (allows_absorb allows request)

theorem allows_gather {requests : List Request} {pairing : Pairing}
    (gathered : gather requests = some pairing) : Allows requests pairing.allowList := by
  cases requests with
  | nil => cases gathered
  | cons first rest =>
    cases gathered
    exact allows_foldl_absorb (allows_ofRequest first) rest

/-! ### Where and for what requests stand -/

theorem foldl_absorb_references (pairing : Pairing) (requests : List Request) :
    (requests.foldl absorb pairing).contract = pairing.contract ∧
      (requests.foldl absorb pairing).provider = pairing.provider := by
  induction requests generalizing pairing with
  | nil => exact ⟨rfl, rfl⟩
  | cons request requests ih => exact ih (pairing.absorb request)

theorem foldl_absorb_locations (pairing : Pairing) (requests : List Request) :
    (requests.foldl absorb pairing).locations =
      pairing.locations ++ requests.flatMap (·.locations) := by
  induction requests generalizing pairing with
  | nil => rw [List.foldl_nil, List.flatMap_nil, List.append_nil]
  | cons request requests ih =>
    rw [List.foldl_cons, ih, List.flatMap_cons, ← List.append_assoc]
    rfl

theorem gather_head {requests : List Request} {pairing : Pairing}
    (gathered : gather requests = some pairing) :
    ∃ first, requests.head? = some first ∧ pairing.contract = first.contract ∧
      pairing.provider = first.provider := by
  cases requests with
  | nil => cases gathered
  | cons first rest =>
    cases gathered
    exact ⟨first, rfl, foldl_absorb_references (ofRequest first) rest⟩

theorem gather_references {requests : List Request} {pairing : Pairing}
    (gathered : gather requests = some pairing) :
    ∃ first ∈ requests, pairing.contract = first.contract ∧
      pairing.provider = first.provider := by
  obtain ⟨first, leads, references⟩ := gather_head gathered
  exact ⟨first, List.mem_of_head? leads, references⟩

theorem gather_locations {requests : List Request} {pairing : Pairing}
    (gathered : gather requests = some pairing) :
    pairing.locations = requests.flatMap (·.locations) := by
  cases requests with
  | nil => cases gathered
  | cons first rest =>
    cases gathered
    exact foldl_absorb_locations (ofRequest first) rest

end Pairing

end Interpose
