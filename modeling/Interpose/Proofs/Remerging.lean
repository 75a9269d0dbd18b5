import Interpose.Proofs.Gathering

/-!
# Merging again

What merging comes to in one equation, and that it can go on from what was merged: pairings that are
requested again, with further requests behind them, lead to what all requests at once lead to:
`merge_incremental`.
-/

namespace Interpose.Pairing

/-! ### One equation -/

/-- The members that requests allow together, where none stands for all. -/
def allowed (requests : List Request) : Option NameSet :=
  if ∃ request ∈ requests, request.allowList = none then none
  else some (.ofList (requests.flatMap fun request => request.allowList.getD []))

theorem allows_allowed (requests : List Request) : Allows requests (allowed requests) := by
  unfold allowed
  split
  · assumption
  · rename_i restricted
    refine ⟨NameSet.ofList_ascending _, fun request member unrestricted => ?_, fun name => ?_⟩
    · exact restricted ⟨request, member, unrestricted⟩
    · rw [NameSet.mem_ofList, List.mem_flatMap]
      refine exists_congr fun request => and_congr_right fun _ => ?_
      cases request.allowList <;> simp

/-- What the requests for the types of one request come to, where it is the first of them. -/
def collected (requests : List Request) (first : Request) : Pairing :=
  let asked := requesting first.types requests
  ⟨first.contract, first.provider, asked.flatMap (·.locations), allowed asked⟩

theorem gather_first {requests : List Request} {first : Request}
    (leads : first ∈ firstByKey Request.types [] requests) :
    gather (requesting first.types requests) = some (collected requests first) := by
  -- The first request of its key heads those for its types.
  have head : (requesting first.types requests).head? = some first := by
    rw [requesting, List.head?_filter]
    exact find?_of_mem_firstByKey leads
  obtain ⟨rest, asked⟩ := List.head?_eq_some_iff.mp head
  have gathered : gather (requesting first.types requests) =
      some (rest.foldl absorb (ofRequest first)) := by rw [asked, gather]
  obtain ⟨contract, provider⟩ := foldl_absorb_references (ofRequest first) rest
  have locations := gather_locations gathered
  have allowList := (allows_gather gathered).unique (allows_allowed _) fun _ => Iff.rfl
  rw [gathered]
  generalize rest.foldl absorb (ofRequest first) = pairing at *
  obtain ⟨_, _, _, _⟩ := pairing
  cases contract
  cases provider
  cases locations
  cases allowList
  rfl

/-- One pairing for each pair of types, from all the requests for it and with the references of the
first. -/
theorem merge_eq_collected (requests : List Request) :
    merge requests = (requests.eraseDupsBy fun one two => one.types == two.types).map
      (collected requests) := by
  rw [← filterMap_gather, merge_types, ← map_eraseDupsBy, List.filterMap_map, ← firstByKey_nil,
    ← List.filterMap_eq_map]
  exact List.filterMap_congr fun first leads => gather_first leads

/-! ### Requests for pairings -/

def asRequest (pairing : Pairing) : Request :=
  ⟨pairing.contract, pairing.provider, pairing.locations, pairing.allowList.map NameSet.names⟩

theorem ofRequest_asRequest {requests : List Request} {pairing : Pairing}
    (merged : pairing ∈ merge requests) : ofRequest pairing.asRequest = pairing := by
  have allows := allows_gather (gather_of_mem_merge merged)
  obtain ⟨contract, provider, locations, allowList⟩ := pairing
  cases allowList with
  | none => rfl
  | some allowed =>
    rw [ofRequest, asRequest, Option.map_some, Option.map_some, allows.1.ofList_names]

theorem add_fresh {pairings : List Pairing} {request : Request}
    (fresh : request.types ∉ pairings.map types) :
    add pairings request = pairings ++ [ofRequest request] := by
  induction pairings with
  | nil => rfl
  | cons pairing rest ih =>
    obtain ⟨apart, fresh⟩ := not_or.mp (mt List.mem_cons.mpr fresh)
    have unjoined : ¬ pairing.joins request.contract.fullName request.provider.fullName :=
      fun joined => apart (joins_iff.mp joined).symm
    rw [add, if_neg unjoined, ih fresh]
    rfl

theorem merge_distinct {requests : List Request}
    (distinct : (requests.map Request.types).Nodup) :
    merge requests = requests.map ofRequest := by
  induction requests using List.reverseRecOn with
  | nil => rfl
  | append_singleton requests request ih =>
    rw [List.map_append, List.map_singleton, ← List.concat_eq_append, List.nodup_concat] at distinct
    have fresh : request.types ∉ (requests.map ofRequest).map types := by
      rw [List.map_map]
      exact distinct.1
    rw [merge, List.foldl_concat, ← merge, ih distinct.2, add_fresh fresh, List.map_append]
    rfl

theorem merge_asRequest (requests : List Request) :
    merge ((merge requests).map asRequest) = merge requests := by
  have types : ((merge requests).map asRequest).map Request.types = (merge requests).map types :=
    List.map_map ..
  rw [merge_distinct (types ▸ merge_nodup requests), List.map_map]
  calc
    _ = (merge requests).map id :=
      List.map_congr_left fun pairing merged => ofRequest_asRequest merged
    _ = merge requests := List.map_id _

theorem merge_append (requests more : List Request) :
    merge (requests ++ more) = more.foldl add (merge requests) :=
  List.foldl_append ..

/-- Merging is one equation, and what was merged can stand for the requests that led to it. -/
theorem merge_incremental (requests : List Request) :
    (merge requests).map types = (requests.map Request.types).eraseDups ∧
    merge requests = (requests.eraseDupsBy fun one two => one.types == two.types).map
      (collected requests) ∧
    ∀ more, merge ((merge requests).map asRequest ++ more) = merge (requests ++ more) := by
  refine ⟨merge_types requests, merge_eq_collected requests, fun more => ?_⟩
  rw [merge_append, merge_append, merge_asRequest]

end Interpose.Pairing
