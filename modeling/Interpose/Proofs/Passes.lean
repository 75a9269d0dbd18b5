import Interpose.Proofs.DottedNames
import Interpose.Proofs.Gathering
import Interpose.Proofs.Planning

/-!
# Passes

A pass either stops because it was cancelled or leaves behind what `Pass.output` says, which depends
on nothing around it: `run_ok`, `run_uncancelled`.
-/

namespace Interpose

/-! ### Fan-out -/

theorem chunksOf_flatten {α : Type} {size : Nat} (positive : 0 < size) (xs : List α) :
    (chunksOf size xs).flatten = xs := by
  fun_induction chunksOf size xs with
  | case1 xs done =>
    have empty : xs = [] := by simpa using done.resolve_left (Nat.ne_of_gt positive)
    rw [empty, List.flatten_nil]
  | case2 xs more ih => rw [List.flatten_cons, ih, List.take_append_drop]

namespace FanOut

theorem share_pos {items : Nat} (some : 0 < items) (processors : Nat) :
    0 < share processors items := by
  have atLeastOne : 1 ≤ workers processors items := Nat.le_max_left ..
  exact Nat.div_pos (by omega) atLeastOne

/-- However the items are shared out, the results are those of the items in order. -/
theorem run_eq_map {α β : Type} (parallel : Bool) (processors : Nat) (work : α → β)
    (items : List α) : run parallel processors work items = items.map work := by
  unfold run
  split
  · rename_i several
    rw [Bool.and_eq_true, decide_eq_true_eq] at several
    have some : 0 < items.length := Nat.lt_trans Nat.zero_lt_one several.2
    rw [List.flatMap_def, ← List.map_flatten, shares, chunksOf_flatten (share_pos some processors)]
  · rfl

end FanOut

/-! ### Walks -/

namespace Environment

/-- Work on each element behind the checkpoint of its index. -/
def walk (environment : Environment) {α β : Type} (point : Nat → Checkpoint) (work : α → β)
    (xs : List α) : Except PassError (List β) :=
  xs.zipIdx.mapM fun (x, index) => environment.guarded (point index) (work x)

variable {environment : Environment} {α β : Type}

theorem guarded_ok {point : Checkpoint} {work result : α}
    (succeeds : environment.guarded point work = .ok result) : result = work := by
  unfold guarded check PassError.unlessCancelled at succeeds
  split at succeeds
  · cases succeeds
  · cases succeeds
    rfl

theorem walk_ok {point : Nat → Checkpoint} {work : α → β} {xs : List α} {results : List β}
    (succeeds : environment.walk point work xs = .ok results) : results = xs.map work := by
  unfold walk at succeeds
  -- The indices only tell the checkpoints apart, so any of them may be the first.
  generalize 0 = start at succeeds
  induction xs generalizing start results with
  | nil =>
    cases succeeds
    rfl
  | cons x xs ih =>
    rw [List.zipIdx_cons, List.mapM_cons] at succeeds
    obtain ⟨first, reached, succeeds⟩ := bind_eq_ok succeeds
    obtain ⟨rest, walked, succeeds⟩ := bind_eq_ok succeeds
    cases succeeds
    rw [guarded_ok reached, ih _ walked, List.map_cons]

theorem walk_uncancelled (uncancelled : ∀ point, environment.cancelled point = false)
    (point : Nat → Checkpoint) (work : α → β) (xs : List α) :
    environment.walk point work xs = .ok (xs.map work) := by
  unfold walk
  generalize 0 = start
  induction xs generalizing start with
  | nil => rfl
  | cons x xs ih =>
    have goesOn : environment.guarded (point start) (work x) = .ok (work x) := by
      simp [guarded, check, PassError.unlessCancelled, uncancelled, Except.map]
    rw [List.zipIdx_cons, List.mapM_cons, ih]
    dsimp only
    rw [goesOn]
    rfl

end Environment

namespace Pairing

/-- The reports on an eligible pairing that has no plan. -/
def failures (catalog : Catalog) (base : String) (pairing : Pairing) : List Diagnostic :=
  if (pairing.problems catalog base).isEmpty then
    match pairing.planUpTo catalog base with
    | .ok _ => []
    | .error error => error.diagnostic.atEach pairing.locations
  else []

/-- The plan of an eligible pairing. -/
def served (catalog : Catalog) (base : String) (pairing : Pairing) : Option ProxyPlan :=
  if (pairing.problems catalog base).isEmpty then
    (pairing.planUpTo catalog base).toOption
  else none

theorem served_eq_none {catalog : Catalog} {base : String} {pairing : Pairing}
    (skipped : pairing.problems catalog base ≠ [] ∨
      ∃ error, pairing.planUpTo catalog base = .error error) :
    pairing.served catalog base = none := by
  unfold served
  split
  · rename_i eligible
    rcases skipped with rejected | ⟨error, failed⟩
    · exact absurd (List.isEmpty_iff.mp eligible) rejected
    · rw [failed]
      rfl
  · rfl

theorem planUpTo_of_served {catalog : Catalog} {base : String} {pairing : Pairing}
    {plan : ProxyPlan} (planned : pairing.served catalog base = some plan) :
    pairing.planUpTo catalog base = .ok plan := by
  unfold served at planned
  split at planned
  · cases result : pairing.planUpTo catalog base with
    | error error => simp [result, Except.toOption] at planned
    | ok found =>
      obtain rfl : found = plan := by simpa [result, Except.toOption] using planned
      rfl
  · cases planned

theorem served_references {catalog : Catalog} {base : String} {pairing : Pairing}
    {plan : ProxyPlan} (planned : pairing.served catalog base = some plan) :
    plan.contract = pairing.contract ∧ plan.provider = pairing.provider := by
  obtain ⟨contract, provider, _⟩ := planUpTo_ok (planUpTo_of_served planned)
  exact ⟨contract, provider⟩

theorem served_types {catalog : Catalog} {base : String} {pairing : Pairing} {plan : ProxyPlan}
    (planned : pairing.served catalog base = some plan) :
    plan.types = pairing.types := by
  obtain ⟨contract, provider⟩ := served_references planned
  rw [ProxyPlan.types, contract, provider, types]

theorem served_memberless {catalog : Catalog} {pairing : Pairing} {reference : TypeRef}
    {contract provider base : TypeDef}
    (contractFound : catalog.resolve pairing.contract.fullName = some contract)
    (memberless : Memberless contract) (closed : ¬ pairing.contract.isOpen)
    (providerFound : catalog.resolve pairing.provider.fullName = some provider)
    (derived : provider.baseType = some reference)
    (apart : reference.fullName ≠ provider.name)
    (baseFound : catalog.resolve reference.fullName = some base)
    {parameters : List Parameter} {rest : List (List Parameter)}
    (constructors : provider.constructors = parameters :: rest) :
    pairing.served catalog reference.fullName =
      some ⟨pairing.contract, pairing.provider, parameters, [], [], pairing.allowList⟩ := by
  have constructible : provider.constructors ≠ [] := by simp [constructors]
  rw [served, problems_memberless contractFound memberless closed providerFound derived apart
    baseFound constructible,
    planUpTo_memberless contractFound memberless providerFound constructors]
  rfl

theorem served_sublist (catalog : Catalog) (base : String) (pairings : List Pairing) :
    ((pairings.filterMap (·.served catalog base)).map ProxyPlan.types).Sublist
      (pairings.map types) := by
  induction pairings with
  | nil => exact List.Sublist.slnil
  | cons pairing pairings ih =>
    cases result : pairing.served catalog base with
    | none =>
      rw [List.filterMap_cons_none result]
      exact ih.cons _
    | some plan =>
      rw [List.filterMap_cons_some result, List.map_cons, served_types result]
      exact ih.cons_cons _

end Pairing

namespace Pass

/-- The plans that a pass serves, in the order of their pairings. -/
def served (catalog : Catalog) (settings : Settings) (requests : List Request) : List ProxyPlan :=
  (Pairing.merge requests).filterMap (·.served catalog settings.providerBase)

def proxies (catalog : Catalog) (settings : Settings) (requests : List Request) :
    List (ProxyPlan × Identity) :=
  let plans := served catalog settings requests
  plans.zip (Naming.identities settings plans)

def output (catalog : Catalog) (settings : Settings) (requests : List Request) : Output where
  artifacts :=
    (proxies catalog settings requests).map
        (fun proxy => Proxy.artifact settings proxy.1 proxy.2) ++
      [Dispatcher.artifact settings (proxies catalog settings requests)]
  diagnostics :=
    (Pairing.merge requests).flatMap (·.problems catalog settings.providerBase) ++
      (Pairing.merge requests).flatMap (·.failures catalog settings.providerBase)

/-- The proxies of a pass as they are written, each with the types that it is for. -/
def written (catalog : Catalog) (settings : Settings) (requests : List Request) :
    List ((String × String) × Artifact) :=
  (proxies catalog settings requests).map fun proxy =>
    (proxy.1.types, Proxy.artifact settings proxy.1 proxy.2)

theorem output_artifacts (catalog : Catalog) (settings : Settings) (requests : List Request) :
    (output catalog settings requests).artifacts =
      (written catalog settings requests).map (·.2) ++
        [Dispatcher.artifact settings (proxies catalog settings requests)] := by
  rw [written, List.map_map]
  rfl

theorem request_of_mem_served {catalog : Catalog} {settings : Settings} {requests : List Request}
    {plan : ProxyPlan} (member : plan ∈ served catalog settings requests) :
    ∃ request ∈ requests, plan.contract = request.contract ∧
      plan.provider = request.provider := by
  obtain ⟨pairing, merged, planned⟩ := List.mem_filterMap.mp member
  obtain ⟨request, asked, contract, provider⟩ :=
    Pairing.gather_references (Pairing.gather_of_mem_merge merged)
  obtain ⟨planContract, planProvider⟩ := Pairing.served_references planned
  exact ⟨request, (Pairing.mem_requesting.mp asked).1, planContract.trans contract,
    planProvider.trans provider⟩

theorem parameters_of_mem_served {catalog : Catalog} {settings : Settings}
    {requests : List Request} {plan : ProxyPlan}
    (member : plan ∈ served catalog settings requests) :
    ∃ type ∈ catalog.types, plan.providerParameters ∈ type.constructors := by
  obtain ⟨pairing, _, planned⟩ := List.mem_filterMap.mp member
  obtain ⟨_, _, _, constructor⟩ := Pairing.planUpTo_ok (Pairing.planUpTo_of_served planned)
  exact constructor

theorem served_nodup (catalog : Catalog) (settings : Settings) (requests : List Request) :
    ((served catalog settings requests).map ProxyPlan.types).Nodup :=
  (Pairing.merge_nodup requests).sublist (Pairing.served_sublist _ _ _)

theorem identities_length (settings : Settings) (plans : List ProxyPlan) :
    (Naming.identities settings plans).length = plans.length := by
  simp [Naming.identities]

theorem proxies_plans (catalog : Catalog) (settings : Settings) (requests : List Request) :
    (proxies catalog settings requests).map (·.1) = served catalog settings requests :=
  List.map_fst_zip (Nat.le_of_eq (identities_length settings _).symm)

theorem proxies_identities (catalog : Catalog) (settings : Settings) (requests : List Request) :
    (proxies catalog settings requests).map (·.2) =
      Naming.identities settings (served catalog settings requests) :=
  List.map_snd_zip (Nat.le_of_eq (identities_length settings _))

theorem written_types (catalog : Catalog) (settings : Settings) (requests : List Request) :
    (written catalog settings requests).map (·.1) =
      (served catalog settings requests).map ProxyPlan.types := by
  rw [← proxies_plans, written, List.map_map, List.map_map]
  rfl

theorem written_nodup (catalog : Catalog) (settings : Settings) (requests : List Request) :
    ((written catalog settings requests).map (·.1)).Nodup := by
  rw [written_types]
  exact served_nodup catalog settings requests

theorem mem_written {catalog : Catalog} {settings : Settings} {requests : List Request}
    {pairing : Pairing} {plan : ProxyPlan}
    (merged : pairing ∈ Pairing.merge requests)
    (planned : pairing.served catalog settings.providerBase = some plan) :
    ∃ artifact, (pairing.types, artifact) ∈ written catalog settings requests := by
  have listed : pairing.types ∈ (written catalog settings requests).map (·.1) := by
    rw [written_types, ← Pairing.served_types planned]
    exact List.mem_map_of_mem (List.mem_filterMap.mpr ⟨pairing, merged, planned⟩)
  obtain ⟨⟨_, artifact⟩, member, rfl⟩ := List.mem_map.mp listed
  exact ⟨artifact, member⟩

variable {environment : Environment} {catalog : Catalog} {settings : Settings}

theorem screen_eq_walk (base : String) (pairings : List Pairing) :
    screen environment catalog base pairings =
      environment.walk .pairing (fun pairing => (pairing, pairing.problems catalog base))
        pairings :=
  rfl

theorem plan_eq_walk (pairings : List Pairing) :
    plan environment catalog settings pairings =
      environment.walk .plan
        (fun pairing => (pairing, pairing.planUpTo catalog settings.providerBase)) pairings := by
  rw [plan, FanOut.run_eq_map, List.mapM_map]
  rfl

theorem write_eq_walk (proxies : List (ProxyPlan × Identity)) :
    write environment settings proxies =
      environment.walk .proxy (fun proxy => Proxy.artifact settings proxy.1 proxy.2) proxies := by
  rw [write, FanOut.run_eq_map, List.mapM_map]
  rfl

theorem eligible_map (base : String) (pairings : List Pairing) :
    eligible (pairings.map fun pairing => (pairing, pairing.problems catalog base)) =
      pairings.filter fun pairing => (pairing.problems catalog base).isEmpty := by
  simp only [eligible, List.filter_map, List.map_map, Function.comp_def, List.map_id']

theorem plans_map (base : String) (pairings : List Pairing) :
    plans ((pairings.filter fun pairing => (pairing.problems catalog base).isEmpty).map
        fun pairing => (pairing, pairing.planUpTo catalog base)) =
      pairings.filterMap (·.served catalog base) := by
  rw [plans, List.filterMap_map, List.filterMap_filter]
  rfl

theorem planProblems_map (base : String) (pairings : List Pairing) :
    planProblems ((pairings.filter fun pairing => (pairing.problems catalog base).isEmpty).map
        fun pairing => (pairing, pairing.planUpTo catalog base)) =
      pairings.flatMap (·.failures catalog base) := by
  rw [planProblems, List.flatMap_map]
  induction pairings with
  | nil => rfl
  | cons pairing pairings ih =>
    rw [List.flatMap_cons, ← ih, List.filter_cons, Pairing.failures]
    split <;> rfl

theorem problems_map (base : String) (pairings : List Pairing) :
    (pairings.map fun pairing => (pairing, pairing.problems catalog base)).flatMap (·.2) =
      pairings.flatMap (·.problems catalog base) := by
  rw [List.flatMap_map]

theorem run_ok {requests : List Request} {result : Output}
    (succeeds : run environment catalog settings requests = .ok result) :
    settings.check = .ok () ∧ result = output catalog settings requests := by
  unfold run at succeeds
  obtain ⟨_, accepted, succeeds⟩ := bind_eq_ok succeeds
  obtain ⟨screened, screens, succeeds⟩ := bind_eq_ok succeeds
  obtain ⟨planned, plans, succeeds⟩ := bind_eq_ok succeeds
  obtain ⟨_, _, succeeds⟩ := bind_eq_ok succeeds
  obtain ⟨artifacts, writes, succeeds⟩ := bind_eq_ok succeeds
  obtain ⟨_, _, succeeds⟩ := bind_eq_ok succeeds
  cases succeeds
  obtain rfl := Environment.walk_ok (screen_eq_walk _ _ ▸ screens)
  rw [eligible_map, plan_eq_walk] at plans
  obtain rfl := Environment.walk_ok plans
  rw [plans_map, write_eq_walk] at writes
  obtain rfl := Environment.walk_ok writes
  refine ⟨?_, ?_⟩
  · cases checked : settings.check with
    | ok _ => rfl
    | error problem => simp [checked, Except.mapError] at accepted
  · rw [plans_map, planProblems_map, problems_map]
    rfl

theorem run_uncancelled (uncancelled : ∀ point, environment.cancelled point = false)
    (accepted : settings.check = .ok ()) (requests : List Request) :
    run environment catalog settings requests = .ok (output catalog settings requests) := by
  have goesOn (point : Checkpoint) : environment.check point = .ok () := by
    simp [Environment.check, PassError.unlessCancelled, uncancelled]
  simp only [run, accepted, Except.mapError, screen_eq_walk, plan_eq_walk, write_eq_walk,
    Environment.walk_uncancelled uncancelled, goesOn, eligible_map, plans_map, planProblems_map,
    problems_map, bind, Except.bind]
  rfl

end Pass

end Interpose
