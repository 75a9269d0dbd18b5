import Interpose.Proofs.Skipping
import Mathlib.Data.List.Nodup

/-!
# Accounting

A pass that is not cancelled succeeds and accounts for every pairing: it writes a proxy for it or
reports what stands against one at all of its locations, and never both. See `run_accounts`.
-/

namespace Interpose

/-! ### Reports -/

/-- There is a diagnostic at every one of the locations, or one without a location where there are
none. -/
def Covers (diagnostics : List Diagnostic) (locations : List Location) : Prop :=
  (∀ location ∈ locations, ∃ diagnostic ∈ diagnostics, diagnostic.location = some location) ∧
    (locations = [] → ∃ diagnostic ∈ diagnostics, diagnostic.location = none)

theorem Covers.mono {some more : List Diagnostic} {locations : List Location}
    (covers : Covers some locations) (within : some ⊆ more) : Covers more locations := by
  refine ⟨fun location member => ?_, fun unlocated => ?_⟩
  · obtain ⟨diagnostic, inside, placed⟩ := covers.1 location member
    exact ⟨diagnostic, within inside, placed⟩
  · obtain ⟨diagnostic, inside, placed⟩ := covers.2 unlocated
    exact ⟨diagnostic, within inside, placed⟩

theorem covers_atEach {diagnostic : Diagnostic} (unplaced : diagnostic.location = none)
    (locations : List Location) : Covers (diagnostic.atEach locations) locations := by
  cases locations with
  | nil => exact ⟨by simp, fun _ => ⟨diagnostic, by simp [Diagnostic.atEach], unplaced⟩⟩
  | cons first rest =>
    refine ⟨fun location member => ?_, by simp⟩
    exact ⟨{ diagnostic with location := some location }, List.mem_map.mpr ⟨location, member, rfl⟩,
      rfl⟩

theorem Covers.ne_nil {diagnostics : List Diagnostic} {locations : List Location}
    (covers : Covers diagnostics locations) : diagnostics ≠ [] := by
  rintro rfl
  cases locations with
  | nil => simpa using covers.2 rfl
  | cons location rest => simpa using covers.1 location List.mem_cons_self

theorem isError_atEach {diagnostic reported : Diagnostic} (error : diagnostic.isError)
    {locations : List Location} (member : reported ∈ diagnostic.atEach locations) :
    reported.isError := by
  unfold Diagnostic.atEach at member
  split at member
  · obtain rfl := List.mem_singleton.mp member
    exact error
  · obtain ⟨location, _, rfl⟩ := List.mem_map.mp member
    exact error

namespace Pairing

def reports (catalog : Catalog) (base : String) (pairing : Pairing) : List Diagnostic :=
  pairing.problems catalog base ++ pairing.failures catalog base

variable {catalog : Catalog} {base : String} {pairing : Pairing}

theorem covers_problems (rejected : ¬ (pairing.problems catalog base).isEmpty) :
    Covers (pairing.problems catalog base) pairing.locations := by
  cases violations : pairing.violations catalog base with
  | nil => simp [problems, violations] at rejected
  | cons violation rest =>
    have first : Covers (violation.diagnostic.atEach pairing.locations) pairing.locations :=
      covers_atEach rfl _
    rw [problems, violations, List.flatMap_cons]
    exact first.mono (List.subset_append_left _ _)

variable (catalog base pairing) in
/-- A pairing has a plan and no report, or none and a report at each of its locations. -/
theorem served_or_reported :
    (∃ plan, pairing.served catalog base = some plan) ∧ pairing.reports catalog base = [] ∨
      pairing.served catalog base = none ∧
        Covers (pairing.reports catalog base) pairing.locations := by
  by_cases eligible : (pairing.problems catalog base).isEmpty
  · have unspoken : pairing.problems catalog base = [] := List.isEmpty_iff.mp eligible
    cases result : pairing.planUpTo catalog base with
    | ok plan =>
      refine .inl ⟨⟨plan, ?_⟩, ?_⟩
      · simp [served, eligible, result, Except.toOption]
      · simp [reports, failures, unspoken, result]
    | error error =>
      refine .inr ⟨?_, ?_⟩
      · simp [served, result, Except.toOption]
      · simpa [reports, failures, unspoken, result] using covers_atEach rfl pairing.locations
  · refine .inr ⟨if_neg eligible, (covers_problems eligible).mono ?_⟩
    exact List.subset_append_left _ _

theorem isError_of_reports {reported : Diagnostic}
    (member : reported ∈ pairing.reports catalog base) : reported.isError := by
  rcases List.mem_append.mp member with problem | failure
  · obtain ⟨violation, _, member⟩ := List.mem_flatMap.mp problem
    exact isError_atEach rfl member
  · unfold failures at failure
    split at failure
    · split at failure
      · cases failure
      · exact isError_atEach rfl failure
    · cases failure

end Pairing

/-! ### Outcomes -/

theorem filter_filterMap_eq {α β κ : Type} [DecidableEq κ] {f : α → Option β} (key : α → κ)
    (label : β → κ) (labelled : ∀ x y, f x = some y → label y = key x) {xs : List α}
    (distinct : (xs.map key).Nodup) {x : α} (member : x ∈ xs) :
    (xs.filterMap f).filter (fun y => label y = key x) = (f x).toList := by
  induction xs with
  | nil => simp at member
  | cons head rest ih =>
    rw [List.map_cons, List.nodup_cons] at distinct
    rcases List.mem_cons.mp member with rfl | member
    · have others : (rest.filterMap f).filter (fun y => label y = key x) = [] := by
        rw [List.filter_eq_nil_iff]
        intro y among same
        obtain ⟨other, inside, made⟩ := List.mem_filterMap.mp among
        have equal : key x = key other := by
          simpa [labelled other y made] using Eq.symm (of_decide_eq_true same)
        exact distinct.1 (equal ▸ List.mem_map_of_mem inside)
      cases made : f x with
      | none => rw [List.filterMap_cons_none made, others, Option.toList_none]
      | some y => simp [List.filterMap_cons_some made, others, labelled x y made]
    · have apart : key head ≠ key x := fun same =>
        distinct.1 (same ▸ List.mem_map_of_mem member)
      cases made : f head with
      | none => rw [List.filterMap_cons_none made, ih distinct.2 member]
      | some y =>
        rw [List.filterMap_cons_some made, List.filter_cons_of_neg, ih distinct.2 member]
        simpa [labelled head y made] using apart

namespace Pairing

def among (pairing : Pairing) (proxies : List (ProxyPlan × Identity)) :
    List (ProxyPlan × Identity) :=
  proxies.filter fun proxy =>
    pairing.joins proxy.1.contract.fullName proxy.1.provider.fullName

end Pairing

namespace Pass

/-- What a pass over the requests owes to each pairing. The proxies are those that it writes. -/
structure Accounts (catalog : Catalog) (settings : Settings) (requests : List Request)
    (output : Output) (proxies : List (ProxyPlan × Identity)) : Prop where
  artifacts : output.artifacts =
    proxies.map (fun proxy => Proxy.artifact settings proxy.1 proxy.2) ++
      [Dispatcher.artifact settings proxies]
  identities : proxies.map (·.2) = Naming.identities settings (proxies.map (·.1))
  plans : proxies.map (·.1) =
    (Pairing.merge requests).filterMap (·.served catalog settings.providerBase)
  diagnostics : output.diagnostics =
    (Pairing.merge requests).flatMap (·.problems catalog settings.providerBase) ++
      (Pairing.merge requests).flatMap (·.failures catalog settings.providerBase)
  settled : ∀ pairing ∈ Pairing.merge requests,
    (∃ proxy, pairing.among proxies = [proxy]) ∧
        pairing.reports catalog settings.providerBase = [] ∨
      pairing.among proxies = [] ∧
        Covers (pairing.reports catalog settings.providerBase) pairing.locations
  errors : output.hasErrors ↔ ∃ pairing ∈ Pairing.merge requests, pairing.among proxies = []

variable (catalog : Catalog) (settings : Settings) {requests : List Request}

theorem among_proxies {pairing : Pairing} (member : pairing ∈ Pairing.merge requests) :
    (pairing.among (proxies catalog settings requests)).map (·.1) =
      (pairing.served catalog settings.providerBase).toList := by
  have only : (served catalog settings requests).filter
      (fun plan => plan.types = pairing.types) =
        (pairing.served catalog settings.providerBase).toList :=
    filter_filterMap_eq Pairing.types ProxyPlan.types (fun _ _ => Pairing.served_types)
      (Pairing.merge_nodup requests) member
  rw [← proxies_plans, List.filter_map] at only
  rw [← only, Pairing.among]
  congr 2
  funext proxy
  rw [Bool.eq_iff_iff, Pairing.joins_iff, Function.comp_apply, decide_eq_true_eq, eq_comm,
    ProxyPlan.types]

theorem settled {pairing : Pairing} (member : pairing ∈ Pairing.merge requests) :
    (∃ proxy, pairing.among (proxies catalog settings requests) = [proxy]) ∧
        pairing.reports catalog settings.providerBase = [] ∨
      pairing.among (proxies catalog settings requests) = [] ∧
        Covers (pairing.reports catalog settings.providerBase) pairing.locations := by
  have plans := among_proxies catalog settings member
  rcases Pairing.served_or_reported catalog settings.providerBase pairing with
    ⟨⟨plan, served⟩, silent⟩ | ⟨unserved, covers⟩
  · rw [served, Option.toList_some] at plans
    obtain ⟨proxy, one, _⟩ := List.map_eq_singleton_iff.mp plans
    exact .inl ⟨⟨proxy, one⟩, silent⟩
  · rw [unserved, Option.toList_none] at plans
    exact .inr ⟨List.map_eq_nil_iff.mp plans, covers⟩

variable {catalog settings}

theorem mem_output_diagnostics {diagnostic : Diagnostic} :
    diagnostic ∈ (output catalog settings requests).diagnostics ↔
      ∃ pairing ∈ Pairing.merge requests,
        diagnostic ∈ pairing.reports catalog settings.providerBase := by
  simp only [output, Pairing.reports, List.mem_append, List.mem_flatMap]
  constructor
  · rintro (⟨pairing, member, inside⟩ | ⟨pairing, member, inside⟩)
    · exact ⟨pairing, member, .inl inside⟩
    · exact ⟨pairing, member, .inr inside⟩
  · rintro ⟨pairing, member, inside | inside⟩
    · exact .inl ⟨pairing, member, inside⟩
    · exact .inr ⟨pairing, member, inside⟩

theorem hasErrors_iff : (output catalog settings requests).hasErrors ↔
    ∃ pairing ∈ Pairing.merge requests,
      pairing.among (proxies catalog settings requests) = [] := by
  rw [Output.hasErrors, List.any_eq_true]
  constructor
  · -- A reported pairing has no proxy, however severe the report.
    rintro ⟨diagnostic, member, _⟩
    obtain ⟨pairing, merged, inside⟩ := mem_output_diagnostics.mp member
    refine ⟨pairing, merged, ?_⟩
    rcases settled catalog settings merged with ⟨_, silent⟩ | ⟨none, _⟩
    · simp [silent] at inside
    · exact none
  · rintro ⟨pairing, merged, unserved⟩
    rcases settled catalog settings merged with
      ⟨⟨proxy, one⟩, _⟩ | ⟨_, covers⟩
    · simp [unserved] at one
    · obtain ⟨diagnostic, inside⟩ := List.exists_mem_of_ne_nil _ covers.ne_nil
      exact ⟨diagnostic, mem_output_diagnostics.mpr ⟨pairing, merged, inside⟩,
        Pairing.isError_of_reports inside⟩

/-- A pass that is not cancelled succeeds, writes one proxy for each pairing that it can serve and
reports every other pairing. -/
theorem run_accounts {environment : Environment}
    (uncancelled : ∀ point, environment.cancelled point = false)
    (accepted : settings.check = .ok ()) :
    ∃ output proxies, run environment catalog settings requests = .ok output ∧
      Accounts catalog settings requests output proxies := by
  refine ⟨_, proxies catalog settings requests,
    run_uncancelled uncancelled accepted requests, ?_⟩
  exact {
    artifacts := rfl
    identities := by rw [proxies_plans, proxies_identities]
    plans := proxies_plans catalog settings requests
    diagnostics := rfl
    settled := fun pairing member => settled catalog settings member
    errors := hasErrors_iff }

def lostRequest : Request :=
  (Request.forAll (.named "global::App.ILost" "ILost")
    (.named "global::App.Logging" "Logging")).addLocation ⟨"Program.cs", 12, 40, 3, 5⟩

/-- A pair that is served, one that lacks a hook, and one whose contract is not in the catalog. -/
def mixedRequests : List Request := [serviceRequest, counterRequest, lostRequest]

theorem run_accounts_mixed : ∃ output proxies,
    run (.steady 2 false) hooklessCatalog {} mixedRequests = .ok output ∧
      Accounts hooklessCatalog {} mixedRequests output proxies ∧
      proxies.map (·.1.contract.fullName) = ["global::App.IService"] ∧
      output.diagnostics.map (fun diagnostic => (diagnostic.code, diagnostic.location)) = [
        (Diagnostic.unknownType, some ⟨"Program.cs", 12, 40, 3, 5⟩),
        (Diagnostic.unresolvedHook, none)] := by
  obtain ⟨output, proxies, ran, accounts⟩ := @run_accounts hooklessCatalog {} mixedRequests
    (.steady 2 false) (fun _ => rfl) Settings.check_default
  refine ⟨output, proxies, ran, accounts, ?_, ?_⟩
  · have plans := congrArg (List.map (·.contract.fullName)) accounts.plans
    rw [List.map_map] at plans
    exact plans.trans (by decide +kernel)
  · rw [accounts.diagnostics]
    decide +kernel

end Pass

end Interpose
