import Interpose.Proofs.Passes

/-!
# Skipped pairs

What a pass writes does not depend on the pairs that it skips, whatever the reason and wherever they
stand among the others: `run_without_skipped`.
-/

namespace Interpose.Pass

variable {catalog : Catalog} {settings : Settings} {requests : List Request}

theorem served_filter (keep : String × String → Bool)
    (skipped : ∀ pairing ∈ Pairing.merge requests, ¬ keep pairing.types →
      pairing.served catalog settings.providerBase = none) :
    served catalog settings (requests.filter fun request => keep request.types) =
      served catalog settings requests := by
  unfold served
  rw [Pairing.merge_filter, List.filterMap_filter]
  apply List.filterMap_congr
  intro pairing member
  by_cases kept : keep pairing.types
  · exact if_pos kept
  · rw [if_neg kept, skipped pairing member kept]

/-- What is written is decided by the plans alone. -/
theorem artifacts_eq_of_served {others : List Request}
    (same : served catalog settings requests = served catalog settings others) :
    (output catalog settings requests).artifacts = (output catalog settings others).artifacts := by
  have proxies_eq : proxies catalog settings requests = proxies catalog settings others := by
    unfold proxies
    rw [same]
  unfold output
  rw [proxies_eq]

/-- Without the requests for a pair that it skips, a pass writes the same artifacts. -/
theorem run_without_skipped {first second : Environment}
    (uncancelled : ∀ point, first.cancelled point = false ∧ second.cancelled point = false)
    (accepted : settings.check = .ok ()) {pairing : Pairing}
    (member : pairing ∈ Pairing.merge requests)
    (skipped : pairing.problems catalog settings.providerBase ≠ [] ∨
      ∃ error, pairing.planUpTo catalog settings.providerBase = .error error) :
    ∃ whole rest, run first catalog settings requests = .ok whole ∧
      run second catalog settings
        (requests.filter fun request => request.types != pairing.types) = .ok rest ∧
      rest.artifacts = whole.artifacts := by
  refine ⟨_, _, run_uncancelled (fun point => (uncancelled point).1) accepted requests,
    run_uncancelled (fun point => (uncancelled point).2) accepted _, ?_⟩
  apply artifacts_eq_of_served
  apply served_filter (· != pairing.types)
  intro other inside removed
  -- The pair is merged into one pairing only.
  have same : other = pairing := by
    apply List.inj_on_of_nodup_map (Pairing.merge_nodup requests) inside member
    simpa using removed
  rw [same]
  exact Pairing.served_eq_none skipped

/-- A base that lacks a hook, a provider, and two contracts of which one needs that hook. -/
def hooklessCatalog : Catalog :=
  let base := TypeRef.named "global::Decorgen.Runtime.BehaviorProvider" "BehaviorProvider"
  let count := MethodDecl.plain "Count" (some (.named "global::System.Int32" "Int32")) []
  ⟨[{ TypeDef.bare base .classType with methods := [.ofHook .processVoid] },
    { TypeDef.bare (.named "global::App.Logging" "Logging") .classType with
      baseType := some base, constructors := [[]] },
    { TypeDef.bare (.named "global::App.ICounter" "ICounter") .interface with
      methods := [count] },
    { TypeDef.bare (.named "global::App.IService" "IService") .interface with
      methods := [.plain "Run" none []] }]⟩

def counterRequest : Request :=
  .forAll (.named "global::App.ICounter" "ICounter") (.named "global::App.Logging" "Logging")

def serviceRequest : Request :=
  .forAll (.named "global::App.IService" "IService") (.named "global::App.Logging" "Logging")

theorem planUpTo_counter : ∃ error, (Pairing.ofRequest counterRequest).planUpTo hooklessCatalog
    ({} : Settings).providerBase = .error error := by
  have unplanned : ((Pairing.ofRequest counterRequest).planUpTo hooklessCatalog
      ({} : Settings).providerBase).toOption.isNone := by decide +kernel
  cases result : (Pairing.ofRequest counterRequest).planUpTo hooklessCatalog
      ({} : Settings).providerBase with
  | error error => exact ⟨error, rfl⟩
  | ok plan =>
    rw [result] at unplanned
    cases unplanned

theorem run_without_counter : ∃ whole rest,
    run (.steady 1 false) hooklessCatalog {} [counterRequest, serviceRequest, counterRequest] =
        .ok whole ∧
      run (.steady 4 false) hooklessCatalog {} [serviceRequest] = .ok rest ∧
      rest.artifacts = whole.artifacts :=
  have merged : Pairing.ofRequest counterRequest ∈
      Pairing.merge [counterRequest, serviceRequest, counterRequest] := List.mem_cons_self
  run_without_skipped (fun _ => ⟨rfl, rfl⟩) Settings.check_default merged (.inr planUpTo_counter)

end Interpose.Pass
