import Interpose.Proofs.Naming
import Interpose.Proofs.Passes

/-!
# Names of artifacts

An artifact's name joins the parts for the provider and the contract with the same sign that the
parts hold themselves. The artifacts of a pass have names of their own exactly where no two proxies
overlap: `artifacts_nodup_iff`.
-/

namespace Interpose

namespace Naming

/-- What the first pair has at the end of its first part, the second has at the beginning of its
second part. -/
def Overlap (a b : String × String) : Prop :=
  ∃ middle, a.1 = b.1 ++ "_" ++ middle ∧ b.2 = middle ++ "_" ++ a.2

theorem overlap_of_prefix {a b : String × String} {rest : List Char}
    (first : a.1.toList = b.1.toList ++ rest)
    (second : '_' :: b.2.toList = rest ++ '_' :: a.2.toList) : a = b ∨ Overlap a b := by
  cases rest with
  | nil =>
    rw [List.append_nil] at first
    have same : b.2.toList = a.2.toList := (List.cons.inj second).2
    exact .inl (Prod.ext (String.toList_injective first) (String.toList_injective same.symm))
  | cons sign middle =>
    rw [List.cons_append, List.cons.injEq] at second
    obtain ⟨rfl, second⟩ := second
    refine .inr ⟨String.ofList middle, String.toList_injective ?_, String.toList_injective ?_⟩
    · simp [first]
    · simp [second]

theorem joined_eq_iff {a b : String × String} :
    a.1 ++ "_" ++ a.2 = b.1 ++ "_" ++ b.2 ↔ a = b ∨ Overlap a b ∨ Overlap b a := by
  constructor
  · intro same
    have letters : a.1.toList ++ '_' :: a.2.toList = b.1.toList ++ '_' :: b.2.toList := by
      simpa using congrArg String.toList same
    -- One of the two first parts begins with the other.
    rcases List.append_eq_append_iff.mp letters with ⟨rest, longer, tail⟩ | ⟨rest, longer, tail⟩
    · rcases overlap_of_prefix longer tail with equal | overlap
      · exact .inl equal.symm
      · exact .inr (.inr overlap)
    · rcases overlap_of_prefix longer tail with equal | overlap
      · exact .inl equal
      · exact .inr (.inl overlap)
  · rintro (rfl | ⟨middle, first, second⟩ | ⟨middle, first, second⟩)
    · rfl
    · simp only [first, second, String.append_assoc]
    · simp only [first, second, String.append_assoc]

variable {settings : Settings} {plans : List ProxyPlan}

/-- No type's own short name reads like that of another type with its digits. -/
def Unechoed (settings : Settings) (plans : List ProxyPlan) : Prop :=
  ∀ a b, ¬ Echoes (providerEntries plans) settings.hashLength.toNat a b ∧
    ¬ Echoes (contractEntries plans) settings.hashLength.toNat a b

theorem SameNames.types_eq (unechoed : Unechoed settings plans) {p q : ProxyPlan}
    (same : SameNames settings plans p q) : p.types = q.types := by
  obtain ⟨provider, contract⟩ := same
  have providers := provider.resolve_right
    (not_or.mpr ⟨(unechoed _ _).1, (unechoed _ _).1⟩)
  have contracts := contract.resolve_right
    (not_or.mpr ⟨(unechoed _ _).2, (unechoed _ _).2⟩)
  rw [ProxyPlan.types, ProxyPlan.types, providers, contracts]

def artifactName (settings : Settings) (plans : List ProxyPlan) (plan : ProxyPlan) : String :=
  settings.proxyClass ++ "_" ++ (segments settings plans plan).1 ++ "_" ++
    (segments settings plans plan).2 ++ ".g.cs"

theorem identities_artifact (settings : Settings) (plans : List ProxyPlan) :
    (identities settings plans).map (·.artifact) = plans.map (artifactName settings plans) := by
  rw [identities_eq, List.map_map]
  rfl

theorem artifactName_eq_iff (p q : ProxyPlan) :
    artifactName settings plans p = artifactName settings plans q ↔
      segments settings plans p = segments settings plans q ∨
        Overlap (segments settings plans p) (segments settings plans q) ∨
        Overlap (segments settings plans q) (segments settings plans p) := by
  have spelled (plan : ProxyPlan) : artifactName settings plans plan =
      settings.proxyClass ++ "_" ++
        ((segments settings plans plan).1 ++ "_" ++ (segments settings plans plan).2) ++
          ".g.cs" := by
    simp only [artifactName, String.append_assoc]
  rw [spelled, spelled, String.append_left_inj, String.append_right_inj, joined_eq_iff]

/-- Two plans of different types have one artifact name exactly where they overlap. -/
theorem artifactNames_nodup_iff (tell : DigitsTell settings (typeNames plans))
    (unechoed : Unechoed settings plans) (distinct : (plans.map ProxyPlan.types).Nodup) :
    (plans.map (artifactName settings plans)).Nodup ↔
      plans.Pairwise fun p q =>
        ¬ Overlap (segments settings plans p) (segments settings plans q) ∧
          ¬ Overlap (segments settings plans q) (segments settings plans p) := by
  rw [List.Nodup, List.pairwise_map]
  constructor
  · intro apart
    refine apart.imp fun differ => ⟨fun overlap => differ ?_, fun overlap => differ ?_⟩
    · exact (artifactName_eq_iff _ _).mpr (.inr (.inl overlap))
    · exact (artifactName_eq_iff _ _).mpr (.inr (.inr overlap))
  · intro apart
    refine ((List.pairwise_map.mp distinct).and apart).imp_of_mem ?_
    rintro p q first second ⟨types, left, right⟩ same
    rcases (artifactName_eq_iff _ _).mp same with equal | overlap | overlap
    · exact types (((segments_eq_iff tell first second).mp equal).types_eq unechoed)
    · exact left overlap
    · exact right overlap

theorem artifactName_prefix (settings : Settings) (plans : List ProxyPlan) (plan : ProxyPlan) :
    (settings.proxyClass ++ "_").toList <+: (artifactName settings plans plan).toList := by
  simp [artifactName]

end Naming

namespace Pass

variable {environment : Environment} {catalog : Catalog} {settings : Settings}
variable {requests : List Request}

theorem output_names (catalog : Catalog) (settings : Settings) (requests : List Request) :
    (output catalog settings requests).artifacts.map (·.name) =
      (served catalog settings requests).map
          (Naming.artifactName settings (served catalog settings requests)) ++
        [settings.dispatcherArtifact] := by
  rw [← Naming.identities_artifact, ← proxies_identities, output, List.map_append, List.map_map,
    List.map_map]
  rfl

/-- The artifacts of a pass have names of their own exactly where no two proxies overlap. -/
theorem artifacts_nodup_iff {result : Output}
    (succeeds : run environment catalog settings requests = .ok result)
    (apart : ¬ (settings.proxyClass ++ "_").toList <+: settings.dispatcherArtifact.toList)
    (tell : Naming.DigitsTell settings (Naming.typeNames (served catalog settings requests)))
    (unechoed : Naming.Unechoed settings (served catalog settings requests)) :
    (result.artifacts.map (·.name)).Nodup ↔
      (served catalog settings requests).Pairwise fun p q =>
        let segments := Naming.segments settings (served catalog settings requests)
        ¬ Naming.Overlap (segments p) (segments q) ∧
          ¬ Naming.Overlap (segments q) (segments p) := by
  obtain ⟨_, rfl⟩ := run_ok succeeds
  -- The dispatcher has no part in this, as its name begins differently.
  have fresh : settings.dispatcherArtifact ∉ (served catalog settings requests).map
      (Naming.artifactName settings (served catalog settings requests)) := by
    intro member
    obtain ⟨plan, _, same⟩ := List.mem_map.mp member
    exact apart (same ▸ Naming.artifactName_prefix settings _ plan)
  rw [output_names, ← List.concat_eq_append, List.nodup_concat, and_iff_right fresh,
    Naming.artifactNames_nodup_iff tell unechoed (served_nodup _ _ _)]

def overlapBase : TypeRef := .named "global::Decorgen.Runtime.BehaviorProvider" "BehaviorProvider"

def overlapProvider (reference : TypeRef) : TypeDef :=
  { TypeDef.bare reference .classType with baseType := some overlapBase, constructors := [[]] }

/-- Requests of which the names come out the same, for the sign between the parts may as well belong
to one of them. -/
def overlapRequests : List Request := [
  .forAll (.named "global::App.B_C" "B_C") (.named "global::App.A" "A"),
  .forAll (.named "global::App.C" "C") (.named "global::App.A_B" "A_B")]

def overlapCatalog : Catalog := ⟨.standardProvider overlapBase ::
  overlapRequests.map (fun request => overlapProvider request.provider) ++
  overlapRequests.map fun request => .bare request.contract .interface⟩

theorem served_overlapRequest (request : Request)
    (contractFound : overlapCatalog.resolve request.contract.fullName =
      some (.bare request.contract .interface))
    (closed : ¬ request.contract.isOpen)
    (providerFound : overlapCatalog.resolve request.provider.fullName =
      some (overlapProvider request.provider))
    (apart : overlapBase.fullName ≠ (overlapProvider request.provider).name) :
    (Pairing.ofRequest request).served overlapCatalog overlapBase.fullName = some
      ⟨request.contract, request.provider, [], [], [], request.allowList.map NameSet.ofList⟩ := by
  have base : overlapCatalog.resolve overlapBase.fullName = some (.standardProvider overlapBase) :=
    rfl
  exact Pairing.served_memberless contractFound ⟨rfl, rfl, rfl, rfl, rfl⟩ closed providerFound rfl
    apart base rfl

theorem served_overlap : served overlapCatalog {} overlapRequests =
    overlapRequests.map fun request => ⟨request.contract, request.provider, [], [], [], none⟩ := by
  have first := served_overlapRequest
    (.forAll (.named "global::App.B_C" "B_C") (.named "global::App.A" "A"))
    rfl (by decide) rfl (by decide)
  have second := served_overlapRequest
    (.forAll (.named "global::App.C" "C") (.named "global::App.A_B" "A_B"))
    rfl (by decide) rfl (by decide)
  have merged : Pairing.merge overlapRequests = overlapRequests.map Pairing.ofRequest := rfl
  rw [served, merged]
  exact (List.filterMap_cons_some first).trans (congrArg _ (List.filterMap_cons_some second))

theorem digits_overlap :
    ["global::App.A", "global::App.A_B", "global::App.B_C", "global::App.C"].map
      (Naming.disambiguator · 10) = ["896276B042", "510B260AB9", "9F142C4B46", "3AC2659FD9"] := by
  unfold Naming.disambiguator
  rw [Sha256.hex_eq]
  decide +kernel

theorem artifacts_overlap : ∃ result,
    run (.steady 1 false) overlapCatalog {} overlapRequests = .ok result ∧
      ¬ (result.artifacts.map (·.name)).Nodup := by
  have accepted : ({} : Settings).check = .ok () := by decide +kernel
  have uncancelled (point : Checkpoint) :
      (Environment.steady 1 false).cancelled point = false := rfl
  have succeeds : run (.steady 1 false) overlapCatalog {} overlapRequests = .ok _ :=
    run_uncancelled uncancelled accepted _
  have digits : (["global::App.A", "global::App.A_B", "global::App.B_C", "global::App.C"].map
      (Naming.disambiguator · 10)).Nodup := by
    rw [digits_overlap]
    decide
  refine ⟨_, succeeds, ?_⟩
  rw [artifacts_nodup_iff succeeds (by decide) ?_ ?_, served_overlap]
  · intro apart
    refine ((List.pairwise_cons.mp apart).1 _ (List.mem_singleton_self _)).2 ⟨"B", ?_, ?_⟩
    · decide +kernel
    · decide +kernel
  · rw [served_overlap]
    exact .of_nodup (by decide) digits
  · rw [served_overlap]
    intro a b
    exact ⟨Naming.not_echoes (by decide +kernel) _ _ _, Naming.not_echoes (by decide +kernel) _ _ _⟩

end Pass

end Interpose
