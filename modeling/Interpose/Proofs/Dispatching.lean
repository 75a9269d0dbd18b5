import Interpose.Proofs.Passes
import Interpose.Proofs.Selectors

/-!
# Dispatching

For every pair of types, the dispatcher of a pass makes and names the class that the pair's proxy
declares; for a pair without a proxy both of its methods go to the default: `run_dispatches`.
-/

namespace Interpose

theorem lookup_map {κ α β : Type} [BEq κ] (key : α → κ) (value : α → β) (xs : List α) (k : κ) :
    (xs.map fun x => (key x, value x)).lookup k = (xs.find? fun x => k == key x).map value := by
  induction xs with
  | nil => rfl
  | cons x xs ih =>
    rw [List.map_cons, List.lookup_cons, List.find?_cons, ih]
    cases k == key x <;> rfl

/-! ### Names -/

theorem Settings.unbroken_of_check {settings : Settings} (accepted : settings.check = .ok ()) :
    ∀ field ∈ settings.dottedFields, Text.Unbroken field.2 :=
  fun field member => Text.unbroken_of_dotted (dotted_of_check accepted field member)

theorem Naming.unbroken_identity {settings : Settings} (accepted : settings.check = .ok ())
    {plans : List ProxyPlan} {identity : Identity} (member : identity ∈ identities settings plans) :
    Text.Unbroken identity.scope ∧ Text.Unbroken identity.className := by
  obtain ⟨plan, _, rfl⟩ := List.mem_map.mp member
  have dotted := Settings.unbroken_of_check accepted
  have spaced (types : List TypeRef) (name : String) :
      ∀ c ∈ (segmentOf (roster types) settings.hashLength.toNat name).toList,
        Text.blank c = false :=
    fun c letter => Text.blank_of_follows (follows_of_mem_segmentOf letter)
  have dot : ∀ c ∈ ".".toList, Text.blank c = false := by
    intro c letter
    obtain rfl : c = '.' := by simpa using letter
    rfl
  refine ⟨?_, dotted ("proxy_class_name", settings.proxyClass) (by simp [Settings.dottedFields])⟩
  -- A segment may be empty, but the root is not.
  have root := dotted ("root_namespace", settings.rootNamespace) (by simp [Settings.dottedFields])
  exact (((root.append dot).append (spaced _ _)).append dot).append (spaced _ _)

namespace Pass

/-- No name that stands in the dispatcher of a pass or in the declarations of its proxies holds a
line break. -/
structure OneLineNames (catalog : Catalog) (settings : Settings) (requests : List Request) :
    Prop where
  dispatcherContract : Text.OneLine settings.dispatcherContract
  allowListType : Text.OneLine settings.allowListType
  contracts : ∀ request ∈ requests, Text.OneLine request.contract.fullName
  providers : ∀ request ∈ requests,
    Text.OneLine request.provider.fullName ∧ Text.OneLine request.provider.shortName
  parameters : ∀ type ∈ catalog.types, ∀ parameters ∈ type.constructors,
    ∀ parameter ∈ parameters, Text.OneLine parameter.type.fullName ∧ Text.OneLine parameter.name

/-- What the two methods of a dispatcher say for a pair of types agrees with what the text of the
pair's proxy declares. -/
inductive Agree (allowListType : String) (types : String × String) :
    Option Artifact → Option Creation → Option String → Prop
  | unserved : Agree allowListType types none none none
  | served {artifact : Artifact} {declaration : Declaration} {creation : Creation}
      (declares : Declaration.read? artifact.text = some declaration)
      (makes : creation.proxy = declaration.fullName)
      (passes : creation.arguments = [(types.1, "underlyingImplementation"),
        (allowListType, "applicableMembers"), (types.2, "behaviorProvider")])
      (takes : declaration.parameters = Spelling.commaList
        (creation.arguments.map fun (type, name) => type ++ " " ++ name)) :
      Agree allowListType types (some artifact) (some creation) (some declaration.fullName)

section

variable {catalog : Catalog} {settings : Settings} {requests : List Request}
  (accepted : settings.check = .ok ()) (names : OneLineNames catalog settings requests)
  {plan : ProxyPlan} {identity : Identity}
  (member : (plan, identity) ∈ proxies catalog settings requests)

include names member in
theorem oneLine_types : Text.OneLine plan.contract.fullName ∧
    Text.OneLine plan.provider.fullName ∧ Text.OneLine plan.provider.shortName := by
  obtain ⟨request, asked, contract, provider⟩ :=
    request_of_mem_served (List.of_mem_zip member).1
  rw [contract, provider]
  exact ⟨names.contracts request asked, names.providers request asked⟩

include accepted member in
theorem unbroken_proxy : Text.Unbroken identity.scope ∧ Text.Unbroken identity.className :=
  Naming.unbroken_identity accepted (List.of_mem_zip member).2

include accepted names member in
theorem legible_branch : (Branch.ofPlan plan identity).Legible := by
  obtain ⟨contract, provider, short⟩ := oneLine_types names member
  obtain ⟨scope, title⟩ := unbroken_proxy accepted member
  refine ⟨contract, provider, ?_, ?_⟩
  · change Text.OneLine ("global::" ++ identity.scope ++ "." ++ identity.className)
    simp only [Text.oneLine_append]
    exact ⟨⟨⟨by decide, scope.oneLine⟩, by decide⟩, title.oneLine⟩
  · intro remark written
    change (if plan.providerParameters.isEmpty then none else some _) = some remark at written
    split at written
    · cases written
    · obtain ⟨type, known, constructor⟩ := parameters_of_mem_served (List.of_mem_zip member).1
      obtain rfl := Option.some.inj written
      refine Text.Plain.enclose (by decide) (Text.oneLine_append.mpr ⟨short, by decide⟩) ?_
      apply Text.oneLine_commaList
      intro text listed
      obtain ⟨parameter, given, rfl⟩ := List.mem_map.mp listed
      obtain ⟨typeLine, nameLine⟩ :=
        names.parameters type known plan.providerParameters constructor parameter given
      simp only [Text.oneLine_append]
      exact ⟨⟨typeLine, by decide⟩, nameLine⟩

include accepted names member in
/-- The constructor of a proxy takes what the dispatcher passes. -/
theorem read?_proxy : Declaration.read? (Proxy.artifact settings plan identity).text = some {
    scope := identity.scope
    name := identity.className
    parameters := Spelling.commaList
      (((Branch.ofPlan plan identity).creation settings.allowListType).arguments.map
        fun (type, name) => type ++ " " ++ name) } := by
  obtain ⟨contract, provider, _⟩ := oneLine_types names member
  obtain ⟨scope, title⟩ := unbroken_proxy accepted member
  have words : ∀ word ∈ [Proxy.underlyingField, Proxy.allowListField, Proxy.providerField,
      "underlyingImplementation", "applicableMembers", "behaviorProvider"], Text.OneLine word := by
    decide
  have fields : ∀ f ∈ (Proxy.ProxyClass.ofPlan settings plan identity).fields,
      Text.OneLine f.type ∧ Text.OneLine f.name ∧ Text.OneLine f.parameter := by
    intro f listed
    simp only [Proxy.ProxyClass.ofPlan, List.mem_cons, List.not_mem_nil, or_false] at listed
    rcases listed with rfl | rfl | rfl
    · exact ⟨contract, words _ (by simp), words _ (by simp)⟩
    · exact ⟨names.allowListType, words _ (by simp), words _ (by simp)⟩
    · exact ⟨provider, words _ (by simp), words _ (by simp)⟩
  exact @Declaration.read?_ofScope (.ofPlan settings plan identity) scope title contract fields
    identity.artifact

include accepted names member in
theorem agree_proxy : Agree settings.allowListType plan.types
    (some (Proxy.artifact settings plan identity))
    (some ((Branch.ofPlan plan identity).creation settings.allowListType))
    (some identity.fullName) := by
  have named (parameters : String) : identity.fullName =
      Declaration.fullName ⟨identity.scope, identity.className, parameters⟩ := by
    unfold Identity.fullName Declaration.fullName
    rfl
  have makes : ((Branch.ofPlan plan identity).creation settings.allowListType).proxy =
      identity.fullName := rfl
  rw [named] at makes ⊢
  exact .served (read?_proxy accepted names member) makes rfl rfl

end

section

variable {catalog : Catalog} {settings : Settings} {requests : List Request}
  (accepted : settings.check = .ok ()) (names : OneLineNames catalog settings requests)

include accepted names

theorem read?_dispatcher :
    Selectors.read? (Dispatcher.artifact settings (proxies catalog settings requests)).text = some {
      creations := (proxies catalog settings requests).map fun proxy =>
        (proxy.1.types, (Branch.ofPlan proxy.1 proxy.2).creation settings.allowListType)
      names := (proxies catalog settings requests).map fun proxy =>
        (proxy.1.types, proxy.2.fullName) } := by
  have dotted := Settings.unbroken_of_check accepted
  have scope := dotted ("dispatcher_namespace", settings.dispatcherNamespace)
    (by simp [Settings.dottedFields])
  have title := dotted ("dispatcher_class_name", settings.dispatcherClass)
    (by simp [Settings.dottedFields])
  have legible : ∀ branch ∈
      (Dispatcher.ofPlans settings (proxies catalog settings requests)).branches,
      branch.Legible := by
    intro branch listed
    obtain ⟨⟨plan, identity⟩, member, rfl⟩ := List.mem_map.mp listed
    exact legible_branch accepted names member
  have read := Dispatcher.read?_script scope title names.dispatcherContract
    names.allowListType legible settings.dispatcherArtifact
  unfold Dispatcher.artifact
  rw [read]
  simp only [Dispatcher.ofPlans, List.map_map]
  rfl

end

theorem proxies_nodup (catalog : Catalog) (settings : Settings) (requests : List Request) :
    ((proxies catalog settings requests).map fun proxy => proxy.1.types).Nodup := by
  have distinct := written_nodup catalog settings requests
  rwa [written, List.map_map] at distinct

/-- No case of either method of the dispatcher hides another one, and for every pair of types the
methods agree with the pair's proxy. -/
theorem run_dispatches {environment : Environment} {catalog : Catalog} {settings : Settings}
    {requests : List Request} (uncancelled : ∀ point, environment.cancelled point = false)
    (accepted : settings.check = .ok ()) (names : OneLineNames catalog settings requests) :
    ∃ output dispatcher selectors, run environment catalog settings requests = .ok output ∧
      output.artifacts = (written catalog settings requests).map (·.2) ++ [dispatcher] ∧
      Selectors.read? dispatcher.text = some selectors ∧
      (selectors.creations.map (·.1)).Nodup ∧ (selectors.names.map (·.1)).Nodup ∧
      ∀ types, Agree settings.allowListType types
        ((written catalog settings requests).lookup types)
        (selectors.creations.lookup types) (selectors.names.lookup types) := by
  refine ⟨_, Dispatcher.artifact settings (proxies catalog settings requests), _,
    run_uncancelled uncancelled accepted requests, output_artifacts catalog settings requests,
    read?_dispatcher accepted names, ?_, ?_, ?_⟩
  · rw [List.map_map]
    exact proxies_nodup catalog settings requests
  · rw [List.map_map]
    exact proxies_nodup catalog settings requests
  · intro types
    unfold written
    rw [lookup_map, lookup_map, lookup_map]
    cases found : (proxies catalog settings requests).find? fun proxy => types == proxy.1.types with
    | none => exact .unserved
    | some proxy =>
      obtain rfl : types = proxy.1.types := by simpa using List.find?_some found
      exact agree_proxy accepted names (List.mem_of_find?_eq_some found)

/-- A provider that is constructed with a ledger, and one that needs nothing. -/
def ledgerCatalog : Catalog :=
  let base := TypeRef.named "global::Decorgen.Runtime.BehaviorProvider" "BehaviorProvider"
  let ledger := Parameter.mk "ledger" (.named "global::App.ILedger" "ILedger") .byValue
  ⟨[.standardProvider base,
    { TypeDef.bare (.named "global::App.Auditing" "Auditing") .classType with
      baseType := some base, constructors := [[ledger]] },
    { TypeDef.bare (.named "global::App.Logging" "Logging") .classType with
      baseType := some base, constructors := [[]] },
    { TypeDef.bare (.named "global::App.IStore" "IStore") .interface with
      methods := [.plain "Clear" none []] }]⟩

/-- Two pairs that can be served, and one with an unknown contract between them. -/
def ledgerRequests : List Request :=
  [.forAll (.named "global::App.IStore" "IStore") (.named "global::App.Auditing" "Auditing"),
    .forAll (.named "global::App.IQueue" "IQueue") (.named "global::App.Logging" "Logging"),
    .forAll (.named "global::App.IStore" "IStore") (.named "global::App.Logging" "Logging")]

theorem oneLineNames_ledger : OneLineNames ledgerCatalog {} ledgerRequests where
  dispatcherContract := by decide
  allowListType := by decide
  contracts := by decide
  providers := by decide
  parameters := by decide

theorem written_ledger : (written ledgerCatalog {} ledgerRequests).map (·.1) =
    [("global::App.IStore", "global::App.Auditing"),
      ("global::App.IStore", "global::App.Logging")] := by
  rw [written_types]
  decide +kernel

theorem run_ledger : ∃ output dispatcher selectors,
    run (.steady 2 false) ledgerCatalog {} ledgerRequests = .ok output ∧
      output.artifacts = (written ledgerCatalog {} ledgerRequests).map (·.2) ++ [dispatcher] ∧
      Selectors.read? dispatcher.text = some selectors ∧
      (written ledgerCatalog {} ledgerRequests).map (·.1) =
        [("global::App.IStore", "global::App.Auditing"),
          ("global::App.IStore", "global::App.Logging")] ∧
      ∀ types, Agree ({} : Settings).allowListType types
        ((written ledgerCatalog {} ledgerRequests).lookup types)
        (selectors.creations.lookup types) (selectors.names.lookup types) := by
  have uncancelled (point : Checkpoint) :
      (Environment.steady 2 false).cancelled point = false := rfl
  obtain ⟨output, dispatcher, selectors, succeeds, artifacts, reads, _, _, agree⟩ :=
    run_dispatches uncancelled Settings.check_default oneLineNames_ledger
  exact ⟨output, dispatcher, selectors, succeeds, artifacts, reads, written_ledger, agree⟩

end Pass

end Interpose
