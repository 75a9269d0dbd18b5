import Interpose.Proofs.Naming

/-!
# Identities

As long as each type goes by one short name, what a proxy is called depends on which types there
are, not on the order of the plans or on how often one comes, and it changes only for a new type of
the same short name: `identities_order_free`.
-/

namespace Interpose.Naming

/-- Types of one name have one short name. -/
def Uniform (types : List TypeRef) : Prop :=
  ∀ first ∈ types, ∀ second ∈ types,
    first.fullName = second.fullName → first.shortName = second.shortName

section

variable {types wider : List TypeRef} {type : TypeRef}

theorem Uniform.subset (uniform : Uniform wider) (within : types ⊆ wider) : Uniform types :=
  fun first firstMember second secondMember =>
    uniform first (within firstMember) second (within secondMember)

theorem mem_roster_iff {types : List TypeRef} (uniform : Uniform types) {entry : Entry} :
    entry ∈ roster types ↔
      ∃ type ∈ types, entry = (type.fullName, Text.segment type.shortName) := by
  refine ⟨mem_roster, ?_⟩
  rintro ⟨type, member, rfl⟩
  obtain ⟨listed, inside, named⟩ := List.mem_map.mp (listed_roster member)
  obtain ⟨other, otherMember, rfl⟩ := mem_roster inside
  rw [← named, ← uniform other otherMember type member named]
  exact inside

/-! ### Segments without an order -/

/-- Another type has a short name of the same identifier form. -/
def Shared (types : List TypeRef) (type : TypeRef) : Prop :=
  ∃ other ∈ types, other.fullName ≠ type.fullName ∧
    Text.segment other.shortName = Text.segment type.shortName

instance (types : List TypeRef) (type : TypeRef) : Decidable (Shared types type) :=
  inferInstanceAs (Decidable (∃ other ∈ types, _))

def segmentAmong (types : List TypeRef) (length : Nat) (type : TypeRef) : String :=
  if Shared types type then
    Text.segment type.shortName ++ "_" ++ disambiguator type.fullName length
  else Text.segment type.shortName

/-- A type of a new name with a short name of the same identifier form. -/
def Rivals (types : List TypeRef) (added type : TypeRef) : Prop :=
  (∀ known ∈ types, known.fullName ≠ added.fullName) ∧
    Text.segment added.shortName = Text.segment type.shortName

theorem segmentOf_roster (uniform : Uniform types) (member : type ∈ types) (length : Nat) :
    segmentOf (roster types) length type.fullName = segmentAmong types length type := by
  have listed : (type.fullName, Text.segment type.shortName) ∈ roster types :=
    (mem_roster_iff uniform).mpr ⟨type, member, rfl⟩
  have several : 1 < (roster types).countP (·.2 == Text.segment type.shortName) ↔
      Shared types type := by
    rw [shared_iff (roster_nodup types) listed]
    constructor
    · rintro ⟨name, apart, found⟩
      obtain ⟨other, known, same⟩ := mem_roster found
      obtain ⟨rfl, short⟩ := Prod.mk.inj same
      exact ⟨other, known, apart, short.symm⟩
    · rintro ⟨other, known, apart, short⟩
      exact ⟨other.fullName, apart, (mem_roster_iff uniform).mpr ⟨other, known, by rw [short]⟩⟩
  unfold segmentAmong
  split
  · rename_i shared
    exact segmentOf_marked (roster_nodup types) listed (several.mpr shared) length
  · rename_i alone
    exact segmentOf_plain (roster_nodup types) listed (mt several.mp alone) length

theorem segmentAmong_named (uniform : Uniform types) (member : type ∈ types) {other : TypeRef}
    (known : other ∈ types) (named : type.fullName = other.fullName) (length : Nat) :
    segmentAmong types length type = segmentAmong types length other := by
  rw [← segmentOf_roster uniform member, ← segmentOf_roster uniform known, named]

theorem segmentAmong_congr (same : Shared wider type ↔ Shared types type) (length : Nat) :
    segmentAmong wider length type = segmentAmong types length type := by
  unfold segmentAmong
  simp only [same]

/-- Further types change a segment only with one of a new name. -/
theorem segmentAmong_wider (uniform : Uniform wider) (within : types ⊆ wider) (length : Nat)
    (type : TypeRef) : segmentAmong wider length type = segmentAmong types length type ∨
      ∃ added ∈ wider, Rivals types added type := by
  rw [or_iff_not_imp_right]
  intro unrivalled
  refine segmentAmong_congr ⟨?_, ?_⟩ length
  · rintro ⟨other, member, apart, short⟩
    by_contra alone
    refine unrivalled ⟨other, member, fun known listed named => alone ?_, short⟩
    -- A name that was known before had this short name then.
    refine ⟨known, listed, named ▸ apart, ?_⟩
    rw [uniform known (within listed) other member named, short]
  · rintro ⟨other, member, shared⟩
    exact ⟨other, within member, shared⟩

end

/-! ### Identities without an order -/

/-- Each provider goes by one short name, and so does each contract. -/
structure Consistent (plans : List ProxyPlan) : Prop where
  providers : Uniform (plans.map (·.provider))
  contracts : Uniform (plans.map (·.contract))

def providerSegment (settings : Settings) (plans : List ProxyPlan) (plan : ProxyPlan) : String :=
  segmentAmong (plans.map (·.provider)) settings.hashLength.toNat plan.provider

def contractSegment (settings : Settings) (plans : List ProxyPlan) (plan : ProxyPlan) : String :=
  segmentAmong (plans.map (·.contract)) settings.hashLength.toNat plan.contract

def identityAmong (settings : Settings) (plans : List ProxyPlan) (plan : ProxyPlan) : Identity :=
  let provider := providerSegment settings plans plan
  let contract := contractSegment settings plans plan
  { scope := settings.rootNamespace ++ "." ++ provider ++ "." ++ contract
    className := settings.proxyClass
    artifact := settings.proxyClass ++ "_" ++ provider ++ "_" ++ contract ++ ".g.cs" }

variable {settings : Settings} {plans others : List ProxyPlan}

theorem Consistent.subset (consistent : Consistent plans) (within : others ⊆ plans) :
    Consistent others :=
  ⟨consistent.providers.subset (List.map_subset _ within),
    consistent.contracts.subset (List.map_subset _ within)⟩

theorem segments_eq_among (consistent : Consistent plans) {plan : ProxyPlan}
    (member : plan ∈ plans) : segments settings plans plan =
      (providerSegment settings plans plan, contractSegment settings plans plan) := by
  unfold segments providerSegment contractSegment
  rw [providerEntries, contractEntries,
    segmentOf_roster consistent.providers (List.mem_map_of_mem member),
    segmentOf_roster consistent.contracts (List.mem_map_of_mem member)]

theorem identities_eq_among (consistent : Consistent plans) :
    identities settings plans = plans.map (identityAmong settings plans) := by
  rw [identities_eq]
  refine List.map_congr_left fun plan member => ?_
  rw [segments_eq_among consistent member]
  rfl

theorem identityAmong_congr (same : ∀ plan, plan ∈ others ↔ plan ∈ plans) (plan : ProxyPlan) :
    identityAmong settings others plan = identityAmong settings plans plan := by
  have providers : providerSegment settings others plan = providerSegment settings plans plan :=
    segmentAmong_congr (by simp [Shared, same]) _
  have contracts : contractSegment settings others plan = contractSegment settings plans plan :=
    segmentAmong_congr (by simp [Shared, same]) _
  rw [identityAmong, identityAmong, providers, contracts]

/-- Plans that are in another order, or that come more or less often, are called the same. -/
theorem identities_eq_map (consistent : Consistent plans)
    (same : ∀ plan, plan ∈ others ↔ plan ∈ plans) :
    identities settings others = others.map (identityAmong settings plans) := by
  have within : others ⊆ plans := fun plan => (same plan).mp
  rw [identities_eq_among (consistent.subset within)]
  exact List.map_congr_left fun plan _ => identityAmong_congr same plan

theorem identityAmong_wider (consistent : Consistent others) (within : plans ⊆ others)
    (plan : ProxyPlan) :
    identityAmong settings others plan = identityAmong settings plans plan ∨
      ∃ added ∈ others, Rivals (plans.map (·.provider)) added.provider plan.provider ∨
        Rivals (plans.map (·.contract)) added.contract plan.contract := by
  -- A name that differs has a segment that differs, and that one has a rival.
  rcases segmentAmong_wider consistent.providers (List.map_subset _ within)
    settings.hashLength.toNat plan.provider with providers | ⟨provider, member, rivals⟩
  · rcases segmentAmong_wider consistent.contracts (List.map_subset _ within)
      settings.hashLength.toNat plan.contract with contracts | ⟨contract, member, rivals⟩
    · left
      unfold identityAmong providerSegment contractSegment
      rw [providers, contracts]
    · obtain ⟨added, listed, rfl⟩ := List.mem_map.mp member
      exact .inr ⟨added, listed, .inr rivals⟩
  · obtain ⟨added, listed, rfl⟩ := List.mem_map.mp member
    exact .inr ⟨added, listed, .inl rivals⟩

/-- Names depend on which types there are. The order of the plans does not count, nor how often one
comes; a type has one segment in all plans; and further plans change a name only with a new type
whose short name has the identifier form of the provider's or of the contract's. -/
theorem identities_order_free (consistent : Consistent plans) :
    identities settings plans = plans.map (identityAmong settings plans) ∧
    (∀ others, (∀ plan, plan ∈ others ↔ plan ∈ plans) →
      identities settings others = others.map (identityAmong settings plans)) ∧
    (∀ first ∈ plans, ∀ second ∈ plans,
      (first.provider.fullName = second.provider.fullName →
        providerSegment settings plans first = providerSegment settings plans second) ∧
      (first.contract.fullName = second.contract.fullName →
        contractSegment settings plans first = contractSegment settings plans second)) ∧
    ∀ wider, Consistent wider → plans ⊆ wider →
      identities settings wider = wider.map (identityAmong settings wider) ∧
      ∀ plan ∈ plans, identityAmong settings wider plan = identityAmong settings plans plan ∨
        ∃ added ∈ wider, Rivals (plans.map (·.provider)) added.provider plan.provider ∨
          Rivals (plans.map (·.contract)) added.contract plan.contract := by
  refine ⟨identities_eq_among consistent, fun others same => identities_eq_map consistent same,
    fun first firstMember second secondMember => ⟨fun named => ?_, fun named => ?_⟩,
    fun wider widened within => ⟨identities_eq_among widened,
      fun plan _ => identityAmong_wider widened within plan⟩⟩
  · exact segmentAmong_named consistent.providers (List.mem_map_of_mem firstMember)
      (List.mem_map_of_mem secondMember) named _
  · exact segmentAmong_named consistent.contracts (List.mem_map_of_mem firstMember)
      (List.mem_map_of_mem secondMember) named _

def tracingPlan : ProxyPlan :=
  ⟨.named "global::App.IService" "IService", .named "global::D.Tracing" "Tracing", [], [], [], none⟩

theorem identities_tracing : Consistent (tracingPlan :: echoPlans) ∧
    identities {} echoPlans.reverse = echoPlans.reverse.map (identityAmong {} echoPlans) ∧
    identities {} (echoPlans ++ echoPlans) =
      (echoPlans ++ echoPlans).map (identityAmong {} echoPlans) ∧
    ∀ plan ∈ echoPlans,
      identityAmong {} (tracingPlan :: echoPlans) plan = identityAmong {} echoPlans plan := by
  have widened : Consistent (tracingPlan :: echoPlans) := by
    constructor <;> unfold Uniform <;> decide
  have within : echoPlans ⊆ tracingPlan :: echoPlans := List.subset_cons_self _ _
  have unrivalled : ∀ plan ∈ echoPlans, ¬ ∃ added ∈ tracingPlan :: echoPlans,
      Rivals (echoPlans.map (·.provider)) added.provider plan.provider ∨
        Rivals (echoPlans.map (·.contract)) added.contract plan.contract := by
    unfold Rivals
    decide +kernel
  obtain ⟨_, reordered, _, wider⟩ := identities_order_free (widened.subset within)
  refine ⟨widened, reordered _ fun plan => List.mem_reverse, reordered _ fun plan => ?_, ?_⟩
  · rw [List.mem_append, or_self]
  · exact fun plan member => ((wider _ widened within).2 plan member).resolve_right
      (unrivalled plan member)

end Interpose.Naming
