import Interpose.Proofs.Merging
import Interpose.Proofs.Segments

/-!
# Names of proxies

The classes of the proxies have names of their own exactly where no two of them have mistakable
contracts and mistakable providers at once: `fullName_nodup_iff`.
-/

namespace Interpose.Naming

def providerEntries (plans : List ProxyPlan) : List Entry := roster (plans.map (·.provider))

def contractEntries (plans : List ProxyPlan) : List Entry := roster (plans.map (·.contract))

/-- The parts of a proxy's name for its provider and its contract. -/
def segments (settings : Settings) (plans : List ProxyPlan) (plan : ProxyPlan) : String × String :=
  (segmentOf (providerEntries plans) settings.hashLength.toNat plan.provider.fullName,
    segmentOf (contractEntries plans) settings.hashLength.toNat plan.contract.fullName)

theorem identities_eq (settings : Settings) (plans : List ProxyPlan) :
    identities settings plans = plans.map fun plan => {
      scope := settings.rootNamespace ++ "." ++ (segments settings plans plan).1 ++ "." ++
        (segments settings plans plan).2
      className := settings.proxyClass
      artifact := settings.proxyClass ++ "_" ++ (segments settings plans plan).1 ++ "_" ++
        (segments settings plans plan).2 ++ ".g.cs" } := rfl

def typeNames (plans : List ProxyPlan) : List String :=
  plans.map (·.provider.fullName) ++ plans.map (·.contract.fullName)

def DigitsTell (settings : Settings) (names : List String) : Prop :=
  ∀ a ∈ names, ∀ b ∈ names, disambiguator a settings.hashLength.toNat =
    disambiguator b settings.hashLength.toNat → a = b

/-- Neither the providers nor the contracts of two plans are told apart. -/
def SameNames (settings : Settings) (plans : List ProxyPlan) (p q : ProxyPlan) : Prop :=
  Mistakable (providerEntries plans) settings.hashLength.toNat p.provider.fullName
      q.provider.fullName ∧
    Mistakable (contractEntries plans) settings.hashLength.toNat p.contract.fullName
      q.contract.fullName

theorem providerEntries_nodup (plans : List ProxyPlan) :
    ((providerEntries plans).map (·.1)).Nodup :=
  roster_nodup _

theorem contractEntries_nodup (plans : List ProxyPlan) :
    ((contractEntries plans).map (·.1)).Nodup :=
  roster_nodup _

variable {settings : Settings} {plans : List ProxyPlan}

theorem provider_listed {plan : ProxyPlan} (member : plan ∈ plans) :
    plan.provider.fullName ∈ (providerEntries plans).map (·.1) :=
  listed_roster (List.mem_map_of_mem member)

theorem contract_listed {plan : ProxyPlan} (member : plan ∈ plans) :
    plan.contract.fullName ∈ (contractEntries plans).map (·.1) :=
  listed_roster (List.mem_map_of_mem member)

theorem segments_eq_iff (tell : DigitsTell settings (typeNames plans)) {p q : ProxyPlan}
    (first : p ∈ plans) (second : q ∈ plans) :
    segments settings plans p = segments settings plans q ↔ SameNames settings plans p q := by
  have provider {plan : ProxyPlan} (member : plan ∈ plans) :
      plan.provider.fullName ∈ typeNames plans :=
    List.mem_append_left _ (List.mem_map.mpr ⟨plan, member, rfl⟩)
  have contract {plan : ProxyPlan} (member : plan ∈ plans) :
      plan.contract.fullName ∈ typeNames plans :=
    List.mem_append_right _ (List.mem_map.mpr ⟨plan, member, rfl⟩)
  rw [segments, segments, Prod.mk.injEq, SameNames,
    segmentOf_eq_iff (providerEntries_nodup _) (provider_listed first) (provider_listed second)
      (tell _ (provider first) _ (provider second)),
    segmentOf_eq_iff (contractEntries_nodup _) (contract_listed first) (contract_listed second)
      (tell _ (contract first) _ (contract second))]

/-- Dots keep the parts of a name apart. -/
theorem fullName_eq_iff {root className p c q d a b : String} (p_dot : '.' ∉ p.toList)
    (c_dot : '.' ∉ c.toList) :
    Identity.fullName ⟨root ++ "." ++ p ++ "." ++ c, className, a⟩ =
      Identity.fullName ⟨root ++ "." ++ q ++ "." ++ d, className, b⟩ ↔ (p, c) = (q, d) := by
  have spelled (x y artifact : String) :
      (Identity.fullName ⟨root ++ "." ++ x ++ "." ++ y, className, artifact⟩).toList =
        ("global::" ++ root ++ ".").toList ++ (x.toList ++ '.' :: y.toList) ++
          ("." ++ className).toList := by
    simp [Identity.fullName]
  rw [← String.toList_inj, spelled, spelled, List.append_cancel_right_eq,
    List.append_cancel_left_eq, List.append_cons_inj_of_notMem p_dot c_dot]
  simp [String.toList_inj]

/-- As long as the digits tell the types apart, the classes of the proxies have names of their own
exactly where no two plans have mistakable providers and mistakable contracts. -/
theorem fullName_nodup_iff (tell : DigitsTell settings (typeNames plans)) :
    ((identities settings plans).map (·.fullName)).Nodup ↔
      plans.Pairwise fun p q => ¬ SameNames settings plans p q := by
  rw [identities_eq, List.map_map, List.Nodup, List.pairwise_map]
  refine List.Pairwise.iff_of_mem fun first second => ?_
  rw [← segments_eq_iff tell first second]
  exact not_congr (fullName_eq_iff (dot_not_mem_segmentOf _ _ _) (dot_not_mem_segmentOf _ _ _))

theorem DigitsTell.of_nodup {names listed : List String} (within : names ⊆ listed)
    (distinct : (listed.map (disambiguator · settings.hashLength.toNat)).Nodup) :
    DigitsTell settings names :=
  fun _ first _ second same =>
    List.inj_on_of_nodup_map distinct (within first) (within second) same

/-- Two providers that share a short name, and one whose own short name reads like that of the first
with its digits. -/
def echoPlans : List ProxyPlan :=
  [TypeRef.named "global::A.Logging" "Logging", .named "global::B.Logging" "Logging",
    .named "global::C.Logging_9ABC4835E9" "Logging_9ABC4835E9"].map fun provider =>
      ⟨.named "global::App.IService" "IService", provider, [], [], [], none⟩

theorem digits_echoPlans :
    ["global::A.Logging", "global::B.Logging", "global::C.Logging_9ABC4835E9",
      "global::App.IService"].map (disambiguator · 10) =
        ["9ABC4835E9", "762DE5A807", "0DCF757255", "F62FBBD01A"] := by
  unfold disambiguator
  rw [Sha256.hex_eq]
  decide +kernel

theorem digitsTell_echoPlans : DigitsTell {} (typeNames echoPlans) := by
  have distinct : (["global::A.Logging", "global::B.Logging", "global::C.Logging_9ABC4835E9",
      "global::App.IService"].map (disambiguator · 10)).Nodup := by
    rw [digits_echoPlans]
    decide
  exact .of_nodup (by decide) distinct

theorem fullName_echoPlans :
    ({} : Settings).check = .ok () ∧
      (echoPlans.map ProxyPlan.types).Nodup ∧
      DigitsTell {} (typeNames echoPlans) ∧
      ¬ ((identities {} echoPlans).map (·.fullName)).Nodup := by
  refine ⟨by decide +kernel, by decide, digitsTell_echoPlans, ?_⟩
  rw [fullName_nodup_iff digitsTell_echoPlans]
  intro apart
  have first : disambiguator "global::A.Logging" 10 = "9ABC4835E9" :=
    (List.cons.inj digits_echoPlans).1
  refine absurd (List.pairwise_iff_getElem.mp apart 0 2 (by decide) (by decide) (by decide)) ?_
  rw [not_not]
  refine ⟨.inr (.inr ⟨"Logging_9ABC4835E9", "Logging", ?_, ?_, ?_, ?_, ?_⟩), .inl rfl⟩
  · decide +kernel
  · decide +kernel
  · decide +kernel
  · decide +kernel
  · exact first ▸ rfl

end Interpose.Naming
