import Interpose.Proofs.ClassNames
import Interpose.Proofs.NameSets

/-!
# Selecting single members

Where contracts are named from the outermost scope and no method's name is a path, the full key of a
method is a key of those methods only that its contract declares under its name. So an allow-list
with that one entry tells apart what contracts declare alike: `intercepts_only_iff`.
-/

namespace Interpose

namespace Method

/-- The contract's full name begins at the outermost scope and its simple name cannot, and the
method's name is no path. -/
structure Rooted (method : Method) : Prop where
  fullName : "global::".toList <+: method.contract.fullName.toList
  simpleName : ':' ∉ method.contract.simpleName.toList
  name : '.' ∉ method.name.toList

theorem qualified_inj {scope other name member : String} (undotted : '.' ∉ name.toList)
    (undottedMember : '.' ∉ member.toList)
    (same : scope ++ "." ++ name = other ++ "." ++ member) : scope = other ∧ name = member := by
  have parted : Text.splitAtLastDot (scope ++ "." ++ name) = some (scope, name) :=
    Text.splitAtLastDot_eq_some_iff.mpr ⟨rfl, undotted⟩
  rw [same, Text.splitAtLastDot_eq_some_iff.mpr ⟨rfl, undottedMember⟩] at parted
  obtain ⟨scopes, names⟩ := Prod.mk.inj (Option.some.inj parted)
  exact ⟨scopes.symm, names.symm⟩

section

variable {method chosen : Method} (rooted : method.Rooted) (chosenRooted : chosen.Rooted)

include rooted in
theorem Rooted.name_ne_qualified (scope member : String) :
    method.name ≠ scope ++ "." ++ member := by
  intro same
  apply rooted.name
  rw [same]
  simp

include rooted chosenRooted in
theorem Rooted.simpleName_ne_fullName : method.contract.simpleName ≠ chosen.contract.fullName := by
  intro same
  apply rooted.simpleName
  rw [same]
  exact chosenRooted.fullName.subset (by decide)

include rooted chosenRooted in
/-- Of the three keys of a method only the full one can be that of another. -/
theorem Rooted.fullKey_mem_allowKeys_iff : chosen.fullKey ∈ method.allowKeys ↔
    method.contract.sameType chosen.contract ∧ method.name = chosen.name := by
  simp only [allowKeys, List.mem_cons, List.not_mem_nil, or_false, TypeRef.sameType, beq_iff_eq]
  constructor
  · rintro (bare | simple | full)
    · exact absurd bare.symm (rooted.name_ne_qualified _ _)
    · have scopes := (qualified_inj chosenRooted.name rooted.name simple).1
      exact absurd scopes.symm (rooted.simpleName_ne_fullName chosenRooted)
    · obtain ⟨scopes, names⟩ := qualified_inj chosenRooted.name rooted.name full
      exact ⟨scopes.symm, names.symm⟩
  · rintro ⟨scopes, names⟩
    rw [fullKey, fullKey, scopes, names]
    exact .inr (.inr rfl)

end

end Method

namespace ProxyPlan

theorem intercepts_singleton_iff (plan : ProxyPlan) (entry : String) (method : Method) :
    ({ plan with allowList := some (.ofList [entry]) } : ProxyPlan).intercepts method ↔
      entry ∈ method.allowKeys := by
  simp [intercepts, NameSet.contains, NameSet.mem_ofList]

/-- The full name of a method's contract and the method's name, with a dot between them, select the
methods that this contract declares under that name, and none that another contract declares. -/
theorem intercepts_only_iff {plan : ProxyPlan} (rooted : ∀ method ∈ plan.methods, method.Rooted)
    {chosen : Method} (listed : chosen ∈ plan.methods) {method : Method}
    (among : method ∈ plan.methods) :
    ({ plan with
        allowList := some (.ofList [chosen.contract.fullName ++ "." ++ chosen.name]) } :
      ProxyPlan).intercepts method ↔
      method.contract.sameType chosen.contract ∧ method.name = chosen.name := by
  rw [intercepts_singleton_iff]
  exact (rooted method among).fullKey_mem_allowKeys_iff (rooted chosen listed)

def sending (contract type : String) : Method where
  contract := .named contract "IChannel"
  name := "Send"
  shape := .void
  returnType := none
  typeParameters := []
  parameters := [⟨"message", .named type type, .byValue⟩]
  hook := "Process"

/-- Two contracts with one simple name that declare methods of one name, the second of them two. -/
def channelPlan : ProxyPlan where
  contract := .named "global::Both.IChannel" "IChannel"
  provider := .named "global::App.Logging" "Logging"
  providerParameters := []
  methods := [sending "global::Left.IChannel" "int", sending "global::Right.IChannel" "int",
    sending "global::Right.IChannel" "string"]
  properties := []
  allowList := none

theorem intercepts_only_channelPlan :
    (∀ method ∈ channelPlan.methods, method.Rooted) ∧
      let plan : ProxyPlan :=
        { channelPlan with allowList := some (.ofList ["global::Right.IChannel" ++ "." ++ "Send"]) }
      plan.intercepts (sending "global::Right.IChannel" "int") ∧
        plan.intercepts (sending "global::Right.IChannel" "string") ∧
        ¬ plan.intercepts (sending "global::Left.IChannel" "int") := by
  have rooted : ∀ method ∈ channelPlan.methods, method.Rooted := by
    intro method member
    simp only [channelPlan, List.mem_cons, List.not_mem_nil, or_false] at member
    rcases member with rfl | rfl | rfl
    all_goals exact ⟨by decide, by decide, by decide⟩
  have chosen : sending "global::Right.IChannel" "int" ∈ channelPlan.methods :=
    List.mem_cons_of_mem _ List.mem_cons_self
  have overload : sending "global::Right.IChannel" "string" ∈ channelPlan.methods :=
    List.mem_cons_of_mem _ (List.mem_cons_of_mem _ List.mem_cons_self)
  have other : sending "global::Left.IChannel" "int" ∈ channelPlan.methods := List.mem_cons_self
  refine ⟨rooted, ?_, ?_, fun intercepted => ?_⟩
  · exact (intercepts_only_iff rooted chosen chosen).mpr ⟨by decide, rfl⟩
  · exact (intercepts_only_iff rooted chosen overload).mpr ⟨by decide, rfl⟩
  · have same := ((intercepts_only_iff rooted chosen other).mp intercepted).1
    exact absurd same (by decide)

end ProxyPlan

end Interpose
