import Interpose.Hooks
import Interpose.Proofs.BaseChains

/-!
# Nearest hooks

A table binds a kind of hook to the first definition on the provider's chain that declares one, and
there to the first method that does. What stands above the base is not looked at:
`resolve_nearest`.
-/

namespace Interpose

def TypeDef.Declares (type : TypeDef) (kind : HookKind) : Prop :=
  ∃ method ∈ type.methods, method.hook = some kind

namespace HookTable

/-- The chain of a class above some names. It ends at the first definition of the base's name, at a
base without a definition, or before a name comes again. -/
inductive Lineage (catalog : Catalog) (base : String) : List String → TypeDef → List TypeDef → Prop
  | base {below : List String} {type : TypeDef} (named : type.name = base) :
      Lineage catalog base below type [type]
  | missing {below : List String} {type : TypeDef} (other : type.name ≠ base)
      (none : catalog.baseOf type = none) : Lineage catalog base below type [type]
  | again {below : List String} {type above : TypeDef} (other : type.name ≠ base)
      (next : catalog.baseOf type = some above) (met : above.name ∈ type.name :: below) :
      Lineage catalog base below type [type]
  | climb {below : List String} {type above : TypeDef} {chain : List TypeDef}
      (other : type.name ≠ base) (next : catalog.baseOf type = some above)
      (fresh : above.name ∉ type.name :: below)
      (upper : Lineage catalog base (type.name :: below) above chain) :
      Lineage catalog base below type (type :: chain)

/-- The override that a definition declares in the first of its methods for the hook. -/
def DeclaresFirst (type : TypeDef) (kind : HookKind) (found : HookOverride) : Prop :=
  ∃ earlier method later, type.methods = earlier ++ method :: later ∧ method.hook = some kind ∧
    (∀ other ∈ earlier, other.hook ≠ some kind) ∧ found = ⟨type.reference, kind, method.name⟩

/-- The override of the first definition of a chain that declares the hook. -/
def Nearest (kind : HookKind) (chain : List TypeDef) (found : HookOverride) : Prop :=
  ∃ lower type upper, chain = lower ++ type :: upper ∧ DeclaresFirst type kind found ∧
    ∀ other ∈ lower, ¬ other.Declares kind

variable {catalog : Catalog} {base : String} {below : List String} {type : TypeDef}
variable {kind : HookKind} {found : HookOverride}

/-! ### The chain -/

theorem Lineage.unique {one two : List TypeDef} (first : Lineage catalog base below type one)
    (second : Lineage catalog base below type two) : one = two := by
  induction first generalizing two with
  | base named =>
    cases second with
    | climb other => exact absurd named other
    | _ => rfl
  | missing _ none =>
    cases second with
    | climb _ next =>
      rw [none] at next
      cases next
    | _ => rfl
  | again _ next met =>
    cases second with
    | climb _ other fresh =>
      rw [next] at other
      cases other
      exact absurd met fresh
    | _ => rfl
  | climb other next fresh _ ih =>
    cases second with
    | base named => exact absurd named other
    | missing _ none =>
      rw [none] at next
      cases next
    | again _ same met =>
      rw [next] at same
      cases same
      exact absurd met fresh
    | climb _ same _ upper =>
      rw [next] at same
      cases same
      rw [ih upper]

/-- The walk over bases, cut behind the base of the table. -/
theorem lineage_climb (other : type.name ≠ base) {seen pending : List String}
    (visited : seen = type.name :: below) (waiting : Catalog.baseNames type = pending) :
    Lineage catalog base below type
      (type :: upTo base (catalog.walk Catalog.baseNames seen pending)) := by
  fun_induction Catalog.walk catalog Catalog.baseNames seen pending
    generalizing type below with
  | case1 => exact .missing other (Catalog.baseOf_eq_none waiting)
  | case2 seen name rest known =>
    obtain ⟨next, rfl⟩ := Catalog.baseOf_eq_resolve catalog waiting
    rw [Catalog.walk, upTo]
    cases found : catalog.resolve name with
    | none => exact .missing other (next.trans found)
    | some above =>
      refine .again other (next.trans found) ?_
      rw [(Catalog.resolve_eq_some found).2, ← visited]
      exact known
  | case3 seen name rest fresh unknown =>
    obtain ⟨next, rfl⟩ := Catalog.baseOf_eq_resolve catalog waiting
    rw [Catalog.walk, upTo]
    exact .missing other (next.trans unknown)
  | case4 seen name rest fresh above found ih =>
    obtain ⟨next, rfl⟩ := Catalog.baseOf_eq_resolve catalog waiting
    have named := (Catalog.resolve_eq_some found).2
    refine .climb other (next.trans found) (visited ▸ named ▸ fresh) ?_
    rw [upTo]
    split
    · rename_i reached
      exact .base reached
    · rename_i apart
      exact ih apart (by rw [named, visited]) (List.append_nil _).symm

theorem lineage_baseChain (catalog : Catalog) (base : String) (provider : TypeDef) :
    Lineage catalog base [] provider (upTo base (catalog.baseChain provider)) := by
  rw [Catalog.baseChain, Catalog.walkFrom, upTo]
  split
  · rename_i named
    exact .base named
  · rename_i other
    exact lineage_climb other rfl rfl

/-! ### The search -/

theorem find?_filterMap_label {α β : Type} [DecidableEq α] {f : α → Option β} {label : β → α}
    (labelled : ∀ x y, f x = some y → label y = x) {xs : List α} {x : α} (member : x ∈ xs) :
    (xs.filterMap f).find? (label · = x) = f x := by
  induction xs with
  | nil => cases member
  | cons head rest ih =>
    cases made : f head with
    | none =>
      rw [List.filterMap_cons_none made]
      rcases List.mem_cons.mp member with rfl | member
      · rw [made, List.find?_eq_none]
        intro y inside same
        obtain ⟨other, _, makes⟩ := List.mem_filterMap.mp inside
        rw [← labelled other y makes, of_decide_eq_true same, made] at makes
        cases makes
      · exact ih member
    | some y =>
      rw [List.filterMap_cons_some made]
      by_cases same : head = x
      · subst same
        have first : decide (label y = head) = true := decide_eq_true (labelled head y made)
        rw [List.find?_cons, first, made]
      · rw [List.find?_cons_of_neg (by simpa [labelled head y made] using same)]
        exact ih ((List.mem_cons.mp member).resolve_left (Ne.symm same))

theorem mem_all (kind : HookKind) : kind ∈ HookKind.all := by
  cases kind <;> decide

theorem find?_declared (type : TypeDef) (kind : HookKind) :
    (declared type).find? (·.kind = kind) =
      (type.methods.find? (·.hook == some kind)).map fun method =>
        ⟨type.reference, kind, method.name⟩ := by
  have labelled (kind : HookKind) (hook : HookOverride)
      (made : (type.methods.find? (·.hook == some kind)).map (fun method =>
        (⟨type.reference, kind, method.name⟩ : HookOverride)) = some hook) :
      hook.kind = kind := by
    obtain ⟨_, _, rfl⟩ := Option.map_eq_some_iff.mp made
    rfl
  exact find?_filterMap_label labelled (mem_all kind)

theorem find?_declared_eq_none :
    (declared type).find? (·.kind = kind) = none ↔ ¬ type.Declares kind := by
  simp [find?_declared, TypeDef.Declares]

theorem find?_declared_eq_some :
    (declared type).find? (·.kind = kind) = some found ↔ DeclaresFirst type kind found := by
  rw [find?_declared, Option.map_eq_some_iff]
  constructor
  · rintro ⟨method, first, rfl⟩
    obtain ⟨tagged, earlier, later, split, untagged⟩ := List.find?_eq_some_iff_append.mp first
    exact ⟨earlier, method, later, split, by simpa using tagged, by simpa using untagged, rfl⟩
  · rintro ⟨earlier, method, later, split, tagged, untagged, rfl⟩
    refine ⟨method, List.find?_eq_some_iff_append.mpr ⟨?_, earlier, later, split, ?_⟩, rfl⟩
    · simpa using tagged
    · simpa using untagged

theorem resolve_eq_ok {table : HookTable} :
    table.resolve kind = .ok found ↔ table.overrides.find? (·.kind = kind) = some found := by
  unfold resolve
  cases table.overrides.find? (·.kind = kind) <;> simp

theorem resolve_eq_error {table : HookTable} {problem : PlanError} :
    table.resolve kind = .error problem ↔
      table.overrides.find? (·.kind = kind) = none ∧
        problem = .unresolvedHook table.provider.fullName kind := by
  unfold resolve
  cases table.overrides.find? (·.kind = kind) <;> simp [eq_comm]

/-- The loop over the bases of a provider ends, and so there is one chain of the provider up to the
base. A kind resolves to the first method of the first definition on it that declares one. It is
missing exactly where none on the chain does. -/
theorem resolve_nearest (catalog : Catalog) (provider : TypeDef) (base : String) :
    (∃ seen, (Catalog.Loop.step catalog Catalog.baseNames)^[catalog.size + 2] (.start provider) =
      ⟨seen, catalog.baseChain provider, []⟩) ∧
    ∃ chain, (∀ other, Lineage catalog base [] provider other ↔ other = chain) ∧
      ∀ kind,
        (∀ found, (build catalog provider base).resolve kind = .ok found ↔
          Nearest kind chain found) ∧
        ∀ problem, (build catalog provider base).resolve kind = .error problem ↔
          (∀ type ∈ chain, ¬ type.Declares kind) ∧
            problem = .unresolvedHook provider.name kind := by
  have lineage := lineage_baseChain catalog base provider
  refine ⟨Catalog.loop_baseChain catalog provider, upTo base (catalog.baseChain provider),
    fun other => ⟨fun same => same.unique lineage, ?_⟩,
    fun kind => ⟨fun found => ?_, fun problem => ?_⟩⟩
  · rintro rfl
    exact lineage
  · rw [resolve_eq_ok, build, List.find?_flatMap, List.findSome?_eq_some_iff]
    simp only [find?_declared_eq_some, find?_declared_eq_none, Nearest]
  · rw [resolve_eq_error, build, List.find?_flatMap, List.findSome?_eq_none_iff]
    simp only [find?_declared_eq_none, TypeDef.name]

end HookTable

end Interpose
