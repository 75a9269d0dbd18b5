import Interpose.Proofs.Preorder
import Mathlib.Data.List.Perm.Subperm

/-!
# Chains of bases

A class derives from a name where its bases lead to a definition of that name. The chain of a class
is all that its bases lead to, also where they lead in circles, so deriving is transitive:
`derivesFrom_climbs`.
-/

namespace Interpose.Catalog

/-- The definition of a class's base. -/
def baseOf (catalog : Catalog) (type : TypeDef) : Option TypeDef :=
  type.baseType.bind fun base => catalog.resolve base.fullName

/-- From base to base, any number of times. -/
abbrev Climbs (catalog : Catalog) : TypeDef → TypeDef → Prop :=
  Relation.ReflTransGen fun type above => catalog.baseOf type = some above

variable {catalog : Catalog} {start type : TypeDef}

/-! ### Bases as a walk -/

theorem followers_baseNames (catalog : Catalog) (type : TypeDef) :
    catalog.followers baseNames type = (catalog.baseOf type).toList := by
  unfold followers baseNames baseOf
  cases type.baseType with
  | none => rfl
  | some base =>
    cases found : catalog.resolve base.fullName <;> simp [found]

theorem baseOf_eq_none (baseless : baseNames type = []) : catalog.baseOf type = none := by
  unfold baseNames at baseless
  unfold baseOf
  cases derived : type.baseType with
  | none => rfl
  | some base =>
    rw [derived] at baseless
    cases baseless

/-- The only name that a class leads to is that of its base. -/
theorem baseOf_eq_resolve (catalog : Catalog) {name : String} {rest : List String}
    (led : baseNames type = name :: rest) :
    catalog.baseOf type = catalog.resolve name ∧ rest = [] := by
  unfold baseNames at led
  unfold baseOf
  cases derived : type.baseType with
  | none =>
    rw [derived] at led
    cases led
  | some base =>
    rw [derived] at led
    cases led
    exact ⟨rfl, rfl⟩

theorem mem_baseChain_iff (listed : catalog.resolve start.name = some start) :
    type ∈ catalog.baseChain start ↔ catalog.Climbs start type := by
  rw [baseChain, mem_walkFrom_iff listed]
  simp only [followers_baseNames, Option.mem_toList]

theorem resolve_of_mem_baseChain (listed : catalog.resolve start.name = some start)
    (member : type ∈ catalog.baseChain start) : catalog.resolve type.name = some type := by
  rcases List.mem_cons.mp member with rfl | member
  · exact listed
  · exact resolve_of_mem_walk member

theorem baseChain_nodup (catalog : Catalog) (type : TypeDef) :
    ((catalog.baseChain type).map TypeDef.name).Nodup :=
  walkFrom_nodup catalog baseNames type

/-! ### The loop ends -/

theorem walk_subset (catalog : Catalog) (next : TypeDef → List String)
    (seen pending : List String) : catalog.walk next seen pending ⊆ catalog.types :=
  fun _ member => (resolve_eq_some (resolve_of_mem_walk member)).1

/-- The class itself need not be in the catalog. -/
theorem baseChain_length_le (catalog : Catalog) (type : TypeDef) :
    (catalog.baseChain type).length ≤ catalog.size + 1 := by
  have distinct : (catalog.walk baseNames [type.name] (baseNames type)).Nodup :=
    (walk_nodup _ _ _ _).of_map _
  exact Nat.succ_le_succ
    (List.subperm_of_subset distinct (walk_subset _ _ _ _)).length_le

theorem followed_baseNames_le (catalog : Catalog) (types : List TypeDef) :
    catalog.followed baseNames types ≤ types.length := by
  induction types with
  | nil => exact Nat.le_refl 0
  | cons type rest ih =>
    have single : (catalog.followers baseNames type).length ≤ 1 := by
      rw [followers_baseNames]
      exact Option.length_toList_le
    rw [followed, List.flatMap_cons, List.length_append, List.length_cons]
    rw [followed] at ih
    omega

/-- A class leads to one base at most, so the stack of the loop never holds more than one. The loop
has written the chain before it has taken two steps more than the catalog has definitions. -/
theorem loop_baseChain (catalog : Catalog) (type : TypeDef) :
    ∃ seen, (Loop.step catalog baseNames)^[catalog.size + 2] (.start type) =
      ⟨seen, catalog.baseChain type, []⟩ := by
  have ended := (visits_walkFrom catalog baseNames type).loop [] []
  have enough : 1 + catalog.followed baseNames (catalog.baseChain type) ≤ catalog.size + 2 := by
    have each := followed_baseNames_le catalog (catalog.baseChain type)
    have bounded := baseChain_length_le catalog type
    omega
  obtain ⟨spare, count⟩ := Nat.exists_eq_add_of_le' enough
  refine ⟨(catalog.baseChain type).map TypeDef.name, ?_⟩
  rw [count, Function.iterate_add_apply, Loop.start]
  exact (congrArg _ ended).trans (Function.iterate_fixed Loop.step_done spare)

/-! ### Deriving -/

theorem derivesFrom_iff (listed : catalog.resolve type.name = some type) {name : String} :
    catalog.derivesFrom type name = true ↔
      ∃ above, catalog.Climbs type above ∧ above.name = name := by
  simp only [derivesFrom, List.any_eq_true, beq_iff_eq, mem_baseChain_iff listed]

theorem resolve_of_climbs {above : TypeDef} (listed : catalog.resolve type.name = some type)
    (climbs : catalog.Climbs type above) : catalog.resolve above.name = some above :=
  resolve_of_mem_baseChain listed ((mem_baseChain_iff listed).mpr climbs)

/-- The loop over the bases of a class ends, with a chain that holds no name twice. Deriving from a
name is to reach a definition of that name from base to base, and it is transitive. -/
theorem derivesFrom_climbs (listed : catalog.resolve type.name = some type) :
    (∃ seen, (Loop.step catalog baseNames)^[catalog.size + 2] (.start type) =
      ⟨seen, catalog.baseChain type, []⟩) ∧
    ((catalog.baseChain type).map TypeDef.name).Nodup ∧
    (∀ name, catalog.derivesFrom type name ↔
      ∃ above, catalog.Climbs type above ∧ above.name = name) ∧
    ∀ name middle further, catalog.derivesFrom type name → catalog.resolve name = some middle →
      catalog.derivesFrom middle further → catalog.derivesFrom type further := by
  refine ⟨loop_baseChain catalog type, baseChain_nodup catalog type,
    fun name => derivesFrom_iff listed, fun name middle further lower found upper => ?_⟩
  obtain ⟨reached, climbs, rfl⟩ := (derivesFrom_iff listed).mp lower
  -- What was reached is listed under its name, so the second climb starts where the first ended.
  rw [resolve_of_climbs listed climbs] at found
  cases found
  obtain ⟨last, more, named⟩ :=
    (derivesFrom_iff (resolve_of_climbs listed climbs)).mp upper
  exact (derivesFrom_iff listed).mpr ⟨last, climbs.trans more, named⟩

def spiralClass (name base : String) : TypeDef :=
  let reference (name : String) := TypeRef.named ("global::App." ++ name) name
  { TypeDef.bare (reference name) .classType with baseType := some (reference base) }

/-- A class outside a circle of two others, and one whose base is missing. -/
def spiralCatalog : Catalog :=
  ⟨[spiralClass "Entry" "Left", spiralClass "Left" "Right", spiralClass "Right" "Left",
    spiralClass "Stray" "Missing"]⟩

theorem derivesFrom_spiral :
    spiralCatalog.resolve (spiralClass "Entry" "Left").name = some (spiralClass "Entry" "Left") ∧
    (spiralCatalog.baseChain (spiralClass "Entry" "Left")).map (·.reference.shortName) =
      ["Entry", "Left", "Right"] ∧
    spiralCatalog.derivesFrom (spiralClass "Entry" "Left") "global::App.Left" ∧
    ¬ ∃ above, spiralCatalog.Climbs (spiralClass "Entry" "Left") above ∧
      above.name = "global::App.Stray" := by
  have listed : spiralCatalog.resolve (spiralClass "Entry" "Left").name =
      some (spiralClass "Entry" "Left") := rfl
  obtain ⟨_, _, reaches, transitive⟩ := derivesFrom_climbs listed
  have around : spiralCatalog.derivesFrom (spiralClass "Right" "Left") "global::App.Left" := by
    decide +kernel
  refine ⟨listed, by decide +kernel, ?_, fun climbs => ?_⟩
  · exact transitive "global::App.Right" (spiralClass "Right" "Left") _ (by decide +kernel) rfl
      around
  · exact absurd ((reaches _).mpr climbs) (by decide +kernel)

end Interpose.Catalog
