import Interpose.Catalog

/-!
# Inheritance

`closure` lists a contract and all that it inherits through interfaces, `baseChain` a class and its
bases. Both walk the catalog depth first, visit each name once and pass over names that the catalog
does not hold.
-/

namespace Interpose.Catalog

/-- A definition that was found is in the catalog under the name asked for. -/
theorem resolve_eq_some {catalog : Catalog} {name : String} {type : TypeDef}
    (found : catalog.resolve name = some type) : type ∈ catalog.types ∧ type.name = name := by
  simp only [resolve, slot?, Option.bind_eq_some_iff, List.findIdx?_eq_some_iff_getElem] at found
  obtain ⟨slot, ⟨bound, named, _⟩, at_slot⟩ := found
  obtain ⟨_, rfl⟩ := List.getElem?_eq_some_iff.mp at_slot
  exact ⟨List.getElem_mem bound, by simpa using named⟩

/-- The names that a walk may still push: those of the definitions not seen, and one for each. -/
def pushable (next : TypeDef → List String) (seen : List String) : List TypeDef → Nat
  | [] => 0
  | type :: rest =>
    (if type.name ∈ seen then 0 else (next type).length + 1) + pushable next seen rest

theorem pushable_cons_le (next : TypeDef → List String) (seen : List String) (name : String)
    (types : List TypeDef) : pushable next (name :: seen) types ≤ pushable next seen types := by
  induction types with
  | nil => simp [pushable]
  | cons type rest ih =>
    simp only [pushable, List.mem_cons]
    split <;> split <;> simp_all
    omega

theorem pushable_visit (next : TypeDef → List String) {seen : List String} {types : List TypeDef}
    {type : TypeDef} (member : type ∈ types) (fresh : type.name ∉ seen) :
    pushable next (type.name :: seen) types + (next type).length < pushable next seen types := by
  induction types with
  | nil => simp at member
  | cons head rest ih =>
    rcases List.mem_cons.mp member with rfl | member
    · have := pushable_cons_le next seen type.name rest
      simp [pushable, fresh]
      omega
    · have := ih member
      simp only [pushable, List.mem_cons]
      split <;> split <;> simp_all <;> omega

/-- The definitions of the pending names and of all that `next` leads to from there, depth first.
Names seen before and names without a definition are passed over. -/
def walk (catalog : Catalog) (next : TypeDef → List String) (seen pending : List String) :
    List TypeDef :=
  match pending with
  | [] => []
  | name :: rest =>
    if name ∈ seen then walk catalog next seen rest
    else
      match _ : catalog.resolve name with
      | none => walk catalog next seen rest
      | some type => type :: walk catalog next (name :: seen) (next type ++ rest)
termination_by pending.length + pushable next seen catalog.types
decreasing_by
  · simp
  · simp
  · rename_i fresh found
    obtain ⟨member, rfl⟩ := resolve_eq_some found
    have := pushable_visit next member fresh
    simp only [List.length_append, List.length_cons]
    omega

/-- A definition and all that `next` leads to from it. -/
def walkFrom (catalog : Catalog) (next : TypeDef → List String) (type : TypeDef) : List TypeDef :=
  type :: walk catalog next [type.name] (next type)

def interfaceNames (type : TypeDef) : List String := type.interfaces.map (·.fullName)

def baseNames (type : TypeDef) : List String := (type.baseType.map (·.fullName)).toList

/-- A contract and every contract it inherits, each once, depth first in declaration order. -/
def closure (catalog : Catalog) (contract : TypeDef) : List TypeDef :=
  catalog.walkFrom interfaceNames contract

/-- A class, its base, the base's base and so on, up to a base that is unknown or seen before. -/
def baseChain (catalog : Catalog) (type : TypeDef) : List TypeDef :=
  catalog.walkFrom baseNames type

def derivesFrom (catalog : Catalog) (type : TypeDef) (ancestor : String) : Bool :=
  (catalog.baseChain type).any (·.name == ancestor)

end Interpose.Catalog
