import Interpose.Inheritance
import Mathlib.Data.List.Nodup
import Mathlib.Logic.Relation

/-!
# Walks

A walk meets no name twice, and from a definition of the catalog it comes to just what the
definition leads to: `walkFrom_nodup`, `mem_walkFrom_iff`.
-/

namespace Interpose.Catalog

/-- The definitions that a definition leads to, in order. -/
def followers (catalog : Catalog) (next : TypeDef → List String) (type : TypeDef) : List TypeDef :=
  (next type).filterMap catalog.resolve

section

variable {catalog : Catalog} {next : TypeDef → List String} {seen pending rest : List String}
variable {name : String} {type other : TypeDef}

theorem mem_followers :
    other ∈ catalog.followers next type ↔ ∃ name ∈ next type, catalog.resolve name = some other :=
  List.mem_filterMap

/-! ### Steps of a walk -/

theorem walk_seen (visited : name ∈ seen) :
    catalog.walk next seen (name :: rest) = catalog.walk next seen rest := by
  rw [walk, if_pos visited]

theorem walk_missing (missing : catalog.resolve name = none) :
    catalog.walk next seen (name :: rest) = catalog.walk next seen rest := by
  rw [walk]
  split
  · rfl
  · split
    · rfl
    · rename_i found
      rw [missing] at found
      cases found

theorem walk_found (fresh : name ∉ seen) (found : catalog.resolve name = some type) :
    catalog.walk next seen (name :: rest) =
      type :: catalog.walk next (name :: seen) (next type ++ rest) := by
  rw [walk, if_neg fresh]
  split
  · rename_i missing
    rw [found] at missing
    cases missing
  · rename_i other reached
    rw [found] at reached
    cases reached
    rfl

/-! ### What a walk comes to -/

theorem resolve_of_mem_walk (member : type ∈ catalog.walk next seen pending) :
    catalog.resolve type.name = some type := by
  fun_induction walk catalog next seen pending with
  | case1 => cases member
  | case2 seen name rest visited ih => exact ih member
  | case3 seen name rest fresh unknown ih => exact ih member
  | case4 seen name rest fresh found reached ih =>
    rcases List.mem_cons.mp member with rfl | member
    · rw [(resolve_eq_some reached).2]
      exact reached
    · exact ih member

theorem not_mem_seen_of_mem_walk (member : type ∈ catalog.walk next seen pending) :
    type.name ∉ seen := by
  fun_induction walk catalog next seen pending with
  | case1 => cases member
  | case2 seen name rest visited ih => exact ih member
  | case3 seen name rest fresh unknown ih => exact ih member
  | case4 seen name rest fresh found reached ih =>
    rcases List.mem_cons.mp member with rfl | member
    · rw [(resolve_eq_some reached).2]
      exact fresh
    · exact fun visited => ih member (List.mem_cons_of_mem name visited)

theorem walk_nodup (catalog : Catalog) (next : TypeDef → List String) (seen pending : List String) :
    ((catalog.walk next seen pending).map TypeDef.name).Nodup := by
  fun_induction walk catalog next seen pending with
  | case1 => exact List.nodup_nil
  | case2 seen name rest visited ih => exact ih
  | case3 seen name rest fresh unknown ih => exact ih
  | case4 seen name rest fresh found reached ih =>
    -- The rest of the walk has seen the name of what was met here.
    refine List.nodup_cons.mpr ⟨fun again => ?_, ih⟩
    obtain ⟨other, member, same⟩ := List.mem_map.mp again
    refine not_mem_seen_of_mem_walk member ?_
    rw [same, (resolve_eq_some reached).2]
    exact List.mem_cons_self

/-- Whatever holds of the pending definitions and of what follows them holds of the whole walk. -/
theorem of_mem_walk {among : TypeDef → Prop}
    (begun : ∀ name ∈ pending, ∀ type, catalog.resolve name = some type → among type)
    (closed : ∀ type, among type → ∀ other ∈ catalog.followers next type, among other)
    (member : type ∈ catalog.walk next seen pending) : among type := by
  fun_induction walk catalog next seen pending with
  | case1 => cases member
  | case2 seen name rest visited ih => exact ih (List.forall_mem_cons.mp begun).2 member
  | case3 seen name rest fresh unknown ih => exact ih (List.forall_mem_cons.mp begun).2 member
  | case4 seen name rest fresh found reached ih =>
    obtain ⟨here, others⟩ := List.forall_mem_cons.mp begun
    rcases List.mem_cons.mp member with rfl | member
    · exact here _ reached
    · refine ih (fun other waiting type resolved => ?_) member
      rcases List.mem_append.mp waiting with led | waiting
      · exact closed found (here found reached) type (mem_followers.mpr ⟨other, led, resolved⟩)
      · exact others other waiting type resolved

/-- A name that a walk may not meet any more was seen before or is that of the definition met. -/
theorem seen_or_mem_cons {walked : List TypeDef} {head : String} {here : TypeDef}
    (reached : catalog.resolve head = some here) (found : catalog.resolve name = some other)
    (below : name ∈ head :: seen ∨ other ∈ walked) : name ∈ seen ∨ other ∈ here :: walked := by
  rcases below with visited | later
  · rcases List.mem_cons.mp visited with rfl | visited
    · rw [reached] at found
      cases found
      exact .inr List.mem_cons_self
    · exact .inl visited
  · exact .inr (List.mem_cons_of_mem here later)

theorem mem_walk_of_pending (waiting : name ∈ pending) (found : catalog.resolve name = some type) :
    name ∈ seen ∨ type ∈ catalog.walk next seen pending := by
  fun_induction walk catalog next seen pending with
  | case1 => cases waiting
  | case2 seen head rest visited ih =>
    rcases List.mem_cons.mp waiting with rfl | waiting
    · exact .inl visited
    · exact ih waiting
  | case3 seen head rest fresh unknown ih =>
    rcases List.mem_cons.mp waiting with rfl | waiting
    · rw [unknown] at found
      cases found
    · exact ih waiting
  | case4 seen head rest fresh here reached ih =>
    refine seen_or_mem_cons reached found ?_
    rcases List.mem_cons.mp waiting with rfl | waiting
    · exact .inl List.mem_cons_self
    · exact ih (List.mem_append_right _ waiting)

theorem mem_walk_of_follows (member : type ∈ catalog.walk next seen pending)
    (led : name ∈ next type) (found : catalog.resolve name = some other) :
    name ∈ seen ∨ other ∈ catalog.walk next seen pending := by
  fun_induction walk catalog next seen pending with
  | case1 => cases member
  | case2 seen head rest visited ih => exact ih member
  | case3 seen head rest fresh unknown ih => exact ih member
  | case4 seen head rest fresh here reached ih =>
    refine seen_or_mem_cons reached found ?_
    rcases List.mem_cons.mp member with rfl | member
    · exact mem_walk_of_pending (List.mem_append_left _ led) found
    · exact ih member

end

/-! ### From a definition on -/

theorem walkFrom_nodup (catalog : Catalog) (next : TypeDef → List String) (start : TypeDef) :
    ((catalog.walkFrom next start).map TypeDef.name).Nodup := by
  refine List.nodup_cons.mpr ⟨fun again => ?_, walk_nodup catalog next _ _⟩
  obtain ⟨other, member, same⟩ := List.mem_map.mp again
  exact not_mem_seen_of_mem_walk member (same ▸ List.mem_singleton_self _)

theorem mem_walkFrom_iff {catalog : Catalog} {next : TypeDef → List String} {start type : TypeDef}
    (listed : catalog.resolve start.name = some start) :
    type ∈ catalog.walkFrom next start ↔
      Relation.ReflTransGen (fun type other => other ∈ catalog.followers next type) start type := by
  constructor
  · intro member
    rcases List.mem_cons.mp member with rfl | member
    · exact .refl
    · refine of_mem_walk (fun name led type found => ?_) (fun type reached other follows => ?_)
        member
      · exact .single (mem_followers.mpr ⟨name, led, found⟩)
      · exact reached.tail follows
  · intro reached
    induction reached with
    | refl => exact List.mem_cons_self
    | @tail type other _ follows ih =>
      obtain ⟨name, led, found⟩ := mem_followers.mp follows
      have below : name ∈ [start.name] ∨ other ∈ catalog.walk next [start.name] (next start) := by
        rcases List.mem_cons.mp ih with rfl | member
        · exact mem_walk_of_pending led found
        · exact mem_walk_of_follows member led found
      exact (seen_or_mem_cons listed found below).resolve_left List.not_mem_nil

end Interpose.Catalog
