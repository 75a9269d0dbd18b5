import Interpose.Proofs.Methods
import Interpose.Proofs.Outlines

/-!
# Lines of a method

All parts of a proxy end at the depth at which they begin. So the body of a method stands in the
artifact behind the method's header: `opened_infix_artifact`.
-/

namespace Interpose

namespace Script

theorem level_braced (header closing : String) {body : Script} (level : Level body) :
    Level (.enter header :: body ++ [.leave closing]) := by
  intro depth
  show (body ++ [Step.leave closing]).foldl Step.deepen (depth + 1) = depth
  rw [List.foldl_append, level]
  rfl

theorem level_flatMap {α : Type} {items : List α} {script : α → Script}
    (level : ∀ item ∈ items, Level (script item)) : Level (items.flatMap script) := by
  induction items with
  | nil => exact level_nil
  | cons item others ih =>
    exact (level item List.mem_cons_self).append
      (ih fun other member => level other (List.mem_cons_of_mem item member))

end Script

namespace Proxy

open Script (Level)
open Writer (indentation laidLine)

theorem ContextClass.level (context : ContextClass) : Level context.script := by
  have lines := Script.level_lines
    (context.fields.map fun field => "public " ++ field.1 ++ " " ++ field.2 ++ ";")
  rw [List.map_map] at lines
  exact Script.level_block _ lines

theorem Guard.level_conditions (entries : List GuardEntry) : Level (conditions entries) := by
  induction entries with
  | nil => exact Script.level_nil
  | cons entry rest ih => exact Script.level_line _ ih

theorem Guard.level (guard : Guard) : Level guard.script :=
  Script.level_line _ ((level_conditions guard.entries).append
    (Script.level_block "" (Stmt.level_script guard.bypass)))

theorem Packing.level_assignments (fields : List (String × Expr)) : Level (assignments fields) := by
  induction fields with
  | nil => exact Script.level_nil
  | cons field rest ih => exact Script.level_line _ ih

theorem Packing.level (packing : Packing) : Level packing.script :=
  Script.level_line _ (Script.level_braced "" "\x7d;" (level_assignments packing.fields))

theorem HookCall.level (call : HookCall) : Level call.script := by
  refine Script.level_line _ (Script.level_braced "" "\x7d);" (Level.spaced ?_))
  intro part member
  obtain ⟨statements, _, rfl⟩ := List.mem_map.mp member
  exact Stmt.level_script statements

theorem Body.level (body : Body) : Level body.script := by
  cases body with
  | direct statements => exact Stmt.level_script statements
  | intercepted interception =>
    apply Level.spaced
    simp only [List.forall_mem_cons]
    exact ⟨interception.guard.level, interception.packing.level, interception.hookCall.level,
      Stmt.level_script _, Stmt.level_script _, by simp⟩

theorem MethodImpl.level (method : MethodImpl) : ∀ part ∈ method.scripts, Level part := by
  intro part member
  rcases List.mem_append.mp member with early | late
  · obtain ⟨context, _, rfl⟩ := Option.map_eq_some_iff.mp (Option.mem_toList.mp early)
    exact context.level
  · rw [List.mem_singleton.mp late]
    exact Script.level_block _ method.body.level

theorem PropertyImpl.level (property : PropertyImpl) : Level property.script := by
  apply Script.level_block
  apply Script.level_flatMap
  intro accessor _
  exact Script.level_block _ (Stmt.level_script accessor.2)

/-- The lines from a method's header to the end of its body. -/
def MethodImpl.opened (depth : Nat) (method : MethodImpl) : List String :=
  laidLine depth method.header.text ++
    (indentation depth ++ "\x7b") :: method.body.script.laid (depth + 1)

theorem MethodImpl.opened_infix (depth : Nat) (method : MethodImpl) :
    method.opened depth <:+: method.scripts.flatMap (Script.laid depth) := by
  have block : method.scripts.flatMap (Script.laid depth) =
      (method.context.map (·.script)).toList.flatMap (Script.laid depth) ++ method.opened depth ++
        [indentation depth ++ "\x7d"] := by
    rw [scripts, List.flatMap_append, List.flatMap_singleton,
      Script.laid_block depth _ method.body.level, opened]
    simp only [List.append_assoc, List.cons_append, List.nil_append]
  rw [block]
  exact List.infix_append _ _ _

namespace ProxyClass

theorem level_parts (proxy : ProxyClass) : ∀ part ∈ proxy.fieldLines :: proxy.constructor ::
    proxy.properties.map (·.script) ++ proxy.methods.flatMap (·.scripts), Level part := by
  intro part member
  rcases List.mem_append.mp member with early | late
  · rcases List.mem_cons.mp early with rfl | early
    · exact Declaration.level_fieldLines proxy
    rcases List.mem_cons.mp early with rfl | early
    · exact Declaration.level_constructor proxy
    · obtain ⟨property, _, rfl⟩ := List.mem_map.mp early
      exact property.level
  · obtain ⟨method, _, within⟩ := List.mem_flatMap.mp late
    exact method.level part within

theorem level (proxy : ProxyClass) : Level proxy.script :=
  Script.level_block _ (Level.spaced proxy.level_parts)

theorem opened_infix {proxy : ProxyClass} {method : MethodImpl} (listed : method ∈ proxy.methods)
    (depth : Nat) : method.opened (depth + 1) <:+: proxy.script.laid depth := by
  have among : method.scripts.flatMap (Script.laid (depth + 1)) <:+:
      (proxy.methods.flatMap (·.scripts)).flatMap (Script.laid (depth + 1)) := by
    rw [List.flatMap_assoc, List.flatMap_def]
    exact List.infix_of_mem_flatten (List.mem_map_of_mem listed)
  rw [script, Script.laid_block depth _ (Level.spaced proxy.level_parts),
    Script.laid_spaced _ proxy.level_parts, List.flatMap_append]
  refine (method.opened_infix (depth + 1)).trans (among.trans ?_)
  exact (List.suffix_append _ _).isInfix.trans (List.infix_append _ _ _)

end ProxyClass

theorem laid_infix_ofScope (name scope : String) {body : Script} (level : Level body) :
    body.laid 1 <:+: Text.inked (Artifact.ofScope name scope body).text := by
  have heading : Level (Artifact.heading.map Step.line) := Script.level_lines _
  unfold Artifact.ofScope
  rw [Script.inked_text, heading.laid_append, Script.laid, Step.laid, Step.deepen,
    Script.laid_block 0 _ level, Nat.zero_add, List.nil_append]
  exact (List.infix_append _ _ _).trans (List.suffix_append _ _).isInfix

/-- The artifact of a plan holds every method of it, from the header to the end of the body. -/
theorem opened_infix_artifact (settings : Settings) {plan : ProxyPlan} (identity : Identity)
    {method : Method} (listed : method ∈ plan.methods) : ∃ index,
    (MethodImpl.ofMethod plan method index).opened 2 <:+:
      Text.inked (Proxy.artifact settings plan identity).text := by
  obtain ⟨index, within, rfl⟩ := List.mem_iff_getElem.mp listed
  let proxy := ProxyClass.ofPlan settings plan identity
  have written : MethodImpl.ofMethod plan plan.methods[index] index ∈ proxy.methods :=
    List.mem_mapIdx.mpr ⟨index, within, rfl⟩
  exact ⟨index, (ProxyClass.opened_infix written 1).trans
    (laid_infix_ofScope identity.artifact proxy.scope proxy.level)⟩

end Proxy

end Interpose
