import Interpose.Proxy.Method

/-!
# Methods as they are written

What a statement that loads or stores a variable can be, and how an intercepted method differs from
any other.
-/

namespace Interpose.Proxy.MethodImpl

theorem load_eq_some {context : String} {row : Parameter × Option String} {statement : Stmt}
    (loads : load context row = some statement) :
    ∃ temporary ∈ row.2, statement = .declare temporary (slot context row.1) := by
  obtain ⟨parameter, temporary⟩ := row
  cases temporary with
  | none => cases loads
  | some temporary =>
    obtain ⟨_, same⟩ := Option.ite_none_left_eq_some.mp loads
    exact ⟨temporary, rfl, (Option.some.inj same).symm⟩

theorem store_eq_some {context : String} {row : Parameter × Option String} {statement : Stmt}
    (stores : store context row = some statement) :
    ∃ temporary ∈ row.2, statement = .assign (slot context row.1) (.name temporary) := by
  obtain ⟨parameter, temporary⟩ := row
  cases temporary with
  | none => cases stores
  | some temporary =>
    obtain ⟨_, same⟩ := Option.ite_none_right_eq_some.mp stores
    exact ⟨temporary, rfl, (Option.some.inj same).symm⟩

theorem header_ofMethod (plan : ProxyPlan) (method : Method) (index : Nat) :
    (ofMethod plan method index).header = .ofMethod method := by
  unfold ofMethod
  dsimp only
  split <;> rfl

theorem context_ofMethod (plan : ProxyPlan) (method : Method) (index : Nat) :
    (ofMethod plan method index).context = if plan.intercepts method then
      some (.ofMethod plan method index (.ofParameters method.parameters)) else none := by
  unfold ofMethod
  dsimp only
  split <;> rfl

theorem body_intercepted {plan : ProxyPlan} {method : Method}
    (intercepted : plan.intercepts method) (index : Nat) : (ofMethod plan method index).body =
      .intercepted (interception plan method index (.ofParameters method.parameters)) := by
  unfold ofMethod
  rw [if_pos intercepted]

end Interpose.Proxy.MethodImpl
