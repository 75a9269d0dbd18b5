import Interpose.Proofs.Readings

/-!
# Forwarding

The lines of an intercepted method, read as they stand and carried out one after the other, do what
one call of the underlying object does, under a hook that passes through: `run_forwards`.
-/

namespace Interpose.Execution

open Proxy
open Writer (indentation)

variable {V : Type}

/-- Every line of a proxy belongs to its front, to one of its methods or to its closing. -/
theorem text_methods (settings : Settings) (plan : ProxyPlan) (identity : Identity) :
    let proxy := ProxyClass.ofPlan settings plan identity
    (artifact settings plan identity).text = Text.ofLines (proxy.front.linesAt 0 ++
      proxy.methods.flatMap (·.lines) ++ [indentation 1 ++ "\x7d", "\x7d"]) := by
  intro proxy
  have fielded : proxy.fields ≠ [] := List.cons_ne_nil _ _
  have sections := ProxyClass.text_sections fielded identity.artifact
  rw [List.flatMap_assoc] at sections
  exact sections

/-- Under a hook that passes through, a call of an intercepted method gives the result of one call
of the underlying object with the same arguments, and leaves in the parameters what that call leaves
there. The provider sees the call unless the allow-list leaves the method out. -/
theorem run_forwards (settings : Settings) {plan : ProxyPlan} (identity : Identity)
    {method : Method} {index : Nat} (listed : plan.methods[index]? = some method)
    (intercepted : plan.intercepts method) (declarable : Declarable method.parameters)
    (gives : method.shape.isVoid ↔ method.returnType = none) {host : Host V}
    (passesThrough : PassesThrough host.hook) (arguments : Nat → V) :
    let proxy := ProxyClass.ofPlan settings plan identity
    let answer := host.implementation (request plan method arguments)
    (artifact settings plan identity).text = Text.ofLines (proxy.front.linesAt 0 ++
        proxy.methods.flatMap (·.lines) ++ [indentation 1 ++ "\x7d", "\x7d"]) ∧
      ∃ written ∈ proxy.methods[index]?,
        (routine? (.ofMethod method) written.lines).bind (run host · arguments) = some {
          result := method.returnType.map fun _ => answer.result
          finals := method.parameters.zipIdx.map fun (parameter, position) =>
            some (if parameter.mode.writesBack then answer.outputs position
              else arguments position)
          events := (if admits host.allowList method then [.hooked method.hook] else []) ++
            [.invoked (request plan method arguments)] } := by
  intro proxy answer
  have written : proxy.methods[index]? = some (MethodImpl.ofMethod plan method index) := by
    simp [proxy, ProxyClass.ofPlan, listed]
  refine ⟨text_methods settings plan identity, _, written, ?_⟩
  rw [routine?_lines declarable.plain intercepted gives, Option.bind_some]
  exact run_routine (Layout.ofMethod declarable) plan index gives passesThrough arguments

/-- A method with a parameter of each mode, under names that the code around it would use. -/
def exchange : Method where
  contract := .named "global::App.IExchange" "IExchange"
  name := "Exchange"
  shape := .value
  returnType := some (.named "int" "int")
  typeParameters := []
  parameters := [
    ⟨"class", .named "int" "int", .byValue⟩, ⟨"context", .named "int" "int", .byRef⟩,
    ⟨"temp_1_context", .named "int" "int", .byOut⟩, ⟨"ref", .named "int" "int", .byIn⟩]
  hook := "ProcessWithReturnType"

def exchangePlan : ProxyPlan where
  contract := .named "global::App.IExchange" "IExchange"
  provider := .named "global::App.Logging" "Logging"
  providerParameters := []
  methods := [exchange]
  properties := []
  allowList := none

def exchangeIdentity : Identity where
  scope := "Decorators.Logging.IExchange"
  className := "Decorator"
  artifact := "Decorator_Logging_IExchange.g.cs"

theorem run_exchange :
    let proxy := ProxyClass.ofPlan {} exchangePlan exchangeIdentity
    let host : Host Nat := {
      hook := fun _ function shared => function shared
      implementation := fun call => ⟨call.inputs.foldl Nat.add 0, fun position => position + 10⟩
      allowList := none }
    (artifact {} exchangePlan exchangeIdentity).text = Text.ofLines (proxy.front.linesAt 0 ++
        proxy.methods.flatMap (·.lines) ++ [indentation 1 ++ "\x7d", "\x7d"]) ∧
      ∃ written ∈ proxy.methods[0]?,
        (routine? (.ofMethod exchange) written.lines).bind (run host · (· + 1)) = some {
          result := some 7
          finals := [some 1, some 11, some 12, some 4]
          events := [
            .hooked "ProcessWithReturnType", .invoked (request exchangePlan exchange (· + 1))] } :=
  run_forwards {} _ rfl (by decide) ⟨by decide, by decide⟩ (by decide) (fun _ _ _ => rfl) _

end Interpose.Execution
