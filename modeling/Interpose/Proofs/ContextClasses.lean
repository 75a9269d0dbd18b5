import Interpose.Proofs.Bypassing
import Interpose.Proofs.Leaves

/-!
# Context classes

A context class has those type parameters of its method that are leaves of its fields' types, and no
others. The proxy makes objects of it by the name and with the type parameters under which it
declares it: `Proxy.contextClass_suffices`.
-/

namespace Interpose.Proxy

open Writer (indentation)
open TypeRef (HasLeaf)

/-- The types of the fields of a context class: the contract for the underlying object, whose type
parameters, if it has any, are not the method's, and the types of the method's parameters. -/
def fieldTypes (plan : ProxyPlan) (method : Method) : List TypeRef :=
  plan.contract :: method.parameters.map (·.type)

/-- The type parameters of a context class are those of the method that its fields need. -/
structure Suffices (plan : ProxyPlan) (method : Method) (context : ContextClass) : Prop where
  typed : context.fields.map (·.1) = (fieldTypes plan method).map (·.fullName)
  ordered : context.typeParameters.Sublist method.typeParameters
  needed : ∀ name, name ∈ context.typeParameters ↔
    name ∈ method.typeParameters ∧ ∃ parameter ∈ method.parameters, HasLeaf name parameter.type
  closed : plan.contract.Closed → ∀ name ∈ method.typeParameters,
    name ∈ context.typeParameters ↔ ∃ type ∈ fieldTypes plan method, HasLeaf name type

section

variable (plan : ProxyPlan) (method : Method) (index : Nat)

theorem mem_capturedTypeParameters {name : String} : name ∈ method.capturedTypeParameters ↔
    name ∈ method.typeParameters ∧
      ∃ parameter ∈ method.parameters, HasLeaf name parameter.type := by
  rw [method.capturedTypeParameters_eq, List.mem_filter, decide_eq_true_eq]

theorem suffices_ofMethod (locals : Locals) :
    Suffices plan method (.ofMethod plan method index locals) where
  typed := by simp [ContextClass.ofMethod, fieldTypes]
  ordered := List.filter_sublist
  needed _ := mem_capturedTypeParameters method
  closed closed name declared := by
    have inner : (∃ type ∈ fieldTypes plan method, HasLeaf name type) ↔
        ∃ parameter ∈ method.parameters, HasLeaf name parameter.type := by
      rw [fieldTypes, List.exists_mem_cons_iff, or_iff_right (closed.not_hasLeaf name)]
      simp
    exact (mem_capturedTypeParameters method).trans
      ((and_iff_right declared).trans inner.symm)

theorem linesAt_passing : ∃ behind,
    (passing plan method index).linesAt 3 = (indentation 3 ++ packingLine method index) :: behind := by
  obtain ⟨rest, same⟩ := passing_eq plan method index
  have solid : Text.solid (packingLine method index) :=
    Text.solid_append (solid_contextReference method index)
  have first : Writer.step ⟨[], 3⟩ (.line (packingLine method index)) =
      ⟨[indentation 3 ++ packingLine method index], 3⟩ := by
    rw [Writer.step, Writer.line_filled _ (packingLine_ne_empty method index),
      Text.trimEnd_solid solid]
  -- Nothing that is written behind it takes the first line away.
  have under : [indentation 3 ++ packingLine method index] <:+
      Writer.lines ⟨[indentation 3 ++ packingLine method index], 3⟩ := List.suffix_rfl
  obtain ⟨front, lines⟩ :=
    Writer.suffix_run (Writer.indented_ne_empty 2 (packingLine method index)) under rest
  refine ⟨front.reverse, ?_⟩
  rw [same, Script.linesAt, List.foldl_cons, first, ← lines, List.reverse_append]
  rfl

theorem interceptedLines_eq : ∃ before between behind, interceptedLines plan method index =
    before ++ [indentation 2 ++ "private sealed class " ++ contextReference method index,
      indentation 2 ++ "\x7b"] ++ (contextTexts plan method index).map (indentation 3 ++ ·) ++
        between ++ (indentation 3 ++ packingLine method index) :: behind := by
  obtain ⟨behind, passed⟩ := linesAt_passing plan method index
  refine ⟨[""], (indentation 2 ++ "\x7d") :: "" :: (headerLines method ++ guardLines plan method ++
    [""]), behind, ?_⟩
  rw [interceptedLines, contextLines, contextHeader_eq, passed, String.append_assoc]
  simp

end

theorem text_intercepted {plan : ProxyPlan} {method : Method} {index : Nat}
    (listed : plan.methods[index]? = some method) (intercepted : plan.intercepts method)
    (settings : Settings) (identity : Identity) : ∃ before behind,
      (artifact settings plan identity).text =
        Text.ofLines (before ++ interceptedLines plan method index ++ behind) := by
  have member : interceptedLines plan method index ∈ plan.methods.mapIdx fun index method =>
      if plan.intercepts method then interceptedLines plan method index
      else bypassedLines plan method := by
    refine List.mem_of_getElem? (i := index) ?_
    rw [List.getElem?_mapIdx, listed, Option.map_some, if_pos intercepted]
  obtain ⟨before, behind, lines⟩ := List.infix_of_mem_flatten member
  have text : (artifact settings plan identity).text =
      Text.ofLines (proxyLines settings plan identity plan.intercepts) :=
    text_artifact settings plan identity plan.allowList
  refine ⟨(ProxyClass.ofPlan settings plan identity).front.linesAt 0 ++ before,
    behind ++ [indentation 1 ++ "\x7d", "\x7d"], ?_⟩
  rw [text, proxyLines, ← lines]
  simp only [List.append_assoc]

/-- The captured type parameters of a method are those that are leaves of its parameters' types, in
the order of their declaration. They are the type parameters of the method's context class, which
has fields of these types, and of the class whose object the method makes, which is the same. -/
theorem contextClass_suffices (plan : ProxyPlan) (method : Method) (index : Nat) :
    method.capturedTypeParameters = (method.typeParameters.filter fun name =>
      ∃ parameter ∈ method.parameters, HasLeaf name parameter.type) ∧
    (∀ locals,
      let context := ContextClass.ofMethod plan method index locals
      let packing := MethodImpl.packing method index locals
      Suffices plan method context ∧
        packing.className = context.name ∧ packing.typeArguments = context.typeParameters) ∧
    ∀ (settings : Settings) (identity : Identity),
      plan.methods[index]? = some method → plan.intercepts method →
      ∃ before between behind, (artifact settings plan identity).text = Text.ofLines (before ++
        [indentation 2 ++ "private sealed class " ++ contextReference method index,
          indentation 2 ++ "\x7b"] ++ (contextTexts plan method index).map (indentation 3 ++ ·) ++
        between ++ (indentation 3 ++ "var " ++ (Locals.ofParameters method.parameters).context ++
          " = new " ++ contextReference method index) :: behind) := by
  refine ⟨method.capturedTypeParameters_eq, fun locals => ⟨?_, rfl, rfl⟩,
    fun settings identity listed intercepted => ?_⟩
  · exact suffices_ofMethod plan method index locals
  · obtain ⟨before, behind, text⟩ := text_intercepted listed intercepted settings identity
    obtain ⟨upper, between, lower, lines⟩ := interceptedLines_eq plan method index
    refine ⟨before ++ upper, between, lower ++ behind, ?_⟩
    rw [text, lines, packingLine]
    simp only [List.append_assoc, List.cons_append, String.append_assoc]

/-- A method that captures one of its type parameters as it is and one inside a list. -/
def startMethod : Method where
  contract := .named "global::App.IService" "IService"
  name := "Start"
  shape := .void
  returnType := none
  typeParameters := ["T1", "T2", "T3"]
  parameters := [
    ⟨"done", .parameter "T3", .byValue⟩, ⟨"state", .named "global::System.Object" "Object", .byRef⟩,
    ⟨"rows", (TypeRef.named "global::App.List" "List").close [.parameter "T2"], .byValue⟩]
  hook := "Process"

def startPlan : ProxyPlan where
  contract := startMethod.contract
  provider := .named "global::App.Logging" "Logging"
  providerParameters := []
  methods := [startMethod]
  properties := []
  allowList := none

theorem contextClass_start :
    startMethod.capturedTypeParameters = ["T2", "T3"] ∧ startPlan.contract.Closed ∧
      (∀ name ∈ ["T1", "T2", "T3"],
        name ∈ ["T2", "T3"] ↔ ∃ type ∈ fieldTypes startPlan startMethod, HasLeaf name type) ∧
      startPlan.methods[0]? = some startMethod ∧ startPlan.intercepts startMethod ∧
      ∃ before fields between behind,
        (artifact {} startPlan ⟨"Decorators", "Decorator", "Decorator.g.cs"⟩).text =
          Text.ofLines (before ++ ["        private sealed class StartMethodContext_0<T2, T3>",
            "        \x7b"] ++ fields ++ between ++
            "            var methodContext = new StartMethodContext_0<T2, T3>" :: behind) := by
  have closed : startPlan.contract.Closed := by decide
  have intercepted : startPlan.intercepts startMethod := rfl
  obtain ⟨_, classes, texts⟩ := contextClass_suffices startPlan startMethod 0
  have sufficient := (classes (.ofParameters startMethod.parameters)).1
  obtain ⟨before, between, behind, text⟩ := texts {} ⟨"Decorators", "Decorator", "Decorator.g.cs"⟩
    rfl intercepted
  have declared : indentation 2 ++ "private sealed class " ++ contextReference startMethod 0 =
      "        private sealed class StartMethodContext_0<T2, T3>" := by decide +kernel
  have made : indentation 3 ++ "var " ++ (Locals.ofParameters startMethod.parameters).context ++
      " = new " ++ contextReference startMethod 0 =
        "            var methodContext = new StartMethodContext_0<T2, T3>" := by decide +kernel
  rw [declared, made] at text
  exact ⟨by decide +kernel, closed, sufficient.closed closed, rfl, intercepted, before, _, between,
    behind, text⟩

end Interpose.Proxy
