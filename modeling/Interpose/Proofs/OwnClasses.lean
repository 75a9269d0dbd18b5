import Interpose.Proofs.Accounting
import Interpose.Proofs.ContextClasses
import Interpose.Proofs.Locals
import Interpose.Proofs.Methods
import Mathlib.Data.List.Sigma

/-!
# Classes of one proxy

The name of a context class ends in the position of its method among all methods of the plan, and
can be read back into the method's name and that position. So no two methods have classes of one
name, and the class of which a method makes an object is the one that is declared for it, whatever
is bypassed in front of it: `Proxy.contextClass_own`.
-/

namespace Interpose

theorem Text.underscore_notMem_repr (n : Nat) : '_' ∉ n.repr.toList := by
  intro member
  rw [Nat.repr, String.toList_ofList] at member
  exact absurd (Nat.isDigit_of_mem_toDigits (by decide) (by decide) member) (by decide)

/-- What stands behind the last mark can be told from what stands in front of it. -/
theorem Text.append_mark_inj {front other back rest : List Char} {mark : Char}
    (unmarked : mark ∉ back) (restUnmarked : mark ∉ rest)
    (same : front ++ mark :: back = other ++ mark :: rest) : front = other ∧ back = rest := by
  rcases List.append_eq_append_iff.mp same with
    ⟨between, longer, parted⟩ | ⟨between, longer, parted⟩
  · cases between with
    | nil => exact ⟨(longer.trans (List.append_nil _)).symm, (List.cons.inj parted).2⟩
    | cons c between => exact absurd (by simp [(List.cons.inj parted).2]) unmarked
  · cases between with
    | nil => exact ⟨longer.trans (List.append_nil _), (List.cons.inj parted).2.symm⟩
    | cons c between => exact absurd (by simp [(List.cons.inj parted).2]) restUnmarked

namespace Proxy

open Writer (indentation)

theorem ContextClass.nameOf_eq_iff {method other : Method} {index position : Nat} :
    nameOf method index = nameOf other position ↔ method.name = other.name ∧ index = position := by
  constructor
  · intro same
    have letters (method : Method) (index : Nat) : (nameOf method index).toList =
        (method.name ++ "MethodContext").toList ++ '_' :: index.repr.toList := by
      simp [nameOf]
    have spelled := congrArg String.toList same
    rw [letters, letters] at spelled
    obtain ⟨names, numbers⟩ := Text.append_mark_inj (Text.underscore_notMem_repr _)
      (Text.underscore_notMem_repr _) spelled
    exact ⟨(String.append_left_inj _).mp (String.toList_injective names),
      Nat.repr_injective (String.toList_injective numbers)⟩
  · rintro ⟨names, rfl⟩
    rw [nameOf, nameOf, names]

theorem ContextClass.names_nodup (methods : List Method) :
    (methods.zipIdx.map fun row => nameOf row.1 row.2).Nodup := by
  have positions := List.nodup_zipIdx_map_snd methods
  refine List.Nodup.map_on (fun row member other listed same => ?_) positions.of_map
  exact List.inj_on_of_nodup_map positions member listed (nameOf_eq_iff.mp same).2

namespace ProxyClass

/-- The classes that a proxy declares for the arguments of its methods. -/
def contexts (proxy : ProxyClass) : List ContextClass := proxy.methods.filterMap (·.context)

/-- An implementation declares the only class of that name and makes an object of it. -/
structure Owns (proxy : ProxyClass) (name : String) (method : MethodImpl) : Prop where
  declares : ∃ context, method.context = some context ∧
    proxy.contexts.filter (·.name = name) = [context]
  makes : ∃ interception, method.body = .intercepted interception ∧
    interception.packing.className = name

section

variable (settings : Settings) (plan : ProxyPlan) (identity : Identity)

theorem contexts_ofPlan : (ofPlan settings plan identity).contexts =
    plan.methods.zipIdx.filterMap fun row => (MethodImpl.ofMethod plan row.1 row.2).context := by
  rw [contexts, ofPlan, List.mapIdx_eq_zipIdx_map, List.filterMap_map]
  rfl

theorem name_ofMethod {row : Method × Nat} {context : ContextClass}
    (declared : (MethodImpl.ofMethod plan row.1 row.2).context = some context) :
    context.name = ContextClass.nameOf row.1 row.2 := by
  rw [MethodImpl.context_ofMethod] at declared
  split at declared
  · rw [← Option.some.inj declared]
    rfl
  · cases declared

/-- Under the name that belongs to a position the proxy declares the class of that position. -/
theorem filter_contexts {method : Method} {index : Nat}
    (listed : plan.methods[index]? = some method) :
    (ofPlan settings plan identity).contexts.filter (·.name = ContextClass.nameOf method index) =
      (MethodImpl.ofMethod plan method index).context.toList := by
  have member : (method, index) ∈ plan.methods.zipIdx := List.mk_mem_zipIdx_iff_getElem?.mpr listed
  rw [contexts_ofPlan]
  exact filter_filterMap_eq (fun row => ContextClass.nameOf row.1 row.2) ContextClass.name
    (fun _ _ => name_ofMethod plan) (ContextClass.names_nodup plan.methods) member

theorem owns_ofMethod {method : Method} {index : Nat}
    (listed : plan.methods[index]? = some method) (intercepted : plan.intercepts method) :
    Owns (ofPlan settings plan identity) (ContextClass.nameOf method index)
      (MethodImpl.ofMethod plan method index) where
  declares := by
    have only := filter_contexts settings plan identity listed
    rw [MethodImpl.context_ofMethod, if_pos intercepted] at only ⊢
    exact ⟨_, rfl, only⟩
  makes := ⟨_, MethodImpl.body_intercepted intercepted index, rfl⟩

end

end ProxyClass

/-- The lines that each method of a plan lays down. -/
def methodLines (plan : ProxyPlan) : List (List String) :=
  plan.methods.mapIdx fun index method =>
    if plan.intercepts method then interceptedLines plan method index
    else bypassedLines plan method

/-- The lines of a method with a class of its own. The class is declared first, and the body makes
an object of it behind its guard. -/
def ownLines (method : Method) (title : String) (fields guard behind : List String) :
    List String :=
  ["", indentation 2 ++ "private sealed class " ++ title, indentation 2 ++ "\x7b"] ++ fields ++
    [indentation 2 ++ "\x7d", "", indentation 2 ++ (Header.ofMethod method).text,
      indentation 2 ++ "\x7b"] ++ guard ++
    ["", indentation 3 ++ "var " ++ (Locals.ofParameters method.parameters).context ++ " = new " ++
      title] ++ behind

theorem interceptedLines_own (plan : ProxyPlan) (method : Method) (index : Nat) :
    ∃ fields guard behind, interceptedLines plan method index =
      ownLines method (contextReference method index) fields guard behind := by
  obtain ⟨behind, passed⟩ := linesAt_passing plan method index
  refine ⟨(contextTexts plan method index).map (indentation 3 ++ ·), guardLines plan method, behind,
    ?_⟩
  rw [interceptedLines, contextLines, contextHeader_eq, passed, packingLine, ownLines, headerLines]
  simp [String.append_assoc]

/-- No two methods of a plan have classes of one name. A method that is intercepted makes its object
of the class that is declared for it, in the text of the proxy as well: there the lines of the
methods stand in order, and those of an intercepted one begin with the class that its body uses. -/
theorem contextClass_own (settings : Settings) (plan : ProxyPlan) (identity : Identity) :
    let proxy := ProxyClass.ofPlan settings plan identity
    (plan.methods.mapIdx fun index method => ContextClass.nameOf method index).Nodup ∧
    (artifact settings plan identity).text = Text.ofLines (proxy.front.linesAt 0 ++
      (methodLines plan).flatten ++ [indentation 1 ++ "\x7d", "\x7d"]) ∧
    ∀ (index : Nat) (method : Method), plan.methods[index]? = some method →
      plan.intercepts method →
      (∃ implementation, proxy.methods[index]? = some implementation ∧
        proxy.Owns (ContextClass.nameOf method index) implementation) ∧
      ∃ fields guard behind, (methodLines plan)[index]? = some (ownLines method
        (ContextClass.nameOf method index ++ Spelling.typeList method.capturedTypeParameters)
        fields guard behind) := by
  refine ⟨?_, text_artifact settings plan identity plan.allowList,
    fun index method listed intercepted => ⟨?_, ?_⟩⟩
  · rw [List.mapIdx_eq_zipIdx_map]
    exact ContextClass.names_nodup plan.methods
  · refine ⟨_, ?_, ProxyClass.owns_ofMethod settings plan identity listed intercepted⟩
    rw [ProxyClass.ofPlan, List.getElem?_mapIdx, listed, Option.map_some]
  · obtain ⟨fields, guard, behind, lines⟩ := interceptedLines_own plan method index
    refine ⟨fields, guard, behind, ?_⟩
    rw [methodLines, List.getElem?_mapIdx, listed, Option.map_some, if_pos intercepted, lines]
    rfl

def relaying (name : String) : Method where
  contract := .named "global::App.IRelay" "IRelay"
  name := name
  shape := .void
  returnType := none
  typeParameters := []
  parameters := []
  hook := "Process"

/-- A method that is bypassed, two of one name, and one that is named like the class of another. -/
def relayPlan : ProxyPlan where
  contract := .named "global::App.IRelay" "IRelay"
  provider := .named "global::App.Logging" "Logging"
  providerParameters := []
  methods := ["Close", "Send", "Send", "SendMethodContext_1"].map relaying
  properties := []
  allowList := some (.ofList ["Send", "SendMethodContext_1"])

theorem contextClass_own_relay :
    let proxy := ProxyClass.ofPlan {} relayPlan ⟨"Decorators", "Decorator", "Decorator.g.cs"⟩
    ¬ relayPlan.intercepts (relaying "Close") ∧
      relayPlan.methods[2]? = some (relaying "Send") ∧ relayPlan.intercepts (relaying "Send") ∧
      (relayPlan.methods.mapIdx fun index method => ContextClass.nameOf method index).Nodup ∧
      (∃ implementation, proxy.methods[2]? = some implementation ∧
        proxy.Owns "SendMethodContext_2" implementation) ∧
      ∃ fields guard behind, (methodLines relayPlan)[2]? =
        some (ownLines (relaying "Send") "SendMethodContext_2" fields guard behind) := by
  have listed : relayPlan.methods[2]? = some (relaying "Send") := rfl
  have intercepted : relayPlan.intercepts (relaying "Send") := by decide
  have named : ContextClass.nameOf (relaying "Send") 2 = "SendMethodContext_2" := by decide +kernel
  have plain : "SendMethodContext_2" ++
      Spelling.typeList (relaying "Send").capturedTypeParameters = "SendMethodContext_2" := by
    decide +kernel
  obtain ⟨distinct, _, own⟩ :=
    contextClass_own {} relayPlan ⟨"Decorators", "Decorator", "Decorator.g.cs"⟩
  obtain ⟨owns, lines⟩ := own 2 _ listed intercepted
  rw [named] at owns lines
  rw [plain] at lines
  exact ⟨by decide, listed, intercepted, distinct, owns, lines⟩

end Proxy

end Interpose
