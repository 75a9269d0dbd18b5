import Interpose.Proofs.Characters
import Interpose.Proofs.Methods
import Interpose.Proofs.Outlines
import Interpose.Proxy.File
import Mathlib.Algebra.Order.BigOperators.Group.List
import Mathlib.Algebra.Order.Ring.Nat

/-!
# Words of members

A proxy with its members spelled has a sign wherever the name of a method, of a property or of a
method's type parameter is a reserved word. The text of a proxy is that of the spelled one only
where no such name is reserved: `text_spelled_iff`.
-/

namespace Interpose

open Spelling (identifier reserved)

/-! ### Spelling -/

def Expr.spelled : Expr → Expr
  | .member target word => .member target (identifier word)
  | other => other

def Call.spelled (call : Call) : Call :=
  { call with
    method := identifier call.method
    typeArguments := call.typeArguments.map identifier }

/-- Spells the member that a statement calls, reads or writes. -/
def Stmt.spelled : Stmt → Stmt
  | .declareCall name made => .declareCall name made.spelled
  | .assign target value => .assign target.spelled value
  | .call made => .call made.spelled
  | .giveCall made => .giveCall made.spelled
  | .give value => .give value.spelled
  | other => other

namespace Proxy

def ContextClass.spelled (context : ContextClass) : ContextClass :=
  { context with typeParameters := context.typeParameters.map identifier }

def Header.spelled (header : Header) : Header :=
  { header with
    method := identifier header.method
    typeParameters := header.typeParameters.map identifier }

def GuardEntry.spelled : GuardEntry → GuardEntry
  | .nameOf contract member => .nameOf contract (identifier member)
  | .literal text => .literal text

def Guard.spelled (guard : Guard) : Guard where
  entries := guard.entries.map (·.spelled)
  bypass := guard.bypass.map (·.spelled)

def Packing.spelled (packing : Packing) : Packing :=
  { packing with typeArguments := packing.typeArguments.map identifier }

def HookCall.spelled (call : HookCall) : HookCall :=
  { call with body := call.body.map (·.map (·.spelled)) }

def Interception.spelled (interception : Interception) : Interception where
  guard := interception.guard.spelled
  packing := interception.packing.spelled
  hookCall := interception.hookCall.spelled
  writeBacks := interception.writeBacks.map (·.spelled)
  ending := interception.ending.map (·.spelled)

def Body.spelled : Body → Body
  | .direct statements => .direct (statements.map (·.spelled))
  | .intercepted interception => .intercepted interception.spelled

def MethodImpl.spelled (method : MethodImpl) : MethodImpl where
  context := method.context.map (·.spelled)
  header := method.header.spelled
  body := method.body.spelled

def PropertyImpl.spelled (property : PropertyImpl) : PropertyImpl :=
  { property with
    name := identifier property.name
    accessors := property.accessors.map fun (accessor, body) => (accessor, body.map (·.spelled)) }

/-- Spells every member that the proxy declares or uses. -/
def ProxyClass.spelled (proxy : ProxyClass) : ProxyClass :=
  { proxy with
    properties := proxy.properties.map (·.spelled)
    methods := proxy.methods.map (·.spelled) }

end Proxy

/-- The names of methods, of their type parameters and of properties. -/
def ProxyPlan.memberNames (plan : ProxyPlan) : List String :=
  (plan.methods.flatMap fun method => method.name :: method.typeParameters) ++
    plan.properties.map (·.name)

/-! ### Signs -/

namespace Text

def signs (text : String) : Nat := text.toList.count '@'

@[simp] theorem signs_append (first second : String) :
    signs (first ++ second) = signs first + signs second := by
  rw [signs, String.toList_append, List.count_append]
  rfl

theorem signs_identifier (name : String) :
    signs (identifier name) = signs name + if name ∈ reserved then 1 else 0 := by
  unfold identifier
  by_cases member : name ∈ reserved
  · rw [if_pos (by simpa using member), if_pos member, signs_append, Nat.add_comm]
    rfl
  · rw [if_neg (by simpa using member), if_neg member]
    rfl

theorem signs_le_identifier (name : String) : signs name ≤ signs (identifier name) := by
  rw [signs_identifier]
  exact Nat.le_add_right _ _

theorem signs_lt_identifier {name : String} (member : name ∈ reserved) :
    signs name < signs (identifier name) := by
  rw [signs_identifier, if_pos member]
  exact Nat.lt_succ_self _

theorem signs_commaList (items : List String) :
    signs (Spelling.commaList items) = (items.map signs).sum := by
  unfold Spelling.commaList
  induction items with
  | nil => rfl
  | cons item others ih =>
    cases others with
    | nil => simp
    | cons next others =>
      rw [String.intercalate_cons_cons, signs_append, signs_append, ih, List.map_cons,
        List.sum_cons]
      rfl

theorem signs_typeList (names : List String) :
    signs (Spelling.typeList names) = (names.map signs).sum := by
  unfold Spelling.typeList
  split
  · rename_i empty
    rw [List.isEmpty_iff.mp empty]
    rfl
  · rw [← signs_commaList, TypeRef.angled, signs_append, signs_append]
    show 0 + _ + 0 = _
    rw [Nat.zero_add, Nat.add_zero]
    rfl

theorem signs_typeList_le (names : List String) :
    signs (Spelling.typeList names) ≤ signs (Spelling.typeList (names.map identifier)) := by
  rw [signs_typeList, signs_typeList, List.map_map]
  exact List.sum_le_sum fun name _ => signs_le_identifier name

theorem signs_typeList_lt {names : List String} {name : String} (listed : name ∈ names)
    (member : name ∈ reserved) :
    signs (Spelling.typeList names) < signs (Spelling.typeList (names.map identifier)) := by
  rw [signs_typeList, signs_typeList, List.map_map]
  exact List.sum_lt_sum _ _ (fun name _ => signs_le_identifier name)
    ⟨name, listed, signs_lt_identifier member⟩

end Text

namespace Script

def signs (script : Script) : Nat := script.characters.count '@'

@[simp] theorem signs_nil : signs [] = 0 := rfl

@[simp] theorem signs_append (first second : Script) :
    signs (first ++ second) = signs first + signs second := by
  rw [signs, characters_append, List.count_append]
  rfl

@[simp] theorem signs_line (text : String) (rest : Script) :
    signs (.line text :: rest) = Text.signs text + signs rest := by
  rw [signs, characters_cons, List.count_append]
  rfl

@[simp] theorem signs_blank (rest : Script) : signs (.blank :: rest) = signs rest := rfl

@[simp] theorem signs_enter (header : String) (rest : Script) :
    signs (.enter header :: rest) = Text.signs header + signs rest := by
  rw [signs, characters_cons, List.count_append, Step.characters, List.count_append]
  rfl

@[simp] theorem signs_leave (closing : String) (rest : Script) :
    signs (.leave closing :: rest) = Text.signs closing + signs rest := by
  rw [signs, characters_cons, List.count_append]
  rfl

theorem signs_flatMap {α : Type} (items : List α) (script : α → Script) :
    signs (items.flatMap script) = (items.map fun item => signs (script item)).sum := by
  induction items with
  | nil => rfl
  | cons item others ih => rw [List.flatMap_cons, signs_append, ih, List.map_cons, List.sum_cons]

@[simp] theorem signs_block (header : String) (body : Script) :
    signs (block header body) = Text.signs header + signs body := by
  rw [block, List.cons_append, signs_enter, signs_append]
  rfl

theorem signs_spaced (parts : List Script) : signs (spaced parts) = (parts.map signs).sum := by
  induction parts with
  | nil => rfl
  | cons first others ih =>
    rw [List.map_cons, List.sum_cons, ← ih]
    rcases spaced_cons first others with same | same
    · rw [same, signs_append]
    · rw [same, signs_append, signs_blank]

theorem signs_eq_of_text_eq {first second : Script} (same : first.text = second.text) :
    signs first = signs second := by
  have inked : ∀ c, (c == '@') = true → Text.blank c = false := by
    intro c sign
    rw [eq_of_beq sign]
    decide
  have kept := congrArg (fun text => (text.toList.filter (· == '@')).length) same
  simp only [filter_text inked] at kept
  rwa [← List.countP_eq_length_filter, ← List.countP_eq_length_filter] at kept

end Script

/-! ### Spelling adds signs -/

theorem Expr.signs_le (expr : Expr) : Text.signs expr.text ≤ Text.signs expr.spelled.text := by
  cases expr with
  | name word => exact Nat.le_refl _
  | cast type target => exact Nat.le_refl _
  | member target word =>
    have word := Text.signs_le_identifier word
    simp only [spelled, text, Text.signs_append]
    omega

theorem Call.signs_le (call : Call) : Text.signs call.text ≤ Text.signs call.spelled.text := by
  have method := Text.signs_le_identifier call.method
  have types := Text.signs_typeList_le call.typeArguments
  simp only [spelled, text, Expr.text, Text.signs_append]
  omega

namespace Stmt

theorem signs_le (statement : Stmt) :
    Text.signs statement.text ≤ Text.signs statement.spelled.text := by
  cases statement with
  | declare name value => exact Nat.le_refl _
  | stop => exact Nat.le_refl _
  | throwNew type => exact Nat.le_refl _
  | declareCall name made =>
    have made := made.signs_le
    simp only [spelled, text, Text.signs_append]
    omega
  | assign target value =>
    have target := target.signs_le
    simp only [spelled, text, Text.signs_append]
    omega
  | call made =>
    have made := made.signs_le
    simp only [spelled, text, Text.signs_append]
    omega
  | giveCall made =>
    have made := made.signs_le
    simp only [spelled, text, Text.signs_append]
    omega
  | give value =>
    have value := value.signs_le
    simp only [spelled, text, Text.signs_append]
    omega

theorem signs_script_le (statements : List Stmt) :
    (script statements).signs ≤ (script (statements.map (·.spelled))).signs := by
  induction statements with
  | nil => exact Nat.le_refl _
  | cons statement rest ih =>
    have first := statement.signs_le
    show Script.signs (.line statement.text :: script rest) ≤
      Script.signs (.line statement.spelled.text :: script (rest.map (·.spelled)))
    rw [Script.signs_line, Script.signs_line]
    omega

end Stmt

namespace Proxy

theorem ContextClass.signs_le (context : ContextClass) :
    context.script.signs ≤ context.spelled.script.signs := by
  have types := Text.signs_typeList_le context.typeParameters
  simp only [script, spelled, Script.signs_block, Text.signs_append]
  omega

theorem Header.signs_le (header : Header) :
    Text.signs header.text ≤ Text.signs header.spelled.text := by
  have method := Text.signs_le_identifier header.method
  have types := Text.signs_typeList_le header.typeParameters
  simp only [text, spelled, Text.signs_append]
  omega

theorem Header.signs_lt {header : Header} {name : String}
    (written : name ∈ header.method :: header.typeParameters) (member : name ∈ reserved) :
    Text.signs header.text < Text.signs header.spelled.text := by
  have method := Text.signs_le_identifier header.method
  have types := Text.signs_typeList_le header.typeParameters
  simp only [text, spelled, Text.signs_append]
  rcases List.mem_cons.mp written with rfl | listed
  · have more := Text.signs_lt_identifier member
    omega
  · have more := Text.signs_typeList_lt listed member
    omega

theorem GuardEntry.signs_le (entry : GuardEntry) :
    Text.signs entry.text ≤ Text.signs entry.spelled.text := by
  cases entry with
  | literal text => exact Nat.le_refl _
  | nameOf contract member =>
    have member := Text.signs_le_identifier member
    simp only [text, spelled, Text.signs_append]
    omega

theorem Guard.signs_conditions_le (entries : List GuardEntry) :
    (conditions entries).signs ≤ (conditions (entries.map (·.spelled))).signs := by
  induction entries with
  | nil => exact Nat.le_refl _
  | cons entry rest ih =>
    have first := entry.signs_le
    simp only [List.map_cons, conditions, Script.signs_line, Text.signs_append, List.isEmpty_map]
    omega

theorem Guard.signs_le (guard : Guard) : guard.script.signs ≤ guard.spelled.script.signs := by
  have conditions := signs_conditions_le guard.entries
  have bypass := Stmt.signs_script_le guard.bypass
  simp only [script, spelled, List.cons_append, Script.signs_line, Script.signs_append,
    Script.signs_block]
  omega

theorem Packing.signs_le (packing : Packing) :
    packing.script.signs ≤ packing.spelled.script.signs := by
  have types := Text.signs_typeList_le packing.typeArguments
  simp only [script, spelled, List.cons_append, Script.signs_line, Script.signs_enter,
    Script.signs_append, Script.signs_leave, Text.signs_append]
  omega

theorem HookCall.signs_le (call : HookCall) : call.script.signs ≤ call.spelled.script.signs := by
  have body : (Script.spaced (call.body.map Stmt.script)).signs ≤
      (Script.spaced ((call.body.map (·.map (·.spelled))).map Stmt.script)).signs := by
    rw [Script.signs_spaced, Script.signs_spaced, List.map_map, List.map_map, List.map_map]
    exact List.sum_le_sum fun statements _ => Stmt.signs_script_le statements
  simp only [script, spelled, List.cons_append, Script.signs_line, Script.signs_enter,
    Script.signs_append, Script.signs_leave]
  omega

theorem Interception.signs_le (interception : Interception) :
    interception.script.signs ≤ interception.spelled.script.signs := by
  have guard := interception.guard.signs_le
  have packing := interception.packing.signs_le
  have hookCall := interception.hookCall.signs_le
  have writeBacks := Stmt.signs_script_le interception.writeBacks
  have ending := Stmt.signs_script_le interception.ending
  simp only [script, spelled, Script.signs_spaced, List.map_cons, List.sum_cons, List.map_nil]
  omega

theorem Body.signs_le (body : Body) : body.script.signs ≤ body.spelled.script.signs := by
  cases body with
  | direct statements => exact Stmt.signs_script_le statements
  | intercepted interception => exact interception.signs_le

def MethodImpl.signs (method : MethodImpl) : Nat := (method.scripts.map Script.signs).sum

theorem MethodImpl.signs_eq (method : MethodImpl) : method.signs =
    (method.context.map fun context => context.script.signs).getD 0 +
      (Text.signs method.header.text + method.body.script.signs) := by
  unfold signs scripts
  cases method.context <;> simp

theorem MethodImpl.signs_context_le (method : MethodImpl) :
    (method.context.map fun context => context.script.signs).getD 0 ≤
      (method.spelled.context.map fun context => context.script.signs).getD 0 := by
  unfold spelled
  cases method.context with
  | none => exact Nat.le_refl _
  | some context => exact context.signs_le

theorem MethodImpl.signs_le (method : MethodImpl) : method.signs ≤ method.spelled.signs := by
  have context := method.signs_context_le
  have header := method.header.signs_le
  have body := method.body.signs_le
  rw [signs_eq, signs_eq]
  exact Nat.add_le_add context (Nat.add_le_add header body)

theorem MethodImpl.signs_lt {method : MethodImpl} {name : String}
    (written : name ∈ method.header.method :: method.header.typeParameters)
    (member : name ∈ reserved) : method.signs < method.spelled.signs := by
  have context := method.signs_context_le
  have header := Header.signs_lt written member
  have body := method.body.signs_le
  rw [signs_eq, signs_eq]
  exact Nat.add_lt_add_of_le_of_lt context (Nat.add_lt_add_of_lt_of_le header body)

/-- The header grows by what the name does, and the bodies never shrink. -/
theorem PropertyImpl.signs_grow (property : PropertyImpl) :
    property.script.signs + Text.signs (identifier property.name) ≤
      property.spelled.script.signs + Text.signs property.name := by
  have bodies : (property.accessors.map fun (accessor, body) =>
      (Script.block (keyword accessor) (Stmt.script body)).signs).sum ≤
        (property.spelled.accessors.map fun (accessor, body) =>
          (Script.block (keyword accessor) (Stmt.script body)).signs).sum := by
    rw [spelled, List.map_map]
    refine List.sum_le_sum fun (accessor, body) _ => ?_
    have body := Stmt.signs_script_le body
    simp only [Function.comp_apply, Script.signs_block]
    omega
  simp only [script, Script.signs_block, Script.signs_flatMap, Text.signs_append] at bodies ⊢
  simp only [spelled] at bodies ⊢
  omega

theorem PropertyImpl.signs_le (property : PropertyImpl) :
    property.script.signs ≤ property.spelled.script.signs := by
  have grown := property.signs_grow
  have name := Text.signs_le_identifier property.name
  omega

theorem PropertyImpl.signs_lt {property : PropertyImpl} (member : property.name ∈ reserved) :
    property.script.signs < property.spelled.script.signs := by
  have grown := property.signs_grow
  have name := Text.signs_lt_identifier member
  omega

namespace ProxyClass

theorem signs_eq (proxy : ProxyClass) : proxy.script.signs =
    Text.signs ("public sealed class " ++ proxy.name ++ " : " ++ proxy.contract) +
      (proxy.fieldLines.signs + (proxy.constructor.signs +
        ((proxy.properties.map fun property => property.script.signs).sum +
          (proxy.methods.map MethodImpl.signs).sum))) := by
  have methods : ((proxy.methods.flatMap (·.scripts)).map Script.signs).sum =
      (proxy.methods.map MethodImpl.signs).sum := by
    rw [List.map_flatMap, List.flatMap_def, List.sum_flatten, List.map_map]
    rfl
  rw [script, Script.signs_block, Script.signs_spaced, List.cons_append, List.map_cons,
    List.sum_cons, List.cons_append, List.map_cons, List.sum_cons, List.map_append,
    List.sum_append_nat, methods, List.map_map]
  rfl

variable (proxy : ProxyClass)

theorem signs_properties_le :
    (proxy.properties.map fun property => property.script.signs).sum ≤
      (proxy.spelled.properties.map fun property => property.script.signs).sum := by
  rw [spelled, List.map_map]
  exact List.sum_le_sum fun property _ => property.signs_le

theorem signs_methods_le :
    (proxy.methods.map MethodImpl.signs).sum ≤ (proxy.spelled.methods.map MethodImpl.signs).sum := by
  rw [spelled, List.map_map]
  exact List.sum_le_sum fun method _ => method.signs_le

/-- A reserved word among the members' names is written with one sign more at least. -/
theorem signs_lt {proxy : ProxyClass} {name : String} (member : name ∈ reserved)
    (written : (∃ method ∈ proxy.methods, name ∈ method.header.method :: method.header.typeParameters) ∨
      ∃ property ∈ proxy.properties, property.name = name) :
    proxy.script.signs < proxy.spelled.script.signs := by
  have properties := proxy.signs_properties_le
  have methods := proxy.signs_methods_le
  have same : Text.signs ("public sealed class " ++ proxy.spelled.name ++ " : " ++
      proxy.spelled.contract) + (proxy.spelled.fieldLines.signs + proxy.spelled.constructor.signs) =
    Text.signs ("public sealed class " ++ proxy.name ++ " : " ++ proxy.contract) +
      (proxy.fieldLines.signs + proxy.constructor.signs) := rfl
  rw [signs_eq, signs_eq]
  rcases written with ⟨method, listed, among⟩ | ⟨property, listed, rfl⟩
  · have more : (proxy.methods.map MethodImpl.signs).sum <
        (proxy.spelled.methods.map MethodImpl.signs).sum := by
      rw [spelled, List.map_map]
      exact List.sum_lt_sum _ _ (fun method _ => method.signs_le)
        ⟨method, listed, MethodImpl.signs_lt among member⟩
    omega
  · have more : (proxy.properties.map fun property => property.script.signs).sum <
        (proxy.spelled.properties.map fun property => property.script.signs).sum := by
      rw [spelled, List.map_map]
      exact List.sum_lt_sum _ _ (fun property _ => property.signs_le)
        ⟨property, listed, PropertyImpl.signs_lt member⟩
    omega

end ProxyClass

/-! ### Where nothing is reserved -/

theorem identifier_of_free {name : String} (free : name ∉ reserved) : identifier name = name :=
  if_neg (by simpa using free)

theorem identifier_identifier (name : String) : identifier (identifier name) = identifier name := by
  by_cases member : name ∈ reserved
  · apply identifier_of_free
    intro again
    have signless : ∀ word ∈ reserved, Text.signs word = 0 := by decide +kernel
    have more := Text.signs_lt_identifier member
    rw [signless _ again] at more
    exact absurd more (Nat.not_lt_zero _)
  · rw [identifier_of_free member, identifier_of_free member]

theorem map_eq_self {α : Type} {items : List α} {f : α → α} (same : ∀ item ∈ items, f item = item) :
    items.map f = items :=
  (List.map_congr_left same).trans (List.map_id items)

theorem spelled_slot (context : String) (parameter : Parameter) :
    (MethodImpl.slot context parameter).spelled = MethodImpl.slot context parameter :=
  congrArg (Expr.member _) (identifier_identifier parameter.name)

theorem spelled_loads (context : String) (parameters : List (Parameter × Option String)) :
    (parameters.filterMap (MethodImpl.load context)).map (·.spelled) =
      parameters.filterMap (MethodImpl.load context) := by
  apply map_eq_self
  intro statement member
  obtain ⟨row, _, loads⟩ := List.mem_filterMap.mp member
  obtain ⟨temporary, _, rfl⟩ := MethodImpl.load_eq_some loads
  rfl

theorem spelled_stores (context : String) (parameters : List (Parameter × Option String)) :
    (parameters.filterMap (MethodImpl.store context)).map (·.spelled) =
      parameters.filterMap (MethodImpl.store context) := by
  apply map_eq_self
  intro statement member
  obtain ⟨row, _, stores⟩ := List.mem_filterMap.mp member
  obtain ⟨temporary, _, rfl⟩ := MethodImpl.store_eq_some stores
  rw [Stmt.spelled, spelled_slot]

section

variable {plan : ProxyPlan} {method : Method} (free : method.name ∉ reserved)
  (freeTypes : ∀ name ∈ method.typeParameters, name ∉ reserved)

include freeTypes

theorem spelled_captured : method.capturedTypeParameters.map identifier =
    method.capturedTypeParameters :=
  map_eq_self fun name member => identifier_of_free (freeTypes name (List.mem_filter.mp member).1)

include free

theorem spelled_underlyingCall (object : Expr) (arguments : List Argument) :
    (MethodImpl.underlyingCall plan method object arguments).spelled =
      MethodImpl.underlyingCall plan method object arguments := by
  have types := map_eq_self fun name member => identifier_of_free (freeTypes name member)
  unfold MethodImpl.underlyingCall Call.spelled
  rw [identifier_of_free free, types]

theorem spelled_directBody :
    (MethodImpl.directBody plan method).map (·.spelled) = MethodImpl.directBody plan method := by
  have call : (MethodImpl.directCall plan method).spelled = MethodImpl.directCall plan method :=
    spelled_underlyingCall free freeTypes _ _
  unfold MethodImpl.directBody
  split
  · rw [List.map_singleton, Stmt.spelled, call]
  · rw [List.map_singleton, Stmt.spelled, call]

theorem spelled_guard : (MethodImpl.guard plan method).spelled = MethodImpl.guard plan method := by
  have bypass : (MethodImpl.bypass plan method).map (·.spelled) = MethodImpl.bypass plan method := by
    unfold MethodImpl.bypass
    rw [List.map_append, spelled_directBody free freeTypes]
    split <;> rfl
  unfold MethodImpl.guard Guard.spelled
  rw [bypass]
  simp only [List.map_cons, List.map_nil, GuardEntry.spelled, identifier_of_free free]

theorem spelled_closure (locals : Locals) :
    (MethodImpl.closure plan method locals).map (·.map (·.spelled)) =
      MethodImpl.closure plan method locals := by
  unfold MethodImpl.closure
  simp only [List.map_cons, List.map_nil, spelled_loads, spelled_stores]
  split
  · rw [Stmt.spelled, spelled_underlyingCall free freeTypes]
    rfl
  · rw [Stmt.spelled, spelled_underlyingCall free freeTypes]
    rfl

theorem spelled_interception (index : Nat) (locals : Locals) :
    (MethodImpl.interception plan method index locals).spelled =
      MethodImpl.interception plan method index locals := by
  have ending : (MethodImpl.interception plan method index locals).ending.map (·.spelled) =
      (MethodImpl.interception plan method index locals).ending := by
    unfold MethodImpl.interception
    dsimp only
    split <;> rfl
  have writeBacks : (MethodImpl.interception plan method index locals).writeBacks.map (·.spelled) =
      (MethodImpl.interception plan method index locals).writeBacks := by
    apply map_eq_self
    intro statement member
    obtain ⟨parameter, _, rfl⟩ := List.mem_map.mp member
    rfl
  have packing : (MethodImpl.packing method index locals).spelled =
      MethodImpl.packing method index locals := by
    unfold MethodImpl.packing Packing.spelled
    rw [spelled_captured freeTypes]
  have hookCall : (MethodImpl.hookCall plan method locals).spelled =
      MethodImpl.hookCall plan method locals := by
    unfold MethodImpl.hookCall HookCall.spelled
    rw [spelled_closure free freeTypes]
  unfold Interception.spelled
  rw [ending, writeBacks]
  unfold MethodImpl.interception
  rw [spelled_guard free freeTypes, packing, hookCall]

theorem spelled_method (index : Nat) :
    (MethodImpl.ofMethod plan method index).spelled = MethodImpl.ofMethod plan method index := by
  have types := map_eq_self fun name member => identifier_of_free (freeTypes name member)
  have header : (Header.ofMethod method).spelled = Header.ofMethod method := by
    unfold Header.ofMethod Header.spelled
    rw [identifier_of_free free, types]
  have context (locals : Locals) : (ContextClass.ofMethod plan method index locals).spelled =
      ContextClass.ofMethod plan method index locals := by
    unfold ContextClass.ofMethod ContextClass.spelled
    rw [spelled_captured freeTypes]
  have intercepted (locals : Locals) : (MethodImpl.interception plan method index locals).spelled =
      MethodImpl.interception plan method index locals :=
    spelled_interception free freeTypes index locals
  unfold MethodImpl.ofMethod
  dsimp only
  split
  · simp only [MethodImpl.spelled, Body.spelled, Option.map_some, header, context, intercepted]
  · simp only [MethodImpl.spelled, Body.spelled, Option.map_none, header,
      spelled_directBody free freeTypes]

end

theorem spelled_property {plan : ProxyPlan} {property : Property} (notSupported : String)
    (free : property.name ∉ reserved) :
    (PropertyImpl.ofProperty plan notSupported property).spelled =
      PropertyImpl.ofProperty plan notSupported property := by
  have bodies (accessor : Accessor) (target : Expr) :
      (PropertyImpl.forward (.member target property.name) notSupported accessor).map (·.spelled) =
        PropertyImpl.forward (.member target property.name) notSupported accessor := by
    cases accessor with
    | init => rfl
    | get =>
      rw [PropertyImpl.forward, List.map_singleton, Stmt.spelled, Expr.spelled,
        identifier_of_free free]
    | set =>
      rw [PropertyImpl.forward, List.map_singleton, Stmt.spelled, Expr.spelled,
        identifier_of_free free]
  unfold PropertyImpl.ofProperty PropertyImpl.spelled
  rw [identifier_of_free free, List.map_map]
  simp only [Function.comp_def, bodies]

theorem memberNames_method {plan : ProxyPlan} {method : Method} (listed : method ∈ plan.methods) :
    ∀ name ∈ method.name :: method.typeParameters, name ∈ plan.memberNames := by
  intro name member
  exact List.mem_append_left _ (List.mem_flatMap.mpr ⟨method, listed, member⟩)

theorem memberNames_property {plan : ProxyPlan} {property : Property}
    (listed : property ∈ plan.properties) : property.name ∈ plan.memberNames :=
  List.mem_append_right _ (List.mem_map.mpr ⟨property, listed, rfl⟩)

theorem spelled_proxy (settings : Settings) {plan : ProxyPlan} (identity : Identity)
    (free : ∀ name ∈ plan.memberNames, name ∉ reserved) :
    (ProxyClass.ofPlan settings plan identity).spelled = ProxyClass.ofPlan settings plan identity := by
  have properties : ((ProxyClass.ofPlan settings plan identity).properties.map (·.spelled)) =
      (ProxyClass.ofPlan settings plan identity).properties := by
    apply map_eq_self
    intro property member
    obtain ⟨declared, listed, rfl⟩ := List.mem_map.mp member
    exact spelled_property _ (free _ (memberNames_property listed))
  have methods : ((ProxyClass.ofPlan settings plan identity).methods.map (·.spelled)) =
      (ProxyClass.ofPlan settings plan identity).methods := by
    apply map_eq_self
    intro method member
    obtain ⟨index, within, rfl⟩ := List.mem_mapIdx.mp member
    have names := memberNames_method (List.getElem_mem within)
    exact spelled_method (free _ (names _ List.mem_cons_self))
      (fun name listed => free name (names name (List.mem_cons_of_mem _ listed))) index
  unfold ProxyClass.spelled
  rw [properties, methods]

theorem signs_proxy_lt (settings : Settings) {plan : ProxyPlan} (identity : Identity)
    {name : String} (among : name ∈ plan.memberNames) (member : name ∈ reserved) :
    (ProxyClass.ofPlan settings plan identity).script.signs <
      (ProxyClass.ofPlan settings plan identity).spelled.script.signs := by
  apply ProxyClass.signs_lt member
  rcases List.mem_append.mp among with ofMethod | ofProperty
  · obtain ⟨method, listed, named⟩ := List.mem_flatMap.mp ofMethod
    obtain ⟨index, within, rfl⟩ := List.mem_iff_getElem.mp listed
    refine .inl ⟨_, List.mem_mapIdx.mpr ⟨index, within, rfl⟩, ?_⟩
    rw [MethodImpl.header_ofMethod]
    exact named
  · obtain ⟨property, listed, rfl⟩ := List.mem_map.mp ofProperty
    exact .inr ⟨_, List.mem_map.mpr ⟨property, listed, rfl⟩, rfl⟩

/-- The proxy is written like the one with its members spelled exactly where no name of a method, of
a method's type parameter or of a property is a reserved word. -/
theorem text_spelled_iff (settings : Settings) (plan : ProxyPlan) (identity : Identity) :
    (Proxy.artifact settings plan identity).text =
      (Artifact.ofScope identity.artifact identity.scope
        (ProxyClass.ofPlan settings plan identity).spelled.script).text ↔
      ∀ name ∈ plan.memberNames, name ∉ reserved := by
  constructor
  · intro same name among member
    have more := signs_proxy_lt settings identity among member
    have equal := Script.signs_eq_of_text_eq same
    simp only [Script.signs_append, Script.signs_blank, Script.signs_block] at equal
    exact absurd (Nat.add_left_cancel (Nat.add_left_cancel equal)) (Nat.ne_of_lt more)
  · intro free
    rw [spelled_proxy settings identity free]
    rfl

end Proxy

end Interpose
