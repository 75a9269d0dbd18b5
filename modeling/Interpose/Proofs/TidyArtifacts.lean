import Interpose.Dispatcher
import Interpose.Proofs.CleanNames
import Interpose.Proofs.Methods

/-!
# Tidy artifacts

Clean names make tidy scripts, from the guard of a method up to the dispatcher. So all artifacts of
a pass are well formed: `wellFormed_artifacts`.
-/

namespace Interpose

open Text (Clean Written)

/-! ### Methods -/

namespace Proxy

open Script (Tidy)

theorem clean_underlyingField : Clean (Expr.field underlyingField).text := by decide

theorem clean_receiver (plan : ProxyPlan) {contract : TypeRef} (clean : contract.Clean)
    (member : String) {object : Expr} (seen : Clean object.text) :
    Clean (receiver plan contract member object).text := by
  unfold receiver
  split
  · exact Expr.clean_cast clean.full seen
  · exact seen

theorem Header.written {header : Header} (returned : Clean header.returnType)
    (contract : Clean header.contract) (method : Clean header.method)
    (types : ∀ name ∈ header.typeParameters, Clean name)
    (parameters : ∀ parameter ∈ header.parameters, Clean parameter.2.1 ∧ Clean parameter.2.2) :
    Written header.text := by
  have opening : Clean (header.returnType ++ " " ++ header.contract ++ "." ++ header.method ++
      Spelling.typeList header.typeParameters ++ "(") := by
    simp +decide [returned, contract, method, Text.clean_typeList types]
  refine Text.Written.behind (by decide) (Text.clean_append.mpr ⟨opening, ?_⟩)
  apply Text.clean_commaList
  intro text member
  obtain ⟨parameter, written, rfl⟩ := List.mem_map.mp member
  obtain ⟨typed, named⟩ := parameters parameter written
  apply Text.clean_passed
  simp +decide [typed, named]

theorem tidy_conditions {entries : List GuardEntry} (clean : ∀ entry ∈ entries, Clean entry.text) :
    Tidy (Guard.conditions entries) := by
  induction entries with
  | nil => exact .nil
  | cons entry rest ih =>
    have first := clean entry List.mem_cons_self
    refine .line ?_ (ih fun other member => clean other (List.mem_cons_of_mem entry member))
    apply Text.Written.behind
    · split <;> decide
    · simp +decide [first]

theorem Guard.tidy {guard : Guard} (entries : ∀ entry ∈ guard.entries, Clean entry.text)
    (bypass : Stmt.AllClean guard.bypass) : Tidy guard.script :=
  .line (by decide) ((tidy_conditions entries).append
    (Script.tidy_block (.inl rfl) (Stmt.tidy_script bypass)))

theorem tidy_assignments {fields : List (String × Expr)}
    (clean : ∀ field ∈ fields, Clean field.1 ∧ Clean field.2.text) :
    Tidy (Packing.assignments fields) := by
  induction fields with
  | nil => exact .nil
  | cons field rest ih =>
    obtain ⟨name, value⟩ := clean field List.mem_cons_self
    refine .line ?_ (ih fun other member => clean other (List.mem_cons_of_mem field member))
    refine (((Text.Written.behind (by decide) name).before value).before ?_)
    split <;> decide

theorem Packing.tidy {packing : Packing} (object : Clean packing.object)
    (className : Clean packing.className) (types : ∀ type ∈ packing.typeArguments, Clean type)
    (fields : ∀ field ∈ packing.fields, Clean field.1 ∧ Clean field.2.text) :
    Tidy packing.script := by
  refine .line ?_ (.block (.inl rfl) (tidy_assignments fields) (by decide) .nil)
  refine ((Text.Written.behind (by decide) ?_).before className).before
    (Text.clean_typeList types)
  simp +decide [object]

theorem HookCall.tidy {call : HookCall} (result : ∀ name ∈ call.result, Clean name)
    (hook : Clean call.hook) (context : Clean call.context) (parameter : Clean call.parameter)
    (body : ∀ statements ∈ call.body, Stmt.AllClean statements) : Tidy call.script := by
  have parts : Tidy (Script.spaced (call.body.map Stmt.script)) := by
    apply Script.tidy_spaced
    intro part member
    obtain ⟨statements, listed, rfl⟩ := List.mem_map.mp member
    exact Stmt.tidy_script (body statements listed)
  refine .line (Text.Written.behind (by decide) ?_) (.block (.inl rfl) parts (by decide) .nil)
  have provider : Clean ((Expr.field providerField).member call.hook).text :=
    Expr.clean_member (by decide) hook
  have handed : Clean (Spelling.passed call.mode call.context) := Text.clean_passed _ context
  cases stores : call.result with
  | none => simp +decide [provider, handed, parameter]
  | some name => simp +decide [result name stores, provider, handed, parameter]

theorem Interception.tidy {interception : Interception} (guard : Tidy interception.guard.script)
    (packing : Tidy interception.packing.script) (hookCall : Tidy interception.hookCall.script)
    (writeBacks : Stmt.AllClean interception.writeBacks)
    (ending : Stmt.AllClean interception.ending) : Tidy interception.script := by
  apply Script.tidy_spaced
  simp [guard, packing, hookCall, Stmt.tidy_script writeBacks, Stmt.tidy_script ending]

theorem ContextClass.tidy {context : ContextClass} (name : Clean context.name)
    (types : ∀ type ∈ context.typeParameters, Clean type)
    (fields : ∀ field ∈ context.fields, Clean field.1 ∧ Clean field.2) : Tidy context.script := by
  have lines : context.fields.map (fun field => Step.line ("public " ++ field.1 ++ " " ++
      field.2 ++ ";")) =
      (context.fields.map fun field => "public " ++ field.1 ++ " " ++ field.2 ++ ";").map .line := by
    rw [List.map_map]
    rfl
  unfold ContextClass.script
  rw [lines]
  refine Script.tidy_block (.inr ?_) (Script.tidy_lines ?_)
  · exact ((Text.Written.before (by decide) name).before (Text.clean_typeList types))
  · intro line member
    obtain ⟨field, listed, rfl⟩ := List.mem_map.mp member
    obtain ⟨typed, named⟩ := fields field listed
    exact Text.Written.behind (by decide) (by simp +decide [typed, named])

section

variable {plan : ProxyPlan} {method : Method} (clean : method.Clean)

include clean

theorem clean_underlyingCall {object : Expr} {arguments : List Argument}
    (seen : Clean object.text) (passed : ∀ argument ∈ arguments, Clean argument.text) :
    Clean (MethodImpl.underlyingCall plan method object arguments).text :=
  Call.clean (clean_receiver plan clean.contract method.name seen) clean.name clean.typeParameters
    passed

theorem clean_directBody : Stmt.AllClean (MethodImpl.directBody plan method) := by
  have called : Clean (MethodImpl.directCall plan method).text := by
    apply clean_underlyingCall clean clean_underlyingField
    intro argument member
    obtain ⟨parameter, listed, rfl⟩ := List.mem_map.mp member
    exact Text.clean_passed _ (Text.clean_identifier (clean.parameters parameter listed).name)
  unfold MethodImpl.directBody
  split
  · exact Stmt.allClean_singleton (List.forall_mem_singleton.mpr called)
  · exact Stmt.allClean_singleton (List.forall_mem_singleton.mpr called)

theorem clean_bypass : Stmt.AllClean (MethodImpl.bypass plan method) := by
  intro statement member
  rcases List.mem_append.mp member with direct | stop
  · exact clean_directBody clean statement direct
  · split at stop
    · rw [List.mem_singleton.mp stop]
      simp [Stmt.pieces]
    · cases stop

theorem written_header : Written (Header.ofMethod method).text := by
  refine Header.written ?_ clean.contract.full clean.name clean.typeParameters ?_
  · unfold Header.ofMethod
    cases returned : method.returnType with
    | none => exact (by decide : Clean "void")
    | some type =>
      dsimp only
      split
      · decide
      · exact (clean.returnType type returned).full
  · intro parameter member
    obtain ⟨declared, listed, rfl⟩ := List.mem_map.mp member
    have named := clean.parameters declared listed
    exact ⟨named.type.full, Text.clean_identifier named.name⟩

theorem tidy_guard : Tidy (MethodImpl.guard plan method).script := by
  refine Guard.tidy ?_ (clean_bypass clean)
  have simple : Clean method.simpleKey := by
    unfold Method.simpleKey
    simp +decide [clean.contract.simple, clean.name]
  have full : Clean method.fullKey := by
    unfold Method.fullKey
    simp +decide [clean.contract.full, clean.name]
  simp +decide [MethodImpl.guard, GuardEntry.text, clean.contract.full, clean.name, simple, full]

theorem clean_contextName (index : Nat) : Clean (ContextClass.nameOf method index) := by
  unfold ContextClass.nameOf
  simp +decide [clean.name, Text.clean_repr]

theorem clean_captured : ∀ name ∈ method.capturedTypeParameters, Clean name := fun name member =>
  clean.typeParameters name (List.mem_filter.mp member).1

theorem clean_slot {context : String} (named : Clean context) {parameter : Parameter}
    (listed : parameter ∈ method.parameters) :
    Clean (MethodImpl.slot context parameter).text :=
  Expr.clean_member named (Text.clean_identifier (clean.parameters parameter listed).name)

variable {locals : Locals} (named : locals.Clean)

include named

theorem tidy_contextClass (contract : plan.contract.Clean) (index : Nat) :
    Tidy (ContextClass.ofMethod plan method index locals).script := by
  refine ContextClass.tidy (clean_contextName clean index) (clean_captured clean) ?_
  intro field member
  rcases List.mem_cons.mp member with rfl | member
  · exact ⟨contract.full, named.underlyingField⟩
  · obtain ⟨parameter, listed, rfl⟩ := List.mem_map.mp member
    have stored := clean.parameters parameter listed
    exact ⟨stored.type.full, Text.clean_identifier stored.name⟩

theorem tidy_packing (index : Nat) : Tidy (MethodImpl.packing method index locals).script := by
  refine Packing.tidy named.context (clean_contextName clean index) (clean_captured clean) ?_
  intro field member
  rcases List.mem_cons.mp member with rfl | member
  · exact ⟨named.underlyingField, clean_underlyingField⟩
  · obtain ⟨parameter, listed, rfl⟩ := List.mem_map.mp member
    have word := Text.clean_identifier
      (clean.parameters parameter (List.mem_filter.mp listed).1).name
    exact ⟨word, word⟩

omit clean in
/-- A parameter's row holds names of the method and of its locals. -/
theorem clean_row {row : Parameter × Option String}
    (member : row ∈ MethodImpl.withTemporaries method locals) :
    row.1 ∈ method.parameters ∧ ∀ temporary ∈ row.2, Clean temporary := by
  obtain ⟨listed, given⟩ := List.of_mem_zip member
  refine ⟨listed, fun temporary held => named.temporaries temporary ?_⟩
  exact List.mem_filterMap.mpr ⟨row.2, given, held⟩

theorem clean_argument {context : String} (word : Clean context) {row : Parameter × Option String}
    (member : row ∈ MethodImpl.withTemporaries method locals) :
    Clean (MethodImpl.argument context row).text := by
  obtain ⟨listed, given⟩ := clean_row named member
  obtain ⟨parameter, temporary⟩ := row
  cases temporary with
  | none => exact clean_slot clean word listed
  | some temporary =>
    have held : Clean temporary := given temporary rfl
    unfold MethodImpl.argument
    dsimp only
    split
    · apply Text.clean_passed
      simp +decide [(clean.parameters parameter listed).type.full, held]
    · exact Text.clean_passed _ held

theorem clean_loads {context : String} (word : Clean context) :
    Stmt.AllClean ((MethodImpl.withTemporaries method locals).filterMap
      (MethodImpl.load context)) := by
  intro statement member
  obtain ⟨row, within, loads⟩ := List.mem_filterMap.mp member
  obtain ⟨listed, given⟩ := clean_row named within
  obtain ⟨temporary, held, rfl⟩ := MethodImpl.load_eq_some loads
  have slot := clean_slot clean word listed
  exact List.forall_mem_cons.mpr ⟨given temporary held, List.forall_mem_singleton.mpr slot⟩

theorem clean_stores {context : String} (word : Clean context) :
    Stmt.AllClean ((MethodImpl.withTemporaries method locals).filterMap
      (MethodImpl.store context)) := by
  intro statement member
  obtain ⟨row, within, stores⟩ := List.mem_filterMap.mp member
  obtain ⟨listed, given⟩ := clean_row named within
  obtain ⟨temporary, held, rfl⟩ := MethodImpl.store_eq_some stores
  have slot := clean_slot clean word listed
  exact List.forall_mem_cons.mpr ⟨slot, List.forall_mem_singleton.mpr (given temporary held)⟩

theorem clean_closure : ∀ statements ∈ MethodImpl.closure plan method locals,
    Stmt.AllClean statements := by
  have context := named.closureParameter
  have called : Clean (MethodImpl.underlyingCall plan method
      (.member (.name locals.closureParameter) locals.underlyingField)
      ((MethodImpl.withTemporaries method locals).map
        (MethodImpl.argument locals.closureParameter))).text := by
    apply clean_underlyingCall clean
    · exact Expr.clean_member context named.underlyingField
    · intro argument member
      obtain ⟨row, within, rfl⟩ := List.mem_map.mp member
      exact clean_argument clean named context within
  unfold MethodImpl.closure
  simp only [List.forall_mem_cons]
  refine ⟨clean_loads clean named context, ?_, clean_stores clean named context, ?_, by simp⟩
  · apply Stmt.allClean_singleton
    split
    · exact List.forall_mem_singleton.mpr called
    · exact List.forall_mem_cons.mpr ⟨named.innerResult, List.forall_mem_singleton.mpr called⟩
  · split
    · exact Stmt.allClean_nil
    · exact Stmt.allClean_singleton (List.forall_mem_singleton.mpr named.innerResult)

theorem tidy_hookCall : Tidy (MethodImpl.hookCall plan method locals).script := by
  refine HookCall.tidy ?_ clean.hook named.context named.closureParameter
    (clean_closure clean named)
  intro name stores
  unfold MethodImpl.hookCall at stores
  dsimp only at stores
  split at stores
  · cases stores
  · cases stores
    exact named.result

theorem tidy_interception (index : Nat) :
    Tidy (MethodImpl.interception plan method index locals).script := by
  refine Interception.tidy (tidy_guard clean) (tidy_packing clean named index)
    (tidy_hookCall clean named) ?_ ?_
  · intro statement member
    obtain ⟨parameter, listed, rfl⟩ := List.mem_map.mp member
    have declared := (List.mem_filter.mp listed).1
    have word : Clean (Spelling.identifier parameter.name) :=
      Text.clean_identifier (clean.parameters parameter declared).name
    have slot : Clean (MethodImpl.slot locals.context parameter).text :=
      clean_slot clean named.context declared
    exact List.forall_mem_cons.mpr ⟨word, List.forall_mem_singleton.mpr slot⟩
  · unfold MethodImpl.interception
    dsimp only
    split
    · exact Stmt.allClean_nil
    · exact Stmt.allClean_singleton (List.forall_mem_singleton.mpr named.result)

end

theorem MethodImpl.tidy {plan : ProxyPlan} {method : Method} (contract : plan.contract.Clean)
    (clean : method.Clean) (index : Nat) :
    ∀ part ∈ (MethodImpl.ofMethod plan method index).scripts, Tidy part := by
  have named := Locals.clean_ofParameters clean.parameters
  have headed := written_header clean
  unfold MethodImpl.ofMethod MethodImpl.scripts
  dsimp only
  split
  · have context := tidy_contextClass clean named contract index
    have body : Tidy (interception plan method index _).script :=
      tidy_interception clean named index
    exact List.forall_mem_cons.mpr
      ⟨context, List.forall_mem_singleton.mpr (Script.tidy_block (.inr headed) body)⟩
  · have body : Tidy (Stmt.script (directBody plan method)) :=
      Stmt.tidy_script (clean_directBody clean)
    exact List.forall_mem_singleton.mpr (Script.tidy_block (.inr headed) body)

/-! ### Properties and classes -/

theorem PropertyImpl.tidy {property : PropertyImpl} (type : Clean property.type)
    (contract : Clean property.contract) (name : Clean property.name)
    (accessors : ∀ accessor ∈ property.accessors, Stmt.AllClean accessor.2) :
    Tidy property.script := by
  have dot : Clean (property.type ++ " " ++ property.contract) := by
    simp +decide [type, contract]
  refine Script.tidy_block (.inr ((Text.Written.behind (by decide) dot).before name)) ?_
  apply Script.tidy_flatMap
  intro ⟨accessor, body⟩ member
  refine Script.tidy_block (.inr ?_) (Stmt.tidy_script (accessors _ member))
  cases accessor <;> decide

theorem tidy_property {plan : ProxyPlan} {property : Property} {notSupported : String}
    (clean : property.Clean) (exception : Clean notSupported) :
    Tidy (PropertyImpl.ofProperty plan notSupported property).script := by
  have target : Clean (Expr.member (receiver plan property.contract property.name
      (.field underlyingField)) property.name).text :=
    Expr.clean_member (clean_receiver plan clean.contract _ clean_underlyingField) clean.name
  refine PropertyImpl.tidy clean.type.full clean.contract.full clean.name ?_
  intro row member
  obtain ⟨accessor, _, rfl⟩ := List.mem_map.mp member
  cases accessor with
  | get => exact Stmt.allClean_singleton (List.forall_mem_singleton.mpr target)
  | set => exact Stmt.allClean_singleton (List.forall_mem_cons.mpr ⟨target, by decide⟩)
  | init => exact Stmt.allClean_singleton (List.forall_mem_singleton.mpr exception)

theorem ProxyClass.tidy {proxy : ProxyClass} (name : Clean proxy.name)
    (contract : Clean proxy.contract)
    (fields : ∀ field ∈ proxy.fields, Clean field.type ∧ Clean field.name ∧ Clean field.parameter)
    (properties : ∀ property ∈ proxy.properties, Tidy property.script)
    (methods : ∀ method ∈ proxy.methods, ∀ part ∈ method.scripts, Tidy part) :
    Tidy proxy.script := by
  have fieldLines : Tidy proxy.fieldLines := by
    rw [Declaration.fieldLines_eq]
    apply Script.tidy_lines
    intro line member
    obtain ⟨field, listed, rfl⟩ := List.mem_map.mp member
    obtain ⟨typed, named, _⟩ := fields field listed
    exact Text.Written.behind (by decide) (by simp +decide [typed, named])
  have parameters : Clean
      (Spelling.commaList (proxy.fields.map fun f => f.type ++ " " ++ f.parameter)) := by
    apply Text.clean_commaList
    intro text member
    obtain ⟨field, listed, rfl⟩ := List.mem_map.mp member
    obtain ⟨typed, _, handed⟩ := fields field listed
    simp +decide [typed, handed]
  have constructor : Tidy proxy.constructor := by
    refine Script.tidy_block (.inr ?_) (Stmt.tidy_script ?_)
    · exact Text.Written.behind (by decide) (by simp +decide [name, parameters])
    · intro statement member
      obtain ⟨field, listed, rfl⟩ := List.mem_map.mp member
      obtain ⟨_, named, handed⟩ := fields field listed
      exact List.forall_mem_cons.mpr
        ⟨Expr.clean_field named, List.forall_mem_singleton.mpr handed⟩
  refine Script.tidy_block (.inr ?_) (Script.tidy_spaced ?_)
  · exact (Text.Written.behind (by decide) (by simp +decide [name])).before contract
  · intro part member
    rcases List.mem_cons.mp member with rfl | member
    · exact fieldLines
    rcases List.mem_append.mp member with early | late
    · rcases List.mem_cons.mp early with rfl | early
      · exact constructor
      · obtain ⟨property, listed, rfl⟩ := List.mem_map.mp early
        exact properties property listed
    · obtain ⟨method, listed, within⟩ := List.mem_flatMap.mp late
      exact methods method listed part within

theorem tidy_proxy {settings : Settings} {plan : ProxyPlan} {identity : Identity}
    (named : settings.Clean) (clean : plan.Clean) (word : identity.Clean) :
    Tidy (ProxyClass.ofPlan settings plan identity).script := by
  refine ProxyClass.tidy word.className clean.contract.full ?_ ?_ ?_
  · simp +decide [ProxyClass.ofPlan, clean.contract.full, clean.provider.full,
      named.allowListType]
  · intro property member
    obtain ⟨declared, listed, rfl⟩ := List.mem_map.mp member
    exact tidy_property (clean.properties declared listed) named.notSupported
  · intro method member
    obtain ⟨index, within, rfl⟩ := List.mem_mapIdx.mp member
    exact MethodImpl.tidy clean.contract (clean.methods _ (List.getElem_mem within)) index

end Proxy

/-! ### The dispatcher -/

open Script (Tidy)

namespace Branch

structure Clean (branch : Branch) : Prop where
  contract : Text.Clean branch.contract
  provider : Text.Clean branch.provider
  proxy : Text.Clean branch.proxy
  remark : ∀ text ∈ branch.remark, Text.Clean text

theorem clean_ofPlan {plan : ProxyPlan} {identity : Identity} (clean : plan.Clean)
    (word : identity.Clean) : (ofPlan plan identity).Clean where
  contract := clean.contract.full
  provider := clean.provider.full
  proxy := by
    unfold ofPlan Identity.fullName
    simp +decide [word.scope, word.className]
  remark := by
    intro text member
    unfold ofPlan at member
    dsimp only at member
    split at member
    · cases member
    · cases member
      have parameters : Text.Clean (Spelling.commaList
          (plan.providerParameters.map fun p => p.type.fullName ++ " " ++ p.name)) := by
        apply Text.clean_commaList
        intro text member
        obtain ⟨parameter, listed, rfl⟩ := List.mem_map.mp member
        have named := clean.providerParameters parameter listed
        simp +decide [named.type.full, named.name]
      simp +decide [clean.provider.short, parameters]

variable {branch : Branch} (clean : branch.Clean)

include clean

theorem tidy_condition : Tidy branch.condition := by
  refine .line (Text.Written.behind (by decide) ?_)
    (.line (Text.Written.behind (by decide) ?_) .nil)
  · simp +decide [clean.contract]
  · simp +decide [clean.provider]

theorem tidy_instantiate : Tidy branch.instantiate := by
  have remark : Tidy (branch.remark.map fun text => Step.line ("// " ++ text)).toList := by
    cases written : branch.remark with
    | none => exact .nil
    | some text => exact .line (Text.Written.before (by decide) (clean.remark text written)) .nil
  refine (remark.append (tidy_condition clean)).append (Script.tidy_block (.inl rfl) ?_)
  refine .line (Text.Written.behind (by decide) ?_) (.line (Text.Written.behind (by decide) ?_)
    (.line (by decide) (.line (Text.Written.behind (by decide) ?_) .nil)))
  · simp +decide [clean.proxy]
  · simp +decide [clean.contract]
  · simp +decide [clean.provider]

theorem tidy_typeOnly : Tidy branch.typeOnly := by
  refine (tidy_condition clean).append (Script.tidy_block (.inl rfl) (.line ?_ .nil))
  exact Text.Written.behind (by decide) (by simp +decide [clean.proxy])

end Branch

theorem Dispatcher.tidy {dispatcher : Dispatcher} (name : Clean dispatcher.name)
    (contract : Clean dispatcher.contract) (allowListType : Clean dispatcher.allowListType)
    (branches : ∀ branch ∈ dispatcher.branches, branch.Clean) : Tidy dispatcher.script := by
  have branching {script : Branch → Script}
      (tidy : ∀ {branch : Branch}, branch.Clean → Tidy (script branch)) :
      Tidy (Script.spaced (dispatcher.branches.map script ++ [otherwise])) := by
    apply Script.tidy_spaced
    intro part member
    rcases List.mem_append.mp member with among | last
    · obtain ⟨branch, listed, rfl⟩ := List.mem_map.mp among
      exact tidy (branches branch listed)
    · rw [List.mem_singleton.mp last]
      exact .line (by decide) .nil
  have instantiate : Tidy dispatcher.instantiate := by
    refine .line (Text.Written.behind (by decide) ?_) (.line (by decide)
      (.line (Text.Written.behind (by decide) ?_) (.line (by decide)
        (Script.tidy_block (.inl rfl) (branching Branch.tidy_instantiate)))))
    · simp +decide [contract]
    · simp +decide [allowListType]
  have typeSelector : Tidy dispatcher.typeSelector := by
    refine Script.tidy_block (.inr (Text.Written.behind (by decide) ?_))
      (branching Branch.tidy_typeOnly)
    simp +decide [contract]
  refine Script.tidy_block (.inr ?_) (Script.tidy_spaced ?_)
  · exact (Text.Written.behind (by decide) (by simp +decide [name])).before contract
  · exact List.forall_mem_cons.mpr ⟨instantiate, List.forall_mem_singleton.mpr typeSelector⟩

/-! ### Artifacts -/

/-- From names without braces and line breaks, the proxies and the dispatcher are laid out well. -/
theorem wellFormed_artifacts {settings : Settings} (named : settings.Clean)
    {proxies : List (ProxyPlan × Identity)}
    (clean : ∀ proxy ∈ proxies, proxy.1.Clean ∧ proxy.2.Clean) :
    (∀ proxy ∈ proxies, Text.WellFormed (Proxy.artifact settings proxy.1 proxy.2).text) ∧
      Text.WellFormed (Dispatcher.artifact settings proxies).text := by
  constructor
  · intro proxy listed
    obtain ⟨plan, word⟩ := clean proxy listed
    exact Script.wellFormed_ofScope _ word.scope (Proxy.tidy_proxy named plan word)
  · refine Script.wellFormed_ofScope _ named.dispatcherNamespace (Dispatcher.tidy
      named.dispatcherClass named.dispatcherContract named.allowListType ?_)
    intro branch member
    obtain ⟨proxy, listed, rfl⟩ := List.mem_map.mp member
    obtain ⟨plan, word⟩ := clean proxy listed
    exact Branch.clean_ofPlan plan word

/-- A plan with a generic method and a property that is set during construction. -/
def archivePlan : ProxyPlan where
  contract := .named "global::App.IArchive" "IArchive"
  provider := .named "global::App.Auditing" "Auditing"
  providerParameters := [⟨"depth", .named "int" "int", .byValue⟩]
  methods := [{
    contract := .named "global::App.IArchive" "IArchive"
    name := "Store"
    shape := .value
    returnType := some (.named "bool" "bool")
    typeParameters := ["T"]
    parameters := [⟨"item", .parameter "T", .byValue⟩, ⟨"slot", .named "int" "int", .byOut⟩]
    hook := "ProcessWithReturnType" }]
  properties := [
    ⟨.named "global::App.IArchive" "IArchive", "Count", .named "int" "int", [.get, .init]⟩]
  allowList := none

theorem wellFormed_archive :
    let proxies := [(archivePlan, Identity.mk "Decorators.Auditing.IArchive" "Decorator"
      "Decorator_Auditing_IArchive.g.cs")]
    (∀ proxy ∈ proxies, Text.WellFormed (Proxy.artifact {} proxy.1 proxy.2).text) ∧
      Text.WellFormed (Dispatcher.artifact {} proxies).text :=
  wellFormed_artifacts (by decide +kernel) (by decide +kernel)

end Interpose
