import Interpose.Proofs.Locals
import Interpose.Proofs.Outlines
import Interpose.Proofs.TidyScripts
import Interpose.Settings

/-!
# Clean names

From names without braces and line breaks come locals, expressions and statements without them:
`clean_ofParameters`, `tidy_script`.
-/

namespace Interpose

namespace Text

theorem clean_commaList {items : List String} (clean : ∀ item ∈ items, Clean item) :
    Clean (Spelling.commaList items) := by
  intro c member
  rcases mem_commaList member with comma | ⟨item, listed, inside⟩
  · have separator : Clean ", " := by decide
    exact separator c comma
  · exact clean item listed c inside

theorem clean_typeList {names : List String} (clean : ∀ name ∈ names, Clean name) :
    Clean (Spelling.typeList names) := by
  unfold Spelling.typeList TypeRef.angled
  split
  · decide
  · exact clean_append.mpr ⟨clean_append.mpr ⟨by decide, clean_commaList clean⟩, by decide⟩

theorem clean_passed (mode : PassMode) {text : String} (clean : Clean text) :
    Clean (Spelling.passed mode text) := by
  unfold Spelling.passed
  split
  · exact clean
  · refine clean_append.mpr ⟨clean_append.mpr ⟨?_, by decide⟩, clean⟩
    cases mode <;> decide

theorem clean_identifier {name : String} (clean : Clean name) :
    Clean (Spelling.identifier name) := by
  unfold Spelling.identifier
  split
  · exact clean_append.mpr ⟨by decide, clean⟩
  · exact clean

theorem clean_repr (n : Nat) : Clean n.repr := by
  intro c member
  rw [Nat.repr, String.toList_ofList] at member
  have digit := Nat.isDigit_of_mem_toDigits (by decide) (by decide) member
  constructor
  · by_contra brace
    simp only [isBrace, Bool.not_eq_false, Bool.or_eq_true, beq_iff_eq] at brace
    rcases brace with rfl | rfl
    · exact absurd digit (by decide)
    · exact absurd digit (by decide)
  · rintro rfl
    exact absurd digit (by decide)

theorem clean_numbered {base : String} (clean : Clean base) (n : Nat) :
    Clean (numbered base n) := by
  cases n with
  | zero => exact clean
  | succ n => exact clean_append.mpr ⟨clean_append.mpr ⟨clean, by decide⟩, clean_repr _⟩

theorem clean_temporaryBase (position : Nat) {name : String} (clean : Clean name) :
    Clean (Locals.temporaryBase position name) := by
  refine clean_append.mpr ⟨clean_append.mpr ⟨clean_append.mpr ⟨by decide, clean_repr _⟩,
    by decide⟩, ?_⟩
  intro c member
  rw [String.toList_ofList] at member
  exact clean c ((List.dropWhile_sublist _).subset member)

end Text

/-! ### Clean names -/

@[mk_iff]
structure TypeRef.Clean (type : TypeRef) : Prop where
  full : Text.Clean type.fullName
  short : Text.Clean type.shortName

instance (type : TypeRef) : Decidable type.Clean :=
  decidable_of_iff _ (TypeRef.clean_iff type).symm

@[mk_iff]
structure Parameter.Clean (parameter : Parameter) : Prop where
  name : Text.Clean parameter.name
  type : parameter.type.Clean

instance (parameter : Parameter) : Decidable parameter.Clean :=
  decidable_of_iff _ (Parameter.clean_iff parameter).symm

@[mk_iff]
structure Method.Clean (method : Method) : Prop where
  contract : method.contract.Clean
  name : Text.Clean method.name
  returnType : ∀ type ∈ method.returnType, type.Clean
  typeParameters : ∀ name ∈ method.typeParameters, Text.Clean name
  parameters : ∀ parameter ∈ method.parameters, parameter.Clean
  hook : Text.Clean method.hook

instance (method : Method) : Decidable method.Clean :=
  decidable_of_iff _ (Method.clean_iff method).symm

@[mk_iff]
structure Property.Clean (property : Property) : Prop where
  contract : property.contract.Clean
  name : Text.Clean property.name
  type : property.type.Clean

instance (property : Property) : Decidable property.Clean :=
  decidable_of_iff _ (Property.clean_iff property).symm

@[mk_iff]
structure ProxyPlan.Clean (plan : ProxyPlan) : Prop where
  contract : plan.contract.Clean
  provider : plan.provider.Clean
  providerParameters : ∀ parameter ∈ plan.providerParameters, parameter.Clean
  methods : ∀ method ∈ plan.methods, method.Clean
  properties : ∀ property ∈ plan.properties, property.Clean

instance (plan : ProxyPlan) : Decidable plan.Clean :=
  decidable_of_iff _ (ProxyPlan.clean_iff plan).symm

@[mk_iff]
structure Identity.Clean (identity : Identity) : Prop where
  scope : Text.Clean identity.scope
  className : Text.Clean identity.className

instance (identity : Identity) : Decidable identity.Clean :=
  decidable_of_iff _ (Identity.clean_iff identity).symm

@[mk_iff]
structure Settings.Clean (settings : Settings) : Prop where
  dispatcherNamespace : Text.Clean settings.dispatcherNamespace
  dispatcherClass : Text.Clean settings.dispatcherClass
  dispatcherContract : Text.Clean settings.dispatcherContract
  allowListType : Text.Clean settings.allowListType
  notSupported : Text.Clean settings.notSupported

instance (settings : Settings) : Decidable settings.Clean :=
  decidable_of_iff _ (Settings.clean_iff settings).symm

theorem TypeRef.Clean.simple {type : TypeRef} (clean : type.Clean) : Text.Clean type.simpleName :=
  fun c member => clean.short c (mem_simpleName member)

structure Locals.Clean (locals : Locals) : Prop where
  context : Text.Clean locals.context
  result : Text.Clean locals.result
  closureParameter : Text.Clean locals.closureParameter
  innerResult : Text.Clean locals.innerResult
  underlyingField : Text.Clean locals.underlyingField
  temporaries : ∀ name ∈ given locals.temporaries, Text.Clean name

theorem Locals.clean_ofParameters {parameters : List Parameter}
    (clean : ∀ parameter ∈ parameters, parameter.Clean) : (ofParameters parameters).Clean := by
  have own : ∀ base ∈ ownBases, Text.Clean base := by decide
  have every : ∀ name ∈ (ofParameters parameters).names, Text.Clean name := by
    intro name member
    obtain ⟨base, n, rfl, known | ⟨position, parameter, listed, rfl⟩⟩ := exists_base member
    · exact Text.clean_numbered (own base known) n
    · exact Text.clean_numbered (Text.clean_temporaryBase position (clean parameter listed).name) n
  simp only [names, List.forall_mem_cons] at every
  obtain ⟨context, result, closureParameter, innerResult, underlyingField, temporaries⟩ := every
  exact ⟨context, result, closureParameter, innerResult, underlyingField, temporaries⟩

/-! ### Expressions and statements -/

open Text (Clean Written)

theorem Expr.clean_member {target : Expr} {word : String} (object : Clean target.text)
    (name : Clean word) : Clean (target.member word).text :=
  Text.clean_append.mpr ⟨Text.clean_append.mpr ⟨object, by decide⟩, name⟩

theorem Expr.clean_field {word : String} (name : Clean word) : Clean (Expr.field word).text :=
  clean_member (by decide) name

theorem Expr.clean_cast {type : String} {target : Expr} (named : Clean type)
    (object : Clean target.text) : Clean (Expr.cast type target).text := by
  show Clean ("((" ++ type ++ ")" ++ target.text ++ ")")
  simp +decide [named, object]

theorem Call.clean {call : Call} (object : Clean call.target.text) (method : Clean call.method)
    (types : ∀ type ∈ call.typeArguments, Clean type)
    (arguments : ∀ argument ∈ call.arguments, Clean argument.text) : Clean call.text := by
  have listed : Clean (Spelling.commaList (call.arguments.map (·.text))) := by
    apply Text.clean_commaList
    intro text member
    obtain ⟨argument, passed, rfl⟩ := List.mem_map.mp member
    exact arguments argument passed
  unfold Call.text
  simp +decide [Expr.clean_member object method, Text.clean_typeList types, listed]

namespace Stmt

/-- The texts out of which a statement is written. -/
def pieces : Stmt → List String
  | .declare name value => [name, value.text]
  | .declareCall name made => [name, made.text]
  | .assign target value => [target.text, value.text]
  | .call made => [made.text]
  | .giveCall made => [made.text]
  | .give value => [value.text]
  | .stop => []
  | .throwNew type => [type]

theorem written {statement : Stmt} (clean : ∀ piece ∈ statement.pieces, Clean piece) :
    Written statement.text := by
  constructor
  · cases statement <;> simp_all +decide [pieces, text]
  · cases statement <;> simp +decide [text, Text.allBlank_append]

/-- Every text of the statements is clean. -/
def AllClean (statements : List Stmt) : Prop :=
  ∀ statement ∈ statements, ∀ piece ∈ statement.pieces, Clean piece

theorem allClean_nil : AllClean [] := by simp [AllClean]

theorem allClean_singleton {statement : Stmt} (clean : ∀ piece ∈ statement.pieces, Clean piece) :
    AllClean [statement] := List.forall_mem_singleton.mpr clean

theorem tidy_script {statements : List Stmt} (clean : AllClean statements) :
    Script.Tidy (script statements) := by
  rw [script_eq]
  apply Script.tidy_lines
  intro line member
  obtain ⟨statement, listed, rfl⟩ := List.mem_map.mp member
  exact written (clean statement listed)

end Stmt

end Interpose
