import Interpose.Exchange.Catalog
import Interpose.Exchange.Request
import Interpose.Proofs.Omissions
import Interpose.Proofs.Registers

/-!
# Restoring

What is written as JSON of catalogs, requests and settings is read back as it was, also where fields
were left out that held what stands for them: `forms_restore`.
-/

namespace Interpose

open Json (Omits OmitsFields OmitsItems Restores)

theorem ok_bind {ε α β : Type} (value : α) (next : α → Except ε β) :
    (Except.ok value >>= next) = next value := rfl

theorem Json.nesting_le_of_lookup {fields : List (String × Json)} {name : String} {value : Json}
    (found : fields.lookup name = some value) : value.nesting ≤ nestingOfFields fields := by
  induction fields with
  | nil => cases found
  | cons field fields ih =>
    obtain ⟨first, held⟩ := field
    rw [List.lookup_cons] at found
    unfold nestingOfFields
    split at found
    · cases found
      exact Nat.le_max_left _ _
    · exact Nat.le_trans (ih found) (Nat.le_max_right _ _)

/-! ### Types -/

namespace TypeRef

mutual

theorem decodeWithin_form : ∀ (type : TypeRef) {depth : Nat} {form : Json},
    form.nesting < depth → Omits type.encode form → decodeWithin depth form = .ok type
  | ⟨fullName, shortName, isParameter, arguments⟩, depth, form, deep, omits => by
    rw [encode] at omits
    obtain ⟨forms, rfl, fields⟩ := Json.exists_of_omits_object omits
    cases depth with
    | zero => exact absurd deep (Nat.not_lt_zero _)
    | succ depth =>
      have distinct : fieldNames.Nodup := by decide
      have opened := fields.record distinct fieldNames rfl false
      have full := fields.required distinct "fully_qualified_name" rfl rfl
        (Json.restores_text fullName)
      have short := fields.required distinct "short_name" rfl rfl (Json.restores_text shortName)
      have parameter := fields.defaulted distinct "is_type_parameter" false rfl rfl Json.bool.inj
        (Json.restores_flag isParameter)
      have inner : Json.defaulted forms "type_arguments" [] (Json.listOf (decodeWithin depth)) =
          .ok arguments := by
        rcases fields.lookup distinct "type_arguments" rfl with
          ⟨held, there, form⟩ | ⟨missing, usual⟩
        · obtain ⟨items, rfl, each⟩ := Json.exists_of_omits_array form
          have within : Json.nestingOfItems items + 1 ≤ Json.nestingOfFields forms :=
            Json.nesting_le_of_lookup there
          have shallow : Json.nestingOfFields forms < depth := Nat.lt_of_succ_lt_succ deep
          rw [Json.defaulted, there]
          exact mapM_decodeWithin_forms arguments (by omega) each
        · rw [Json.defaulted, missing]
          cases arguments with
          | nil => rfl
          | cons => cases usual
      simp only [decodeWithin, opened, full, short, parameter, inner, ok_bind]
      rfl

theorem mapM_decodeWithin_forms : ∀ (types : List TypeRef) {depth : Nat} {forms : List Json},
    Json.nestingOfItems forms < depth → OmitsItems (encodeAll types) forms →
      forms.mapM (decodeWithin depth) = .ok types
  | [], depth, forms, _, omits => by
    rw [encodeAll] at omits
    cases omits
    rfl
  | type :: types, depth, forms, deep, omits => by
    rw [encodeAll] at omits
    cases omits with
    | cons first rest =>
      rw [Json.nestingOfItems, Nat.max_lt] at deep
      rw [List.mapM_cons, decodeWithin_form type deep.1 first,
        mapM_decodeWithin_forms types deep.2 rest]
      rfl

end

/-- A type is read at a depth that its form's own nesting bounds. -/
theorem restores (type : TypeRef) : Restores decode type.encode type :=
  fun _ omits => decodeWithin_form type (Nat.lt_succ_self _) omits

theorem encode_ne_null (type : TypeRef) : type.encode ≠ .null := by
  cases type
  rw [encode]
  exact nofun

end TypeRef

/-! ### Names -/

theorem PassMode.restores (mode : PassMode) : Restores decode (.string mode.word) mode :=
  Json.restores_oneOf (by cases mode <;> rfl)

theorem HookKind.restores (kind : HookKind) : Restores decode kind.encode kind :=
  Json.restores_oneOf (by cases kind <;> rfl)

theorem TypeKind.restores (kind : TypeKind) : Restores decode (.string kind.word) kind :=
  Json.restores_oneOf (by cases kind <;> rfl)

theorem Setter.restores (setter : Setter) : Restores decode (.string setter.word) setter :=
  Json.restores_oneOf (by cases setter <;> rfl)

/-! ### What stands for a field -/

theorem PassMode.eq_byValue {mode : PassMode}
    (usual : Json.string mode.word = .string PassMode.byValue.word) : mode = .byValue := by
  cases mode <;> simp [word] at usual ⊢

theorem Setter.eq_absent {setter : Setter}
    (usual : Json.string setter.word = .string Setter.absent.word) : setter = .absent := by
  cases setter <;> simp [word] at usual ⊢

theorem HookKind.encode_ne_null (kind : HookKind) : kind.encode ≠ .null := nofun

theorem string_ne_null (text : String) : Json.string text ≠ .null := nofun

theorem eq_nil_of_listing {α : Type} {encode : α → Json} {values : List α}
    (empty : Json.listing encode values = .array []) : values = [] :=
  List.map_eq_nil_iff.mp (Json.array.inj empty)

theorem eq_none_of_orNull {α : Type} {encode : α → Json} {value : Option α}
    (present : ∀ x, encode x ≠ .null) (nothing : Json.orNull encode value = .null) :
    value = none := by
  cases value with
  | none => rfl
  | some x => exact absurd nothing (present x)

/-! ### Members -/

theorem Parameter.restores (parameter : Parameter) :
    Restores decode parameter.encode parameter := by
  intro form omits
  obtain ⟨forms, rfl, fields⟩ := Json.exists_of_omits_object omits
  have distinct : (["name", "ty", "mode"] : List String).Nodup := by decide
  have opened := fields.record distinct ["name", "ty", "mode"] rfl false
  have name := fields.required distinct "name" rfl rfl (Json.restores_text parameter.name)
  have type := fields.required distinct "ty" rfl rfl parameter.type.restores
  have mode := fields.defaulted distinct "mode" .byValue rfl rfl PassMode.eq_byValue
    parameter.mode.restores
  simp only [decode, opened, name, type, mode, ok_bind]
  rfl

theorem restores_texts (texts : List String) :
    Restores (Json.listOf Json.text) (Json.listing .string texts) texts :=
  Json.restores_listing fun text _ => Json.restores_text text

theorem restores_type? (type : Option TypeRef) :
    Restores (Json.nullable TypeRef.decode) (Json.orNull TypeRef.encode type) type :=
  Json.restores_orNull TypeRef.encode_ne_null fun inner _ => inner.restores

theorem restores_parameters (parameters : List Parameter) :
    Restores (Json.listOf Parameter.decode) (Json.listing Parameter.encode parameters)
      parameters :=
  Json.restores_listing fun parameter _ => parameter.restores

theorem MethodDecl.restores (method : MethodDecl) : Restores decode method.encode method := by
  intro form omits
  obtain ⟨forms, rfl, fields⟩ := Json.exists_of_omits_object omits
  have distinct : fieldNames.Nodup := by decide
  have opened := fields.record distinct fieldNames rfl false
  have name := fields.required distinct "name" rfl rfl (Json.restores_text method.name)
  have returnType := fields.defaulted distinct "return_type" none rfl rfl
    (eq_none_of_orNull TypeRef.encode_ne_null) (restores_type? method.returnType)
  have typeParameters := fields.defaulted distinct "type_parameters" [] rfl rfl
    eq_nil_of_listing (restores_texts method.typeParameters)
  have parameters := fields.defaulted distinct "parameters" [] rfl rfl
    eq_nil_of_listing (restores_parameters method.parameters)
  have isStatic := fields.defaulted distinct "is_static" false rfl rfl Json.bool.inj
    (Json.restores_flag method.isStatic)
  have accessorOf := fields.defaulted distinct "associated_property" none rfl rfl
    (eq_none_of_orNull string_ne_null)
    (Json.restores_orNull string_ne_null fun text _ => Json.restores_text text)
  have hook := fields.defaulted distinct "hook" none rfl rfl
    (eq_none_of_orNull HookKind.encode_ne_null)
    (Json.restores_orNull HookKind.encode_ne_null fun kind _ => kind.restores)
  have isVariadic := fields.defaulted distinct "has_params_array" false rfl rfl Json.bool.inj
    (Json.restores_flag method.isVariadic)
  simp only [decode, opened, name, returnType, typeParameters, parameters, isStatic, accessorOf,
    hook, isVariadic, ok_bind]
  rfl

theorem PropertyDecl.restores (property : PropertyDecl) :
    Restores decode property.encode property := by
  intro form omits
  obtain ⟨forms, rfl, fields⟩ := Json.exists_of_omits_object omits
  have distinct : (["name", "ty", "has_getter", "setter", "is_static"] : List String).Nodup := by
    decide
  have opened :=
    fields.record distinct ["name", "ty", "has_getter", "setter", "is_static"] rfl false
  have name := fields.required distinct "name" rfl rfl (Json.restores_text property.name)
  have type := fields.required distinct "ty" rfl rfl property.type.restores
  have hasGetter := fields.defaulted distinct "has_getter" false rfl rfl Json.bool.inj
    (Json.restores_flag property.hasGetter)
  have setter := fields.defaulted distinct "setter" .absent rfl rfl Setter.eq_absent
    property.setter.restores
  have isStatic := fields.defaulted distinct "is_static" false rfl rfl Json.bool.inj
    (Json.restores_flag property.isStatic)
  simp only [decode, opened, name, type, hasGetter, setter, isStatic, ok_bind]
  rfl

/-! ### Definitions -/

theorem TypeDef.restores (type : TypeDef) : Restores decode type.encode type := by
  intro form omits
  obtain ⟨forms, rfl, fields⟩ := Json.exists_of_omits_object omits
  have distinct : fieldNames.Nodup := by decide
  have opened := fields.record distinct fieldNames rfl false
  have reference := fields.required distinct "reference" rfl rfl type.reference.restores
  have kind := fields.required distinct "kind" rfl rfl type.kind.restores
  have baseType := fields.defaulted distinct "base_type" none rfl rfl
    (eq_none_of_orNull TypeRef.encode_ne_null) (restores_type? type.baseType)
  have interfaces := fields.defaulted distinct "interfaces" [] rfl rfl eq_nil_of_listing
    (Json.restores_listing fun inherited _ => TypeRef.restores inherited)
  have methods := fields.defaulted distinct "methods" [] rfl rfl eq_nil_of_listing
    (Json.restores_listing fun method _ => MethodDecl.restores method)
  have properties := fields.defaulted distinct "properties" [] rfl rfl eq_nil_of_listing
    (Json.restores_listing fun property _ => PropertyDecl.restores property)
  have events := fields.defaulted distinct "events" [] rfl rfl eq_nil_of_listing
    (restores_texts type.events)
  have constructors := fields.defaulted distinct "constructors" [] rfl rfl eq_nil_of_listing
    (Json.restores_listing fun parameters _ => restores_parameters parameters)
  simp only [decode, opened, reference, kind, baseType, interfaces, methods, properties, events,
    constructors, ok_bind]
  rfl

/-- A catalog is read back from its definitions, each of which gets the slot that it had. -/
theorem Catalog.restores (types : List TypeDef) :
    Restores decode (ofList types).encode (ofList types) := by
  intro form omits
  have read := Json.restores_listing (fun type _ => TypeDef.restores type) form omits
  have again : (Register.ofList (ofList types).types).types = (ofList types).types :=
    Register.types_ofList (Register.indexed_ofList types)
  rw [decode, read, Except.map, ofList, Register.catalog, again]

/-! ### Requests -/

theorem Location.restores (location : Location) : Restores decode location.encode location := by
  intro form omits
  obtain ⟨forms, rfl, fields⟩ := Json.exists_of_omits_object omits
  have distinct : (["file", "start", "end", "line", "column"] : List String).Nodup := by decide
  have opened := fields.record distinct ["file", "start", "end", "line", "column"] rfl false
  have file := fields.required distinct "file" rfl rfl (Json.restores_text location.file)
  have start := fields.required distinct "start" rfl rfl (Json.restores_word64 location.start)
  have stop := fields.required distinct "end" rfl rfl (Json.restores_word64 location.stop)
  have line := fields.required distinct "line" rfl rfl (Json.restores_word32 location.line)
  have column := fields.required distinct "column" rfl rfl (Json.restores_word32 location.column)
  simp only [decode, opened, file, start, stop, line, column, ok_bind]
  rfl

theorem listing_ne_null {α : Type} (encode : α → Json) (values : List α) :
    Json.listing encode values ≠ .null := nofun

theorem Request.restores (request : Request) : Restores decode request.encode request := by
  intro form omits
  obtain ⟨forms, rfl, fields⟩ := Json.exists_of_omits_object omits
  have distinct : (["contract", "provider", "locations", "allow_list"] : List String).Nodup := by
    decide
  have opened :=
    fields.record distinct ["contract", "provider", "locations", "allow_list"] rfl false
  have contract := fields.required distinct "contract" rfl rfl request.contract.restores
  have provider := fields.required distinct "provider" rfl rfl request.provider.restores
  have locations := fields.defaulted distinct "locations" [] rfl rfl eq_nil_of_listing
    (Json.restores_listing fun location _ => Location.restores location)
  have allowList := fields.defaulted distinct "allow_list" none rfl rfl
    (eq_none_of_orNull (listing_ne_null .string))
    (Json.restores_orNull (listing_ne_null .string) fun names _ => restores_texts names)
  simp only [decode, opened, contract, provider, locations, allowList, ok_bind]
  rfl

/-! ### Settings -/

theorem eq_of_natural {value usual : UInt64}
    (same : Json.natural value.toNat = .natural usual.toNat) : value = usual :=
  UInt64.toNat_inj.mp (Json.natural.inj same)

theorem Settings.restores (settings : Settings) : Restores decode settings.encode settings := by
  intro form omits
  obtain ⟨forms, rfl, fields⟩ := Json.exists_of_omits_object omits
  have distinct : fieldNames.Nodup := by decide
  have opened := fields.record distinct fieldNames rfl true
  have text (name value default : String) (found : settings.encode.fields.lookup name =
      some (.string value)) (omitted : Json.omissible.lookup name = some (.string default)) :
      Json.defaulted forms name default Json.text = .ok value :=
    fields.defaulted distinct name default found omitted Json.string.inj (Json.restores_text value)
  have rootNamespace := text "root_namespace" settings.rootNamespace _ rfl rfl
  have proxyClass := text "proxy_class_name" settings.proxyClass _ rfl rfl
  have dispatcherNamespace := text "dispatcher_namespace" settings.dispatcherNamespace _ rfl rfl
  have dispatcherClass := text "dispatcher_class_name" settings.dispatcherClass _ rfl rfl
  have dispatcherArtifact := text "dispatcher_artifact" settings.dispatcherArtifact _ rfl rfl
  have dispatcherContract := text "dispatcher_contract" settings.dispatcherContract _ rfl rfl
  have providerBase := text "behavior_provider_base" settings.providerBase _ rfl rfl
  have allowListType := text "allow_list_type" settings.allowListType _ rfl rfl
  have notSupported := text "not_supported_exception" settings.notSupported _ rfl rfl
  have hashLength := fields.defaulted distinct "hash_length" 10 rfl rfl eq_of_natural
    (Json.restores_word64 settings.hashLength)
  have isParallel := fields.defaulted distinct "parallel" false rfl rfl Json.bool.inj
    (Json.restores_flag settings.isParallel)
  simp only [decode, opened, rootNamespace, proxyClass, dispatcherNamespace, dispatcherClass,
    dispatcherArtifact, dispatcherContract, providerBase, allowListType, notSupported, hashLength,
    isParallel, ok_bind]
  rfl

/-! ### Whole documents -/

/-- A register that is read back keeps every definition and every slot. -/
theorem Register.restores (types : List TypeDef) {form : Json}
    (omits : Omits (ofList types).catalog.encode form) :
    ∃ read, Json.listOf TypeDef.decode form = .ok read ∧
      (ofList read).types = (ofList types).types ∧
      ∀ name, (ofList read).slot? name = (ofList types).slot? name ∧
        (ofList read).resolve name = (ofList types).resolve name := by
  have indexed := indexed_ofList types
  have again := types_ofList indexed
  have indexedAgain := indexed_ofList (ofList types).types
  refine ⟨(ofList types).types, ?_, again, fun name => ⟨?_, ?_⟩⟩
  · exact Json.restores_listing (fun type _ => TypeDef.restores type) form omits
  · exact slot?_congr indexed indexedAgain again name
  · exact resolve_congr indexed indexedAgain again name

/-- A catalog, requests and settings are read back as they were, from all that is written of them
and from what is left of it without any fields that held what stands for them. -/
theorem forms_restore (types : List TypeDef) (requests : List Request) (settings : Settings) :
    (Catalog.decode (Catalog.ofList types).encode = .ok (Catalog.ofList types) ∧
      Json.listOf Request.decode (Json.listing Request.encode requests) = .ok requests ∧
      Settings.decode settings.encode = .ok settings) ∧
    (∀ form, Omits (Catalog.ofList types).encode form →
      Catalog.decode form = .ok (Catalog.ofList types) ∧
      ∃ read, Json.listOf TypeDef.decode form = .ok read ∧
        (Register.ofList read).types = (Register.ofList types).types ∧
        ∀ name, (Register.ofList read).slot? name = (Register.ofList types).slot? name ∧
          (Register.ofList read).resolve name = (Register.ofList types).resolve name) ∧
    (∀ form, Omits (Json.listing Request.encode requests) form →
      Json.listOf Request.decode form = .ok requests) ∧
    ∀ form, Omits settings.encode form → Settings.decode form = .ok settings := by
  have catalog := Catalog.restores types
  have listed : Restores (Json.listOf Request.decode) (Json.listing Request.encode requests)
      requests := Json.restores_listing fun request _ => request.restores
  refine ⟨⟨catalog.reads, listed.reads, settings.restores.reads⟩, ?_, listed, settings.restores⟩
  exact fun form omits => ⟨catalog form omits, Register.restores types omits⟩

/-- A definition, a request and settings of which little is written. -/
def briefType : TypeDef := .bare ⟨"global::App.IBus", "IBus", false, []⟩ .interface

def briefRequest : Request :=
  ⟨⟨"global::App.IBus", "IBus", false, []⟩, ⟨"global::App.Logging", "Logging", false, []⟩, [],
    some ["Send"]⟩

def briefSettings : Settings := { proxyClass := "Proxy" }

def briefReference (fullName shortName : String) : Json :=
  .object [("fully_qualified_name", .string fullName), ("short_name", .string shortName)]

theorem omits_briefReference (fullName shortName : String) :
    Omits (TypeRef.encode ⟨fullName, shortName, false, []⟩)
      (briefReference fullName shortName) := by
  rw [TypeRef.encode, TypeRef.encodeAll]
  exact .object (.keep (.flat rfl) (.keep (.flat rfl) (.drop rfl (.drop rfl .nil))))

theorem forms_restore_brief :
    Catalog.decode (.array [.object [("reference", briefReference "global::App.IBus" "IBus"),
      ("kind", .string "Interface")]]) = .ok (Catalog.ofList [briefType]) ∧
    Json.listOf Request.decode (.array [.object [
      ("contract", briefReference "global::App.IBus" "IBus"),
      ("provider", briefReference "global::App.Logging" "Logging"),
      ("allow_list", .array [.string "Send"])]]) = .ok [briefRequest] ∧
    Settings.decode (.object [("proxy_class_name", .string "Proxy")]) = .ok briefSettings := by
  obtain ⟨-, catalog, requests, settings⟩ :=
    forms_restore [briefType] [briefRequest] briefSettings
  refine ⟨(catalog _ ?_).1, requests _ ?_, settings _ ?_⟩
  · exact .array (.cons (.object (.keep (omits_briefReference _ _) (.keep (.flat rfl)
      (.drop rfl (.drop rfl (.drop rfl (.drop rfl (.drop rfl (.drop rfl .nil))))))))) .nil)
  · exact .array (.cons (.object (.keep (omits_briefReference _ _) (.keep
      (omits_briefReference _ _) (.drop rfl (.keep (Json.omits_refl _) .nil))))) .nil)
  · exact .object (.drop rfl (.keep (.flat rfl) (.drop rfl (.drop rfl (.drop rfl (.drop rfl
      (.drop rfl (.drop rfl (.drop rfl (.drop rfl (.drop rfl .nil)))))))))))

end Interpose
