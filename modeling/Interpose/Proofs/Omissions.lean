import Interpose.Exchange.Settings
import Mathlib.Data.List.Nodup

/-!
# Omitted fields

A form of a value leaves out fields, anywhere in it, that hold what stands for them when they are
not there. What a decoder makes of all forms of a value is put together from what it makes of the
forms of its fields: `OmitsFields.required`, `OmitsFields.defaulted`.
-/

namespace Interpose

/-- The fields of a record. -/
def Json.fields : Json → List (String × Json)
  | .object fields => fields
  | _ => []

namespace Json

/-- The fields that may be left out, each with the value that then stands for it. -/
def omissible : List (String × Json) := [
  -- types and parameters
  ("is_type_parameter", .bool false), ("type_arguments", .array []), ("mode", .string "ByValue"),
  -- methods and properties
  ("return_type", .null), ("type_parameters", .array []), ("parameters", .array []),
  ("is_static", .bool false), ("associated_property", .null), ("hook", .null),
  ("has_params_array", .bool false), ("has_getter", .bool false), ("setter", .string "None"),
  -- definitions
  ("base_type", .null), ("interfaces", .array []), ("methods", .array []),
  ("properties", .array []), ("events", .array []), ("constructors", .array []),
  -- requests
  ("locations", .array []), ("allow_list", .null)] ++
  ({} : Settings).encode.fields

mutual

/-- A value and one of its forms. -/
inductive Omits : Json → Json → Prop
  | flat {json : Json} (plain : json.nesting = 0) : Omits json json
  | array {items forms : List Json} (each : OmitsItems items forms) :
      Omits (.array items) (.array forms)
  | object {fields forms : List (String × Json)} (each : OmitsFields fields forms) :
      Omits (.object fields) (.object forms)

inductive OmitsItems : List Json → List Json → Prop
  | nil : OmitsItems [] []
  | cons {item form : Json} {items forms : List Json} (first : Omits item form)
      (rest : OmitsItems items forms) : OmitsItems (item :: items) (form :: forms)

inductive OmitsFields : List (String × Json) → List (String × Json) → Prop
  | nil : OmitsFields [] []
  | keep {name : String} {value form : Json} {fields forms : List (String × Json)}
      (first : Omits value form) (rest : OmitsFields fields forms) :
      OmitsFields ((name, value) :: fields) ((name, form) :: forms)
  | drop {name : String} {value : Json} {fields forms : List (String × Json)}
      (usual : omissible.lookup name = some value) (rest : OmitsFields fields forms) :
      OmitsFields ((name, value) :: fields) forms

end

mutual

theorem omits_refl : ∀ json : Json, Omits json json
  | .null => .flat rfl
  | .bool _ => .flat rfl
  | .natural _ => .flat rfl
  | .numeral _ => .flat rfl
  | .string _ => .flat rfl
  | .beyond => .flat rfl
  | .array items => .array (omitsItems_refl items)
  | .object fields => .object (omitsFields_refl fields)

theorem omitsItems_refl : ∀ items : List Json, OmitsItems items items
  | [] => .nil
  | item :: items => .cons (omits_refl item) (omitsItems_refl items)

theorem omitsFields_refl : ∀ fields : List (String × Json), OmitsFields fields fields
  | [] => .nil
  | (_, value) :: fields => .keep (omits_refl value) (omitsFields_refl fields)

end

theorem eq_of_omits_flat {json form : Json} (omits : Omits json form) (plain : json.nesting = 0) :
    form = json := by
  cases omits with
  | flat => rfl
  | array => simp [nesting] at plain
  | object => simp [nesting] at plain

theorem exists_of_omits_array {items : List Json} {form : Json}
    (omits : Omits (.array items) form) :
    ∃ forms, form = .array forms ∧ OmitsItems items forms := by
  cases omits with
  | flat plain => simp [nesting] at plain
  | array each => exact ⟨_, rfl, each⟩

theorem exists_of_omits_object {fields : List (String × Json)} {form : Json}
    (omits : Omits (.object fields) form) :
    ∃ forms, form = .object forms ∧ OmitsFields fields forms := by
  cases omits with
  | flat plain => simp [nesting] at plain
  | object each => exact ⟨_, rfl, each⟩

theorem ne_null_of_omits {json form : Json} (omits : Omits json form) (present : json ≠ .null) :
    form ≠ .null := by
  cases omits with
  | flat => exact present
  | array => exact nofun
  | object => exact nofun

/-- A decoder makes the same of every form of a value. -/
def Restores {α : Type} (decode : Decoder α) (json : Json) (value : α) : Prop :=
  ∀ form, Omits json form → decode form = .ok value

theorem Restores.of_flat {α : Type} {decode : Decoder α} {json : Json} {value : α}
    (plain : json.nesting = 0) (reads : decode json = .ok value) : Restores decode json value :=
  fun _ omits => eq_of_omits_flat omits plain ▸ reads

theorem Restores.reads {α : Type} {decode : Decoder α} {json : Json} {value : α}
    (restores : Restores decode json value) : decode json = .ok value :=
  restores json (omits_refl json)

theorem restores_text (value : String) : Restores text (.string value) value :=
  .of_flat rfl rfl

theorem restores_flag (value : Bool) : Restores flag (.bool value) value :=
  .of_flat rfl rfl

theorem restores_word64 (value : UInt64) : Restores word64 (.natural value.toNat) value := by
  refine .of_flat rfl ?_
  simp [word64, UInt64.toNat_lt_size]

theorem restores_word32 (value : UInt32) : Restores word32 (.natural value.toNat) value := by
  refine .of_flat rfl ?_
  simp [word32, UInt32.toNat_lt_size]

theorem restores_oneOf {α : Type} {table : List (String × α)} {word : String} {value : α}
    (listed : table.lookup word = some value) : Restores (oneOf table) (.string word) value := by
  refine .of_flat rfl ?_
  rw [oneOf, oneOf.named, listed]

theorem restores_orNull {α : Type} {encode : α → Json} {decode : Decoder α} {value : Option α}
    (present : ∀ x, encode x ≠ .null) (each : ∀ x, value = some x → Restores decode (encode x) x) :
    Restores (nullable decode) (orNull encode value) value := by
  cases value with
  | none => exact .of_flat rfl rfl
  | some x =>
    intro form omits
    have there : form ≠ .null := ne_null_of_omits omits (present x)
    have read := each x rfl form omits
    unfold nullable
    split
    · exact absurd rfl there
    · rw [read]
      rfl

theorem restores_items {α : Type} {encode : α → Json} {decode : Decoder α} {values : List α}
    (each : ∀ x ∈ values, Restores decode (encode x) x) {forms : List Json}
    (omits : OmitsItems (values.map encode) forms) : forms.mapM decode = .ok values := by
  induction values generalizing forms with
  | nil =>
    cases omits
    rfl
  | cons x values ih =>
    obtain ⟨here, others⟩ := List.forall_mem_cons.mp each
    cases omits with
    | cons first rest =>
      rw [List.mapM_cons, here _ first, ih others rest]
      rfl

theorem restores_listing {α : Type} {encode : α → Json} {decode : Decoder α} {values : List α}
    (each : ∀ x ∈ values, Restores decode (encode x) x) :
    Restores (listOf decode) (listing encode values) values := by
  intro form omits
  obtain ⟨forms, rfl, items⟩ := exists_of_omits_array omits
  exact restores_items each items

/-! ### Records -/

namespace OmitsFields

theorem names_sublist {fields forms : List (String × Json)} (omits : OmitsFields fields forms) :
    (forms.map (·.1)).Sublist (fields.map (·.1)) := by
  induction fields generalizing forms with
  | nil =>
    cases omits
    exact .slnil
  | cons field fields ih =>
    cases omits with
    | keep _ rest => exact (ih rest).cons_cons _
    | drop _ rest => exact (ih rest).cons _

/-- A field is there in one of its forms, or what it held is what stands for it. -/
theorem lookup {fields forms : List (String × Json)} (omits : OmitsFields fields forms)
    (distinct : (fields.map (·.1)).Nodup) (name : String) {value : Json}
    (found : fields.lookup name = some value) :
    (∃ form, forms.lookup name = some form ∧ Omits value form) ∨
      (forms.lookup name = none ∧ omissible.lookup name = some value) := by
  induction fields generalizing forms with
  | nil => cases found
  | cons field fields ih =>
    rw [List.map_cons, List.nodup_cons] at distinct
    obtain ⟨fresh, distinct⟩ := distinct
    cases omits with
    | @keep first value form _ _ kept rest =>
      by_cases same : name = first
      · subst same
        rw [List.lookup_cons_self] at found
        cases found
        exact .inl ⟨form, List.lookup_cons_self, kept⟩
      · have other := beq_eq_false_iff_ne.mpr same
        rw [List.lookup_cons, other] at found
        simpa only [List.lookup_cons, other] using ih rest distinct found
    | @drop first value _ _ usual rest =>
      by_cases same : name = first
      · subst same
        rw [List.lookup_cons_self] at found
        cases found
        refine .inr ⟨List.lookup_eq_none_iff.mpr fun form member => ?_, usual⟩
        rw [bne_iff_ne]
        rintro rfl
        exact fresh (rest.names_sublist.subset (List.mem_map_of_mem (f := (·.1)) member))
      · have other := beq_eq_false_iff_ne.mpr same
        rw [List.lookup_cons, other] at found
        exact ih rest distinct found

variable {fields forms : List (String × Json)} (omits : OmitsFields fields forms)
  (distinct : (fields.map (·.1)).Nodup)

include omits distinct

theorem record (names : List String) (named : fields.map (·.1) = names) (closed : Bool) :
    Json.record names closed (.object forms) = .ok forms := by
  subst named
  have single : repeated? (fields.map (·.1)) forms = none := by
    refine List.find?_eq_none.mpr fun name _ => ?_
    have once := List.nodup_iff_count_le_one.mp (distinct.sublist omits.names_sublist) name
    rw [List.count, List.countP_map] at once
    rw [decide_eq_true_eq, Nat.not_lt]
    exact once
  have known :
      (forms.find? fun field => closed && !(fields.map (·.1)).contains field.1) = none := by
    refine List.find?_eq_none.mpr fun field member => ?_
    have declared := omits.names_sublist.subset (List.mem_map_of_mem (f := (·.1)) member)
    simp [declared]
  rw [Json.record.eq_def]
  dsimp only
  rw [single, known]

theorem required {α : Type} {decode : Decoder α} (name : String) {json : Json} {value : α}
    (found : fields.lookup name = some json) (needed : omissible.lookup name = none)
    (restores : Restores decode json value) : Json.required forms name decode = .ok value := by
  rcases omits.lookup distinct name found with ⟨form, there, omits⟩ | ⟨_, usual⟩
  · rw [Json.required, there]
    exact restores form omits
  · rw [needed] at usual
    cases usual

theorem defaulted {α : Type} {decode : Decoder α} (name : String) (default : α) {json usual : Json}
    {value : α} (found : fields.lookup name = some json)
    (omitted : omissible.lookup name = some usual) (stands : json = usual → value = default)
    (restores : Restores decode json value) :
    Json.defaulted forms name default decode = .ok value := by
  rcases omits.lookup distinct name found with ⟨form, there, omits⟩ | ⟨missing, held⟩
  · rw [Json.defaulted, there]
    exact restores form omits
  · rw [omitted] at held
    rw [Json.defaulted, missing, stands (Option.some.inj held).symm]

end OmitsFields

end Json

end Interpose
