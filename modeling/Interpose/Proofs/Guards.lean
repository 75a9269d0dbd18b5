import Interpose.Proofs.Execution
import Interpose.Proofs.MethodLines
import Mathlib.Data.List.TakeWhile

/-!
# Guards

The guard of an intercepted method is read back from its lines as the keys that it looks for in the
allow-list. It decides as the plan would with the same allow-list exactly where the method's name is
one identifier without a sign: `guard_agrees_iff`.
-/

namespace Interpose

namespace Text

/-- A text that a literal holds as it is. -/
def Quotable (text : String) : Prop := ∀ c ∈ text.toList, c ≠ '"' ∧ c ≠ '\\' ∧ c ≠ '\n'

instance (text : String) : Decidable (Quotable text) := List.decidableBAll _ text.toList

theorem quotable_append {first second : String} :
    Quotable (first ++ second) ↔ Quotable first ∧ Quotable second := by
  unfold Quotable
  rw [String.toList_append, List.forall_mem_append]

theorem Quotable.oneLine {text : String} (quotable : Quotable text) : OneLine text :=
  fun member => (quotable _ member).2.2 rfl

/-- The last of the identifiers between dots, without a sign. -/
def lastIdentifier (name : String) : String :=
  Execution.unsigned (String.ofList (name.toList.reverse.takeWhile (· ≠ '.')).reverse)

theorem lastIdentifier_qualified (scope name : String) :
    lastIdentifier (scope ++ "." ++ name) = lastIdentifier name := by
  have letters : (scope ++ "." ++ name).toList.reverse =
      name.toList.reverse ++ '.' :: scope.toList.reverse := by simp
  unfold lastIdentifier
  rw [letters, List.takeWhile_append]
  split
  · rename_i whole
    rw [List.takeWhile_cons_of_neg (by decide), List.append_nil,
      (List.takeWhile_prefix _).eq_of_length whole]
  · rfl

theorem lastIdentifier_eq_iff {name : String} :
    lastIdentifier name = name ↔ '.' ∉ name.toList ∧ name.toList.head? ≠ some '@' := by
  by_cases dotted : '.' ∈ name.toList
  · refine ⟨fun same => ?_, fun apart => absurd dotted apart.1⟩
    -- What stands in front of the last dot is missing.
    have cut : (name.toList.reverse.takeWhile (· ≠ '.')).length ≠ name.toList.reverse.length := by
      intro whole
      have all := (List.takeWhile_prefix _).eq_of_length whole
      have every := List.takeWhile_eq_self_iff.mp all '.' (List.mem_reverse.mpr dotted)
      exact absurd every (by decide)
    have most : (name.toList.reverse.takeWhile (· ≠ '.')).length ≤ name.toList.reverse.length :=
      (List.takeWhile_sublist _).length_le
    have bound := Execution.length_unsigned
      (String.ofList (name.toList.reverse.takeWhile (· ≠ '.')).reverse)
    rw [← lastIdentifier, same, String.toList_ofList, List.length_reverse] at bound
    rw [List.length_reverse] at cut most
    omega
  · have whole : name.toList.reverse.takeWhile (· ≠ '.') = name.toList.reverse := by
      rw [List.takeWhile_eq_self_iff]
      intro c member
      rw [decide_eq_true_eq]
      rintro rfl
      exact dotted (List.mem_reverse.mp member)
    unfold lastIdentifier
    rw [whole, List.reverse_reverse, String.ofList_toList, Execution.unsigned_eq_iff]
    exact (and_iff_right dotted).symm

end Text

namespace Proxy

open Writer (indentation)

namespace Guard

/-- The text that a constant expression stands for. -/
def value? (expression : String) : Option String :=
  match Text.between "nameof(" ")" expression with
  | some name => some (Text.lastIdentifier name)
  | none => do
    let text ← Text.between "\"" "\"" expression
    if Text.Quotable text then some text else none

def sought (depth : Nat) : String := indentation depth ++ "    !this._applicableMembers.Contains("

/-- Reads the conditions up to the last and the opening of the block that they guard. -/
def keysFrom? (depth : Nat) : List String → Option (List String)
  | [] => none
  | line :: lines =>
    match Text.between (sought depth) ") &&" line with
    | some expression => do
      let key ← value? expression
      let keys ← keysFrom? depth lines
      return key :: keys
    | none => do
      let expression ← Text.between (sought depth) "))" line
      let key ← value? expression
      if lines.head? = some (indentation depth ++ "\x7b") then some [key] else none

/-- Reads the keys of a guard, none of which is in the allow-list where it leaves the provider
out. -/
def keys? (depth : Nat) : List String → Option (List String)
  | [] => none
  | line :: lines =>
    if line = indentation depth ++ "if (this._applicableMembers != null &&" then
      keysFrom? depth lines
    else none

def bypasses (keys : List String) (allowed : NameSet) : Bool :=
  keys.all fun key => !allowed.contains key

theorem value?_nameOf (contract member : String) :
    value? (GuardEntry.nameOf contract member).text = some (Text.lastIdentifier member) := by
  have inside : Text.between "nameof(" ")" (GuardEntry.nameOf contract member).text =
      some (contract ++ "." ++ member) := by
    rw [Text.between_eq_some_iff, GuardEntry.text]
    simp only [String.append_assoc]
  unfold value?
  rw [inside]
  exact congrArg some (Text.lastIdentifier_qualified contract member)

theorem value?_literal {text : String} (quotable : Text.Quotable text) :
    value? (GuardEntry.literal text).text = some text := by
  have other : Text.between "nameof(" ")" (GuardEntry.literal text).text = none := by
    rw [Option.eq_none_iff_forall_ne_some]
    intro inner found
    have letters := congrArg String.toList (Text.between_eq_some_iff.mp found)
    simp [GuardEntry.text] at letters
  unfold value?
  rw [other, GuardEntry.text]
  dsimp only
  rw [Text.between_append, Option.bind_eq_bind, Option.bind_some, if_pos quotable]

theorem laid_conditions_cons (depth : Nat) (entry : GuardEntry) (rest : List GuardEntry)
    (one : Text.OneLine entry.text) : (conditions (entry :: rest)).laid depth =
      (sought depth ++ entry.text ++ if rest.isEmpty then "))" else ") &&") ::
        (conditions rest).laid depth := by
  have line_eq : "    !" ++ (Expr.field allowListField).text ++ ".Contains(" ++ entry.text ++ ")" ++
      (if rest.isEmpty then ")" else " &&") = "    !this._applicableMembers.Contains(" ++
        entry.text ++ if rest.isEmpty then "))" else ") &&" := by
    apply String.toList_injective
    split <;> simp [Expr.field, Expr.text, allowListField]
  have closing : Text.Plain (if rest.isEmpty then "))" else ") &&") := by
    split <;> decide
  rw [conditions, Script.laid, Step.laid, line_eq,
    Writer.laidLine_plain depth (closing.enclose (by decide) one), sought]
  simp only [String.append_assoc]
  rfl

theorem keysFrom?_conditions {depth : Nat} {entries : List GuardEntry} (listed : entries ≠ [])
    {keys : List String} (values : entries.map (fun entry => value? entry.text) = keys.map some)
    (one : ∀ entry ∈ entries, Text.OneLine entry.text) (rest : List String) :
    keysFrom? depth ((conditions entries).laid depth ++ (indentation depth ++ "\x7b") :: rest) =
      some keys := by
  induction entries generalizing keys with
  | nil => exact absurd rfl listed
  | cons entry others ih =>
    obtain ⟨key, keys, rfl⟩ : ∃ key behind, keys = key :: behind := by
      cases keys with
      | nil => cases values
      | cons key behind => exact ⟨key, behind, rfl⟩
    obtain ⟨value, values⟩ := List.cons.inj values
    rw [laid_conditions_cons depth entry others (one entry List.mem_cons_self), List.cons_append,
      keysFrom?]
    cases others with
    | nil =>
      -- The last line ends in a bracket and so is none that goes on.
      have last : Text.between (sought depth) ") &&" (sought depth ++ entry.text ++ "))") = none := by
        rw [Option.eq_none_iff_forall_ne_some]
        intro inner found
        have ends := congrArg (fun line => line.toList.getLast?) (Text.between_eq_some_iff.mp found)
        simp at ends
      cases keys with
      | cons => cases values
      | nil =>
        dsimp only [List.isEmpty_nil] at value ⊢
        rw [if_pos rfl, last]
        dsimp only
        rw [Text.between_append, Option.bind_eq_bind, Option.bind_some, value, conditions]
        exact if_pos rfl
    | cons next others =>
      have behind := ih (by simp) values fun other member =>
        one other (List.mem_cons_of_mem entry member)
      dsimp only at value
      rw [if_neg (by simp), Text.between_append]
      dsimp only
      rw [value, behind]
      rfl

theorem keys?_laid (depth : Nat) {guard : Guard} (listed : guard.entries ≠ []) {keys : List String}
    (values : guard.entries.map (fun entry => value? entry.text) = keys.map some)
    (one : ∀ entry ∈ guard.entries, Text.OneLine entry.text) (rest : List String) :
    keys? depth (guard.script.laid depth ++ rest) = some keys := by
  have opening : Writer.laidLine depth
      ("if (" ++ (Expr.field allowListField).text ++ " != null &&") =
        [indentation depth ++ "if (this._applicableMembers != null &&"] :=
    Writer.laidLine_plain depth (by decide)
  obtain ⟨block, braced⟩ : ∃ block,
      Script.laid depth (Script.block "" (Stmt.script guard.bypass)) =
        (indentation depth ++ "\x7b") :: block := by
    rw [Script.laid_block depth "" (Stmt.level_script guard.bypass), List.append_assoc,
      List.append_assoc]
    exact ⟨_, rfl⟩
  rw [script, List.cons_append, Script.laid, Step.laid, opening, Step.deepen,
    (level_conditions guard.entries).laid_append, braced, List.append_assoc, List.append_assoc,
    List.singleton_append, keys?, if_pos rfl]
  exact keysFrom?_conditions listed values one (block ++ rest)

end Guard

theorem ne_qualified (scope name : String) : name ≠ scope ++ "." ++ name := by
  intro same
  have lengths := congrArg (·.toList.length) same
  simp only [String.toList_append, List.length_append] at lengths
  have dot : ".".toList.length = 1 := rfl
  omega

section

variable {plan : ProxyPlan} {method : Method}

theorem intercepts_allowed (allowed : NameSet) :
    ({ plan with allowList := some allowed } : ProxyPlan).intercepts method =
      method.allowKeys.any allowed.contains := rfl

theorem bypasses_iff {word : String} :
    (∀ allowed : NameSet, Guard.bypasses [word, method.simpleKey, method.fullKey] allowed =
      !({ plan with allowList := some allowed } : ProxyPlan).intercepts method) ↔
        word = method.name := by
  constructor
  · intro agrees
    -- Of all keys only the word can be the bare name.
    have alone := agrees ⟨[method.name]⟩
    have simple : method.simpleKey ≠ method.name := (ne_qualified _ _).symm
    have full : method.fullKey ≠ method.name := (ne_qualified _ _).symm
    rw [intercepts_allowed] at alone
    simpa [Guard.bypasses, NameSet.contains, Method.allowKeys, simple, full] using alone
  · rintro rfl allowed
    rw [intercepts_allowed, Guard.bypasses, Method.allowKeys, List.not_any_eq_all_not]

variable (intercepted : plan.intercepts method)
  (fullName : Text.Quotable method.contract.fullName)
  (shortName : Text.Quotable method.contract.shortName) (name : Text.Quotable method.name)

include intercepted fullName shortName name

theorem keys?_body (index depth : Nat) (rest : List String) :
    Guard.keys? depth ((MethodImpl.ofMethod plan method index).body.script.laid depth ++ rest) =
      some [Text.lastIdentifier method.name, method.simpleKey, method.fullKey] := by
  have simpleName : Text.Quotable method.contract.simpleName := fun c member =>
    shortName c (TypeRef.mem_simpleName member)
  have dot : Text.Quotable "." := by decide
  have simple : Text.Quotable method.simpleKey :=
    Text.quotable_append.mpr ⟨Text.quotable_append.mpr ⟨simpleName, dot⟩, name⟩
  have full : Text.Quotable method.fullKey :=
    Text.quotable_append.mpr ⟨Text.quotable_append.mpr ⟨fullName, dot⟩, name⟩
  rw [MethodImpl.body_intercepted intercepted, Body.script, Interception.script,
    Script.laid_spaced_cons depth (Guard.level _), List.append_assoc]
  refine Guard.keys?_laid depth (List.cons_ne_nil _ _) ?_ ?_ _
  · simp only [MethodImpl.interception, MethodImpl.guard, List.map_cons, List.map_nil,
      Guard.value?_nameOf, Guard.value?_literal simple, Guard.value?_literal full]
  · simp only [MethodImpl.interception, MethodImpl.guard, List.forall_mem_cons, GuardEntry.text,
      Text.oneLine_append]
    exact ⟨⟨⟨⟨⟨by decide, fullName.oneLine⟩, by decide⟩, name.oneLine⟩, by decide⟩,
      ⟨⟨by decide, simple.oneLine⟩, by decide⟩, ⟨⟨by decide, full.oneLine⟩, by decide⟩, by simp⟩

/-- In the artifact of a plan, the guard of an intercepted method can be read behind the opening of
the method. It decides as the plan would with the same allow-list, for every such list, exactly
where the name of the method has neither a dot nor a sign in front. -/
theorem guard_agrees_iff (settings : Settings) (identity : Identity)
    (listed : method ∈ plan.methods) : ∃ lines keys,
    Writer.laidLine 2 (Header.ofMethod method).text ++ (indentation 2 ++ "\x7b") :: lines <:+
      Text.inked (Proxy.artifact settings plan identity).text ∧
    Guard.keys? 3 lines = some keys ∧
    ((∀ allowed : NameSet, Guard.bypasses keys allowed =
      !({ plan with allowList := some allowed } : ProxyPlan).intercepts method) ↔
        '.' ∉ method.name.toList ∧ method.name.toList.head? ≠ some '@') := by
  obtain ⟨index, above, below, whole⟩ := opened_infix_artifact settings identity listed
  rw [MethodImpl.opened, MethodImpl.header_ofMethod] at whole
  refine ⟨(MethodImpl.ofMethod plan method index).body.script.laid 3 ++ below, _, ⟨above, ?_⟩,
    keys?_body intercepted fullName shortName name index 3 below, ?_⟩
  · rw [← whole]
    simp only [List.append_assoc, List.cons_append]
  · rw [bypasses_iff, Text.lastIdentifier_eq_iff]

end

/-- A method whose name is a reserved word, written with the sign that makes it a name. -/
def signed : Method where
  contract := .named "global::App.IBus" "IBus"
  name := "@event"
  shape := .void
  returnType := none
  typeParameters := []
  parameters := []
  hook := "Process"

def signedPlan : ProxyPlan where
  contract := .named "global::App.IBus" "IBus"
  provider := .named "global::App.Logging" "Logging"
  providerParameters := []
  methods := [signed]
  properties := []
  allowList := some ⟨["@event"]⟩

theorem guard_signed : ∃ lines keys,
    Writer.laidLine 2 "void global::App.IBus.@event()" ++ (indentation 2 ++ "\x7b") :: lines <:+
      Text.inked (Proxy.artifact {} signedPlan ⟨"Decorators", "Decorator", "Decorator.g.cs"⟩).text ∧
    Guard.keys? 3 lines = some keys ∧ ¬ ∀ allowed : NameSet, Guard.bypasses keys allowed =
      !({ signedPlan with allowList := some allowed } : ProxyPlan).intercepts signed := by
  obtain ⟨lines, keys, behind, read, agrees⟩ := @guard_agrees_iff signedPlan signed (by decide)
    (by decide) (by decide) (by decide) {} ⟨"Decorators", "Decorator", "Decorator.g.cs"⟩
    (List.mem_singleton_self signed)
  exact ⟨lines, keys, behind, read, fun always => (agrees.mp always).2 rfl⟩

end Proxy

end Interpose
