import Interpose.Proofs.Laying
import Interpose.Proofs.Performing
import Interpose.Proofs.Routines

/-!
# Instructions as they are read

Each part of an intercepted method lays down rows that belong together, and from these it is read as
the instruction that it is: `instruction?_guard`, `instruction?_packing`, `instruction?_hook`.
-/

namespace Interpose.Execution

open Proxy
open Script (Lays)
open Text (Word Stops behind behind_append before before_append between word? lastWord? items?)
open Writer (indentation)

/-! ### Rows of the parts of a method -/

theorem solid_statement (statement : Stmt) : Text.solid statement.text := by
  cases statement with
  | stop => decide
  | _ => exact Text.solid_append (by decide)

theorem lays_statements (statements : List Stmt) :
    Lays (Stmt.script statements) (statements.map (·.text)) := by
  rw [Stmt.script_eq]
  refine Script.lays_lines fun text member => ?_
  obtain ⟨statement, _, rfl⟩ := List.mem_map.mp member
  exact solid_statement statement

def entryRow (entry : GuardEntry) : String :=
  "    !this._applicableMembers.Contains(" ++ entry.text

def guardRows (guard : Guard) : List String :=
  "if (this._applicableMembers != null &&" ::
    (series ") &&" "))" (guard.entries.map entryRow) ++
      ("\x7b" :: (guard.bypass.map (·.text)).map (indentation 1 ++ ·) ++ ["\x7d"]))

theorem condition_eq (entry : GuardEntry) (last : Bool) :
    "    !" ++ (Expr.field allowListField).text ++ ".Contains(" ++ entry.text ++ ")" ++
      (if last then ")" else " &&") = entryRow entry ++ if last then "))" else ") &&" := by
  unfold entryRow
  apply String.toList_injective
  split <;> simp [Expr.field, Expr.text, allowListField]

theorem conditions_eq (entries : List GuardEntry) :
    Guard.conditions entries = (series ") &&" "))" (entries.map entryRow)).map .line := by
  induction entries with
  | nil => rfl
  | cons entry rest ih =>
    rw [Guard.conditions, ih, condition_eq, List.map_cons, series, List.isEmpty_map]
    rfl

theorem lays_guard (guard : Guard) : Lays guard.script (guardRows guard) := by
  have head : "if (" ++ (Expr.field allowListField).text ++ " != null &&" =
      "if (this._applicableMembers != null &&" := by decide
  have conditions : Lays (Guard.conditions guard.entries)
      (series ") &&" "))" (guard.entries.map entryRow)) := by
    rw [conditions_eq]
    refine Script.lays_lines fun row member => ?_
    obtain ⟨text, _, rfl | rfl⟩ := mem_series member
    · exact Text.solid_append (by decide)
    · exact Text.solid_append (by decide)
  have block := (lays_statements guard.bypass).braced (show Text.solid "\x7d" by decide)
  rw [Guard.script, head]
  exact (Script.lays_line (by decide)).append (conditions.append block)

def fillingRow (filling : String × Expr) : String := filling.1 ++ " = " ++ filling.2.text

def packingRows (packing : Packing) : List String :=
  ("var " ++ packing.object ++ " = new " ++ packing.className ++
    Spelling.typeList packing.typeArguments) ::
    ("\x7b" :: (series "," "" (packing.fields.map fillingRow)).map (indentation 1 ++ ·) ++
      ["\x7d;"])

theorem assignments_eq (fields : List (String × Expr)) :
    Packing.assignments fields = (series "," "" (fields.map fillingRow)).map .line := by
  induction fields with
  | nil => rfl
  | cons field rest ih =>
    obtain ⟨word, value⟩ := field
    rw [Packing.assignments, ih, List.map_cons, series, List.isEmpty_map]
    rfl

theorem lays_packing {packing : Packing}
    (titled : Text.solid (packing.className ++ Spelling.typeList packing.typeArguments))
    (filled : ∀ field ∈ packing.fields, Text.solid (fillingRow field)) :
    Lays packing.script (packingRows packing) := by
  have fillings : Lays (Packing.assignments packing.fields)
      (series "," "" (packing.fields.map fillingRow)) := by
    rw [assignments_eq]
    refine Script.lays_lines fun row member => ?_
    obtain ⟨text, listed, rfl | rfl⟩ := mem_series member
    · exact Text.solid_append (by decide)
    · obtain ⟨field, inside, rfl⟩ := List.mem_map.mp listed
      rw [String.append_empty]
      exact filled field inside
  have head : Text.solid ("var " ++ packing.object ++ " = new " ++ packing.className ++
      Spelling.typeList packing.typeArguments) := by
    rw [String.append_assoc]
    exact Text.solid_append titled
  exact (Script.lays_line head).append (fillings.braced (by decide))

def hookRow (call : HookCall) : String :=
  (match call.result with
    | some name => "var " ++ name ++ " = "
    | none => "") ++ ((Expr.field providerField).member call.hook).text ++ "(" ++
    Spelling.passed call.mode call.context ++ ", static (" ++ call.parameter ++ ") =>"

def hookRows (call : HookCall) : List String :=
  hookRow call ::
    ("\x7b" :: (call.body.flatten.map (·.text)).map (indentation 1 ++ ·) ++ ["\x7d);"])

theorem lays_hookCall (call : HookCall) : Lays call.script (hookRows call) := by
  have body : Lays (Script.spaced (call.body.map Stmt.script))
      (call.body.flatten.map (·.text)) := by
    rw [List.map_flatten]
    refine Lays.spaced (List.forall₂_map_left_iff.mpr (List.forall₂_map_right_iff.mpr ?_))
    exact List.forall₂_same.mpr fun statements _ => lays_statements statements
  have head : Text.solid (hookRow call) := Text.solid_append (by decide)
  exact (Script.lays_line head).append (body.braced (by decide))

/-- The rows of each instruction. -/
def wholes (interception : Interception) : List (List String) :=
  guardRows interception.guard :: packingRows interception.packing ::
    hookRows interception.hookCall ::
    (interception.writeBacks ++ interception.ending).map fun statement => [statement.text]

theorem lays_interception {interception : Interception}
    (titled : Text.solid (interception.packing.className ++
      Spelling.typeList interception.packing.typeArguments))
    (filled : ∀ field ∈ interception.packing.fields, Text.solid (fillingRow field)) :
    Lays interception.script (wholes interception).flatten := by
  have parts : List.Forall₂ Lays
      [interception.guard.script, interception.packing.script, interception.hookCall.script,
        Stmt.script interception.writeBacks, Stmt.script interception.ending]
      [guardRows interception.guard, packingRows interception.packing,
        hookRows interception.hookCall, interception.writeBacks.map (·.text),
        interception.ending.map (·.text)] := by
    simp only [List.forall₂_cons, List.forall₂_nil_left_iff, and_true]
    exact ⟨lays_guard _, lays_packing titled filled, lays_hookCall _, lays_statements _,
      lays_statements _⟩
  have rows := Lays.spaced parts
  have flat : (wholes interception).flatten = [guardRows interception.guard,
      packingRows interception.packing, hookRows interception.hookCall,
      interception.writeBacks.map (·.text), interception.ending.map (·.text)].flatten := by
    simp [wholes, ← List.flatMap_def, ← List.map_eq_flatMap]
  exact flat ▸ rows

/-! ### Rows that belong together -/

theorem belongs_indented (text : String) : belongs (indentation 1 ++ text) :=
  belongs_append (by decide) text

theorem head?_entryRow (entry : GuardEntry) (rest : String) :
    (entryRow entry ++ rest).toList.head? = some ' ' := by
  unfold entryRow
  simp

theorem belongs_braced {closing : String} (closes : belongs closing) (rows : List String) :
    ∀ row ∈ "\x7b" :: rows.map (indentation 1 ++ ·) ++ [closing], belongs row := by
  intro row member
  simp only [List.cons_append, List.mem_cons, List.mem_append, List.mem_map, List.not_mem_nil,
    or_false] at member
  obtain rfl | ⟨text, _, rfl⟩ | rfl := member
  · decide
  · exact belongs_indented text
  · exact closes

theorem belongs_conditions (entries : List GuardEntry) :
    ∀ row ∈ series ") &&" "))" (entries.map entryRow), belongs row ∧ row ≠ "\x7b" := by
  intro row member
  obtain ⟨text, listed, same⟩ := mem_series member
  obtain ⟨entry, _, rfl⟩ := List.mem_map.mp listed
  have head : row.toList.head? = some ' ' := by
    rcases same with rfl | rfl
    · exact head?_entryRow entry _
    · exact head?_entryRow entry _
  refine ⟨by rw [belongs, head]; rfl, ?_⟩
  rintro rfl
  exact absurd head (by decide)

theorem whole_guardRows (guard : Guard) : Whole (guardRows guard) := by
  refine ⟨_, _, rfl, by decide, fun row member => ?_⟩
  rcases List.mem_append.mp member with condition | block
  · exact (belongs_conditions _ row condition).1
  · exact belongs_braced (by decide) _ row block

theorem whole_packingRows (packing : Packing) : Whole (packingRows packing) := by
  refine ⟨_, _, rfl, ?_, belongs_braced (by decide) _⟩
  rw [String.append_assoc, String.append_assoc, String.append_assoc, belongs_append (by decide)]
  decide

theorem hookRow_eq (call : HookCall) : hookRow call = (match call.result with
    | some name => "var " ++ name ++ " = "
    | none => "") ++ ("this._behaviorProvider." ++ (call.hook ++ "(" ++
      Spelling.passed call.mode call.context ++ ", static (" ++ call.parameter) ++ ") =>") := by
  have provider : (Expr.field providerField).text = "this._behaviorProvider" := by decide
  rw [hookRow, Expr.text, provider]
  simp only [String.append_assoc]
  rfl

theorem whole_hookRows (call : HookCall) : Whole (hookRows call) := by
  refine ⟨_, _, rfl, ?_, belongs_braced (by decide) _⟩
  rw [hookRow_eq]
  cases call.result with
  | none =>
    rw [String.empty_append, String.append_assoc, belongs_append (by decide)]
    decide
  | some name =>
    simp only [String.append_assoc]
    rw [belongs_append (by decide)]
    decide

/-! ### Instructions -/

section

variable {signature : Signature}

theorem mapM_statement? {declares : Bool} {statements : List Stmt}
    (reads : ∀ statement ∈ statements,
      statement? signature declares statement.text = some statement) :
    (statements.map (·.text)).mapM (statement? signature declares) = some statements := by
  rw [List.mapM_map]
  exact (mapM_eq_some_map reads).trans (by rw [List.map_id'])

theorem instruction?_headed {head : String} {rows : List String} (filled : rows ≠ []) :
    instruction? signature (head :: rows) =
      if head = "if (this._applicableMembers != null &&" then guarded? signature rows
      else
        match inside? "\x7d;" rows with
        | some fillings => make? head fillings
        | none => (inside? "\x7d);" rows).bind (hook? signature head) := by
  cases rows with
  | nil => exact absurd rfl filled
  | cons row rows => rfl

theorem instruction?_guard {guard : Guard} (listed : guard.entries ≠ [])
    (entries : ∀ entry ∈ guard.entries, condition? signature (entryRow entry) = some entry)
    (bypass : ∀ statement ∈ guard.bypass,
      statement? signature false statement.text = some statement) :
    instruction? signature (guardRows guard) = some (.guarded guard.entries guard.bypass) := by
  let conditions := series ") &&" "))" (guard.entries.map entryRow)
  let block := (guard.bypass.map (·.text)).map (indentation 1 ++ ·) ++ ["\x7d"]
  obtain ⟨front, back⟩ := takeWhile_ne_append
    (fun row member => (belongs_conditions guard.entries row member).2) block
  have keys : series? ") &&" "))" (condition? signature) conditions = some guard.entries :=
    series?_series listed entries
  have inside : inside? "\x7d" ("\x7b" :: block) = some (guard.bypass.map (·.text)) :=
    inside?_braced "\x7d" _
  have read := mapM_statement? bypass
  show instruction? signature (_ :: (conditions ++ "\x7b" :: block)) = _
  rw [instruction?_headed (by simp), if_pos rfl, guarded?, front, back, keys, inside]
  simp [read]

theorem instruction?_unguarded {head : String} {rows : List String} (filled : rows ≠ [])
    (other : head.toList.head? ≠ some 'i') :
    instruction? signature (head :: rows) =
      match inside? "\x7d;" rows with
      | some fillings => make? head fillings
      | none => (inside? "\x7d);" rows).bind (hook? signature head) := by
  rw [instruction?_headed filled, if_neg]
  rintro rfl
  exact other rfl

theorem instruction?_packing {packing : Packing} (object : Word packing.object)
    (listed : packing.fields ≠ [])
    (fillings : ∀ field ∈ packing.fields, filling? (fillingRow field) = some field) :
    instruction? signature (packingRows packing) = some (.make packing.object
      (packing.className ++ Spelling.typeList packing.typeArguments) packing.fields) := by
  let title := packing.className ++ Spelling.typeList packing.typeArguments
  have head : "var " ++ packing.object ++ " = new " ++ packing.className ++
      Spelling.typeList packing.typeArguments =
        "var " ++ packing.object ++ " = " ++ ("new " ++ title) := by
    apply String.toList_injective
    simp [title]
  have inside := inside?_braced "\x7d;" (series "," "" (packing.fields.map fillingRow))
  have read := @series?_series _ "," "" _ _ _ listed fillings
  rw [packingRows, head, instruction?_unguarded (by simp) (by simp), inside]
  simp only [make?, declared?_append object, Option.bind_eq_bind, Option.bind_some, behind_append,
    read]
  rfl

/-- A hook is handed the context by value or as one that only flows in. -/
theorem handed?_append {mode : PassMode} (handed : mode = .byValue ∨ mode = .byIn)
    {selector context parameter : String} (object : Word context) (named : Word parameter) :
    handed? ("this._behaviorProvider." ++ (selector ++ "(" ++ Spelling.passed mode context ++
      ", static (" ++ parameter) ++ ") =>") = some (selector, context, parameter) := by
  have outer : lastWord? (selector ++ "(" ++ Spelling.passed mode context ++ ", static (" ++
      parameter) = some (selector ++ "(" ++ Spelling.passed mode context ++ ", static (",
        parameter) :=
    Text.lastWord?_append named (Writer.ends_append rfl _) (by decide)
  have inner : ∃ front, lastWord? (selector ++ "(" ++ Spelling.passed mode context) =
      some (front, context) ∧ (before "(in " front).or (before "(" front) = some selector := by
    rcases handed with rfl | rfl
    · have closed : before "(in " (selector ++ "(") = none :=
        Text.before_eq_none (c := ' ') rfl (by simp)
      refine ⟨selector ++ "(", ?_, by rw [closed, before_append, Option.none_or]⟩
      exact Text.lastWord?_append object (Writer.ends_append rfl _) (by decide)
    · have line : selector ++ "(" ++ Spelling.passed .byIn context =
          selector ++ "(in " ++ context := by
        apply String.toList_injective
        simp [Spelling.passed, PassMode.keyword]
      refine ⟨selector ++ "(in ", ?_, by rw [before_append, Option.some_or]⟩
      rw [line]
      exact Text.lastWord?_append object (Writer.ends_append rfl _) (by decide)
  obtain ⟨front, inner, found⟩ := inner
  rw [handed?, Text.between_append]
  simp only [Option.bind_eq_bind, Option.bind_some, outer, before_append, inner, found]
  rfl

theorem hook?_hookRow {call : HookCall} (handed : call.mode = .byValue ∨ call.mode = .byIn)
    (object : Word call.context) (named : Word call.parameter)
    (result : ∀ name ∈ call.result, Word name) {rows : List String} {body : List Stmt}
    (read : rows.mapM (statement? signature true) = some body) :
    hook? signature (hookRow call) rows =
      some (.hook call.result call.hook call.context call.parameter body) := by
  let line := "this._behaviorProvider." ++ (call.hook ++ "(" ++
    Spelling.passed call.mode call.context ++ ", static (" ++ call.parameter) ++ ") =>"
  have kept : kept (hookRow call) = (call.result, line) := by
    rw [hookRow_eq, Execution.kept]
    cases given : call.result with
    | none =>
      have undeclared : declared? ("" ++ line) = none := by
        refine declared?_eq_none fun found reads => ?_
        rw [Text.behind_eq_none (c := 'v') rfl (by simp [line])] at reads
        cases reads
      rw [undeclared, String.empty_append]
    | some name => rw [declared?_append (result name given)]
  simp only [hook?, kept, line, handed?_append handed object named, read, Option.bind_eq_bind,
    Option.bind_some]
  rfl

theorem instruction?_hook {call : HookCall} (handed : call.mode = .byValue ∨ call.mode = .byIn)
    (object : Word call.context) (named : Word call.parameter)
    (result : ∀ name ∈ call.result, Word name)
    (body : ∀ statement ∈ call.body.flatten,
      statement? signature true statement.text = some statement) :
    instruction? signature (hookRows call) = some (.hook call.result call.hook call.context
      call.parameter call.body.flatten) := by
  have apart : (hookRow call).toList.head? ≠ some 'i' := by
    rw [hookRow_eq]
    cases call.result <;> simp
  have unfilled := inside?_eq_none (show "\x7d;" ≠ "\x7d);" by decide)
    ((call.body.flatten.map (·.text)).map (indentation 1 ++ ·))
  have inside := inside?_braced "\x7d);" (call.body.flatten.map (·.text))
  rw [hookRows, instruction?_unguarded (by simp) apart, unfilled, inside, Option.bind_some,
    hook?_hookRow handed object named result (mapM_statement? body)]

theorem instruction?_statement {statement : Stmt}
    (reads : statement? signature false statement.text = some statement) :
    instruction? signature [statement.text] = some (.plain statement) := by
  rw [instruction?, reads, Option.map_some]

end

end Interpose.Execution
