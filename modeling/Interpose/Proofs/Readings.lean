import Interpose.Proofs.Legibility

/-!
# Methods as they are read

An intercepted method and the class in front of it are written in words that are read as what they
are, so their lines are read as the routine that the method is: `routine?_lines`.
-/

namespace Interpose

/-! ### Words -/

namespace Text

theorem inWord_of_isDigit {c : Char} (digit : c.isDigit) : inWord c := by
  obtain ⟨low, high⟩ := Char.isDigit_iff_toNat.mp digit
  have covered : covers numericRanges c.toNat := by
    show (decide ('0'.toNat ≤ c.toNat) && (decide (c.toNat ≤ '9'.toNat) || _)) = true
    rw [decide_eq_true low, decide_eq_true high, Bool.true_or, Bool.true_and]
  simp [inWord, follows, alphanumeric, numeric, covered]

theorem Word.repr {word : String} (written : Word word) (n : Nat) : Word (word ++ n.repr) := by
  refine written.append fun c member => ?_
  rw [Nat.repr, String.toList_ofList] at member
  exact inWord_of_isDigit (Nat.isDigit_of_mem_toDigits (by decide) (by decide) member)

theorem Word.underscore {word : String} (written : Word word) : Word (word ++ "_") :=
  written.append (word_of_mem "_" (by simp)).letters

theorem Word.solid {word : String} (written : Word word) : solid word := by
  obtain ⟨front, c, letters⟩ := List.eq_nil_or_concat' word.toList |>.resolve_left written.filled
  have letter : inWord c := written.letters c (by simp [letters])
  have inked : blank c = false := by
    rw [inWord, Bool.or_eq_true, beq_iff_eq] at letter
    rcases letter with letter | rfl
    · exact blank_of_follows letter
    · rfl
  simp [Text.solid, letters, inked]

end Text

/-- The lines that a method is written in, each part of it behind a blank one. -/
def Proxy.MethodImpl.lines (method : Proxy.MethodImpl) : List String :=
  method.scripts.flatMap ("" :: ·.linesAt 2)

namespace Execution

open Proxy
open Script (Lays)
open Text (Word Stops behind behind_append before before_append between word? lastWord? items?)
open Writer (indentation)

theorem PlainName.inWord {name : String} (plain : PlainName name) :
    ∀ c ∈ name.toList, Text.inWord c := fun c member => by
  rw [Text.inWord, plain.2 c member, Bool.true_or]

theorem PlainName.word {name : String} (plain : PlainName name) :
    Word (Spelling.identifier name) := by
  unfold Spelling.identifier
  split
  · exact (Text.word_of_mem "@" (by simp)).append plain.inWord
  · exact ⟨fun gone => plain.1 (String.toList_injective gone), plain.inWord⟩

theorem word_numbered {base : String} (word : Word base) (n : Nat) : Word (numbered base n) := by
  cases n with
  | zero => exact word
  | succ n => exact word.underscore.repr (n + 1)

theorem word_temporaryBase (position : Nat) {name : String} (plain : PlainName name) :
    Word (Locals.temporaryBase position name) := by
  have opening := Text.word_of_mem "temp_" (by simp)
  refine (opening.repr position).underscore.append fun c member => ?_
  rw [String.toList_ofList] at member
  exact plain.inWord c ((List.dropWhile_sublist _).mem member)

theorem word_of_mem_names {parameters : List Parameter}
    (plain : ∀ parameter ∈ parameters, PlainName parameter.name) {name : String}
    (member : name ∈ (Locals.ofParameters parameters).names) : Word name := by
  have own : ∀ base ∈ Locals.ownBases, Word base := by decide
  obtain ⟨base, n, rfl, listed | ⟨position, parameter, inside, rfl⟩⟩ := Locals.exists_base member
  · exact word_numbered (own base listed) n
  · exact word_numbered (word_temporaryBase position (plain parameter inside)) n

/-! ### What the contract declares -/

/-- What the contract of a method declares of it. -/
def Signature.ofMethod (method : Method) : Signature where
  contract := method.contract.fullName
  method := method.name
  typeParameters := method.typeParameters
  returnType := method.returnType.map (·.fullName)
  parameters := method.parameters.map fun p => (p.mode, p.type.fullName)

theorem types_ofMethod (method : Method) : (Signature.ofMethod method).parameters.map (·.2) =
    method.parameters.map (·.type.fullName) := List.map_map

/-- The words of the field that holds the underlying object. -/
theorem word_object : Word "this" ∧ Word underlyingField :=
  ⟨Text.word_of_mem "this" (by simp), Text.word_of_mem underlyingField (by simp [underlyingField])⟩

theorem target_receiver (plan : ProxyPlan) (method : Method) {first second : String}
    (front : Word first) (back : Word second) : Target method.contract.fullName
      (receiver plan method.contract method.name (.member (.name first) second)) := by
  unfold receiver
  split
  · exact .cast front back
  · exact .plain front back

theorem header_eq {method : Method}
    (gives : method.shape.isVoid ↔ method.returnType = none) :
    (Header.ofMethod method).text = (Signature.ofMethod method).opening ++
      Spelling.commaList ((Header.ofMethod method).parameters.map fun (mode, type, name) =>
        Spelling.passed mode (type ++ " " ++ name)) ++ ")" := by
  have type : (Header.ofMethod method).returnType =
      (method.returnType.map (·.fullName)).getD "void" := by
    cases returned : method.returnType with
    | none => simp [Header.ofMethod, returned]
    | some type => simp [Header.ofMethod, returned, gives]
  rw [Header.text, type]
  simp only [Signature.opening, Signature.reference_eq, Signature.ofMethod, Header.ofMethod,
    String.append_assoc]

/-! ### Pieces of rows -/

theorem Path.solid {value : Expr} (path : Path value) : Text.solid value.text := by
  cases path with
  | name word => exact word.solid
  | member _ word => exact Text.solid_append word.solid

theorem filling?_fillingRow {field : String × Expr} (word : Word field.1) (path : Path field.2) :
    filling? (fillingRow field) = some field := by
  rw [fillingRow, String.append_assoc, filling?, Text.word?_append word (stops_equals _)]
  simp [value?_path path]

theorem condition?_entryRow (signature : Signature) (entry : GuardEntry) :
    condition? signature (entryRow entry) = key? signature entry.text := by
  unfold condition? entryRow
  simp only [behind_append, Option.bind_some]

theorem condition?_nameOf (signature : Signature) (member : String) :
    condition? signature (entryRow (.nameOf signature.contract member)) =
      some (.nameOf signature.contract member) := by
  have text : (GuardEntry.nameOf signature.contract member).text =
      "nameof(" ++ signature.contract ++ "." ++ member ++ ")" := rfl
  rw [condition?_entryRow, text, key?, Text.between_append]

theorem condition?_literal (signature : Signature) (text : String) :
    condition? signature (entryRow (.literal text)) = some (.literal text) := by
  have unnamed : between ("nameof(" ++ signature.contract ++ ".") ")"
      (GuardEntry.literal text).text = none := by
    rw [Option.eq_none_iff_forall_ne_some]
    intro found reads
    have letters := congrArg (·.toList.head?) (Text.between_eq_some_iff.mp reads)
    simp [GuardEntry.text] at letters
  have quoted : between "\"" "\"" (GuardEntry.literal text).text = some text :=
    Text.between_append ..
  rw [condition?_entryRow, key?, unnamed, quoted]
  rfl

theorem fieldName?_append (type : String) {name : String} (word : Word name) :
    fieldName? ("public " ++ type ++ " " ++ name ++ ";") = some name := by
  have line : "public " ++ type ++ " " ++ name ++ ";" =
      "public " ++ (type ++ " " ++ name) ++ ";" := by
    simp only [String.append_assoc]
  have last : Text.lastWord? (type ++ " " ++ name) = some (type ++ " ", name) :=
    Text.lastWord?_append word (Writer.ends_append rfl _) (by decide)
  rw [line, fieldName?, Text.between_append]
  simp [last]

theorem parameter?_append (mode : PassMode) (type : String) {name rest : String}
    (word : Word name) (ends : Ends rest) :
    parameter? (mode, type) (Spelling.passed mode (type ++ " " ++ name) ++ rest) =
      some ((mode, name), rest) := by
  have line : Spelling.passed mode (type ++ " " ++ name) ++ rest =
      marker mode ++ type ++ " " ++ (name ++ rest) := by
    simp only [passed_eq, String.append_assoc]
  rw [line, parameter?, behind_append]
  simp [Text.word?_append word ends.stops]

/-! ### Rows of a method -/

abbrev intercepting (plan : ProxyPlan) (method : Method) (index : Nat) : Interception :=
  MethodImpl.interception plan method index (.ofParameters method.parameters)

/-- The rows of the class whose objects carry a method's arguments. -/
def classRows (plan : ProxyPlan) (method : Method) (index : Nat) : List String :=
  contextHeader method index ::
    ("\x7b" :: (contextTexts plan method index).map (indentation 1 ++ ·) ++ ["\x7d"])

def bodyRows (plan : ProxyPlan) (method : Method) (index : Nat) : List String :=
  (Header.ofMethod method).text ::
    ("\x7b" :: (wholes (intercepting plan method index)).flatten.map (indentation 1 ++ ·) ++
      ["\x7d"])

theorem lays_class (plan : ProxyPlan) (method : Method) (index : Nat) :
    Lays (ContextClass.ofMethod plan method index (.ofParameters method.parameters)).script
      (classRows plan method index) := by
  have texts : ∀ text ∈ contextTexts plan method index, Text.solid text := by
    intro text member
    obtain ⟨field, _, rfl⟩ := List.mem_map.mp member
    exact Text.solid_append (by decide)
  have fields := Script.lays_lines texts
  rw [contextTexts, List.map_map] at fields
  have header : Text.solid (contextHeader method index) := by
    rw [contextHeader_eq]
    exact Text.solid_append (solid_contextReference method index)
  exact fields.block header

/-- No row of the class but the last closes it. -/
theorem classRows_open (plan : ProxyPlan) (method : Method) (index : Nat) :
    ∀ row ∈ contextHeader method index ::
      "\x7b" :: (contextTexts plan method index).map (indentation 1 ++ ·), row ≠ "\x7d" := by
  have head {row : String} {c : Char} (first : row.toList.head? = some c) (other : c ≠ '\x7d') :
      row ≠ "\x7d" := by
    rintro rfl
    exact other (Option.some.inj first).symm
  refine List.forall_mem_cons.mpr ⟨?_, List.forall_mem_cons.mpr ⟨by decide, fun row member => ?_⟩⟩
  · rw [contextHeader_eq]
    exact @head _ 'p' (by simp) (by decide)
  · obtain ⟨text, _, rfl⟩ := List.mem_map.mp member
    exact @head _ ' ' (by simp [indentation]) (by decide)

section

variable {plan : ProxyPlan} {method : Method}
  (plain : ∀ parameter ∈ method.parameters, PlainName parameter.name)

include plain

/-! ### Calls -/

theorem word_locals :
    let locals := Locals.ofParameters method.parameters
    Word locals.context ∧ Word locals.result ∧ Word locals.closureParameter ∧
      Word locals.innerResult ∧ Word locals.underlyingField := by
  intro locals
  refine ⟨?_, ?_, ?_, ?_, ?_⟩ <;> exact word_of_mem_names plain (by simp [locals, Locals.names])

theorem path_slot {context : String} (object : Word context) {parameter : Parameter}
    (listed : parameter ∈ method.parameters) : Path (MethodImpl.slot context parameter) :=
  .member object (plain parameter listed).word

theorem word_temporary {row : Parameter × Option String} {temporary : String}
    (member : row ∈ MethodImpl.withTemporaries method (.ofParameters method.parameters))
    (own : temporary ∈ row.2) : Word temporary := by
  have given : temporary ∈ Locals.given (Locals.ofParameters method.parameters).temporaries :=
    List.mem_filterMap.mpr ⟨row.2, (List.of_mem_zip member).2, own⟩
  exact word_of_mem_names plain (by simp [Locals.names, given])

theorem readable_directCall :
    Readable (.ofMethod method) false (MethodImpl.directCall plan method) where
  target := target_receiver plan method word_object.1 word_object.2
  method := rfl
  typeArguments := rfl
  arguments := by
    rw [types_ofMethod]
    exact items?_arguments fun p listed => .pass (.name (plain p listed).word) fun _ => rfl

theorem given_argument {context : String} (object : Word context)
    {row : Parameter × Option String}
    (member : row ∈ MethodImpl.withTemporaries method (.ofParameters method.parameters)) :
    Given true row.1.type.fullName (MethodImpl.argument context row) := by
  obtain ⟨parameter, temporary⟩ := row
  cases temporary with
  | none =>
    exact .pass (path_slot plain object (List.of_mem_zip member).1) fun out => by cases out
  | some temporary =>
    have word := word_temporary plain member rfl
    rw [MethodImpl.argument]
    split
    · exact .declare word rfl
    · rename_i flows
      exact .pass (.name word) fun out => absurd out flows

/-- The call in the function that a hook is given. -/
theorem readable_innerCall {context field : String} (object : Word context) (held : Word field) :
    Readable (.ofMethod method) true (MethodImpl.underlyingCall plan method
      (.member (.name context) field)
      ((MethodImpl.withTemporaries method (.ofParameters method.parameters)).map
        (MethodImpl.argument context))) where
  target := target_receiver plan method object held
  method := rfl
  typeArguments := rfl
  arguments := by
    have types : method.parameters.map (·.type.fullName) =
        (MethodImpl.withTemporaries method (.ofParameters method.parameters)).map
          fun row => row.1.type.fullName := by
      conv => lhs; rw [← withTemporaries_parameters method, List.map_map]
      rfl
    rw [types_ofMethod, types]
    exact items?_arguments fun row member => given_argument plain object member

/-! ### Statements -/

theorem reads_bypass : ∀ statement ∈ MethodImpl.bypass plan method,
    statement? (.ofMethod method) false statement.text = some statement := by
  have readable : Readable (.ofMethod method) false (MethodImpl.directCall plan method) :=
    readable_directCall plain
  unfold MethodImpl.bypass MethodImpl.directBody
  split
  · exact List.forall_mem_cons.mpr
      ⟨statement?_call readable, List.forall_mem_singleton.mpr statement?_stop⟩
  · exact List.forall_mem_singleton.mpr (statement?_returns readable.operand?_text)

theorem reads_closure :
    ∀ statement ∈ (MethodImpl.closure plan method (.ofParameters method.parameters)).flatten,
      statement? (.ofMethod method) true statement.text = some statement := by
  obtain ⟨_, _, object, result, held⟩ := word_locals plain
  have readable := @readable_innerCall plan method plain _ _ object held
  intro statement member
  obtain ⟨block, listed, inside⟩ := List.mem_flatten.mp member
  -- The loads, the call, the stores and the result.
  simp only [MethodImpl.closure, List.mem_cons, List.not_mem_nil, or_false] at listed
  obtain rfl | rfl | rfl | rfl := listed
  · obtain ⟨row, among, loads⟩ := List.mem_filterMap.mp inside
    obtain ⟨temporary, own, rfl⟩ := MethodImpl.load_eq_some loads
    exact statement?_declares (word_temporary plain among own)
      (operand?_path (path_slot plain object (List.of_mem_zip among).1) _ _)
  · rw [List.mem_singleton.mp inside]
    split
    · exact statement?_call readable
    · exact statement?_declares result readable.operand?_text
  · obtain ⟨row, among, stores⟩ := List.mem_filterMap.mp inside
    obtain ⟨temporary, own, rfl⟩ := MethodImpl.store_eq_some stores
    exact statement?_assign (path_slot plain object (List.of_mem_zip among).1)
      (.name (word_temporary plain among own)) Expr.noConfusion
  · split at inside
    · cases inside
    · rw [List.mem_singleton.mp inside]
      exact statement?_returns (operand?_path (.name result) _ _)

/-- No parameter is written like the keyword. -/
theorem identifier_ne_return {parameter : Parameter} (listed : parameter ∈ method.parameters) :
    Expr.name (Spelling.identifier parameter.name) ≠ .name "return" := by
  intro same
  have spelled := identified_identifier (plain parameter listed).unsigned
  have reserved : identified "return" = none := by decide
  rw [Expr.name.inj same, reserved] at spelled
  cases spelled

/-- Each statement behind the hook's call is an instruction of its own. -/
theorem reads_behind (index : Nat) :
    let interception := intercepting plan method index
    ∀ statement ∈ interception.writeBacks ++ interception.ending,
      statement? (.ofMethod method) false statement.text = some statement ∧
        belongs statement.text = false := by
  intro interception statement member
  obtain ⟨object, result, _⟩ := word_locals plain
  rcases List.mem_append.mp member with back | ending
  · obtain ⟨p, chosen, rfl⟩ := List.mem_map.mp back
    have listed := List.mem_of_mem_filter chosen
    have word := (plain p listed).word
    refine ⟨statement?_assign (.name word) (path_slot plain object listed)
      (identifier_ne_return plain listed), ?_⟩
    rw [Stmt.text, String.append_assoc, String.append_assoc]
    exact belongs_word word _
  · have listed : statement ∈ if method.shape.isVoid then []
        else [Stmt.give (.name (Locals.ofParameters method.parameters).result)] := ending
    split at listed
    · cases listed
    · rw [List.mem_singleton.mp listed]
      refine ⟨statement?_returns (operand?_path (.name result) _ _), ?_⟩
      rw [Stmt.text, String.append_assoc, belongs_append (by decide)]
      rfl

/-! ### Instructions -/

theorem word_fields (index : Nat) :
    ∀ field ∈ (MethodImpl.packing method index (.ofParameters method.parameters)).fields,
      Word field.1 ∧ Path field.2 := by
  obtain ⟨_, _, _, _, held⟩ := word_locals plain
  refine List.forall_mem_cons.mpr ⟨⟨held, .member word_object.1 word_object.2⟩,
    fun field member => ?_⟩
  obtain ⟨p, chosen, rfl⟩ := List.mem_map.mp member
  have word := (plain p (List.mem_of_mem_filter chosen)).word
  exact ⟨word, .name word⟩

theorem reads_guard : instruction? (.ofMethod method) (guardRows (MethodImpl.guard plan method)) =
    some (.guarded (MethodImpl.guard plan method).entries (MethodImpl.bypass plan method)) := by
  refine instruction?_guard (List.cons_ne_nil _ _) ?_ (reads_bypass plain)
  simp only [MethodImpl.guard, List.forall_mem_cons, condition?_literal]
  exact ⟨condition?_nameOf (.ofMethod method) method.name, trivial, trivial, by simp⟩

theorem reads_packing (index : Nat) :
    let packing := MethodImpl.packing method index (.ofParameters method.parameters)
    instruction? (.ofMethod method) (packingRows packing) =
      some (.make packing.object (contextReference method index) packing.fields) := by
  refine instruction?_packing (word_locals plain).1 (List.cons_ne_nil _ _) fun field member => ?_
  obtain ⟨word, path⟩ := word_fields plain index field member
  exact filling?_fillingRow word path

theorem reads_hookCall :
    let call := MethodImpl.hookCall plan method (.ofParameters method.parameters)
    instruction? (.ofMethod method) (hookRows call) =
      some (.hook call.result call.hook call.context call.parameter call.body.flatten) := by
  obtain ⟨object, result, named, _⟩ := word_locals plain
  refine instruction?_hook (ite_eq_or_eq ..) object named ?_ (reads_closure plain)
  intro name given
  simp only [MethodImpl.hookCall] at given
  split at given
  · cases given
  · rwa [← Option.some.inj given]

theorem reads_body (index : Nat) :
    (wholes (intercepting plan method index)).mapM (instruction? (.ofMethod method)) =
      some (Routine.ofMethod plan method index (.ofParameters method.parameters)).body := by
  let interception := intercepting plan method index
  have behind : ((interception.writeBacks ++ interception.ending).map fun statement =>
      [statement.text]).mapM (instruction? (.ofMethod method)) =
        some ((interception.writeBacks ++ interception.ending).map .plain) := by
    rw [List.mapM_map]
    exact mapM_eq_some_map fun statement member =>
      instruction?_statement (reads_behind plain index statement member).1
  have guarded : instruction? (.ofMethod method) (guardRows interception.guard) = _ :=
    reads_guard plain
  have packed : instruction? (.ofMethod method) (packingRows interception.packing) = _ :=
    reads_packing plain index
  have handed : instruction? (.ofMethod method) (hookRows interception.hookCall) = _ :=
    reads_hookCall plain
  show (wholes interception).mapM _ = _
  simp only [wholes, List.mapM_cons, guarded, packed, handed, behind, Option.bind_eq_bind,
    Option.bind_some]
  rfl

/-! ### The class and the header -/

theorem reads_fields (plan : ProxyPlan) (index : Nat) :
    (contextTexts plan method index).mapM fieldName? =
      some (Routine.ofMethod plan method index (.ofParameters method.parameters)).fields := by
  obtain ⟨_, _, _, _, held⟩ := word_locals plain
  rw [contextTexts, List.mapM_map]
  refine mapM_eq_some_map fun field member => fieldName?_append field.1 ?_
  rcases List.mem_cons.mp member with rfl | member
  · exact held
  · obtain ⟨p, listed, rfl⟩ := List.mem_map.mp member
    exact (plain p listed).word

theorem reads_parameters : items? parameter? (Signature.ofMethod method).parameters
    (Spelling.commaList ((Header.ofMethod method).parameters.map fun (mode, type, name) =>
      Spelling.passed mode (type ++ " " ++ name))) =
        some (method.parameters.map fun p => (p.mode, Spelling.identifier p.name)) := by
  rw [Header.ofMethod, List.map_map]
  exact Text.items?_commaList fun p listed rest ends =>
    parameter?_append p.mode p.type.fullName (plain p listed).word ends

/-! ### Methods -/

theorem lays_body (plan : ProxyPlan) (index : Nat) :
    Lays (Script.block (Header.ofMethod method).text (intercepting plan method index).script)
      (bodyRows plan method index) := by
  let interception := intercepting plan method index
  have filled : ∀ field ∈ interception.packing.fields, Text.solid (fillingRow field) :=
    fun field member => Text.solid_append (word_fields plain index field member).2.solid
  have laid : Lays interception.script (wholes interception).flatten :=
    lays_interception (solid_contextReference method index) filled
  exact laid.block (solid_header method)

/-- What is not blank of a method's lines. -/
theorem filter_lines (intercepted : plan.intercepts method) (index : Nat) :
    (MethodImpl.ofMethod plan method index).lines.filter (· ≠ "") =
      (classRows plan method index ++ bodyRows plan method index).map (indentation 2 ++ ·) := by
  have scripts : (MethodImpl.ofMethod plan method index).scripts =
      [(ContextClass.ofMethod plan method index (.ofParameters method.parameters)).script,
        Script.block (Header.ofMethod method).text (intercepting plan method index).script] := by
    rw [MethodImpl.ofMethod, if_pos intercepted]
    rfl
  rw [MethodImpl.lines, scripts, List.flatMap_cons, List.flatMap_singleton, List.filter_append,
    List.filter_cons_of_neg (by simp), List.filter_cons_of_neg (by simp),
    (lays_class plan method index).filter_linesAt, (lays_body plain plan index).filter_linesAt,
    List.map_append]

theorem whole_parts (plan : ProxyPlan) (index : Nat) :
    ∀ rows ∈ wholes (intercepting plan method index), Whole rows := by
  refine List.forall_mem_cons.mpr ⟨whole_guardRows _, List.forall_mem_cons.mpr
    ⟨whole_packingRows _, List.forall_mem_cons.mpr ⟨whole_hookRows _, fun rows member => ?_⟩⟩⟩
  obtain ⟨statement, listed, rfl⟩ := List.mem_map.mp member
  exact ⟨_, [], rfl, (reads_behind plain index statement listed).2, by simp⟩

/-- An intercepted method is read from its lines as the routine that it is. -/
theorem routine?_lines (intercepted : plan.intercepts method)
    (gives : method.shape.isVoid ↔ method.returnType = none) (index : Nat) :
    routine? (.ofMethod method) (MethodImpl.ofMethod plan method index).lines =
      some (.ofMethod plan method index (.ofParameters method.parameters)) := by
  let front := contextHeader method index ::
    "\x7b" :: (contextTexts plan method index).map (indentation 1 ++ ·)
  have rows : ((MethodImpl.ofMethod plan method index).lines.filter (· ≠ "")).mapM
      (behind "        ") = some (front ++ "\x7d" :: bodyRows plan method index) := by
    have spaces : indentation 2 = "        " := by decide
    rw [filter_lines plain intercepted, spaces, mapM_behind, classRows]
    simp [front]
  obtain ⟨taken, dropped⟩ := takeWhile_ne_append (classRows_open plan method index)
    (bodyRows plan method index)
  have title : behind "private sealed class " (contextHeader method index) =
      some (contextReference method index) :=
    Text.behind_eq_some_iff.mpr (contextHeader_eq method index)
  have fields := inside?_braced "\x7d" (contextTexts plan method index)
  have listed := Text.between_eq_some_iff.mpr (header_eq gives)
  have inside := inside?_braced "\x7d" (wholes (intercepting plan method index)).flatten
  simp only [routine?, rows, Option.bind_eq_bind, Option.bind_some, front, taken, dropped]
  simp only [bodyRows, title, fields, reads_fields plain, listed, reads_parameters plain, inside,
    parts_flatten (whole_parts plain plan index), reads_body plain, Option.bind_some]
  rfl

end

end Execution

end Interpose
