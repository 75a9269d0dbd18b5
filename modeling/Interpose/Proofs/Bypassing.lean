import Interpose.Proofs.Sections

/-!
# Bypassing

The body of a method that is not intercepted is a single line, and with that line the guard of one
that is intercepted makes the underlying call too. Of the text of a proxy the allow-list decides
only which of the two a method is: `Proxy.artifact_selects`.
-/

namespace Interpose

namespace Text

theorem blank_of_isDigit {c : Char} (digit : c.isDigit) : blank c = false := by
  obtain ⟨low, high⟩ := Char.isDigit_iff_toNat.mp digit
  simp only [blank, blankRanges, covers]
  grind

theorem ends_repr (n : Nat) : ∃ c, n.repr.toList.getLast? = some c ∧ c.isDigit := by
  rw [Nat.repr, String.toList_ofList]
  cases last : (Nat.toDigits 10 n).getLast? with
  | none => exact absurd (List.getLast?_eq_none_iff.mp last) Nat.toDigits_ne_nil
  | some c =>
    have member := List.mem_of_getLast? last
    exact ⟨c, rfl, Nat.isDigit_of_mem_toDigits (by decide) (by decide) member⟩

end Text

namespace Proxy

open Writer (indentation)

/-! ### What a method lays down -/

/-- The line that calls the underlying object with the caller's own parameters. -/
def directLine (plan : ProxyPlan) (method : Method) : String :=
  (if method.shape.isVoid then "" else "return ") ++
    (if plan.sharesName method.contract method.name then
      "((" ++ method.contract.fullName ++ ")this._underlyingImplementation)"
    else "this._underlyingImplementation") ++ "." ++ method.name ++
    Spelling.typeList method.typeParameters ++ "(" ++
    Spelling.commaList (method.parameters.map fun p =>
      Spelling.passed p.mode (Spelling.identifier p.name)) ++ ");"

def headerLines (method : Method) : List String :=
  [indentation 2 ++ (Header.ofMethod method).text, indentation 2 ++ "\x7b"]

/-- The lines of a method that is not intercepted. -/
def bypassedLines (plan : ProxyPlan) (method : Method) : List String :=
  "" :: headerLines method ++ [indentation 3 ++ directLine plan method, indentation 2 ++ "\x7d"]

/-- A context class with its type parameters. -/
def contextReference (method : Method) (index : Nat) : String :=
  ContextClass.nameOf method index ++ Spelling.typeList method.capturedTypeParameters

def contextHeader (method : Method) (index : Nat) : String :=
  "private sealed class " ++ ContextClass.nameOf method index ++
    Spelling.typeList method.capturedTypeParameters

def contextTexts (plan : ProxyPlan) (method : Method) (index : Nat) : List String :=
  (ContextClass.ofMethod plan method index (.ofParameters method.parameters)).fields.map
    fun field => "public " ++ field.1 ++ " " ++ field.2 ++ ";"

def contextLines (plan : ProxyPlan) (method : Method) (index : Nat) : List String :=
  [indentation 2 ++ contextHeader method index, indentation 2 ++ "\x7b"] ++
    (contextTexts plan method index).map (indentation 3 ++ ·) ++ [indentation 2 ++ "\x7d"]

def conditionTexts (method : Method) : List String := [
  "if (this._applicableMembers != null &&",
  "    !this._applicableMembers.Contains(nameof(" ++ method.contract.fullName ++ "." ++
    method.name ++ ")) &&",
  "    !this._applicableMembers.Contains(\"" ++ method.simpleKey ++ "\") &&",
  "    !this._applicableMembers.Contains(\"" ++ method.fullKey ++ "\"))"]

def bypassTexts (plan : ProxyPlan) (method : Method) : List String :=
  directLine plan method :: if method.shape.isVoid then ["return;"] else []

def guardLines (plan : ProxyPlan) (method : Method) : List String :=
  (conditionTexts method).map (indentation 3 ++ ·) ++ [indentation 3 ++ "\x7b"] ++
    ((bypassTexts plan method).map (indentation 4 ++ ·) ++ [indentation 3 ++ "\x7d"])

/-- The line that makes the context object. -/
def packingLine (method : Method) (index : Nat) : String :=
  "var " ++ (Locals.ofParameters method.parameters).context ++ " = new " ++
    contextReference method index

/-- What an intercepted method does behind its guard. -/
def passing (plan : ProxyPlan) (method : Method) (index : Nat) : Script :=
  let interception := MethodImpl.interception plan method index (.ofParameters method.parameters)
  Script.spaced [interception.packing.script, interception.hookCall.script,
    Stmt.script interception.writeBacks, Stmt.script interception.ending] ++ [.leave "\x7d"]

/-- The lines of a method that is intercepted. -/
def interceptedLines (plan : ProxyPlan) (method : Method) (index : Nat) : List String :=
  "" :: contextLines plan method index ++ "" :: (headerLines method ++ guardLines plan method ++
    "" :: (passing plan method index).linesAt 3)

/-- The lines of a proxy in which those methods are intercepted. -/
def proxyLines (settings : Settings) (plan : ProxyPlan) (identity : Identity)
    (intercepted : Method → Bool) : List String :=
  (ProxyClass.ofPlan settings plan identity).front.linesAt 0 ++
    (plan.methods.mapIdx fun index method =>
      if intercepted method then interceptedLines plan method index
      else bypassedLines plan method).flatten ++
    [indentation 1 ++ "\x7d", "\x7d"]

section

variable (plan : ProxyPlan) (method : Method)

theorem directBody_texts :
    (MethodImpl.directBody plan method).map Stmt.text = [directLine plan method] := by
  have object : (receiver plan method.contract method.name (.field underlyingField)).text =
      if plan.sharesName method.contract method.name then
        "((" ++ method.contract.fullName ++ ")this._underlyingImplementation)"
      else "this._underlyingImplementation" := by
    unfold receiver
    split <;> simp [Expr.text, Expr.field, underlyingField, ← String.toList_inj]
  have arguments : (MethodImpl.directCall plan method).arguments.map Argument.text =
      method.parameters.map fun p => Spelling.passed p.mode (Spelling.identifier p.name) := by
    rw [MethodImpl.directCall, MethodImpl.underlyingCall, List.map_map]
    rfl
  have call : (MethodImpl.directCall plan method).text =
      (receiver plan method.contract method.name (.field underlyingField)).text ++ "." ++
        method.name ++ Spelling.typeList method.typeParameters ++ "(" ++
        Spelling.commaList (method.parameters.map fun p =>
          Spelling.passed p.mode (Spelling.identifier p.name)) ++ ")" := by
    rw [Call.text, arguments]
    rfl
  rw [object] at call
  unfold MethodImpl.directBody directLine
  split
  · simp [Stmt.text, call, ← String.toList_inj]
  · simp [Stmt.text, call, ← String.toList_inj]

theorem bypass_texts : (MethodImpl.bypass plan method).map Stmt.text = bypassTexts plan method := by
  rw [MethodImpl.bypass, List.map_append, directBody_texts, bypassTexts]
  split
  · rfl
  · rfl

theorem ends_directLine : (directLine plan method).toList.getLast? = some ';' :=
  Writer.ends_append rfl _

theorem ends_bypassTexts :
    ∀ text ∈ bypassTexts plan method, text.toList.getLast? = some ';' := by
  refine List.forall_mem_cons.mpr ⟨ends_directLine plan method, fun text member => ?_⟩
  split at member
  · rw [List.mem_singleton.mp member]
    rfl
  · cases member

theorem solid_header : Text.solid (Header.ofMethod method).text := Text.solid_append (by decide)

theorem linesAt_direct :
    (Script.block (Header.ofMethod method).text
      (Stmt.script (MethodImpl.directBody plan method))).linesAt 2 = headerLines method ++
        [indentation 3 ++ directLine plan method, indentation 2 ++ "\x7d"] := by
  have ends : ∀ text ∈ [directLine plan method], text.toList.getLast? = some ';' :=
    List.forall_mem_singleton.mpr (ends_directLine plan method)
  rw [Stmt.script_eq, directBody_texts,
    Script.linesAt_block ends (List.cons_ne_nil _ _) (solid_header method)]
  rfl

/-- The name of a context class ends in its number or its type parameters. -/
theorem ends_contextReference (index : Nat) :
    ∃ c, (contextReference method index).toList.getLast? = some c ∧ (c.isDigit ∨ c = '>') := by
  unfold contextReference Spelling.typeList
  split
  · obtain ⟨c, last, digit⟩ := Text.ends_repr index
    rw [String.append_empty]
    exact ⟨c, Writer.ends_append last _, .inl digit⟩
  · exact ⟨'>', Writer.ends_append (Writer.ends_append rfl _) _, .inr rfl⟩

theorem solid_contextReference (index : Nat) : Text.solid (contextReference method index) := by
  obtain ⟨c, last, digit | rfl⟩ := ends_contextReference method index
  · simp [Text.solid, last, Text.blank_of_isDigit digit]
  · rw [Text.solid, last]
    rfl

theorem contextHeader_eq (index : Nat) :
    contextHeader method index = "private sealed class " ++ contextReference method index :=
  String.append_assoc ..

theorem linesAt_context (index : Nat) :
    (ContextClass.ofMethod plan method index (.ofParameters method.parameters)).script.linesAt 2 =
      contextLines plan method index := by
  have ends : ∀ text ∈ contextTexts plan method index, text.toList.getLast? = some ';' := by
    intro text member
    obtain ⟨field, _, rfl⟩ := List.mem_map.mp member
    exact Writer.ends_append rfl _
  have headed : Text.solid (contextHeader method index) :=
    contextHeader_eq method index ▸ Text.solid_append (solid_contextReference method index)
  have lines := Script.linesAt_block ends (List.cons_ne_nil _ _) headed 1
  rw [contextTexts, List.map_map] at lines
  exact lines

theorem ends_bypassedLines : ∀ line ∈ bypassedLines plan method,
    line.toList.getLast? ∈ [none, some ')', some '\x7b', some ';', some '\x7d'] := by
  have header : (indentation 2 ++ (Header.ofMethod method).text).toList.getLast? = some ')' :=
    Writer.ends_append (Writer.ends_append rfl _) _
  have direct : (indentation 3 ++ directLine plan method).toList.getLast? = some ';' :=
    Writer.ends_append (ends_directLine plan method) _
  simp only [bypassedLines, headerLines, List.cons_append, List.nil_append, List.forall_mem_cons]
  rw [header, direct]
  simp +decide

theorem contextHeader_notMem (other : Method) (index : Nat) :
    indentation 2 ++ contextHeader other index ∉ bypassedLines plan method := by
  intro member
  obtain ⟨c, last, kind⟩ := ends_contextReference other index
  have ends := ends_bypassedLines plan method _ member
  rw [contextHeader_eq, Writer.ends_append (Writer.ends_append last _)] at ends
  have sign : ¬c.isDigit ∧ c ≠ '>' := by
    simp only [List.mem_cons, Option.some.injEq, reduceCtorEq, List.not_mem_nil, or_false,
      false_or] at ends
    rcases ends with rfl | rfl | rfl | rfl <;> decide
  exact kind.elim sign.1 sign.2

theorem guard_script : (MethodImpl.guard plan method).script =
    (conditionTexts method).map .line ++ .enter "" ::
      ((bypassTexts plan method).map .line ++ [.leave "\x7d"]) := by
  rw [Guard.script, MethodImpl.guard, Stmt.script_eq, bypass_texts]
  simp [conditionTexts, Guard.conditions, Script.block, GuardEntry.text, Expr.text, Expr.field,
    allowListField, ← String.toList_inj]

theorem run_guard (upper : List String) :
    (MethodImpl.guard plan method).script.foldl Writer.step ⟨upper, 3⟩ =
      ⟨(guardLines plan method).reverse ++ upper, 3⟩ := by
  have conditions : ∀ text ∈ conditionTexts method, Text.solid text := by
    simp only [conditionTexts, List.forall_mem_cons]
    exact ⟨by decide, Text.solid_append (by decide), Text.solid_append (by decide),
      Text.solid_append (by decide), by simp⟩
  have opening (upper : List String) : Writer.step ⟨upper, 3⟩ (.enter "") =
      ⟨(indentation 3 ++ "\x7b") :: upper, 4⟩ :=
    congrArg₂ Writer.mk (Writer.line_plain ⟨upper, 3⟩ (by decide))
      (congrArg (· + 1) (Writer.line_depth ⟨upper, 3⟩ "\x7b"))
  rw [guard_script, List.foldl_append, Writer.run_solid conditions, List.foldl_cons, opening,
    Script.run_lines_leave (ends_bypassTexts plan method) (List.cons_ne_nil _ _)]
  simp [guardLines]

theorem packingLine_ne_empty (index : Nat) : packingLine method index ≠ "" :=
  Text.ne_empty_of_solid (Text.solid_append (solid_contextReference method index))

/-- Behind the guard stands first the line that makes the context object. -/
theorem passing_eq (index : Nat) :
    ∃ rest, passing plan method index = .line (packingLine method index) :: rest := by
  let interception := MethodImpl.interception plan method index (.ofParameters method.parameters)
  let packing := interception.packing
  have text : "var " ++ packing.object ++ " = new " ++ packing.className ++
      Spelling.typeList packing.typeArguments = packingLine method index := String.append_assoc ..
  rw [← text]
  rcases Script.spaced_cons packing.script [interception.hookCall.script,
    Stmt.script interception.writeBacks, Stmt.script interception.ending] with same | same
  · exact ⟨_, congrArg (· ++ [Step.leave "\x7d"]) same⟩
  · exact ⟨_, congrArg (· ++ [Step.leave "\x7d"]) same⟩

theorem run_passing (index : Nat) (upper : List String) :
    ((passing plan method index).foldl Writer.step ⟨upper, 3⟩).lines =
      ((passing plan method index).linesAt 3).reverse ++ upper := by
  obtain ⟨rest, same⟩ := passing_eq plan method index
  have written := packingLine_ne_empty method index
  rw [Script.linesAt, List.reverse_reverse, same, Writer.run_line_cons written rest upper 2]
  rfl

theorem linesAt_intercepted (index : Nat) :
    (Script.block (Header.ofMethod method).text
      (MethodImpl.interception plan method index (.ofParameters method.parameters)).script).linesAt
        2 =
      headerLines method ++ guardLines plan method ++
        "" :: (passing plan method index).linesAt 3 := by
  have header := solid_header method
  have parts : (Script.block (Header.ofMethod method).text
      (MethodImpl.interception plan method index (.ofParameters method.parameters)).script) =
        .enter (Header.ofMethod method).text :: ((MethodImpl.guard plan method).script ++
          .blank :: passing plan method index) := by
    have guarded : (MethodImpl.guard plan method).script ≠ [] := List.cons_ne_nil _ _
    have packed : (MethodImpl.packing method index (.ofParameters method.parameters)).script ≠ [] :=
      List.cons_ne_nil _ _
    show Step.enter _ :: (Script.spaced ((MethodImpl.guard plan method).script ::
      (MethodImpl.packing method index (.ofParameters method.parameters)).script :: _)) ++ _ = _
    rw [Script.spaced_apart guarded packed, List.cons_append, List.append_assoc, List.cons_append]
    rfl
  -- The guard ends in a closing brace, so the blank line behind it is written.
  have blanked (upper : List String) : Writer.step ⟨(guardLines plan method).reverse ++ upper, 3⟩
      .blank = ⟨"" :: ((guardLines plan method).reverse ++ upper), 3⟩ := by
    refine if_pos ?_
    rw [guardLines, ← List.append_assoc, List.reverse_append, List.reverse_singleton]
    exact Writer.admitsBlank_of_ends (Writer.ends_append rfl _) (by decide) _
  rw [parts, Script.linesAt, List.foldl_cons, Writer.step,
    Writer.enter_filled _ (Text.ne_empty_of_solid header), Text.trimEnd_solid header,
    List.foldl_append, run_guard, List.foldl_cons, blanked, run_passing]
  simp [headerLines]

/-- A method's lines depend on nothing of the allow-list but whether the method is intercepted. -/
theorem linesAt_scripts (allowed : Option NameSet) (index : Nat) :
    let chosen : ProxyPlan := { plan with allowList := allowed }
    (MethodImpl.ofMethod chosen method index).scripts.flatMap ("" :: ·.linesAt 2) =
      if chosen.intercepts method then interceptedLines plan method index
      else bypassedLines plan method := by
  intro chosen
  unfold MethodImpl.ofMethod
  dsimp only
  split
  · have context := linesAt_context chosen method index
    have lines := linesAt_intercepted chosen method index
    simp only [MethodImpl.scripts, Option.map_some, Option.toList_some, List.singleton_append,
      List.flatMap_cons, List.flatMap_nil, List.append_nil, Body.script, context, lines]
    rfl
  · have lines := linesAt_direct chosen method
    simp only [MethodImpl.scripts, Option.map_none, Option.toList_none, List.nil_append,
      List.flatMap_cons, List.flatMap_nil, List.append_nil, Body.script, lines]
    rfl

/-- The call without interception is the first thing that the guard does where it holds. -/
theorem guard_infix (index : Nat) :
    (conditionTexts method).map (indentation 3 ++ ·) ++
      [indentation 3 ++ "\x7b", indentation 4 ++ directLine plan method] <:+:
        interceptedLines plan method index := by
  refine ⟨"" :: contextLines plan method index ++ "" :: headerLines method,
    (bypassTexts plan method).tail.map (indentation 4 ++ ·) ++ (indentation 3 ++ "\x7d") ::
      "" :: (passing plan method index).linesAt 3, ?_⟩
  simp [interceptedLines, guardLines, bypassTexts]

end

theorem text_artifact (settings : Settings) (plan : ProxyPlan) (identity : Identity)
    (allowed : Option NameSet) :
    let chosen : ProxyPlan := { plan with allowList := allowed }
    (artifact settings chosen identity).text =
      Text.ofLines (proxyLines settings plan identity chosen.intercepts) := by
  intro chosen
  have fielded : (ProxyClass.ofPlan settings chosen identity).fields ≠ [] := List.cons_ne_nil _ _
  have sections : (plan.methods.mapIdx fun index method =>
      if chosen.intercepts method then interceptedLines plan method index
      else bypassedLines plan method) = plan.methods.mapIdx fun index method =>
        (MethodImpl.ofMethod chosen method index).scripts.flatMap ("" :: ·.linesAt 2) := by
    congr 1
    funext index method
    exact (linesAt_scripts plan method allowed index).symm
  have methods : (ProxyClass.ofPlan settings chosen identity).methods.map
      (·.scripts.flatMap ("" :: ·.linesAt 2)) = plan.methods.mapIdx fun index method =>
        (MethodImpl.ofMethod chosen method index).scripts.flatMap ("" :: ·.linesAt 2) := by
    rw [ProxyClass.ofPlan, List.mapIdx_eq_zipIdx_map, List.mapIdx_eq_zipIdx_map, List.map_map]
    rfl
  show (Artifact.ofScope identity.artifact _ _).text = _
  rw [ProxyClass.text_sections fielded, List.flatMap_assoc, List.flatMap_def, methods, proxyLines,
    sections]
  rfl

/-- The text of a proxy tells of the allow-list only which methods are intercepted, and of each
method in its own lines. One that is has a context class, and its guard makes the underlying call
with the line that is the whole body of one that is not. That one has no context class, and its
lines do not depend on the hook. -/
theorem artifact_selects (settings : Settings) (plan : ProxyPlan) (identity : Identity) :
    (∀ allowed : Option NameSet,
      let chosen : ProxyPlan := { plan with allowList := allowed }
      (artifact settings chosen identity).text =
        Text.ofLines (proxyLines settings plan identity chosen.intercepts)) ∧
    ∀ (method : Method) (index : Nat),
      ({ plan with allowList := none } : ProxyPlan).intercepts method ∧
      indentation 2 ++ contextHeader method index ∈ interceptedLines plan method index ∧
      (∀ other, indentation 2 ++ contextHeader method index ∉ bypassedLines plan other) ∧
      (conditionTexts method).map (indentation 3 ++ ·) ++
        [indentation 3 ++ "\x7b", indentation 4 ++ directLine plan method] <:+:
          interceptedLines plan method index ∧
      ∀ hook, bypassedLines plan { method with hook := hook } = bypassedLines plan method := by
  refine ⟨text_artifact settings plan identity, fun method index => ⟨rfl, ?_, fun other => ?_, ?_,
    fun _ => rfl⟩⟩
  · simp [interceptedLines, contextLines]
  · exact contextHeader_notMem plan other method index
  · exact guard_infix plan method index

end Proxy

end Interpose
