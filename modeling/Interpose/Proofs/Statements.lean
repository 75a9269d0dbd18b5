import Interpose.Proofs.Execution
import Interpose.Proofs.Scanning

/-!
# Statements as they are read

A statement is read from its line by one who knows what the contract declares of the method. The
statements of a generated method are read as what they are: `statement?_declares`,
`statement?_returns`, `statement?_assign`, `statement?_call`.
-/

namespace Interpose.Execution

open Text (Word Stops behind before between word? items? behind_append before_append)

/-- What a contract declares of a method. -/
structure Signature where
  contract : String
  method : String
  typeParameters : List String
  returnType : Option String
  /-- How each parameter is passed and its type. -/
  parameters : List (PassMode × String)
  deriving Repr, DecidableEq

/-- The method's name with its type parameters. -/
def Signature.reference (signature : Signature) : String :=
  match signature.typeParameters with
  | [] => signature.method
  | names => signature.method ++ "<" ++ ", ".intercalate names ++ ">"

theorem Signature.reference_eq (signature : Signature) :
    signature.reference = signature.method ++ Spelling.typeList signature.typeParameters := by
  unfold reference Spelling.typeList
  cases signature.typeParameters with
  | nil => exact (String.append_empty ..).symm
  | cons name names => simp [TypeRef.angled, String.append_assoc]

/-! ### Readers -/

/-- Reads a variable, or a field of what a variable holds. -/
def path? (line : String) : Option (Expr × String) := do
  let (first, rest) ← word? line
  match (behind "." rest).bind word? with
  | some (second, rest) => return (.member (.name first) second, rest)
  | none => return (.name first, rest)

/-- What is written in front of a value that is passed in that way. -/
def marker : PassMode → String
  | .byValue => ""
  | .byRef => "ref "
  | .byOut => "out "
  | .byIn => "in "

/-- Reads how a value is passed. -/
def mode (line : String) : PassMode × String :=
  match behind "ref " line, behind "out " line, behind "in " line with
  | some rest, _, _ => (.byRef, rest)
  | _, some rest, _ => (.byOut, rest)
  | _, _, some rest => (.byIn, rest)
  | _, _, _ => (.byValue, line)

/-- Reads what is passed for a parameter of that type. A function without parameters of the method
declares a variable for what only flows back. -/
def argument? (declares : Bool) (type line : String) : Option (Argument × String) :=
  if (mode line).1 = .byOut ∧ declares then do
    let (word, rest) ← word? (← behind (type ++ " ") (mode line).2)
    return (.declare type word, rest)
  else (path? (mode line).2).map fun (value, rest) => (.pass (mode line).1 value, rest)

/-- Reads the object of a call, perhaps cast to the contract. -/
def target? (signature : Signature) (line : String) : Option (Expr × String) :=
  match behind ("((" ++ signature.contract ++ ")") line with
  | some rest => do
    let (object, rest) ← path? rest
    return (.cast signature.contract object, ← behind ")" rest)
  | none => path? line

def call? (signature : Signature) (declares : Bool) (line : String) : Option Call := do
  let (target, rest) ← target? signature line
  let listed ← between ("." ++ signature.reference ++ "(") ")" rest
  let arguments ← items? (argument? declares) (signature.parameters.map (·.2)) listed
  return ⟨target, signature.method, signature.typeParameters, arguments⟩

def value? (line : String) : Option Expr := do
  let (value, rest) ← path? line
  if rest = "" then some value else none

def operand? (signature : Signature) (declares : Bool) (line : String) : Option (Expr ⊕ Call) :=
  match value? line with
  | some value => some (.inl value)
  | none => (call? signature declares line).map .inr

/-- Reads the variable that a line declares and what stands behind the sign of assignment. -/
def declared? (line : String) : Option (String × String) := do
  let (word, rest) ← word? (← behind "var " line)
  return (word, ← behind " = " rest)

def assigned? (line : String) : Option (Expr × Expr) := do
  let (target, rest) ← path? line
  return (target, ← value? (← behind " = " rest))

/-- Reads a line without its closing sign. -/
def unclosed? (signature : Signature) (declares : Bool) (line : String) : Option Stmt :=
  if line = "return" then some .stop
  else
    match behind "return " line, declared? line, assigned? line with
    | some rest, _, _ => (operand? signature declares rest).map (Sum.elim .give .giveCall)
    | _, some (word, rest), _ =>
      (operand? signature declares rest).map (Sum.elim (.declare word) (.declareCall word))
    | _, _, some (target, value) => some (.assign target value)
    | _, _, _ => (call? signature declares line).map .call

def statement? (signature : Signature) (declares : Bool) (line : String) : Option Stmt :=
  (before ";" line).bind (unclosed? signature declares)

/-! ### Expressions -/

/-- A variable or a field of what a variable holds, written in words. -/
inductive Path : Expr → Prop where
  | name {word : String} : Word word → Path (.name word)
  | member {first second : String} : Word first → Word second → Path (.member (.name first) second)

theorem stops_dot (rest : String) : Stops ("." ++ rest) :=
  Text.stops_append (by decide) (by decide) rest

theorem stops_comma (rest : String) : Stops (", " ++ rest) :=
  Text.stops_append (by decide) (by decide) rest

theorem stops_equals (rest : String) : Stops (" = " ++ rest) :=
  Text.stops_append (by decide) (by decide) rest

theorem stops_cast (rest : String) : Stops ("((" ++ rest) :=
  Text.stops_append (by decide) (by decide) rest

theorem path?_member {first second rest : String} (front : Word first) (back : Word second)
    (stops : Stops rest) : path? (first ++ ("." ++ (second ++ rest))) =
      some (.member (.name first) second, rest) := by
  simp only [path?, Text.word?_append front (stops_dot _), Option.bind_eq_bind, Option.bind_some,
    behind_append, Text.word?_append back stops]
  rfl

theorem path?_name {word rest : String} (written : Word word) (stops : Stops rest)
    (undotted : rest.toList.head? ≠ some '.') : path? (word ++ rest) = some (.name word, rest) := by
  simp only [path?, Text.word?_append written stops, Option.bind_eq_bind, Option.bind_some,
    Text.behind_eq_none (show ".".toList.head? = some '.' from rfl) undotted, Option.bind_none]
  rfl

theorem path?_append {value : Expr} {rest : String} (path : Path value) (stops : Stops rest)
    (undotted : rest.toList.head? ≠ some '.') :
    path? (value.text ++ rest) = some (value, rest) := by
  cases path with
  | name written => exact path?_name written stops undotted
  | member front back =>
    simp only [Expr.text, String.append_assoc]
    exact path?_member front back stops

theorem path?_eq_none {line : String} (stops : Stops line) : path? line = none := by
  rw [path?, Text.word?_eq_none stops]
  rfl

theorem value?_path {value : Expr} (path : Path value) : value? value.text = some value := by
  have read : path? (value.text ++ "") = some (value, "") :=
    path?_append path (by decide) (by decide)
  rw [String.append_empty] at read
  rw [value?, read]
  rfl

/-! ### Arguments -/

theorem mode_keyword (text : String) : mode ("ref " ++ text) = (.byRef, text) ∧
    mode ("out " ++ text) = (.byOut, text) ∧ mode ("in " ++ text) = (.byIn, text) := by
  have refOut : behind "ref " ("out " ++ text) = none :=
    Text.behind_eq_none (c := 'r') rfl (by simp)
  have refIn : behind "ref " ("in " ++ text) = none :=
    Text.behind_eq_none (c := 'r') rfl (by simp)
  have outIn : behind "out " ("in " ++ text) = none :=
    Text.behind_eq_none (c := 'o') rfl (by simp)
  simp [mode, refOut, refIn, outIn]

/-- A word is read as a keyword only in front of a space. -/
theorem mode_word {word rest : String} (written : Word word) (stops : Stops rest)
    (tight : rest.toList.head? ≠ some ' ') : mode (word ++ rest) = (.byValue, word ++ rest) := by
  have unread {keyword : String} (key : Word keyword) :
      behind (keyword ++ " ") (word ++ rest) = none :=
    Text.behind_keyword_eq_none key written stops tight
  have ref : behind "ref " (word ++ rest) = none := unread (Text.word_of_mem "ref" (by simp))
  have out : behind "out " (word ++ rest) = none := unread (Text.word_of_mem "out" (by simp))
  have inward : behind "in " (word ++ rest) = none := unread (Text.word_of_mem "in" (by simp))
  simp [mode, ref, out, inward]

theorem mode_path (mode : PassMode) {value : Expr} {rest : String} (path : Path value)
    (stops : Stops rest) (tight : rest.toList.head? ≠ some ' ') :
    Execution.mode (Spelling.passed mode (value.text ++ rest)) = (mode, value.text ++ rest) := by
  obtain ⟨ref, out, inward⟩ := mode_keyword (value.text ++ rest)
  cases mode with
  | byValue =>
    cases path with
    | name written => exact mode_word written stops tight
    | member front back =>
      simp only [Expr.text, String.append_assoc]
      exact mode_word front (stops_dot _) (by simp)
  | byRef => exact ref
  | byOut => exact out
  | byIn => exact inward

theorem passed_eq (mode : PassMode) (text : String) :
    Spelling.passed mode text = marker mode ++ text := by
  cases mode <;> simp [Spelling.passed, PassMode.keyword, marker]

theorem passed_append (mode : PassMode) (text rest : String) :
    Spelling.passed mode text ++ rest = Spelling.passed mode (text ++ rest) := by
  rw [passed_eq, passed_eq, String.append_assoc]

/-- An argument that is read as what it is. -/
inductive Given (declares : Bool) (type : String) : Argument → Prop where
  | pass {mode : PassMode} {value : Expr} : Path value → (mode = .byOut → declares = false) →
      Given declares type (.pass mode value)
  | declare {word : String} : Word word → declares = true → Given declares type (.declare type word)

/-- What may stand behind an item of a list. -/
def Ends (rest : String) : Prop := rest = "" ∨ ∃ others, rest = ", " ++ others

theorem Ends.stops {rest : String} (ends : Ends rest) : Stops rest := by
  obtain rfl | ⟨others, rfl⟩ := ends
  · decide
  · exact stops_comma others

theorem Ends.head?_ne {rest : String} (ends : Ends rest) {c : Char} (other : c ≠ ',') :
    rest.toList.head? ≠ some c := by
  obtain rfl | ⟨others, rfl⟩ := ends
  · simp
  · simpa using other.symm

theorem argument?_append {declares : Bool} {type rest : String} {argument : Argument}
    (given : Given declares type argument) (ends : Ends rest) :
    argument? declares type (argument.text ++ rest) = some (argument, rest) := by
  have stops := ends.stops
  cases given with
  | @pass mode value path plain =>
    have read := mode_path mode path stops (ends.head?_ne (by decide))
    have value := path?_append path stops (ends.head?_ne (by decide))
    have undeclared : ¬ (mode = .byOut ∧ declares) := fun both => by simp [plain both.1] at both
    rw [Argument.text, passed_append, argument?, read]
    simp [undeclared, value]
  | @declare word written declared =>
    have read : Execution.mode ((Argument.declare type word).text ++ rest) =
        (.byOut, type ++ " " ++ (word ++ rest)) := by
      rw [Argument.text, passed_append, String.append_assoc]
      exact (mode_keyword _).2.1
    rw [argument?, read]
    simp [declared, Text.word?_append written stops]

theorem items?_arguments {ι : Type} {declares : Bool} {type : ι → String}
    {argument : ι → Argument} {rows : List ι}
    (given : ∀ row ∈ rows, Given declares (type row) (argument row)) :
    items? (argument? declares) (rows.map type)
      (Spelling.commaList ((rows.map argument).map (·.text))) = some (rows.map argument) := by
  rw [List.map_map]
  exact Text.items?_commaList fun row member rest ends => argument?_append (given row member) ends

/-! ### Calls -/

/-- The object of a call. -/
inductive Target (contract : String) : Expr → Prop where
  | plain {first second : String} : Word first → Word second →
      Target contract (.member (.name first) second)
  | cast {first second : String} : Word first → Word second →
      Target contract (.cast contract (.member (.name first) second))

theorem target?_append {signature : Signature} {target : Expr}
    (written : Target signature.contract target) (rest : String) :
    target? signature (target.text ++ ("." ++ rest)) = some (target, "." ++ rest) := by
  cases written with
  | @plain first second front back =>
    have uncast : behind ("((" ++ signature.contract ++ ")") (first ++ ("." ++ (second ++
        ("." ++ rest)))) = none := by
      obtain ⟨c, head, letter⟩ := front.head? ("." ++ (second ++ ("." ++ rest)))
      refine Text.behind_eq_none (c := '(') (by simp) ?_
      rw [head]
      rintro same
      rw [Option.some.inj same] at letter
      exact absurd letter (by decide)
    simp only [Expr.text, String.append_assoc]
    rw [target?, uncast]
    exact path?_member front back (stops_dot rest)
  | @cast first second front back =>
    have closed : Stops (")" ++ ("." ++ rest)) :=
      Text.stops_append (by decide) (by decide) _
    have line : (Expr.cast signature.contract (.member (.name first) second)).text ++
        ("." ++ rest) = "((" ++ signature.contract ++ ")" ++ (first ++ ("." ++ (second ++
          (")" ++ ("." ++ rest))))) := by
      simp only [Expr.text, String.append_assoc]
    rw [line, target?, behind_append]
    simp only [path?_member front back closed, behind_append, Option.bind_eq_bind,
      Option.bind_some]
    rfl

theorem Target.begins {contract : String} {target : Expr} (written : Target contract target) :
    (∃ rest, target.text = "((" ++ rest) ∨
      ∃ first second, Word first ∧ Word second ∧ target.text = first ++ ("." ++ second) := by
  cases written with
  | plain front back => exact .inr ⟨_, _, front, back, String.append_assoc ..⟩
  | cast front back => exact .inl ⟨_, by simp only [Expr.text, String.append_assoc]; rfl⟩

/-- A call that is read as what it is. -/
structure Readable (signature : Signature) (declares : Bool) (call : Call) : Prop where
  target : Target signature.contract call.target
  method : call.method = signature.method
  typeArguments : call.typeArguments = signature.typeParameters
  arguments : items? (argument? declares) (signature.parameters.map (·.2))
    (Spelling.commaList (call.arguments.map (·.text))) = some call.arguments

namespace Readable

variable {signature : Signature} {declares : Bool} {call : Call}
  (readable : Readable signature declares call)

include readable

theorem text_eq : call.text = call.target.text ++ ("." ++ (signature.reference ++ "(" ++
    Spelling.commaList (call.arguments.map (·.text)) ++ ")")) := by
  simp only [Call.text, Expr.text, signature.reference_eq, readable.method,
    readable.typeArguments, String.append_assoc]

theorem call?_text : call? signature declares call.text = some call := by
  have listed := Text.between_append ("." ++ signature.reference ++ "(")
    (Spelling.commaList (call.arguments.map (·.text))) ")"
  simp only [String.append_assoc] at listed
  simp only [readable.text_eq, call?, target?_append readable.target, Option.bind_eq_bind,
    Option.bind_some, String.append_assoc, listed, readable.arguments, ← readable.method,
    ← readable.typeArguments]
  rfl

/-- A call begins with a bracket or with a word before a dot. -/
theorem begins : (∃ rest, call.text = "((" ++ rest) ∨ ∃ first second rest,
    Word first ∧ Word second ∧ call.text = first ++ ("." ++ (second ++ ("." ++ rest))) := by
  have line := readable.text_eq
  obtain ⟨rest, opened⟩ | ⟨first, second, front, back, opened⟩ := readable.target.begins
  · rw [opened, String.append_assoc] at line
    exact .inl ⟨_, line⟩
  · rw [opened, String.append_assoc, String.append_assoc] at line
    exact .inr ⟨first, second, _, front, back, line⟩

theorem behind_eq_none {keyword : String} (key : Word keyword) :
    behind (keyword ++ " ") call.text = none := by
  obtain ⟨rest, line⟩ | ⟨first, second, rest, front, _, line⟩ := readable.begins
  · obtain ⟨c, head, letter⟩ := key.head? " "
    refine Text.behind_eq_none head ?_
    rw [line]
    rintro same
    have bracket : c = '(' := by simpa [eq_comm] using same
    rw [bracket] at letter
    exact absurd letter (by decide)
  · rw [line]
    exact Text.behind_keyword_eq_none key front (stops_dot _) (by simp)

theorem value?_eq_none : value? call.text = none := by
  obtain ⟨rest, line⟩ | ⟨first, second, rest, front, back, line⟩ := readable.begins
  · rw [line, value?, path?_eq_none (stops_cast rest)]
    rfl
  · rw [line, value?, path?_member front back (stops_dot rest)]
    simp

theorem assigned?_eq_none : assigned? call.text = none := by
  obtain ⟨rest, line⟩ | ⟨first, second, rest, front, back, line⟩ := readable.begins
  · rw [line, assigned?, path?_eq_none (stops_cast rest)]
    rfl
  · have dotted : behind " = " ("." ++ rest) = none :=
      Text.behind_eq_none (c := ' ') rfl (by simp)
    rw [line, assigned?, path?_member front back (stops_dot rest)]
    simp [dotted]

theorem operand?_text : operand? signature declares call.text = some (.inr call) := by
  rw [operand?, readable.value?_eq_none, readable.call?_text]
  rfl

end Readable

theorem operand?_path {value : Expr} (path : Path value) (signature : Signature)
    (declares : Bool) : operand? signature declares value.text = some (.inl value) := by
  rw [operand?, value?_path path]

/-! ### Statements -/

section

variable {signature : Signature} {declares : Bool}

theorem statement?_stop : statement? signature declares Stmt.stop.text = some .stop := by
  have line : Stmt.stop.text = "return" ++ ";" := rfl
  rw [statement?, line, before_append]
  rfl

theorem statement?_returns {text : String} {operand : Expr ⊕ Call}
    (read : operand? signature declares text = some operand) :
    statement? signature declares ("return " ++ text ++ ";") =
      some (operand.elim .give .giveCall) := by
  have spaced : "return " ++ text ≠ "return" := by
    intro same
    have lengths := congrArg (·.toList.length) same
    simp at lengths
  rw [statement?, before_append, Option.bind_some, unclosed?, if_neg spaced, behind_append]
  simp [read]

theorem declared?_append {word rest : String} (written : Word word) :
    declared? ("var " ++ word ++ " = " ++ rest) = some (word, rest) := by
  have line : "var " ++ word ++ " = " ++ rest = "var " ++ (word ++ (" = " ++ rest)) := by
    simp only [String.append_assoc]
  rw [line, declared?, behind_append]
  simp [Text.word?_append written (stops_equals rest)]

theorem declared?_eq_none {line : String} (other : ∀ rest, behind "var " line = some rest →
    Stops rest) : declared? line = none := by
  cases read : behind "var " line with
  | none => simp [declared?, read]
  | some rest => simp [declared?, read, Text.word?_eq_none (other rest read)]

theorem statement?_declares {word text : String} {operand : Expr ⊕ Call} (written : Word word)
    (read : operand? signature declares text = some operand) :
    statement? signature declares ("var " ++ word ++ " = " ++ text ++ ";") =
      some (operand.elim (.declare word) (.declareCall word)) := by
  have line : "var " ++ word ++ " = " ++ text = "var " ++ (word ++ (" = " ++ text)) := by
    simp only [String.append_assoc]
  have unreturned : "var " ++ word ++ " = " ++ text ≠ "return" := by
    intro same
    have letters := congrArg (·.toList.head?) same
    simp at letters
  have ungiven : behind "return " ("var " ++ word ++ " = " ++ text) = none :=
    Text.behind_eq_none (c := 'r') rfl (by simp)
  rw [statement?, before_append, Option.bind_some, unclosed?, if_neg unreturned, ungiven,
    declared?_append written]
  simp [read]

/-- Of all that may be assigned, a keyword is read only where it is the variable. -/
theorem behind_assign {keyword found text : String} {target : Expr} (key : Word keyword)
    (path : Path target)
    (reads : behind (keyword ++ " ") (target.text ++ (" = " ++ text)) = some found) :
    target = .name keyword ∧ found = "= " ++ text := by
  cases path with
  | name written =>
    obtain ⟨rfl, rest⟩ := Text.behind_keyword key written (stops_equals text) reads
    refine ⟨rfl, ?_⟩
    have spaced : " = " ++ text = " " ++ ("= " ++ text) := by
      rw [← String.append_assoc]
      rfl
    exact ((String.append_right_inj " ").mp (spaced.symm.trans rest)).symm
  | @member first second front back =>
    simp only [Expr.text, String.append_assoc] at reads
    rw [Text.behind_keyword_eq_none key front (stops_dot _) (by simp)] at reads
    cases reads

theorem statement?_assign {target value : Expr} (path : Path target) (other : Path value)
    (unreserved : target ≠ .name "return") :
    statement? signature declares (Stmt.assign target value).text =
      some (.assign target value) := by
  have assigned : assigned? (target.text ++ (" = " ++ value.text)) = some (target, value) := by
    simp [assigned?, path?_append path (stops_equals _), value?_path other]
  have unreturned : target.text ++ (" = " ++ value.text) ≠ "return" := by
    intro same
    have sign : '=' ∈ "return".toList := by simp [← same]
    exact absurd sign (by decide)
  have ungiven : behind "return " (target.text ++ (" = " ++ value.text)) = none := by
    rw [Option.eq_none_iff_forall_ne_some]
    intro found reads
    exact unreserved (behind_assign (Text.word_of_mem "return" (by simp)) path reads).1
  -- A variable may be called like the keyword, but no word stands behind it.
  have undeclared : declared? (target.text ++ (" = " ++ value.text)) = none := by
    refine declared?_eq_none fun found reads => ?_
    obtain ⟨_, rfl⟩ := behind_assign (Text.word_of_mem "var" (by simp)) path reads
    exact Text.stops_append (by decide) (by decide) _
  rw [statement?, Stmt.text, before_append, String.append_assoc, Option.bind_some, unclosed?,
    if_neg unreturned, ungiven, undeclared, assigned]

theorem statement?_call {call : Call} (readable : Readable signature declares call) :
    statement? signature declares (Stmt.call call).text = some (.call call) := by
  have unreturned : call.text ≠ "return" := by
    intro same
    have bracket : '(' ∈ "return".toList := by simp [← same, Call.text]
    exact absurd bracket (by decide)
  have ungiven : behind "return " call.text = none :=
    readable.behind_eq_none (Text.word_of_mem "return" (by simp))
  have undeclared : declared? call.text = none := by
    refine declared?_eq_none fun rest read => ?_
    rw [show behind "var " call.text = none from
      readable.behind_eq_none (Text.word_of_mem "var" (by simp))] at read
    cases read
  rw [statement?, Stmt.text, before_append, Option.bind_some, unclosed?, if_neg unreturned,
    ungiven, undeclared, readable.assigned?_eq_none, readable.call?_text]
  rfl

end

end Interpose.Execution
