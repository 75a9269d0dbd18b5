import Interpose.Json.Token

/-!
# Reading JSON

`Json.ofTokens?` builds a value from tokens with a stack of the containers that are still open.
`Json.parse?` reads a text.
-/

namespace Interpose.Json

/-- A container that is still open, its newest element first. -/
inductive Frame where
  | array (items : List Json)
  /-- The fields so far, and the name that waits for its value. A name that spells no text is
  nothing. -/
  | object (fields : List (Option String × Json)) (name : Option String)

inductive Expected where
  | value
  | valueOrClose
  | name
  | nameOrClose
  | colon
  | commaOrClose
  | done (result : Json)

/-- The open containers, innermost first, and what may come next. -/
structure Builder where
  stack : List Frame
  expected : Expected

namespace Builder

def give (value : Json) : List Frame → Builder
  | [] => ⟨[], .done value⟩
  | .array items :: outer => ⟨.array (value :: items) :: outer, .commaOrClose⟩
  | .object fields name :: outer => ⟨.object ((name, value) :: fields) none :: outer, .commaOrClose⟩

/-- Whether containers inside all of `outer` nest too deep. -/
def tooDeep (outer : List Frame) : Bool := !(outer.drop (maxNesting - 1)).isEmpty

/-- The value of a container that closes inside `outer`. -/
def close (frame : Frame) (outer : List Frame) : Json :=
  if tooDeep outer then .beyond
  else
    match frame with
    | .array items => .array items.reverse
    | .object fields _ =>
      match fields.reverse.mapM fun field => field.1.map (·, field.2) with
      | some named => .object named
      | none => .beyond

def step (builder : Builder) (token : Token) : Option Builder :=
  match builder.expected, token, builder.stack with
  | .value, .scalar value, stack => some (give value stack)
  | .valueOrClose, .scalar value, stack => some (give value stack)
  | .value, .string text, stack => some (give (text.elim .beyond .string) stack)
  | .valueOrClose, .string text, stack => some (give (text.elim .beyond .string) stack)
  | .value, .openArray, stack => some ⟨.array [] :: stack, .valueOrClose⟩
  | .valueOrClose, .openArray, stack => some ⟨.array [] :: stack, .valueOrClose⟩
  | .value, .openObject, stack => some ⟨.object [] none :: stack, .nameOrClose⟩
  | .valueOrClose, .openObject, stack => some ⟨.object [] none :: stack, .nameOrClose⟩
  | .valueOrClose, .closeArray, .array items :: outer =>
    some (give (close (.array items) outer) outer)
  | .commaOrClose, .closeArray, .array items :: outer =>
    some (give (close (.array items) outer) outer)
  | .nameOrClose, .closeObject, .object fields name :: outer =>
    some (give (close (.object fields name) outer) outer)
  | .commaOrClose, .closeObject, .object fields name :: outer =>
    some (give (close (.object fields name) outer) outer)
  | .name, .string text, .object fields _ :: outer => some ⟨.object fields text :: outer, .colon⟩
  | .nameOrClose, .string text, .object fields _ :: outer =>
    some ⟨.object fields text :: outer, .colon⟩
  | .colon, .colon, stack => some ⟨stack, .value⟩
  | .commaOrClose, .comma, .array items :: outer => some ⟨.array items :: outer, .value⟩
  | .commaOrClose, .comma, .object fields name :: outer =>
    some ⟨.object fields name :: outer, .name⟩
  | _, _, _ => none

end Builder

/-- The value that the tokens write, if they write exactly one. -/
def ofTokens? (tokens : List Token) : Option Json :=
  match tokens.foldlM Builder.step ⟨[], .value⟩ with
  | some ⟨_, .done result⟩ => some result
  | _ => none

def parse? (text : String) : Option Json := (Token.scan [] text.toList).bind ofTokens?

end Interpose.Json
