import Interpose.Toml.Quoted

/-!
# TOML tokens

`Token.scan` cuts a TOML text into words, strings, equals signs and line ends. Blanks and comments
separate tokens and are dropped.
-/

namespace Interpose.Toml

inductive Token where
  /-- A run of the characters of bare keys, numerals and literals. -/
  | word (text : String)
  | string (text : String)
  /-- A string between triple quotes. -/
  | longString (text : String)
  | equals
  | lineEnd
  deriving Repr, BEq

namespace Token

/-- Whether a character may stand in a word. -/
def inWord (c : Char) : Bool :=
  c.isAlphanum || c == '_' || c == '-' || c == '+' || c == '.' || c == ':'

/-- The string that opens with `quote`, and how many of the characters behind that quote belong to
it. Only double quotes know escapes. -/
def quoted (quote : Char) (rest : List Char) : Option (Token × Nat) :=
  let escapes := quote == '"'
  if rest.take 2 == [quote, quote] then do
    let (raw, taken) ← rawBody quote true escapes [] (rest.drop 2)
    let text ← decode true escapes (dropFirstLineEnd raw)
    return (.longString text, taken + 2)
  else do
    let (raw, taken) ← rawBody quote false escapes [] rest
    let text ← decode false escapes raw
    return (.string text, taken)

/-- The token that begins with `c`, if there is one, and how many of the characters behind `c`
belong to it. -/
def lexeme (c : Char) (rest : List Char) : Option (Option Token × Nat) :=
  match c with
  | ' ' => some (none, 0)
  | '\t' => some (none, 0)
  | '\n' => some (some .lineEnd, 0)
  | '\r' => if rest.head? == some '\n' then some (some .lineEnd, 1) else none
  | '=' => some (some .equals, 0)
  | '#' => some (none, (rest.takeWhile printable).length)
  | '"' => (quoted '"' rest).map fun found => (some found.1, found.2)
  | '\'' => (quoted '\'' rest).map fun found => (some found.1, found.2)
  | _ =>
    if inWord c then
      let more := rest.takeWhile inWord
      some (some (.word (String.ofList (c :: more))), more.length)
    else none

/-- The tokens of a text, behind those of `done`, which is reversed. -/
def scan (done : List Token) : List Char → Option (List Token)
  | [] => some done.reverse
  | c :: rest =>
    match lexeme c rest with
    | none => none
    | some (token, taken) => scan (token.toList ++ done) (rest.drop taken)
termination_by cs => cs.length
decreasing_by simp only [List.length_drop, List.length_cons]; omega

end Token

end Interpose.Toml
