import Interpose.Json.Value

/-!
# JSON tokens

`Token.scan` cuts a text into tokens by RFC 8259. Every lexeme is read after its first character and
reports how many more characters it takes.
-/

namespace Interpose.Json

inductive Token where
  | openArray
  | closeArray
  | openObject
  | closeObject
  | comma
  | colon
  /-- A string, or nothing where its escapes spell no text. -/
  | string (text : Option String)
  /-- A literal or a numeral. -/
  | scalar (value : Json)
  deriving Repr, BEq

namespace Token

/-- A string is characters and the code units that escapes give by number. -/
inductive Piece where
  | char (c : Char)
  | unit (code : Nat)

/-- The text of some pieces: a high surrogate takes the low one behind it, and neither stands
alone. The result grows at the end of `done`, which is reversed. -/
def spell (done : List Char) : List Piece → Option String
  | [] => some (String.ofList done.reverse)
  | .char c :: rest => spell (c :: done) rest
  | .unit high :: .unit low :: rest =>
    if 0xD800 ≤ high && high < 0xDC00 then
      if 0xDC00 ≤ low && low < 0xE000 then
        spell (Char.ofNat (0x10000 + (high - 0xD800) * 0x400 + (low - 0xDC00)) :: done) rest
      else none
    else if 0xDC00 ≤ high && high < 0xE000 then none
    else spell (Char.ofNat high :: done) (.unit low :: rest)
  | .unit code :: rest =>
    if 0xD800 ≤ code && code < 0xE000 then none else spell (Char.ofNat code :: done) rest

def hexDigit? (c : Char) : Option Nat :=
  if '0' ≤ c && c ≤ '9' then some (c.toNat - '0'.toNat)
  else if 'a' ≤ c && c ≤ 'f' then some (c.toNat - 'a'.toNat + 10)
  else if 'A' ≤ c && c ≤ 'F' then some (c.toNat - 'A'.toNat + 10)
  else none

def hexNumber? (cs : List Char) : Option Nat :=
  cs.foldlM (fun n c => (hexDigit? c).map (n * 16 + ·)) 0

def escaped? : Char → Option Char
  | '"' => some '"'
  | '\\' => some '\\'
  | '/' => some '/'
  | 'b' => some '\x08'
  | 'f' => some '\x0c'
  | 'n' => some '\n'
  | 'r' => some '\r'
  | 't' => some '\t'
  | _ => none

/-- The pieces up to the closing quote, and how many characters were taken. -/
def stringBody (done : List Piece) (taken : Nat) : List Char → Option (List Piece × Nat)
  | [] => none
  | '"' :: _ => some (done.reverse, taken + 1)
  | '\\' :: 'u' :: a :: b :: c :: d :: rest =>
    match hexNumber? [a, b, c, d] with
    | some code => stringBody (.unit code :: done) (taken + 6) rest
    | none => none
  | '\\' :: e :: rest =>
    match escaped? e with
    | some c => stringBody (.char c :: done) (taken + 2) rest
    | none => none
  | c :: rest =>
    if c.toNat < 0x20 || c == '\\' then none else stringBody (.char c :: done) (taken + 1) rest

def digit (c : Char) : Bool := '0' ≤ c && c ≤ '9'

/-- Whether a text is empty or an exponent. -/
def exponent : List Char → Bool
  | [] => true
  | e :: rest =>
    (e == 'e' || e == 'E') &&
      let digits := match rest with
        | '+' :: more => more
        | '-' :: more => more
        | more => more
      !digits.isEmpty && digits.all digit

/-- Whether a text is a fraction, an exponent, both in this order, or neither. -/
def fraction : List Char → Bool
  | '.' :: rest => digit (rest.headD ' ') && exponent (rest.dropWhile digit)
  | rest => exponent rest

/-- The value of a numeral: no sign but a minus, and no zero before another digit. -/
def numeral? (cs : List Char) : Option Json :=
  let unsigned := match cs with
    | '-' :: rest => rest
    | rest => rest
  let whole := unsigned.takeWhile digit
  let rest := unsigned.dropWhile digit
  if whole.isEmpty || (whole.head? == some '0' && 1 < whole.length) || !fraction rest then none
  else if rest.isEmpty && cs.head? != some '-' then
    some (.natural (whole.foldl (fun n c => n * 10 + (c.toNat - '0'.toNat)) 0))
  else some (.numeral (String.ofList cs))

def inNumeral (c : Char) : Bool :=
  digit c || c == '-' || c == '+' || c == '.' || c == 'e' || c == 'E'

/-- The token that begins with `c`, and how many of the characters behind `c` belong to it. -/
def lexeme (c : Char) (rest : List Char) : Option (Token × Nat) :=
  match c with
  | '[' => some (.openArray, 0)
  | ']' => some (.closeArray, 0)
  | '\x7b' => some (.openObject, 0)
  | '\x7d' => some (.closeObject, 0)
  | ',' => some (.comma, 0)
  | ':' => some (.colon, 0)
  | '"' => (stringBody [] 0 rest).map fun body => (.string (spell [] body.1), body.2)
  | 't' => if rest.take 3 == ['r', 'u', 'e'] then some (.scalar (.bool true), 3) else none
  | 'f' => if rest.take 4 == ['a', 'l', 's', 'e'] then some (.scalar (.bool false), 4) else none
  | 'n' => if rest.take 3 == ['u', 'l', 'l'] then some (.scalar .null, 3) else none
  | _ =>
    let more := rest.takeWhile inNumeral
    (numeral? (c :: more)).map fun value => (.scalar value, more.length)

def between (c : Char) : Bool := c == ' ' || c == '\t' || c == '\n' || c == '\r'

/-- The tokens of a text, behind those of `done`, which is reversed. -/
def scan (done : List Token) : List Char → Option (List Token)
  | [] => some done.reverse
  | c :: rest =>
    if between c then scan done rest
    else
      match lexeme c rest with
      | none => none
      | some (token, taken) => scan (token :: done) (rest.drop taken)
termination_by cs => cs.length
decreasing_by all_goals simp only [List.length_drop, List.length_cons]; omega

end Token

end Interpose.Json
