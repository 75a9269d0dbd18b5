import Interpose.Toml.Token

/-!
# Flat TOML documents

A flat document is lines of the form `key = value` with a bare or quoted key and a string, a
boolean or an integer of 64 bits. Tables, arrays, dotted keys, dates and floats are no part of it.
-/

namespace Interpose.Toml

inductive Scalar where
  | text (value : String)
  | flag (value : Bool)
  | whole (value : Int)
  deriving Repr, BEq

def inBareKey (c : Char) : Bool := c.isAlphanum || c == '_' || c == '-'

/-- The number that digits of a base write; underscores may stand between two digits. -/
def digits? (base : Nat) (cs : List Char) : Option Nat :=
  let value (c : Char) : Option Nat := (hexDigit? c).filter (· < base)
  let step (state : Nat × Bool) (c : Char) : Option (Nat × Bool) :=
    if c == '_' then if state.2 then some (state.1, false) else none
    else (value c).map fun d => (state.1 * base + d, true)
  match cs.foldlM step (0, false) with
  | some (n, true) => some n
  | _ => none

/-- The number of a decimal numeral, which has no zero before another digit. -/
def decimal? (cs : List Char) : Option Nat :=
  if cs.head? == some '0' && 1 < cs.length then none else digits? 10 cs

/-- The least number above those of sixty-four bits with a sign. -/
def limit : Int := 9223372036854775808

/-- The number of an integer's numeral: decimal with an optional sign, or hexadecimal, octal or
binary behind a zero and a letter. -/
def integer? (cs : List Char) : Option Int :=
  let value : Option Int := match cs with
    | '0' :: 'x' :: rest => (digits? 16 rest).map Int.ofNat
    | '0' :: 'o' :: rest => (digits? 8 rest).map Int.ofNat
    | '0' :: 'b' :: rest => (digits? 2 rest).map Int.ofNat
    | '+' :: rest => (decimal? rest).map Int.ofNat
    | '-' :: rest => (decimal? rest).map fun n => -(n : Int)
    | _ => (decimal? cs).map Int.ofNat
  value.filter fun n => -limit ≤ n && n < limit

def key? : Token → Option String
  | .word text => if text.toList.all inBareKey then some text else none
  | .string text => some text
  | _ => none

def scalar? : Token → Option Scalar
  | .word "true" => some (.flag true)
  | .word "false" => some (.flag false)
  | .word text => (integer? text.toList).map .whole
  | .string text => some (.text text)
  | .longString text => some (.text text)
  | _ => none

def ofTokens? : List Token → Option (List (String × Scalar))
  | [] => some []
  | .lineEnd :: rest => ofTokens? rest
  | [key, .equals, value] => do return [(← key? key, ← scalar? value)]
  | key :: .equals :: value :: .lineEnd :: rest => do
    return (← key? key, ← scalar? value) :: (← ofTokens? rest)
  | _ => none

/-- The assignments of a text; a byte order mark may come first. -/
def parse? (text : String) : Option (List (String × Scalar)) :=
  let cs := match text.toList with
    | '\ufeff' :: rest => rest
    | cs => cs
  (Token.scan [] cs).bind ofTokens?

end Interpose.Toml
