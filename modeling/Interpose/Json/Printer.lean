import Interpose.Json.Value

/-!
# Writing JSON

`Json.render` writes a value on one line, with a number for each control character of a string.
-/

namespace Interpose.Json

/-- A hexadecimal digit of the lower case. -/
def lowerHex (n : Nat) : Char := Char.ofNat (if n < 10 then 48 + n else 87 + n)

def writeChar (out : String) (c : Char) : String :=
  if c = '"' then out ++ "\\\""
  else if c = '\\' then out ++ "\\\\"
  else if c.toNat < 0x20 then
    ((out ++ "\\u00").push (lowerHex (c.toNat / 16))).push (lowerHex (c.toNat % 16))
  else out.push c

def writeString (out : String) (s : String) : String :=
  (s.toList.foldl writeChar (out.push '"')).push '"'

mutual

/-- Writes a value behind `out`. What holds no value is written as null. -/
def write (out : String) : Json → String
  | .null => out ++ "null"
  | .beyond => out ++ "null"
  | .bool true => out ++ "true"
  | .bool false => out ++ "false"
  | .natural n => out ++ n.repr
  | .numeral text => out ++ text
  | .string s => writeString out s
  | .array items => (writeItems (out.push '[') true items).push ']'
  | .object fields => (writeFields (out.push '\x7b') true fields).push '\x7d'

def writeItems (out : String) (first : Bool) : List Json → String
  | [] => out
  | item :: rest => writeItems (write (if first then out else out.push ',') item) false rest

def writeFields (out : String) (first : Bool) : List (String × Json) → String
  | [] => out
  | (name, value) :: rest =>
    let out := writeString (if first then out else out.push ',') name
    writeFields (write (out.push ':') value) false rest

end

def render (value : Json) : String := write "" value

end Interpose.Json
