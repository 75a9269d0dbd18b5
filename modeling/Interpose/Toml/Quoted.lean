/-!
# TOML strings

`rawBody` finds where a string ends, `decode` reads what stands between its quotes.
-/

namespace Interpose.Toml

def blank (c : Char) : Bool := c == ' ' || c == '\t'

/-- Whether a character may stand as itself in a string or a comment. -/
def printable (c : Char) : Bool := c == '\t' || (0x20 ≤ c.toNat && c.toNat != 0x7F)

/-- The characters up to the closing quotes, and how many characters were taken. The quotes close
where `quote` stands once or, in a long string, three times; of more than three in a row, up to two
belong to the string. Where `escapes` hold, a backslash keeps the next character from closing. -/
def rawBody (quote : Char) (long escapes : Bool) (done : List Char) :
    List Char → Option (List Char × Nat)
  | [] => none
  | [c] => if c == quote && !long then some (done.reverse, done.length + 1) else none
  | c :: next :: rest =>
    if c == quote then
      if !long then some (done.reverse, done.length + 1)
      else if next == quote && rest.head? == some quote then
        let extra := min 2 ((rest.drop 1).takeWhile (· == quote)).length
        some ((List.replicate extra quote ++ done).reverse, done.length + 3 + extra)
      else rawBody quote long escapes (c :: done) (next :: rest)
    else if escapes && c == '\\' then rawBody quote long escapes (next :: c :: done) rest
    else rawBody quote long escapes (c :: done) (next :: rest)

/-- What the reader of a string is in the middle of. -/
inductive Mode where
  | plain
  | escape
  /-- In a character number: the digits still to come, and the number so far. -/
  | code (left value : Nat)
  /-- Behind a backslash that joins two lines, before the line ends. -/
  | joining
  /-- Behind a joined line end, dropping the blanks and line ends that follow. -/
  | skipping
  /-- Behind a carriage return, which a line feed must follow. The line end counts unless it is
  skipped. -/
  | carriage (skipped : Bool)
  deriving BEq

def hexDigit? (c : Char) : Option Nat :=
  if '0' ≤ c && c ≤ '9' then some (c.toNat - '0'.toNat)
  else if 'a' ≤ c && c ≤ 'f' then some (c.toNat - 'a'.toNat + 10)
  else if 'A' ≤ c && c ≤ 'F' then some (c.toNat - 'A'.toNat + 10)
  else none

def escaped? : Char → Option Char
  | 'b' => some '\x08'
  | 't' => some '\t'
  | 'n' => some '\n'
  | 'f' => some '\x0c'
  | 'r' => some '\r'
  | '"' => some '"'
  | '\\' => some '\\'
  | _ => none

/-- Reads one character that is not behind anything. -/
def plainStep (long escapes : Bool) (done : List Char) (c : Char) : Option (Mode × List Char) :=
  if escapes && c == '\\' then some (.escape, done)
  else if long && c == '\n' then some (.plain, c :: done)
  else if long && c == '\r' then some (.carriage false, done)
  else if printable c then some (.plain, c :: done)
  else none

/-- Reads one character; the text so far is reversed. -/
def modeStep (long escapes : Bool) : Mode × List Char → Char → Option (Mode × List Char)
  | (.plain, done), c => plainStep long escapes done c
  | (.escape, done), c =>
    if c == 'u' then some (.code 4 0, done)
    else if c == 'U' then some (.code 8 0, done)
    else if long && blank c then some (.joining, done)
    else if long && c == '\n' then some (.skipping, done)
    else if long && c == '\r' then some (.carriage true, done)
    else (escaped? c).map fun e => (.plain, e :: done)
  | (.code left value, done), c =>
    match hexDigit? c with
    | none => none
    | some d =>
      let n := value * 16 + d
      if 1 < left then some (.code (left - 1) n, done)
      else if n.isValidChar then some (.plain, Char.ofNat n :: done)
      else none
  | (.joining, done), c =>
    if blank c then some (.joining, done)
    else if c == '\n' then some (.skipping, done)
    else if c == '\r' then some (.carriage true, done)
    else none
  | (.skipping, done), c =>
    if blank c || c == '\n' then some (.skipping, done)
    else if c == '\r' then some (.carriage true, done)
    else plainStep long escapes done c
  | (.carriage skipped, done), c =>
    if c != '\n' then none
    else if skipped then some (.skipping, done)
    else some (.plain, c :: done)

def decode (long escapes : Bool) (raw : List Char) : Option String :=
  match raw.foldlM (modeStep long escapes) (.plain, []) with
  | some (.plain, done) => some (String.ofList done.reverse)
  | some (.skipping, done) => some (String.ofList done.reverse)
  | _ => none

/-- The characters of a long string without a line end directly behind its opening quotes. -/
def dropFirstLineEnd : List Char → List Char
  | '\n' :: rest => rest
  | '\r' :: '\n' :: rest => rest
  | raw => raw

end Interpose.Toml
