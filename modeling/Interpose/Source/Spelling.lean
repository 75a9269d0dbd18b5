import Interpose.Model.Parameter

/-!
# Spelling

How names, lists of types and passed values are written in generated source.
-/

namespace Interpose.Spelling

/-- The words that are no names. -/
def reserved : List String := [
  "abstract", "as", "base", "bool", "break", "byte", "case", "catch", "char", "checked", "class",
  "const", "continue", "decimal", "default", "delegate", "do", "double", "else", "enum", "event",
  "explicit", "extern", "false", "finally", "fixed", "float", "for", "foreach", "goto", "if",
  "implicit", "in", "int", "interface", "internal", "is", "lock", "long", "namespace", "new",
  "null", "object", "operator", "out", "override", "params", "private", "protected", "public",
  "readonly", "ref", "return", "sbyte", "sealed", "short", "sizeof", "stackalloc", "static",
  "string", "struct", "switch", "this", "throw", "true", "try", "typeof", "uint", "ulong",
  "unchecked", "unsafe", "ushort", "using", "virtual", "void", "volatile", "while"]

/-- A name as an identifier: a reserved word gets a sign in front. -/
def identifier (name : String) : String :=
  if reserved.contains name then "@" ++ name else name

/-- A list of types behind a name; nothing for no types. -/
def typeList (names : List String) : String :=
  if names.isEmpty then "" else TypeRef.angled names

def commaList (items : List String) : String := ", ".intercalate items

/-- A text behind the keyword of its passing mode. -/
def passed (mode : PassMode) (text : String) : String :=
  if mode = .byValue then text else mode.keyword ++ " " ++ text

end Interpose.Spelling
