import Interpose.Source.Spelling
import Interpose.Source.Writer

/-!
# Code

Expressions, calls and statements of generated members, and their text. Names stand in them as they
are written.
-/

namespace Interpose

inductive Expr where
  | name (word : String)
  | member (target : Expr) (word : String)
  /-- A target seen as a type. -/
  | cast (type : String) (target : Expr)
  deriving Repr, DecidableEq

namespace Expr

def text : Expr → String
  | .name word => word
  | .member target word => target.text ++ "." ++ word
  | .cast type target => "((" ++ type ++ ")" ++ target.text ++ ")"

/-- A field of the object that the code belongs to. -/
def field (word : String) : Expr := member (.name "this") word

end Expr

inductive Argument where
  | pass (mode : PassMode) (value : Expr)
  /-- A variable that the call declares and fills. -/
  | declare (type name : String)
  deriving Repr, DecidableEq

def Argument.text : Argument → String
  | pass mode value => Spelling.passed mode value.text
  | declare type name => Spelling.passed .byOut (type ++ " " ++ name)

structure Call where
  target : Expr
  method : String
  typeArguments : List String
  arguments : List Argument
  deriving Repr, DecidableEq

def Call.text (call : Call) : String :=
  (call.target.member call.method).text ++ Spelling.typeList call.typeArguments ++
    "(" ++ Spelling.commaList (call.arguments.map (·.text)) ++ ")"

inductive Stmt where
  | declare (name : String) (value : Expr)
  | declareCall (name : String) (made : Call)
  | assign (target value : Expr)
  | call (made : Call)
  | giveCall (made : Call)
  | give (value : Expr)
  | stop
  | throwNew (type : String)
  deriving Repr, DecidableEq

namespace Stmt

def text : Stmt → String
  | declare name value => "var " ++ name ++ " = " ++ value.text ++ ";"
  | .declareCall name made => "var " ++ name ++ " = " ++ made.text ++ ";"
  | .assign target value => target.text ++ " = " ++ value.text ++ ";"
  | .call made => made.text ++ ";"
  | .giveCall made => "return " ++ made.text ++ ";"
  | .give value => "return " ++ value.text ++ ";"
  | .stop => "return;"
  | .throwNew type => "throw new " ++ type ++ "();"

def script (statements : List Stmt) : Script := statements.map fun s => .line s.text

end Stmt

end Interpose
