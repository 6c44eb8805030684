import Elan.Catalog

/-! The expression trees that the query planner pushes down to a scan. -/
namespace Elan

/-- A literal value. The kinds whose printed form the program does not depend on carry
the text that is printed for them. -/
inductive ScalarValue
  | null
  | boolean (v : Option Bool)
  | int (v : Option ℤ)
  | utf8 (v : Option String)
  | other (kind display : String)
  deriving DecidableEq

/-- Printing a literal: a string prints its bare characters, an absent value `NULL`. -/
def ScalarValue.toString : ScalarValue → String
  | .null => "NULL"
  | .boolean (some true) => "true"
  | .boolean (some false) => "false"
  | .int (some i) => ToString.toString i
  | .utf8 (some s) => s
  | .other _ display => display
  | .boolean none | .int none | .utf8 none => "NULL"

inductive Operator
  | eq | notEq | lt | ltEq | gt | gtEq | and | or
  | other (name : String)
  deriving DecidableEq

inductive Expr
  | column (name : String)
  | literal (scalar : ScalarValue)
  | binaryExpr (left : Expr) (op : Operator) (right : Expr)
  | not (inner : Expr)
  | other (node : String)
  deriving DecidableEq

/-- The SQL spelling of the operators that are pushed down. -/
def Operator.sql : Operator → Option String
  | .eq => some "="
  | .notEq => some "!="
  | .lt => some "<"
  | .ltEq => some "<="
  | .gt => some ">"
  | .gtEq => some ">="
  | .and => some "AND"
  | .or => some "OR"
  | .other _ => none

/-- Best-effort conversion of simple predicates; anything else has no SQL text. -/
def exprToSql : Expr → Option String
  | .binaryExpr left op right => do
    let left ← exprToSql left
    let right ← exprToSql right
    let op ← op.sql
    some ("(" ++ left ++ " " ++ op ++ " " ++ right ++ ")")
  | .column name => some ("\"" ++ name ++ "\"")
  | .literal scalar => some scalar.toString
  | .not inner => do
    let inner ← exprToSql inner
    some ("NOT (" ++ inner ++ ")")
  | .other _ => none

end Elan
