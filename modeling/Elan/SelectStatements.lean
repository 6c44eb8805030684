import Elan.SearchConditions
import Mathlib.Data.List.Perm.Subperm

/-! Statements of SQL that select all columns of one table: their grammar, and what they return
from the rows of the table. -/
namespace Sql

structure Select where
  table : String
  condition : Option Expression
  limit : Option ℕ
  deriving DecidableEq

/-- Quoted names are kept and unquoted ones are put in lower case. -/
def tableName : Token → Option String
  | .ident name => some name
  | .word text =>
    if Token.spelling (.word text) ∈ ["SELECT","FROM","WHERE","LIMIT"].map some then none
    else some (String.ofList (text.toList.map Char.toLower))
  | _ => none

/-- The clause that may stand after the table, and the tokens after it. -/
def parseClause : List Token → Option (Option Expression × List Token)
  | [] => some (none,[])
  | t :: ts =>
    if t.spelling = some "WHERE" then
      (parseExpr (3*ts.length + 3) 0 ts).map fun r => (some r.1,r.2)
    else some (none,t :: ts)

/-- `LIMIT` takes a whole number, and ends the statement. -/
def parseLimit : List Token → Option (Option ℕ)
  | [] => some none
  | [t,.number text] =>
    if t.spelling = some "LIMIT" ∧ text.toList.all Char.isDigit then
      some (some (Nat.ofDigitChars 10 text.toList 0))
    else none
  | _ => none

def parseSelect : List Token → Option Select
  | t :: .symbol "*" :: u :: table :: ts =>
    if t.spelling = some "SELECT" ∧ u.spelling = some "FROM" then do
      let name ← tableName table
      let clause ← parseClause ts
      let limit ← parseLimit clause.2
      some ⟨name,clause.1,limit⟩
    else none
  | _ => none

def readSelect (sql : String) : Option Select :=
  (lexer.lex sql.toList).bind fun ls => parseSelect ((tokens ls).filter (· ≠ .comment))

theorem parseLimit_natural (n : ℕ) :
    parseLimit [.word "LIMIT",.number (toString n)] = some (some n) := by
  have hlimit : (Token.word "LIMIT").spelling = some "LIMIT" := by decide
  have hdigits : (toString n).toList.all Char.isDigit = true :=
    List.all_eq_true.mpr (repr_digits n).2
  have hvalue : Nat.ofDigitChars 10 (toString n).toList 0 = n := by
    rw [Nat.toString_eq_repr,Nat.toList_repr,Nat.ofDigitChars_ten_toDigits]
  simp only [parseLimit,hlimit,hdigits,hvalue,and_self,if_true]

theorem parseSelect_eq {name : String} {ts rest : List Token} {condition : Option Expression}
    {limit : Option ℕ} (hclause : parseClause ts = some (condition,rest))
    (hlimit : parseLimit rest = some limit) :
    parseSelect (.word "SELECT" :: .symbol "*" :: .word "FROM" :: .ident name :: ts) =
      some ⟨name,condition,limit⟩ := by
  have hselect : (Token.word "SELECT").spelling = some "SELECT" := by decide
  have hfrom : (Token.word "FROM").spelling = some "FROM" := by decide
  simp [parseSelect,hselect,hfrom,tableName,hclause,hlimit]

section
variable {V R : Type} [Values V]

def Select.selected (s : Select) (row : R → Row V) (table : List R) : List R :=
  table.filter fun r => s.condition.all fun e => truth (e.eval (row r)) = some true

/-- An answer to a statement over a table of rows. The rows that are selected come in any order,
and a limit leaves any of them out. -/
def Select.Answer (s : Select) (row : R → Row V) (table answer : List R) : Prop :=
  ∃ rows, rows.Perm (s.selected row table) ∧ answer = s.limit.elim rows rows.take

variable {s : Select} {row : R → Row V} {table answer : List R}

theorem Select.Answer.subperm (h : s.Answer row table answer) : answer.Subperm table := by
  obtain ⟨rows,hrows,rfl⟩ := h
  have hall : rows.Subperm table := hrows.subperm.trans List.filter_sublist.subperm
  cases s.limit with
  | none => exact hall
  | some n => exact (List.take_sublist n rows).subperm.trans hall

theorem Select.Answer.perm (h : s.Answer row table answer) (hlimit : s.limit = none) :
    answer.Perm (s.selected row table) := by
  obtain ⟨rows,hrows,rfl⟩ := h
  rw [hlimit]
  exact hrows

theorem Select.Answer.length {n : ℕ} (h : s.Answer row table answer) (hlimit : s.limit = some n) :
    answer.length = min n (s.selected row table).length := by
  obtain ⟨rows,hrows,rfl⟩ := h
  rw [hlimit,← hrows.length_eq]
  exact List.length_take

end

end Sql
