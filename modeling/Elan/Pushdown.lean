import Elan.Confinement
import Elan.SearchConditions

/-! Filters that are pushed down to an executor: what they mean to the planner, what the
executor reads in the clause they are written to, and which rows it then selects. -/
namespace Elan

open Sql

/-- The values of the planner: what its other literals, operators and expressions stand for. -/
class FilterValues (V : Type) extends Values V where
  scalar : String → String → Option V
  operator : String → Option V → Option V → Option V
  node : String → Row V → Option V

section
variable {V : Type} [FilterValues V]

def ScalarValue.value : ScalarValue → Option V
  | .null => none
  | .boolean v => v.map Values.bool
  | .int v => v.map Values.int
  | .utf8 v => v.map Values.text
  | .other kind display => FilterValues.scalar kind display

def Operator.eval : Operator → Option V → Option V → Option V
  | .eq => (BinaryOp.compare .eq).eval
  | .notEq => (BinaryOp.compare .notEq).eval
  | .lt => (BinaryOp.compare .lt).eval
  | .ltEq => (BinaryOp.compare .ltEq).eval
  | .gt => (BinaryOp.compare .gt).eval
  | .gtEq => (BinaryOp.compare .gtEq).eval
  | .and => BinaryOp.and.eval
  | .or => BinaryOp.or.eval
  | .other name => FilterValues.operator name

def Expr.eval (row : Row V) : Expr → Option V
  | .column name => row name
  | .literal scalar => scalar.value
  | .binaryExpr left op right => op.eval (left.eval row) (right.eval row)
  | .not inner => not3 (inner.eval row)
  | .other node => FilterValues.node node row

end

def Expr.columns : Expr → List String
  | .column name => [name]
  | .literal _ | .other _ => []
  | .binaryExpr left _ right => left.columns ++ right.columns
  | .not inner => inner.columns

namespace Pushdown

open Lexer Confinement

/-- Nothing is lost by pushing the filters of a scan down to a table of these columns: the SQL
text has a well-formed clause over them, and the clause selects, whatever rows the table has,
each one on which all filters are true. -/
def LosesNoRow (V : Type) [FilterValues V] (columns : List String) (n : RemoteTableScanExec) :
    Prop :=
  ∃ clause condition, n.buildSql = "SELECT * FROM \"" ++ n.dataset.name ++ "\"" ++ clause ∧
    readWhere clause = some condition ∧ (∀ e ∈ condition, e.columns ⊆ columns) ∧
    ∀ rows : List (Row V), ∀ row ∈ rows,
      (∀ f ∈ n.pushedFilters, truth (f.eval row) = some true) → row ∈ select condition rows

/-- The printed text is one literal of SQL, and it denotes the same value. -/
def ReadsBack (V : Type) [FilterValues V] (scalar : ScalarValue) : Prop :=
  ∃ e, readLiteral scalar.toString = some e ∧ ∀ row : Row V, e.eval row = scalar.value

def Expr.isNot : Expr → Bool
  | .not _ => true
  | _ => false

def isOrdering : Operator → Bool
  | .lt | .ltEq | .gt | .gtEq => true
  | _ => false

/-- No column name holds a quote, every literal reads back as itself, and no negation stands on
the left of an ordering comparison. -/
def Faithful (V : Type) [FilterValues V] : Expr → Prop
  | .column name => '"' ∉ name.toList
  | .literal scalar => ReadsBack V scalar
  | .binaryExpr left op right => Faithful V left ∧ Faithful V right ∧
      (isOrdering op = true → Expr.isNot left = false)
  | .not inner => Faithful V inner
  | .other _ => True

/-! ### What the executor reads -/

def operatorOp : Operator → Option BinaryOp
  | .eq => some (.compare .eq)
  | .notEq => some (.compare .notEq)
  | .lt => some (.compare .lt)
  | .ltEq => some (.compare .ltEq)
  | .gt => some (.compare .gt)
  | .gtEq => some (.compare .gtEq)
  | .and => some .and
  | .or => some .or
  | .other _ => none

/-- A negation on the left of a comparison reaches over it. -/
def grouped (left : Expr) (l : Expression) (op : BinaryOp) (r : Expression) : Expression :=
  match left,l,op with
  | .not _,.not e,.compare c => .not (.binary e (.compare c) r)
  | _,_,_ => .binary l op r

/-- The condition that the text of an expression is read as. -/
def reread : Expr → Option Expression
  | .column name => some (.column name)
  | .literal scalar => readLiteral scalar.toString
  | .binaryExpr left op right => do
    let l ← reread left
    let r ← reread right
    let op ← operatorOp op
    some (grouped left l op r)
  | .not inner => (reread inner).map .not
  | .other _ => none

theorem binaryOp_operatorToken {op : Operator} {t : Token} (h : operatorToken op = some t) :
    operatorOp op = binaryOp t := by
  cases op <;> cases h <;> decide

theorem reread_binary {left right : Expr} {op : Operator} {s : Expression} :
    reread (.binaryExpr left op right) = some s ↔ ∃ l r b, reread left = some l ∧
      reread right = some r ∧ operatorOp op = some b ∧ s = grouped left l b r := by
  cases hl : reread left <;> cases hr : reread right <;> cases hop : operatorOp op <;>
    simp [reread,hl,hr,hop,eq_comm]

theorem compare_or_weak {op : Operator} {b : BinaryOp} (h : operatorOp op = some b) :
    (∃ c, b = .compare c) ∨ b.precedence ≤ notPrecedence := by
  cases op <;> cases h
  case and => exact .inr (by decide)
  case or => exact .inr (by decide)
  all_goals exact .inl ⟨_,rfl⟩

/-- The tokens of an expression are read as a condition before any other tokens, those of a
negation only before tokens that it does not reach over. -/
structure ReadsAs (e : Expr) (ts : List Token) (s : Expression) : Prop where
  reads : ∀ (n : ℕ) rest, 3*ts.length ≤ n → (Expr.isNot e = true → Stops notPrecedence rest) →
    parsePrefix n (ts ++ rest) = some (s,rest)
  negated : Expr.isNot e = true → ∃ inner, s = .not inner ∧ ∀ (n : ℕ) rest,
    3*ts.length ≤ n+2 → parsePrefix (n+2) (ts ++ rest) =
      (parseInfix n notPrecedence inner rest).map fun r => (.not r.1,r.2)

theorem ReadsAs.operand {e : Expr} {ts : List Token} {s : Expression} (h : ReadsAs e ts s)
    {n p : ℕ} {rest : List Token} (hn : 3*ts.length + 2 ≤ n) (hp : Stops p rest)
    (hrest : Stops notPrecedence rest) : parseExpr n p (ts ++ rest) = some (s,rest) := by
  obtain ⟨m,rfl⟩ : ∃ m, n = m+2 := ⟨n-2,by omega⟩
  exact parseExpr_of_stops (h.reads (m+1) rest (by omega) fun _ => hrest) hp

theorem ReadsAs.group {e : Expr} {ts : List Token} {s : Expression} (h : ReadsAs e ts s)
    {n : ℕ} (hn : 3*ts.length + 3 ≤ n) (rest : List Token) :
    parsePrefix n (.symbol "(" :: (ts ++ .symbol ")" :: rest)) = some (s,rest) := by
  obtain ⟨m,rfl⟩ : ∃ m, n = m+1 := ⟨n-1,by omega⟩
  exact parsePrefix_group (h.operand (by omega) (stops_close _ _) (stops_close _ _))

theorem ReadsAs.not {e : Expr} {ts : List Token} {s : Expression} (h : ReadsAs e ts s) :
    ReadsAs (.not e) (.word "NOT" :: .symbol "(" :: ts ++ [.symbol ")"]) (.not s) := by
  have hnegated : ∀ (n : ℕ) rest, 3*ts.length + 3 ≤ n →
      parsePrefix (n+2) (.word "NOT" :: .symbol "(" :: ts ++ [.symbol ")"] ++ rest) =
        (parseInfix n notPrecedence s rest).map fun r => (.not r.1,r.2) := by
    intro n rest hn
    have hgroup := h.group hn rest
    have htokens : .word "NOT" :: .symbol "(" :: ts ++ [.symbol ")"] ++ rest =
        .word "NOT" :: .symbol "(" :: (ts ++ .symbol ")" :: rest) := by simp
    rw [htokens,parsePrefix_not,parseExpr_of_parsePrefix hgroup]
  refine ⟨?_,fun _ => ⟨s,rfl,fun n rest hn => hnegated n rest ?_⟩⟩
  · intro n rest hn hrest
    simp only [List.length_append,List.length_cons,List.length_nil] at hn
    obtain ⟨m,rfl⟩ : ∃ m, n = m+3 := ⟨n-3,by omega⟩
    rw [hnegated (m+1) rest (by omega),parseInfix_of_stops (hrest rfl)]
    rfl
  · simp only [List.length_append,List.length_cons,List.length_nil] at hn
    omega

section
variable {left right : Expr} {ls rs : List Token} {t : Token} {l r : Expression} {b : BinaryOp}

/-- What stands on the right of an operator is its operand, up to the closing parenthesis. -/
theorem parseInfix_right (hr : ReadsAs right rs r) (ht : binaryOp t = some b) {p n : ℕ}
    (hp : p < b.precedence) (hn : 3*rs.length + 3 ≤ n) (e : Expression) (rest : List Token) :
    parseInfix n p e (t :: (rs ++ .symbol ")" :: rest)) =
      some (.binary e b r,.symbol ")" :: rest) := by
  obtain ⟨m,rfl⟩ : ∃ m, n = m+2 := ⟨n-2,by omega⟩
  have hright : parseExpr (m+1) b.precedence (rs ++ .symbol ")" :: rest) =
      some (r,.symbol ")" :: rest) := hr.operand (by omega) (stops_close _ _) (stops_close _ _)
  rw [parseInfix_operator ht hp hright]
  exact parseInfix_of_stops (stops_close _ _) m _

theorem parseExpr_binary (hl : ReadsAs left ls l) (hr : ReadsAs right rs r)
    (ht : binaryOp t = some b) (hb : Expr.isNot left = true → b.precedence ≤ notPrecedence)
    {n : ℕ} (hn : 3*ls.length + 3*rs.length + 4 ≤ n) (rest : List Token) :
    parseExpr n 0 (ls ++ t :: (rs ++ .symbol ")" :: rest)) =
      some (.binary l b r,.symbol ")" :: rest) := by
  obtain ⟨m,rfl⟩ : ∃ m, n = m+1 := ⟨n-1,by omega⟩
  have hpositive : 0 < b.precedence := by
    cases b with
    | arithmetic a => cases a <;> exact Nat.succ_pos _
    | _ => exact Nat.succ_pos _
  have hleft := hl.reads m (t :: (rs ++ .symbol ")" :: rest)) (by omega)
    fun h => stops_cons ht (hb h) _
  rw [parseExpr_of_parsePrefix hleft]
  exact parseInfix_right hr ht hpositive (by omega) l rest

/-- A negation takes the comparison that follows it in. -/
theorem parseExpr_negated (hl : ReadsAs left ls l) (hr : ReadsAs right rs r)
    (ht : binaryOp t = some b) (hleft : Expr.isNot left = true)
    (hb : notPrecedence < b.precedence) {n : ℕ} (hn : 3*ls.length + 3*rs.length + 6 ≤ n)
    (rest : List Token) : ∃ inner, l = .not inner ∧
      parseExpr n 0 (ls ++ t :: (rs ++ .symbol ")" :: rest)) =
        some (.not (.binary inner b r),.symbol ")" :: rest) := by
  obtain ⟨inner,rfl,hnegated⟩ := hl.negated hleft
  obtain ⟨m,rfl⟩ : ∃ m, n = m+4 := ⟨n-4,by omega⟩
  have hread : parsePrefix (m+3) (ls ++ t :: (rs ++ .symbol ")" :: rest)) =
      some (.not (.binary inner b r),.symbol ")" :: rest) := by
    rw [hnegated (m+1) _ (by omega),parseInfix_right hr ht hb (by omega) inner rest]
    rfl
  refine ⟨inner,rfl,?_⟩
  rw [parseExpr_of_parsePrefix hread]
  exact parseInfix_of_stops (stops_close _ _) (m+2) _

theorem ReadsAs.binary {op : Operator} (hl : ReadsAs left ls l) (hr : ReadsAs right rs r)
    (ht : binaryOp t = some b) (hop : operatorOp op = some b) :
    ReadsAs (.binaryExpr left op right) (.symbol "(" :: ls ++ t :: rs ++ [.symbol ")"])
      (grouped left l b r) := by
  refine ⟨?_,fun h => by cases h⟩
  intro n rest hn _
  simp only [List.length_append,List.length_cons,List.length_nil] at hn
  have htokens : .symbol "(" :: ls ++ t :: rs ++ [.symbol ")"] ++ rest =
      .symbol "(" :: (ls ++ t :: (rs ++ .symbol ")" :: rest)) := by simp
  obtain ⟨m,rfl⟩ : ∃ m, n = m+1 := ⟨n-1,by omega⟩
  rw [htokens]
  apply parsePrefix_group
  by_cases hreach : Expr.isNot left = true ∧ ∃ c, b = .compare c
  · obtain ⟨hleft,c,rfl⟩ := hreach
    obtain ⟨inner,rfl,hparse⟩ :=
      parseExpr_negated hl hr ht hleft (show 3 < 4 by omega) (n := m) (by omega) rest
    rw [hparse]
    cases left <;> cases hleft
    rfl
  · have hb : Expr.isNot left = true → b.precedence ≤ notPrecedence := fun hleft =>
      (compare_or_weak hop).resolve_left fun hc => hreach ⟨hleft,hc⟩
    have hgrouped : grouped left l b r = .binary l b r := by
      unfold grouped
      split
      · exact absurd ⟨rfl,_,rfl⟩ hreach
      · rfl
    rw [hgrouped]
    exact parseExpr_binary hl hr ht hb (by omega) rest

end

theorem readsAs_of_spells {e : Expr} {ts : List Token} (h : Spells e ts) {s : Expression}
    (hs : reread e = some s) : ReadsAs e ts s := by
  induction h generalizing s with
  | column name =>
    cases hs
    refine ⟨fun n rest hn _ => ?_,fun h => by cases h⟩
    obtain ⟨m,rfl⟩ : ∃ m, n = m+1 := ⟨n-1,by simp at hn; omega⟩
    exact parsePrefix_ident m name rest
  | @literal scalar ls hls hlit =>
    have hread : literal (tokens ls) = some s := by
      rw [reread,readLiteral,lex_eq_some_iff.mpr hls] at hs
      exact hs
    exact ⟨fun n rest hn _ => parsePrefix_literal hread hn rest,fun h => by cases h⟩
  | binary _ _ ht ihl ihr =>
    obtain ⟨l,r,b,hl,hr,hop,rfl⟩ := reread_binary.mp hs
    exact (ihl hl).binary (ihr hr) (binaryOp_operatorToken ht ▸ hop) hop
  | not _ ih =>
    obtain ⟨inner,hinner,rfl⟩ := Option.map_eq_some_iff.mp hs
    exact (ih hinner).not

theorem comment_not_mem_of_spells {e : Expr} {ts : List Token} (h : Spells e ts) :
    Token.comment ∉ ts := by
  induction h with
  | column name => simp
  | literal _ hlit => exact comment_not_mem_of_isLiteral hlit
  | @binary _ _ op _ _ t _ _ ht ihl ihr =>
    have htoken : t ≠ .comment := by
      intro he
      subst he
      cases op <;> cases ht
    simp [ihl,ihr,htoken.symm]
  | not _ ih => simp [ih]

def conjoin (e : Expression) (es : List Expression) : Expression := es.foldl (.binary · .and ·) e

theorem joinTokens_cons (ts : List Token) (tss : List (List Token)) :
    joinTokens (ts :: tss) = ts ++ tss.flatMap (.word "AND" :: ·) := by
  induction tss generalizing ts with
  | nil => simp [joinTokens]
  | cons us tss ih => simp [joinTokens,ih us]

theorem stops_conjuncts {p : ℕ} (hp : 2 ≤ p) (tss : List (List Token)) :
    Stops p (tss.flatMap (.word "AND" :: ·)) := by
  have hand : binaryOp (.word "AND") = some .and := by decide
  cases tss with
  | nil => exact stops_nil p
  | cons ts tss => exact stops_cons hand hp _

theorem parseInfix_conjuncts {tss : List (List Token)} {ss : List Expression}
    (h : List.Forall₂ (fun ts s => ∃ e, ReadsAs e ts s) tss ss) (acc : Expression) {n : ℕ}
    (hn : 3*(tss.flatMap (.word "AND" :: ·)).length + 1 ≤ n) :
    parseInfix n 0 acc (tss.flatMap (.word "AND" :: ·)) = some (conjoin acc ss,[]) := by
  induction h generalizing acc n with
  | nil =>
    obtain ⟨m,rfl⟩ : ∃ m, n = m+1 := ⟨n-1,by omega⟩
    rfl
  | @cons ts s tss ss hs _ ih =>
    obtain ⟨m,rfl⟩ : ∃ m, n = m+1 := ⟨n-1,by omega⟩
    obtain ⟨e,hreads⟩ := hs
    simp only [List.flatMap_cons,List.cons_append,List.length_cons,List.length_append] at hn ⊢
    have hand : binaryOp (.word "AND") = some .and := by decide
    have hright : parseExpr m BinaryOp.and.precedence (ts ++ tss.flatMap (.word "AND" :: ·)) =
        some (s,tss.flatMap (.word "AND" :: ·)) :=
      hreads.operand (by omega) (stops_conjuncts le_rfl tss) (stops_conjuncts (by decide) tss)
    rw [parseInfix_operator hand (by decide) hright,ih (.binary acc .and s) (by omega)]
    rfl

theorem parse_joinTokens {ts : List Token} {tss : List (List Token)} {e : Expr} {s : Expression}
    {ss : List Expression} (hs : ReadsAs e ts s)
    (hss : List.Forall₂ (fun ts s => ∃ e, ReadsAs e ts s) tss ss) :
    parse (joinTokens (ts :: tss)) = some (conjoin s ss) := by
  have hlength := congrArg List.length (joinTokens_cons ts tss)
  rw [List.length_append] at hlength
  have hrest := parseInfix_conjuncts hss s (n := 3*(joinTokens (ts :: tss)).length + 2) (by omega)
  have hfirst := hs.reads (3*(joinTokens (ts :: tss)).length + 2)
    (tss.flatMap (.word "AND" :: ·)) (by omega) fun _ => stops_conjuncts (by decide) tss
  rw [← joinTokens_cons] at hfirst
  rw [parse,parseExpr_of_parsePrefix hfirst,hrest]

def conjunction : List Expression → Option Expression
  | [] => none
  | s :: ss => some (conjoin s ss)

theorem readsAs_of_forall {es : List Expr} {tss : List (List Token)} {ss : List Expression}
    (h : List.Forall₂ Spells es tss) (hs : List.Forall₂ (fun e s => reread e = some s) es ss) :
    List.Forall₂ (fun ts s => ∃ e, ReadsAs e ts s) tss ss := by
  induction h generalizing ss with
  | nil =>
    cases hs
    exact .nil
  | cons hspells _ ih =>
    cases hs with
    | cons hread hrest => exact .cons ⟨_,readsAs_of_spells hspells hread⟩ (ih hrest)

theorem comment_not_mem_whereTokens {es : List Expr} {tss : List (List Token)}
    (h : List.Forall₂ Spells es tss) : Token.comment ∉ whereTokens tss := by
  have hall : ∀ ts ∈ tss, Token.comment ∉ ts := fun ts hts => by
    obtain ⟨e,-,hs⟩ := Table.exists_of_forall₂ h hts
    exact comment_not_mem_of_spells hs
  cases tss with
  | nil => simp [whereTokens]
  | cons ts tss =>
    rw [whereTokens,joinTokens_cons]
    simp_all

/-- The clause of a scan is read as the conjunction of what its filters are read as. -/
theorem readWhere_whereClause {filters : List Expr} {ss : List Expression}
    (hplain : ∀ e ∈ rendered filters, Plain e)
    (hss : List.Forall₂ (fun e s => reread e = some s) (rendered filters) ss) :
    readWhere (RemoteTableScanExec.whereClause filters) = some (conjunction ss) := by
  obtain ⟨ls,tss,hpiece,-,htokens,hspelled⟩ := exists_piece_where hplain
  have hlex : lexer.lex (RemoteTableScanExec.whereClause filters).toList = some ls := by
    apply lex_eq_some_iff.mpr
    exact ⟨hpiece.maximal,by rw [whereChunks_text,hpiece.aligned.text_eq]⟩
  have hcomment := comment_not_mem_whereTokens hspelled
  have hfilter : (whereTokens tss).filter (· ≠ .comment) = whereTokens tss :=
    List.filter_eq_self.mpr fun t ht => by
      have hne : t ≠ .comment := fun he => hcomment (he ▸ ht)
      simpa using hne
  rw [readWhere,hlex,Option.bind_some,htokens,hfilter]
  cases readsAs_of_forall hspelled hss with
  | nil => rfl
  | cons hs hrest =>
    obtain ⟨e,hreads⟩ := hs
    have hwhere : (Token.word "WHERE").spelling = some "WHERE" := by decide
    rw [whereTokens,parseWhere,if_pos hwhere,parse_joinTokens hreads hrest]
    rfl

/-- A date is printed bare, and read as a number less two others. -/
example : readWhere " WHERE (\"signup\" >= 2024-01-15)" = some (some (.binary (.column "signup")
    (.compare .gtEq) (.binary (.binary (.number "2024") (.arithmetic .sub) (.number "01"))
      (.arithmetic .sub) (.number "15")))) := by decide +kernel

/-! ### What the conditions mean -/

theorem exists_readLiteral {text : String} {e : Expression} (h : readLiteral text = some e) :
    ∃ ls, lexer.Lexes text.toList ls ∧ literal (tokens ls) = some e := by
  obtain ⟨ls,hls,he⟩ := Option.bind_eq_some_iff.mp h
  exact ⟨ls,lex_eq_some_iff.mp hls,he⟩

section
variable {V : Type} [FilterValues V]

theorem readsBack_null : ReadsBack V .null := by
  have hread : readLiteral "NULL" = some .null := by decide
  exact ⟨_,hread,fun _ => rfl⟩

theorem readsBack_boolean (v : Option Bool) : ReadsBack V (.boolean v) := by
  have htrue : readLiteral "true" = some (.bool true) := by decide
  have hfalse : readLiteral "false" = some (.bool false) := by decide
  rcases v with _ | _ | _
  · exact readsBack_null
  · exact ⟨_,hfalse,fun _ => rfl⟩
  · exact ⟨_,htrue,fun _ => rfl⟩

/-- Integers are printed in decimal, and read back with their sign. -/
theorem readsBack_int (v : Option ℤ) : ReadsBack V (.int v) := by
  cases v with
  | none => exact readsBack_null
  | some i =>
    obtain ⟨ls,hls,htokens⟩ := exists_lexes_int i
    have hread : readLiteral (toString i) = literal (intTokens i) := by
      rw [readLiteral,lex_eq_some_iff.mpr hls,← htokens]
      rfl
    cases i with
    | ofNat n =>
      have hlit : literal (intTokens (.ofNat n)) = some (.number (toString n)) := by
        simp only [intTokens,literal,isLiteral,atom,isNumber_natural n,if_true]
      exact ⟨_,hread.trans hlit,fun _ => congrArg some (Values.number_nat n)⟩
    | negSucc n =>
      have hlit : literal (intTokens (.negSucc n)) = some (.neg (.number (toString (n+1)))) := by
        simp only [intTokens,literal,isNumber_natural (n+1),if_true]
      refine ⟨_,hread.trans hlit,fun row => ?_⟩
      show Values.neg (Values.number (toString (n+1)) : V) = some (Values.int (Int.negSucc n))
      rw [Values.number_nat,Values.neg_int]
      rfl

/-- Where texts are values of their own no string reads back: what is quoted in its text is
shorter than the string. -/
theorem not_readsBack_utf8 (htext : Function.Injective (Values.text : String → V))
    (hnumber : ∀ a b, (Values.number a : V) ≠ Values.text b)
    (hneg : ∀ a b, Values.neg (Values.number a : V) ≠ some (Values.text b))
    (hbool : ∀ a b, (Values.bool a : V) ≠ Values.text b) (s : String) :
    ¬ ReadsBack V (.utf8 (some s)) := by
  intro ⟨e,hread,hvalue⟩
  obtain ⟨ls,⟨-,hchars⟩,he⟩ := exists_readLiteral hread
  have hvalue : e.eval (fun _ => none : Row V) = some (Values.text s) := hvalue _
  rcases literal_cases he with ⟨a,rfl | rfl⟩ | rfl | ⟨b,rfl⟩ | ⟨t,rfl,htokens⟩
  · exact hnumber a s (Option.some.inj hvalue)
  · exact hneg a s hvalue
  · cases hvalue
  · exact hbool b s (Option.some.inj hvalue)
  · have ht : t = s := htext (Option.some.inj hvalue)
    have hlength := length_lt_of_str htokens
    rw [hchars,ht] at hlength
    exact absurd hlength (lt_irrefl _)

end

theorem columns_grouped (left : Expr) (l : Expression) (b : BinaryOp) (r : Expression) :
    (grouped left l b r).columns = l.columns ++ r.columns := by
  unfold grouped
  split <;> rfl

theorem columns_reread {e : Expr} {s : Expression} (h : reread e = some s) :
    s.columns ⊆ e.columns := by
  induction e generalizing s with
  | column name =>
    cases h
    exact List.Subset.refl _
  | literal scalar =>
    obtain ⟨ls,-,hs⟩ := exists_readLiteral h
    rw [columns_literal hs]
    exact List.nil_subset _
  | binaryExpr left op right ihl ihr =>
    obtain ⟨l,r,b,hl,hr,-,rfl⟩ := reread_binary.mp h
    rw [columns_grouped]
    exact List.append_subset.mpr ⟨List.subset_append_of_subset_left _ (ihl hl),
      List.subset_append_of_subset_right _ (ihr hr)⟩
  | not inner ih =>
    obtain ⟨t,ht,rfl⟩ := Option.map_eq_some_iff.mp h
    show t.columns ⊆ inner.columns
    exact ih ht
  | other node => cases h

section
variable {V : Type} [FilterValues V]

theorem Faithful.plain {e : Expr} (h : Faithful V e) : Plain e := by
  induction e with
  | column name => exact h
  | literal scalar =>
    obtain ⟨s,hs,-⟩ := h
    obtain ⟨ls,hls,hlit⟩ := exists_readLiteral hs
    exact (readsAsLiteral_iff scalar).mpr ⟨ls,hls,isLiteral_of_literal hlit⟩
  | binaryExpr left op right ihl ihr => exact ⟨ihl h.1,ihr h.2.1⟩
  | not inner ih => exact ih h
  | other node => trivial

theorem Faithful.exists_reread {e : Expr} (h : Faithful V e) (hsome : (exprToSql e).isSome) :
    ∃ s, reread e = some s := by
  induction e with
  | column name => exact ⟨_,rfl⟩
  | literal scalar => exact h.imp fun s hs => hs.1
  | binaryExpr left op right ihl ihr =>
    rw [isSome_exprToSql,Option.isSome_iff_exists] at hsome
    obtain ⟨cs,hcs⟩ := hsome
    obtain ⟨ls,rs,t,hls,hrs,hop,-⟩ := exprChunks_binary.mp hcs
    obtain ⟨l,hl⟩ := ihl h.1 (by rw [isSome_exprToSql,hls]; rfl)
    obtain ⟨r,hr⟩ := ihr h.2.1 (by rw [isSome_exprToSql,hrs]; rfl)
    obtain ⟨b,hb⟩ : ∃ b, operatorOp op = some b := by cases op <;> cases hop <;> exact ⟨_,rfl⟩
    exact ⟨_,reread_binary.mpr ⟨l,r,b,hl,hr,hb,rfl⟩⟩
  | not inner ih =>
    rw [isSome_exprToSql,Option.isSome_iff_exists] at hsome
    obtain ⟨cs,hcs⟩ := hsome
    obtain ⟨is,his,-⟩ := exprChunks_not.mp hcs
    obtain ⟨s,hs⟩ := ih h (by rw [isSome_exprToSql,his]; rfl)
    exact ⟨.not s,by rw [reread,hs]; rfl⟩
  | other node => cases hsome

theorem eval_operatorOp {op : Operator} {b : BinaryOp} (h : operatorOp op = some b)
    (v w : Option V) : op.eval v w = b.eval v w := by
  cases op <;> cases h <;> rfl

/-- Taking a comparison in loses nothing that is known, unless it orders its operands. -/
theorem knownIn_grouped {left : Expr} {op : Operator} {l r : Expression} {b : BinaryOp}
    (hop : operatorOp op = some b) (h : isOrdering op = true → Expr.isNot left = false)
    (row : Row V) : KnownIn (b.eval (l.eval row) (r.eval row)) ((grouped left l b r).eval row) := by
  unfold grouped
  split
  · rename_i e c
    have hc : c = .eq ∨ c = .notEq := by
      cases op <;> cases hop
      case eq => exact .inl rfl
      case notEq => exact .inr rfl
      all_goals exact absurd (h rfl) (by simp [Expr.isNot])
    have hknown := (compare3_not3 hc (e.eval row) (r.eval row)).map (Values.bool (V := V))
    have htruth := truth_ofTruth (V := V) (compare3 c (e.eval row) (r.eval row))
    simp only [Expression.eval,BinaryOp.eval,not3,htruth]
    exact hknown
  · exact .refl _

/-- Where the planner knows the value of a filter, the executor comes to the same value. -/
theorem knownIn_reread {e : Expr} (h : Faithful V e) {s : Expression} (hs : reread e = some s)
    (row : Row V) : KnownIn (e.eval row) (s.eval row) := by
  induction e generalizing s with
  | column name =>
    cases hs
    exact .refl _
  | literal scalar =>
    obtain ⟨t,ht,hvalue⟩ := h
    cases hs.symm.trans ht
    rw [hvalue]
    exact .refl _
  | binaryExpr left op right ihl ihr =>
    obtain ⟨l,r,b,hl,hr,hop,rfl⟩ := reread_binary.mp hs
    have hoperands := BinaryOp.knownIn_eval b (ihl h.1 hl) (ihr h.2.1 hr)
    rw [Expr.eval,eval_operatorOp hop]
    exact hoperands.trans (knownIn_grouped hop h.2.2 row)
  | not inner ih =>
    obtain ⟨t,ht,rfl⟩ := Option.map_eq_some_iff.mp hs
    exact knownIn_not3 (ih h ht)
  | other node => cases hs

theorem Faithful.exists_rereads {es : List Expr} (hfaithful : ∀ e ∈ es, Faithful V e)
    (hsome : ∀ e ∈ es, (exprToSql e).isSome) :
    ∃ ss, List.Forall₂ (fun e s => reread e = some s) es ss := by
  induction es with
  | nil => exact ⟨[],.nil⟩
  | cons e es ih =>
    obtain ⟨s,hs⟩ := (hfaithful e (by simp)).exists_reread (hsome e (by simp))
    obtain ⟨ss,hss⟩ :=
      ih (fun f hf => hfaithful f (by simp [hf])) fun f hf => hsome f (by simp [hf])
    exact ⟨s :: ss,.cons hs hss⟩

theorem truth_conjoin {row : Row V} {s : Expression} {ss : List Expression} :
    truth ((conjoin s ss).eval row) = some true ↔
      ∀ t ∈ s :: ss, truth (t.eval row) = some true := by
  induction ss generalizing s with
  | nil => simp [conjoin]
  | cons t ts ih =>
    show truth ((conjoin (.binary s .and t) ts).eval row) = some true ↔ _
    rw [ih]
    simp only [List.forall_mem_cons,Expression.eval,BinaryOp.eval,truth_ofTruth,and3_eq_true,
      and_assoc]

theorem mem_select {ss : List Expression} {rows : List (Row V)} {row : Row V} :
    row ∈ select (conjunction ss) rows ↔
      row ∈ rows ∧ ∀ s ∈ ss, truth (s.eval row) = some true := by
  unfold select
  rw [List.mem_filter]
  apply and_congr_right
  intro _
  cases ss with
  | nil => simp [conjunction]
  | cons s ss => simpa [conjunction] using truth_conjoin

end

theorem columns_conjunction {columns : List String} {ss : List Expression}
    (h : ∀ s ∈ ss, s.columns ⊆ columns) : ∀ e ∈ conjunction ss, e.columns ⊆ columns := by
  have hconjoin (s : Expression) (ss : List Expression) (h : ∀ t ∈ s :: ss, t.columns ⊆ columns) :
      (conjoin s ss).columns ⊆ columns := by
    induction ss generalizing s with
    | nil => exact h s (by simp)
    | cons t ts ih =>
      apply ih
      obtain ⟨hs,ht,hts⟩ := by simpa using h
      simpa [Expression.columns] using ⟨⟨hs,ht⟩,hts⟩
  intro e he
  cases ss with
  | nil => cases he
  | cons s ss =>
    cases he
    exact hconjoin s ss h

theorem buildSql_of_limit {n : RemoteTableScanExec} (h : n.limit = none) :
    n.buildSql = "SELECT * FROM \"" ++ n.dataset.name ++ "\"" ++
      RemoteTableScanExec.whereClause n.pushedFilters := by
  have hlimit : RemoteTableScanExec.limitClause n.limit = "" := by rw [h]; rfl
  unfold RemoteTableScanExec.buildSql
  rw [hlimit]
  exact String.append_empty

theorem clause_eq {n : RemoteTableScanExec} {clause : String} (hlimit : n.limit = none)
    (h : n.buildSql = "SELECT * FROM \"" ++ n.dataset.name ++ "\"" ++ clause) :
    clause = RemoteTableScanExec.whereClause n.pushedFilters := by
  rw [buildSql_of_limit hlimit] at h
  exact ((String.append_right_inj _).mp h).symm

section
variable {V : Type} [FilterValues V]

/-- If the filters that are written down have plain column names, literals that read back and no
negation on the left of an ordering comparison, no row is lost by pushing them down. -/
theorem pushdown_loses_no_row {columns : List String} {n : RemoteTableScanExec}
    (hlimit : n.limit = none) (hcolumns : ∀ f ∈ n.pushedFilters, f.columns ⊆ columns)
    (hfaithful : ∀ f ∈ n.pushedFilters, (exprToSql f).isSome → Faithful V f) :
    LosesNoRow V columns n := by
  have hrendered : ∀ f ∈ rendered n.pushedFilters, Faithful V f := fun f hf =>
    hfaithful f (mem_rendered.mp hf).1 (mem_rendered.mp hf).2
  obtain ⟨ss,hss⟩ := Faithful.exists_rereads hrendered fun f hf => (mem_rendered.mp hf).2
  have hread := readWhere_whereClause (fun f hf => (hrendered f hf).plain) hss
  have hfrom : ∀ s ∈ ss, ∃ f ∈ rendered n.pushedFilters, reread f = some s := fun s hs =>
    Table.exists_of_forall₂ hss hs
  refine ⟨_,conjunction ss,buildSql_of_limit hlimit,hread,?_,?_⟩
  · apply columns_conjunction
    intro s hs
    obtain ⟨f,hf,hread⟩ := hfrom s hs
    exact List.Subset.trans (columns_reread hread) (hcolumns f (mem_rendered.mp hf).1)
  · intro rows row hrow hall
    refine mem_select.mpr ⟨hrow,?_⟩
    intro s hs
    obtain ⟨f,hf,hread⟩ := hfrom s hs
    have hknown := knownIn_reread (hrendered f hf) hread row
    exact knownIn_truth hknown true (hall f (mem_rendered.mp hf).1)

/-- A row on which `NOT x <= y` is true is lost: the executor reads `NOT (x <= y)`. -/
theorem negated_ltEq_loses_row {x y : String} (hx : '"' ∉ x.toList) (hy : '"' ∉ y.toList)
    (columns : List String) {n : RemoteTableScanExec} (hlimit : n.limit = none)
    (hfilters : n.pushedFilters = [.binaryExpr (.not (.column x)) .ltEq (.column y)]) :
    ¬ LosesNoRow V columns n := by
  intro ⟨clause,condition,hsql,hread,_,hselect⟩
  let s : Expression := .not (.binary (.column x) (.compare .ltEq) (.column y))
  have hrendered : rendered n.pushedFilters = n.pushedFilters := by rw [hfilters]; rfl
  have hplain : ∀ e ∈ rendered n.pushedFilters, Plain e := by
    rw [hrendered,hfilters]
    simp [Plain,hx,hy]
  have hss : List.Forall₂ (fun e t => reread e = some t) (rendered n.pushedFilters) [s] := by
    rw [hrendered,hfilters]
    exact .cons rfl .nil
  have hcondition : condition = some s := by
    have hclause := clause_eq hlimit hsql
    rw [hclause,readWhere_whereClause hplain hss] at hread
    exact (Option.some.inj hread).symm
  let row : Row V := fun _ => some (Values.bool true)
  have hnot : not3 (some (Values.bool true) : Option V) = some (Values.bool false) := by
    rw [not3,truth_bool]
    rfl
  have hcompare (b : Bool) : compare3 .ltEq (some (Values.bool b) : Option V)
      (some (Values.bool true)) = some true := by
    show (Values.compare (Values.bool b : V) (Values.bool true)).map Comparison.ltEq.holds = _
    rw [Values.compare_bool,Values.toBool_eq_some.mpr rfl]
    cases b <;> rfl
  have htrue : ∀ f ∈ n.pushedFilters, truth (f.eval row) = some true := by
    intro f hf
    rw [hfilters] at hf
    cases List.mem_singleton.mp hf
    show truth (ofTruth (compare3 .ltEq (not3 (some (Values.bool true) : Option V)) _)) = _
    rw [truth_ofTruth,hnot]
    exact hcompare false
  have hmem : row ∈ select (conjunction [s]) [row] := by
    have hrow := hselect [row] row (List.mem_singleton_self _) htrue
    rw [hcondition] at hrow
    exact hrow
  have hselected : truth (s.eval row) = some true :=
    (mem_select.mp hmem).2 s (List.mem_singleton_self _)
  have hlost : s.eval row = not3 (ofTruth (some true)) :=
    congrArg (fun b => not3 (ofTruth b)) (hcompare true)
  rw [hlost,not3,truth_ofTruth,truth_ofTruth] at hselected
  exact absurd hselected (by decide)

end

/-- Values of four kinds, each compared with its own kind only. -/
inductive SampleValue
  | bool (b : Bool)
  | int (i : ℤ)
  | text (s : String)
  | other (kind display : String)
  deriving DecidableEq

instance : FilterValues SampleValue where
  bool := .bool
  toBool
    | .bool b => some b
    | _ => none
  int := .int
  number s := .int (Nat.ofDigitChars 10 s.toList 0)
  text := .text
  neg
    | .int i => some (.int (-i))
    | _ => none
  arithmetic
    | .add,.int i,.int j => some (.int (i+j))
    | .sub,.int i,.int j => some (.int (i-j))
    | .mul,.int i,.int j => some (.int (i*j))
    | _,_,_ => none
  compare
    | .bool a,.bool b => some (compare a b)
    | .int i,.int j => some (compare i j)
    | .text s,.text t => some (compareOfLessAndEq s t)
    | .other k s,.other l t => if k = l then some (compareOfLessAndEq s t) else none
    | _,_ => none
  toBool_eq_some {v b} := by cases v <;> simp
  compare_bool b v := by cases v <;> rfl
  number_nat n := by rw [Nat.toString_eq_repr,Nat.toList_repr,Nat.ofDigitChars_ten_toDigits]
  neg_int _ := rfl
  scalar kind display := some (.other kind display)
  operator _ _ _ := none
  node _ _ := none

def scanWhere (filters : List Expr) : RemoteTableScanExec :=
  ⟨sampleDataset "crm" "customers" "elan-executor:50055",[],filters,none⟩

/-- An integer, a boolean column and a filter without SQL text. -/
theorem pushdown_loses_no_row_integer :
    LosesNoRow SampleValue ["orders","active"] (scanWhere
      [.binaryExpr (.binaryExpr (.column "orders") .gtEq (.literal (.int (some (-3))))) .and
        (.not (.column "active")),.other "name LIKE 'A%'"]) := by
  apply pushdown_loses_no_row rfl (by decide)
  intro f hf _
  rcases List.mem_pair.mp hf with rfl | rfl
  · have horders : '"' ∉ "orders".toList := by decide
    have hactive : '"' ∉ "active".toList := by decide
    exact ⟨⟨horders,readsBack_int _,fun _ => rfl⟩,hactive,fun h => by cases h⟩
  · trivial

/-- The filter of a query for customers of one tier: its string is read as a column. -/
theorem string_filter_ill_formed :
    ¬ ∀ (V : Type) (_ : FilterValues V) (columns : List String) (n : RemoteTableScanExec),
      n.limit = none → (∀ f ∈ n.pushedFilters, f.columns ⊆ columns) → LosesNoRow V columns n := by
  intro hall
  obtain ⟨clause,condition,hsql,hread,hcolumns,-⟩ := hall SampleValue inferInstance
    ["customer_id","name","country","tier"]
    (scanWhere [.binaryExpr (.column "tier") .eq (.literal (.utf8 (some "gold")))]) rfl (by decide)
  have hcolumn : readWhere " WHERE (\"tier\" = gold)" =
      some (some (.binary (.column "tier") (.compare .eq) (.column "gold"))) := by decide +kernel
  have hclause : clause = " WHERE (\"tier\" = gold)" := (clause_eq rfl hsql).trans (by decide)
  rw [hclause,hcolumn] at hread
  obtain rfl := Option.some.inj hread
  have hgold : "gold" ∈ ["customer_id","name","country","tier"] :=
    hcolumns _ rfl (List.mem_append_right _ (List.mem_singleton_self _))
  exact absurd hgold (by decide)

end Pushdown
end Elan
