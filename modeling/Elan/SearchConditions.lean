import Elan.Sql

/-! Search conditions of SQL: their grammar, by operator precedence, and their meaning in
three-valued logic over any values that can be compared. -/
namespace Sql

inductive Comparison
  | eq | notEq | lt | ltEq | gt | gtEq
  deriving DecidableEq

inductive Arithmetic
  | add | sub | mul | div | mod
  deriving DecidableEq

inductive BinaryOp
  | or | and
  | compare (c : Comparison)
  | arithmetic (a : Arithmetic)
  deriving DecidableEq

namespace BinaryOp

def precedence : BinaryOp → ℕ
  | .or => 1
  | .and => 2
  | .compare _ => 4
  | .arithmetic .add | .arithmetic .sub => 5
  | .arithmetic _ => 6

end BinaryOp

/-- `NOT` reaches over a comparison on its right, but not over `AND`. -/
def notPrecedence : ℕ := 3

/-- A sign reaches over no operator. -/
def signPrecedence : ℕ := 6

/-- A condition as it is read; quoted names are kept and unquoted ones are put in lower case. -/
inductive Expression
  | column (name : String)
  | null
  | bool (b : Bool)
  | number (text : String)
  | text (s : String)
  | neg (e : Expression)
  | not (e : Expression)
  | binary (left : Expression) (op : BinaryOp) (right : Expression)
  deriving DecidableEq

def Expression.columns : Expression → List String
  | .column name => [name]
  | .null | .bool _ | .number _ | .text _ => []
  | .neg e | .not e => e.columns
  | .binary left _ right => left.columns ++ right.columns

/-! ### Grammar -/

/-- Keywords are read in any case. -/
def Token.spelling : Token → Option String
  | .word text => some (String.ofList (text.toList.map Char.toUpper))
  | .symbol text => some text
  | _ => none

def binaryOp (t : Token) : Option BinaryOp :=
  match t.spelling with
  | some "OR" => some .or
  | some "AND" => some .and
  | some "=" => some (.compare .eq)
  | some "!=" | some "<>" => some (.compare .notEq)
  | some "<" => some (.compare .lt)
  | some "<=" => some (.compare .ltEq)
  | some ">" => some (.compare .gt)
  | some ">=" => some (.compare .gtEq)
  | some "+" => some (.arithmetic .add)
  | some "-" => some (.arithmetic .sub)
  | some "*" => some (.arithmetic .mul)
  | some "/" => some (.arithmetic .div)
  | some "%" => some (.arithmetic .mod)
  | _ => none

/-- A condition of one token: a keyword value, a number, a string or a column. -/
def atom : Token → Option Expression
  | .ident name => some (.column name)
  | .number text => if isNumber text.toList then some (.number text) else none
  | .str s => some (.text s)
  | .word text =>
    match Token.spelling (.word text) with
    | some "TRUE" => some (.bool true)
    | some "FALSE" => some (.bool false)
    | some "NULL" => some .null
    | some "AND" | some "OR" | some "NOT" => none
    | _ => some (.column (String.ofList (text.toList.map Char.toLower)))
  | .symbol _ | .comment => none

mutual
/-- A condition whose operators all bind stronger than `p`. -/
def parseExpr : ℕ → ℕ → List Token → Option (Expression × List Token)
  | 0, _, _ => none
  | n+1, p, ts => (parsePrefix n ts).bind fun r => parseInfix n p r.1 r.2

def parsePrefix : ℕ → List Token → Option (Expression × List Token)
  | 0, _ => none
  | _+1, [] => none
  | n+1, t :: ts =>
    match t.spelling with
    | some "(" =>
      match parseExpr n 0 ts with
      | some (e,.symbol ")" :: rest) => some (e,rest)
      | _ => none
    | some "-" => (parseExpr n signPrecedence ts).map fun r => (.neg r.1,r.2)
    | some "+" => parseExpr n signPrecedence ts
    | some "NOT" => (parseExpr n notPrecedence ts).map fun r => (.not r.1,r.2)
    | _ => (atom t).map (·,ts)

def parseInfix : ℕ → ℕ → Expression → List Token → Option (Expression × List Token)
  | 0, _, _, _ => none
  | _+1, _, left, [] => some (left,[])
  | n+1, p, left, t :: ts =>
    match binaryOp t with
    | none => some (left,t :: ts)
    | some op =>
      if p < op.precedence then
        (parseExpr n op.precedence ts).bind fun r => parseInfix n p (.binary left op r.1) r.2
      else some (left,t :: ts)
end

/-- The one condition that all the tokens make up. -/
def parse (ts : List Token) : Option Expression :=
  match parseExpr (3*ts.length + 3) 0 ts with
  | some (e,[]) => some e
  | _ => none

/-- The condition of a `WHERE` clause, or none where there is no clause. -/
def parseWhere : List Token → Option (Option Expression)
  | [] => some none
  | t :: ts => if t.spelling = some "WHERE" then (parse ts).map some else none

def readWhere (clause : String) : Option (Option Expression) :=
  (lexer.lex clause.toList).bind fun ls => parseWhere ((tokens ls).filter (· ≠ .comment))

def literal : List Token → Option Expression
  | [.symbol sign,.number text] =>
    if isNumber text.toList then
      match sign with
      | "-" => some (.neg (.number text))
      | "+" => some (.number text)
      | _ => none
    else none
  | [t] => if isLiteral [t] then atom t else none
  | _ => none

def readLiteral (s : String) : Option Expression :=
  (lexer.lex s.toList).bind fun ls => literal (tokens ls)

/-! ### Rules of the grammar -/

/-- No operator that binds stronger than `p` comes next. -/
def Stops (p : ℕ) (ts : List Token) : Prop := ∀ op ∈ ts.head?.bind binaryOp, op.precedence ≤ p

theorem stops_nil (p : ℕ) : Stops p [] := by simp [Stops]

theorem stops_cons {p : ℕ} {t : Token} {op : BinaryOp} (h : binaryOp t = some op)
    (hop : op.precedence ≤ p) (ts : List Token) : Stops p (t :: ts) := by
  simpa [Stops,h] using hop

theorem stops_close (p : ℕ) (ts : List Token) : Stops p (.symbol ")" :: ts) := by
  have hclose : binaryOp (.symbol ")") = none := by decide
  simp [Stops,hclose]

theorem stops_sign (ts : List Token) : Stops signPrecedence ts := by
  intro op _
  cases op with
  | or => decide
  | and => decide
  | compare c => exact show 4 ≤ 6 by omega
  | arithmetic a => cases a <;> decide

theorem parseInfix_of_stops {p : ℕ} {ts : List Token} (h : Stops p ts) (n : ℕ) (e : Expression) :
    parseInfix (n+1) p e ts = some (e,ts) := by
  cases ts with
  | nil => rfl
  | cons t ts =>
    rw [parseInfix]
    cases hop : binaryOp t with
    | none => rfl
    | some op =>
      have hle : op.precedence ≤ p := h op (by simpa using hop)
      exact if_neg (by omega)

theorem parseExpr_of_parsePrefix {n p : ℕ} {ts rest : List Token} {e : Expression}
    (h : parsePrefix n ts = some (e,rest)) : parseExpr (n+1) p ts = parseInfix n p e rest := by
  rw [parseExpr,h]
  rfl

theorem parseExpr_of_stops {n p : ℕ} {ts rest : List Token} {e : Expression}
    (h : parsePrefix (n+1) ts = some (e,rest)) (hrest : Stops p rest) :
    parseExpr (n+2) p ts = some (e,rest) := by
  rw [parseExpr_of_parsePrefix h]
  exact parseInfix_of_stops hrest n e

theorem parsePrefix_group {n : ℕ} {ts rest : List Token} {e : Expression}
    (h : parseExpr n 0 ts = some (e,.symbol ")" :: rest)) :
    parsePrefix (n+1) (.symbol "(" :: ts) = some (e,rest) := by
  simp [parsePrefix,Token.spelling,h]

theorem parsePrefix_not (n : ℕ) (ts : List Token) : parsePrefix (n+1) (.word "NOT" :: ts) =
    (parseExpr n notPrecedence ts).map fun r => (.not r.1,r.2) := by
  have hnot : (Token.word "NOT").spelling = some "NOT" := by decide
  simp [parsePrefix,hnot]

theorem parsePrefix_ident (n : ℕ) (name : String) (ts : List Token) :
    parsePrefix (n+1) (.ident name :: ts) = some (.column name,ts) := by
  simp [parsePrefix,Token.spelling,atom]

theorem parsePrefix_number {text : String} (h : isNumber text.toList = true) (n : ℕ)
    (ts : List Token) : parsePrefix (n+1) (.number text :: ts) = some (.number text,ts) := by
  simp [parsePrefix,Token.spelling,atom,h]

theorem spelling_of_isLiteral {text : String} (h : isLiteral [.word text] = true) :
    (Token.word text).spelling = some "TRUE" ∨ (Token.word text).spelling = some "FALSE" ∨
      (Token.word text).spelling = some "NULL" := by
  simpa [isLiteral,Token.spelling,← String.toList_inj] using h

theorem parsePrefix_keyword {text : String} {e : Expression} (h : isLiteral [.word text] = true)
    (he : atom (.word text) = some e) (n : ℕ) (ts : List Token) :
    parsePrefix (n+1) (.word text :: ts) = some (e,ts) := by
  rcases spelling_of_isLiteral h with hs | hs | hs <;> simp [parsePrefix,hs,he]

theorem parseExpr_sign {text : String} (h : isNumber text.toList = true) (n : ℕ)
    (ts : List Token) :
    parseExpr (n+2) signPrecedence (.number text :: ts) = some (.number text,ts) :=
  parseExpr_of_stops (parsePrefix_number h n ts) (stops_sign ts)

/-- A literal is read as itself, whatever comes after it. -/
theorem parsePrefix_literal {ts : List Token} {e : Expression} (h : literal ts = some e) {n : ℕ}
    (hn : 3*ts.length ≤ n) (rest : List Token) : parsePrefix n (ts ++ rest) = some (e,rest) := by
  obtain ⟨m,rfl⟩ : ∃ m, n = m+1 := ⟨n-1,by cases ts <;> simp_all [literal]; omega⟩
  unfold literal at h
  split at h
  · rename_i sign text
    obtain ⟨k,rfl⟩ : ∃ k, m = k+2 := ⟨m-2,by simp at hn; omega⟩
    by_cases hnumber : isNumber text.toList = true
    · rw [if_pos hnumber] at h
      split at h <;> cases h <;>
        simp [parsePrefix,Token.spelling,parseExpr_sign hnumber]
    · rw [if_neg hnumber] at h
      cases h
  · rename_i t
    by_cases hlit : isLiteral [t] = true
    · rw [if_pos hlit] at h
      cases t with
      | word text => exact parsePrefix_keyword hlit h m rest
      | number text =>
        cases h' : isNumber text.toList <;> simp [atom,h'] at h
        subst h
        exact parsePrefix_number h' m rest
      | str s =>
        cases h
        simp [parsePrefix,Token.spelling,atom]
      | _ => cases hlit
    · rw [if_neg hlit] at h
      cases h
  · cases h

/-- An operator that binds stronger than `p` takes its right operand and goes on. -/
theorem parseInfix_operator {n p : ℕ} {t : Token} {op : BinaryOp} {ts rest : List Token}
    {left right : Expression} (ht : binaryOp t = some op) (hp : p < op.precedence)
    (h : parseExpr n op.precedence ts = some (right,rest)) :
    parseInfix (n+1) p left (t :: ts) = parseInfix n p (.binary left op right) rest := by
  simp [parseInfix,ht,hp,h]

theorem isLiteral_of_literal {ts : List Token} {e : Expression} (h : literal ts = some e) :
    isLiteral ts = true := by
  unfold literal at h
  split at h
  · split_ifs at h with hnumber
    split at h <;> cases h <;> simp [isLiteral,hnumber]
  · split_ifs at h with hlit
    exact hlit
  · cases h

theorem literal_cases {ts : List Token} {e : Expression} (h : literal ts = some e) :
    (∃ s, e = .number s ∨ e = .neg (.number s)) ∨ e = .null ∨ (∃ b, e = .bool b) ∨
      ∃ s, e = .text s ∧ ts = [.str s] := by
  unfold literal at h
  split at h
  · rename_i sign text
    split_ifs at h
    split at h <;> cases h
    · exact .inl ⟨text,.inr rfl⟩
    · exact .inl ⟨text,.inl rfl⟩
  · rename_i t
    split_ifs at h with hlit
    cases t with
    | word text =>
      rcases spelling_of_isLiteral hlit with hs | hs | hs <;> simp only [atom,hs] at h <;> cases h
      · exact .inr (.inr (.inl ⟨true,rfl⟩))
      · exact .inr (.inr (.inl ⟨false,rfl⟩))
      · exact .inr (.inl rfl)
    | number text =>
      simp only [atom] at h
      split_ifs at h
      cases h
      exact .inl ⟨text,.inl rfl⟩
    | str s =>
      cases h
      exact .inr (.inr (.inr ⟨s,rfl,rfl⟩))
    | _ => cases hlit
  · cases h

theorem columns_literal {ts : List Token} {e : Expression} (h : literal ts = some e) :
    e.columns = [] := by
  rcases literal_cases h with ⟨s,rfl | rfl⟩ | rfl | ⟨b,rfl⟩ | ⟨s,rfl,-⟩ <;> rfl

/-! ### Meaning -/

/-- Values other than NULL: what literals denote, and how values compare. Booleans compare
with booleans only. -/
class Values (V : Type) where
  bool : Bool → V
  toBool : V → Option Bool
  int : ℤ → V
  number : String → V
  text : String → V
  neg : V → Option V
  arithmetic : Arithmetic → V → V → Option V
  compare : V → V → Option Ordering
  toBool_eq_some {v : V} {b : Bool} : toBool v = some b ↔ v = bool b
  compare_bool (b : Bool) (v : V) : compare (bool b) v = (toBool v).map (Ord.compare b)
  number_nat (n : ℕ) : number (toString n) = int n
  neg_int (i : ℤ) : neg (int i) = some (int (-i))

/-- Unknown unless both sides are known or one side settles it. -/
def and3 (a b : Option Bool) : Option Bool :=
  if a = some false ∨ b = some false then some false else a.bind fun x => b.map (x && ·)

def or3 (a b : Option Bool) : Option Bool :=
  if a = some true ∨ b = some true then some true else a.bind fun x => b.map (x || ·)

@[simp] theorem and3_eq_true {a b : Option Bool} :
    and3 a b = some true ↔ a = some true ∧ b = some true := by
  rcases a with _ | _ | _ <;> rcases b with _ | _ | _ <;> simp [and3]

def Comparison.holds : Comparison → Ordering → Bool
  | .eq, o => o = .eq
  | .notEq, o => o ≠ .eq
  | .lt, o => o = .lt
  | .ltEq, o => o ≠ .gt
  | .gt, o => o = .gt
  | .gtEq, o => o ≠ .lt

section
variable {V : Type} [Values V]

/-- The truth value of a value, unknown for NULL. -/
def truth (v : Option V) : Option Bool := v.bind Values.toBool

def ofTruth (b : Option Bool) : Option V := b.map Values.bool

def not3 (v : Option V) : Option V := ofTruth ((truth v).map (! ·))

def compare3 (c : Comparison) (l r : Option V) : Option Bool :=
  l.bind fun v => r.bind fun w => (Values.compare v w).map c.holds

def BinaryOp.eval : BinaryOp → Option V → Option V → Option V
  | .or, l, r => ofTruth (or3 (truth l) (truth r))
  | .and, l, r => ofTruth (and3 (truth l) (truth r))
  | .compare c, l, r => ofTruth (compare3 c l r)
  | .arithmetic a, l, r => l.bind fun v => r.bind (Values.arithmetic a v)

abbrev Row (V : Type) := String → Option V

def Expression.eval (row : Row V) : Expression → Option V
  | .column name => row name
  | .null => none
  | .bool b => some (Values.bool b)
  | .number s => some (Values.number s)
  | .text s => some (Values.text s)
  | .neg e => (e.eval row).bind Values.neg
  | .not e => not3 (e.eval row)
  | .binary left op right => op.eval (left.eval row) (right.eval row)

/-- The rows for which a clause is true: not those for which it is false or unknown. -/
def select (condition : Option Expression) (rows : List (Row V)) : List (Row V) :=
  rows.filter fun row => condition.all fun e => truth (e.eval row) = some true

@[simp] theorem truth_bool (b : Bool) : truth (some (Values.bool b : V)) = some b :=
  Values.toBool_eq_some.mpr rfl

@[simp] theorem truth_ofTruth (b : Option Bool) : truth (ofTruth b : Option V) = b := by
  cases b with
  | none => rfl
  | some b => exact truth_bool b

theorem eq_of_truth {v : Option V} {b : Bool} (h : truth v = some b) :
    v = some (Values.bool b) := by
  obtain ⟨w,rfl,hw⟩ := Option.bind_eq_some_iff.mp h
  rw [Values.toBool_eq_some.mp hw]

end

/-- What is known of `a` is known of `b`. -/
def KnownIn {α : Type} (a b : Option α) : Prop := ∀ x, a = some x → b = some x

theorem KnownIn.refl {α : Type} (a : Option α) : KnownIn a a := fun _ h => h

theorem KnownIn.trans {α : Type} {a b c : Option α} (h : KnownIn a b) (h' : KnownIn b c) :
    KnownIn a c := fun x hx => h' x (h x hx)

theorem KnownIn.bind {α β : Type} {a b : Option α} {f g : α → Option β} (h : KnownIn a b)
    (hfg : ∀ x, KnownIn (f x) (g x)) : KnownIn (a.bind f) (b.bind g) := by
  intro y hy
  obtain ⟨x,hx,hfx⟩ := Option.bind_eq_some_iff.mp hy
  rw [h x hx]
  exact hfg x y hfx

theorem KnownIn.map {α β : Type} {a b : Option α} (f : α → β) (h : KnownIn a b) :
    KnownIn (a.map f) (b.map f) := by
  rw [Option.map_eq_bind,Option.map_eq_bind]
  exact h.bind fun _ => .refl _

theorem knownIn_and3 {a b c d : Option Bool} (h : KnownIn a b) (h' : KnownIn c d) :
    KnownIn (and3 a c) (and3 b d) := by
  intro x hx
  unfold and3 at hx ⊢
  by_cases hfalse : a = some false ∨ c = some false
  · rw [if_pos hfalse] at hx
    rw [if_pos (hfalse.imp (h _) (h' _)),hx]
  · rw [if_neg hfalse] at hx
    obtain ⟨y,rfl,hy⟩ := Option.bind_eq_some_iff.mp hx
    obtain ⟨z,rfl,hz⟩ := Option.map_eq_some_iff.mp hy
    rw [h y rfl,h' z rfl,if_neg hfalse,← hz]
    rfl

theorem knownIn_or3 {a b c d : Option Bool} (h : KnownIn a b) (h' : KnownIn c d) :
    KnownIn (or3 a c) (or3 b d) := by
  intro x hx
  unfold or3 at hx ⊢
  by_cases htrue : a = some true ∨ c = some true
  · rw [if_pos htrue] at hx
    rw [if_pos (htrue.imp (h _) (h' _)),hx]
  · rw [if_neg htrue] at hx
    obtain ⟨y,rfl,hy⟩ := Option.bind_eq_some_iff.mp hx
    obtain ⟨z,rfl,hz⟩ := Option.map_eq_some_iff.mp hy
    rw [h y rfl,h' z rfl,if_neg htrue,← hz]
    rfl

section
variable {V : Type} [Values V] {a b c d : Option V}

theorem knownIn_truth (h : KnownIn a b) : KnownIn (truth a) (truth b) := h.bind fun _ => .refl _

theorem knownIn_not3 (h : KnownIn a b) : KnownIn (not3 a) (not3 b) :=
  ((knownIn_truth h).map _).map _

/-- An operator that knows more of its operands knows more of its result. -/
theorem BinaryOp.knownIn_eval (op : BinaryOp) (h : KnownIn a b) (h' : KnownIn c d) :
    KnownIn (op.eval a c) (op.eval b d) := by
  cases op with
  | or => exact (knownIn_or3 (knownIn_truth h) (knownIn_truth h')).map _
  | and => exact (knownIn_and3 (knownIn_truth h) (knownIn_truth h')).map _
  | compare c => exact (h.bind fun _ => h'.bind fun _ => .refl _).map _
  | arithmetic a => exact h.bind fun _ => h'.bind fun _ => .refl _

/-- A negated boolean is equal to another exactly when the two are not equal. -/
theorem compare3_not3 {c : Comparison} (hc : c = .eq ∨ c = .notEq) (a b : Option V) :
    KnownIn (compare3 c (not3 a) b) ((compare3 c a b).map (! ·)) := by
  intro x hx
  obtain ⟨v,hv,hbind⟩ := Option.bind_eq_some_iff.mp hx
  obtain ⟨w,rfl,hcompare⟩ := Option.bind_eq_some_iff.mp hbind
  obtain ⟨y,hy,rfl⟩ := Option.map_eq_some_iff.mp hv
  obtain ⟨z,hz,rfl⟩ := Option.map_eq_some_iff.mp hy
  rw [Values.compare_bool,Option.map_map] at hcompare
  obtain ⟨u,hu,rfl⟩ := Option.map_eq_some_iff.mp hcompare
  simp only [compare3,eq_of_truth hz,Option.bind_some,Values.compare_bool,hu,Option.map_some]
  rcases hc with rfl | rfl <;> cases z <;> cases u <;> rfl

end

end Sql
