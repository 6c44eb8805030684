import Elan.Lexing
import Mathlib.Data.List.TakeDrop
import Mathlib.Data.List.TakeWhile
import Mathlib.Data.Nat.Notation
import Mathlib.Data.Int.Notation
import Mathlib.Tactic.IntervalCases

/-! Lexical rules of SQL: words, numbers, quoted identifiers, quoted strings, comments and
operator symbols. Over the tokens, the select statements that read one table. -/
namespace Sql

inductive State
  | space | word | number (afterE : Bool) | dot
  | ident | identEnd | str | strEnd
  | minus | lineComment | slash | block | blockStar | blockEnd
  | bang | less | greater | bar | symbol
  deriving DecidableEq

def isWordStart (c : Char) : Bool :=
  c.isAlpha || c == '_' || c == '@' || c == '#' || decide (128 ≤ c.toNat)

def isWordPart (c : Char) : Bool := isWordStart c || c.isDigit || c == '$'

def start (c : Char) : State :=
  if c.isWhitespace then .space
  else if isWordStart c then .word
  else if c.isDigit then .number false
  else
    match c with
    | '"' => .ident
    | '\'' => .str
    | '.' => .dot
    | '-' => .minus
    | '/' => .slash
    | '!' => .bang
    | '<' => .less
    | '>' => .greater
    | '|' => .bar
    | _ => .symbol

/-- A doubled quote stands for the quote itself, inside identifiers and strings. -/
def step : State → Char → Option State
  | .word, c => if isWordPart c then some .word else none
  | .number afterE, c =>
    if isWordPart c || c == '.' then some (.number (c == 'e' || c == 'E'))
    else if afterE && (c == '+' || c == '-') then some (.number false)
    else none
  | .dot, c => if c.isDigit then some (.number false) else none
  | .ident, c => some (if c == '"' then .identEnd else .ident)
  | .identEnd, c => if c == '"' then some .ident else none
  | .str, c => some (if c == '\'' then .strEnd else .str)
  | .strEnd, c => if c == '\'' then some .str else none
  | .minus, c => if c == '-' then some .lineComment else none
  | .lineComment, c => if c == '\n' then none else some .lineComment
  | .slash, c => if c == '*' then some .block else none
  | .block, c => some (if c == '*' then .blockStar else .block)
  | .blockStar, c => some (if c == '/' then .blockEnd else if c == '*' then .blockStar else .block)
  | .bang, c => if c == '=' then some .symbol else none
  | .less, c => if c == '=' || c == '>' then some .symbol else none
  | .greater, c => if c == '=' then some .symbol else none
  | .bar, c => if c == '|' then some .symbol else none
  | .space, _ | .blockEnd, _ | .symbol, _ => none

/-- What is still open at the end of the text is no token. -/
def accept : State → Bool
  | .ident | .str | .block | .blockStar => false
  | _ => true

def lexer : Lexer Char State := ⟨start,step,accept⟩

abbrev Lexeme := lexer.Lexeme

inductive Token
  | word (text : String)
  | number (text : String)
  | ident (name : String)
  | str (text : String)
  | symbol (text : String)
  | comment
  deriving DecidableEq

def undouble (q : Char) : List Char → List Char
  | a :: b :: cs =>
    if a = q ∧ b = q then q :: undouble q cs else a :: undouble q (b :: cs)
  | cs => cs

def unquote (q : Char) (raw : List Char) : String :=
  String.ofList (undouble q raw.tail.dropLast)

/-- The token a lexeme stands for; white space stands for none. -/
def token (t : Lexeme) : Option Token :=
  match t.final with
  | .space => none
  | .word => some (.word (String.ofList t.raw))
  | .number _ => some (.number (String.ofList t.raw))
  | .ident | .identEnd => some (.ident (unquote '"' t.raw))
  | .str | .strEnd => some (.str (unquote '\'' t.raw))
  | .lineComment | .block | .blockStar | .blockEnd => some .comment
  | .dot | .minus | .slash | .bang | .less | .greater | .bar | .symbol =>
    some (.symbol (String.ofList t.raw))

def tokens (ls : List Lexeme) : List Token := ls.filterMap token

@[simp] theorem tokens_nil : tokens [] = [] := rfl

@[simp] theorem tokens_append (ls ms : List Lexeme) :
    tokens (ls ++ ms) = tokens ls ++ tokens ms :=
  List.filterMap_append

def isExponent : List Char → Bool
  | '+' :: cs | '-' :: cs => !cs.isEmpty && cs.all Char.isDigit
  | cs => !cs.isEmpty && cs.all Char.isDigit

/-- Digits with at most one point, and perhaps an exponent. -/
def isNumber (cs : List Char) : Bool :=
  let whole := cs.span Char.isDigit
  let fraction :=
    match whole.2 with
    | '.' :: cs => cs.span Char.isDigit
    | cs => ([],cs)
  (!whole.1.isEmpty || !fraction.1.isEmpty) &&
    match fraction.2 with
    | [] => true
    | c :: cs => (c == 'e' || c == 'E') && isExponent cs

/-- One literal: a number, perhaps with a sign, a string, or one of the keyword values. The literals
of particular dialects are left out, as are literals with comments around them and blanks beyond
those of `Char.isWhitespace`. -/
def isLiteral : List Token → Bool
  | [.number text] => isNumber text.toList
  | [.symbol sign,.number text] => (sign == "-" || sign == "+") && isNumber text.toList
  | [.str _] => true
  | [.word text] =>
    ["TRUE".toList,"FALSE".toList,"NULL".toList].contains (text.toList.map Char.toUpper)
  | _ => false

def IsLiteralText (s : String) : Prop :=
  ∃ ls, lexer.Lexes s.toList ls ∧ isLiteral (tokens ls) = true

theorem isLiteralText_iff (s : String) :
    IsLiteralText s ↔ (lexer.lex s.toList).any (isLiteral ∘ tokens) = true := by
  simp only [IsLiteralText,← Lexer.lex_eq_some_iff]
  cases lexer.lex s.toList <;> simp

instance (s : String) : Decidable (IsLiteralText s) :=
  decidable_of_iff _ (isLiteralText_iff s).symm

def comparisons : List Token :=
  [.symbol "=",.symbol "!=",.symbol "<",.symbol "<=",.symbol ">",.symbol ">=",
    .word "AND",.word "OR"]

/-- A condition over the columns of the one table: no part of it names a table. -/
inductive Condition : List Token → Prop
  | column (name : String) : Condition [.ident name]
  | literal {ts : List Token} (h : isLiteral ts = true) : Condition ts
  | binary {ls rs : List Token} {op : Token} (hl : Condition ls) (hr : Condition rs)
    (hop : op ∈ comparisons) : Condition (.symbol "(" :: ls ++ op :: rs ++ [.symbol ")"])
  | not {ts : List Token} (h : Condition ts) :
    Condition (.word "NOT" :: .symbol "(" :: ts ++ [.symbol ")"])

inductive Conjunction : List Token → Prop
  | single {ts : List Token} (h : Condition ts) : Conjunction ts
  | cons {ts us : List Token} (h : Condition ts) (hs : Conjunction us) :
    Conjunction (ts ++ .word "AND" :: us)

/-- One statement that selects from the one table `name`, and nothing after it. -/
def SelectsFrom (name : String) (ts : List Token) : Prop :=
  ∃ conditions limit, ts = [.word "SELECT",.symbol "*",.word "FROM",.ident name] ++
      conditions ++ limit ∧
    (conditions = [] ∨ ∃ us, conditions = .word "WHERE" :: us ∧ Conjunction us) ∧
    (limit = [] ∨ ∃ n, limit = [.word "LIMIT",.number n] ∧ isNumber n.toList = true)

/-! ### Fixed text -/

def State.closed (s : State) : Bool := s = .space || s = .blockEnd || s = .symbol

theorem step_of_closed {s : State} (h : s.closed = true) (c : Char) : step s c = none := by
  cases s <;> simp [State.closed] at h <;> rfl

/-- The lexing of a text that ends in a closed state. -/
structure Delimits (s : String) (ts : List Token) (ls : List Lexeme) : Prop where
  lexes : lexer.Lexes s.toList ls
  tokens_eq : tokens ls = ts
  closed : ∀ t ∈ ls.getLast?, t.final.closed = true

theorem exists_delimits {s : String} {ts : List Token}
    (h : (lexer.lex s.toList).any (fun ls =>
      tokens ls = ts && ls.getLast?.all (·.final.closed)) = true) :
    ∃ ls, Delimits s ts ls := by
  cases hls : lexer.lex s.toList with
  | none => simp [hls] at h
  | some ls =>
    simp only [hls,Option.any_some,Bool.and_eq_true,decide_eq_true_eq] at h
    exact ⟨ls,Lexer.lex_eq_some_iff.mp hls,h.1,fun t ht => by
      rw [Option.mem_def] at ht; simpa [ht] using h.2⟩

/-! ### Numbers -/

def digits : List Char := ['0','1','2','3','4','5','6','7','8','9']

theorem mem_digits {c : Char} (h : c.isDigit = true) : c ∈ digits := by
  obtain ⟨hl,hu⟩ := Char.isDigit_iff_toNat.mp h
  rw [← Char.ofNat_toNat c]
  change 48 ≤ c.toNat at hl
  change c.toNat ≤ 57 at hu
  generalize c.toNat = n at hl hu
  interval_cases n <;> decide

/-- What is checked for the ten digits holds of every digit. -/
theorem of_digit {p : Char → Bool} (hall : digits.all p = true) {c : Char}
    (h : c.isDigit = true) : p c = true :=
  List.all_eq_true.mp hall c (mem_digits h)

theorem start_digit {c : Char} (h : c.isDigit = true) : start c = .number false := by
  have hall : digits.all (fun d => start d = .number false) = true := by decide
  exact of_decide_eq_true (of_digit hall h)

theorem step_digit {c : Char} (h : c.isDigit = true) :
    step (.number false) c = some (.number false) := by
  have hall : digits.all (fun d => step (.number false) d = some (.number false)) = true := by
    decide
  exact of_decide_eq_true (of_digit hall h)

theorem run_digits {ds : List Char} (h : ∀ c ∈ ds, c.isDigit = true) :
    lexer.run (.number false) ds = some (.number false) := by
  induction ds with
  | nil => rfl
  | cons d ds ih =>
    have hd : lexer.step (.number false) d = some (.number false) := step_digit (h d (by simp))
    rw [Lexer.run_cons,hd]
    exact ih fun c hc => h c (by simp [hc])

theorem isNumber_digits {ds : List Char} (hne : ds ≠ []) (h : ∀ c ∈ ds, c.isDigit = true) :
    isNumber ds = true := by
  have ht : ds.takeWhile Char.isDigit = ds := List.takeWhile_eq_self_iff.mpr h
  have hd : ds.dropWhile Char.isDigit = [] := List.dropWhile_eq_nil_iff.mpr h
  simp [isNumber,List.span_eq_takeWhile_dropWhile,ht,hd,hne]

theorem exists_number {ds : List Char} (hne : ds ≠ []) (h : ∀ c ∈ ds, c.isDigit = true) :
    ∃ t : Lexeme, t.raw = ds ∧ token t = some (.number (String.ofList ds)) := by
  cases ds with
  | nil => exact absurd rfl hne
  | cons d ds =>
    have hstart : lexer.start d = .number false := start_digit (h d (by simp))
    have hrun : lexer.run (lexer.start d) ds = some (.number false) := by
      rw [hstart]
      exact run_digits fun c hc => h c (by simp [hc])
    exact ⟨⟨d,ds,.number false,hrun,rfl⟩,rfl,rfl⟩

theorem repr_digits (n : ℕ) :
    (toString n).toList ≠ [] ∧ ∀ c ∈ (toString n).toList, c.isDigit = true := by
  rw [Nat.toString_eq_repr,Nat.toList_repr]
  exact ⟨Nat.toDigits_ne_nil,fun c hc => Nat.isDigit_of_mem_toDigits (by omega) le_rfl hc⟩

theorem isNumber_natural (n : ℕ) : isNumber (toString n).toList = true := by
  obtain ⟨hne,hdigits⟩ := repr_digits n
  exact isNumber_digits hne hdigits

theorem exists_natural (n : ℕ) : ∃ t : Lexeme, t.raw = (toString n).toList ∧
    token t = some (.number (toString n)) ∧ isNumber (toString n).toList = true := by
  obtain ⟨hne,hdigits⟩ := repr_digits n
  obtain ⟨t,hraw,htoken⟩ := exists_number hne hdigits
  exact ⟨t,hraw,by rw [htoken,String.ofList_toList],isNumber_natural n⟩

/-- A printed integer is a number, a negative one with its sign. -/
def intTokens : ℤ → List Token
  | .ofNat n => [.number (toString n)]
  | .negSucc n => [.symbol "-",.number (toString (n+1))]

theorem isLiteral_intTokens (i : ℤ) : isLiteral (intTokens i) = true := by
  cases i with
  | ofNat n => exact isNumber_natural n
  | negSucc n => simpa [intTokens,isLiteral] using isNumber_natural (n+1)

theorem exists_lexes_int (i : ℤ) :
    ∃ ls, lexer.Lexes (toString i).toList ls ∧ tokens ls = intTokens i := by
  cases i with
  | ofNat n =>
    obtain ⟨t,hraw,htoken,-⟩ := exists_natural n
    have htext : Lexer.text [t] = (toString n).toList := by rw [← hraw]; simp
    refine ⟨[t],⟨Lexer.maximal_singleton t,htext⟩,?_⟩
    simp [tokens,htoken,intTokens]
  | negSucc n =>
    obtain ⟨t,hraw,htoken,-⟩ := exists_natural (n+1)
    obtain ⟨hne,hdigits⟩ := repr_digits (n+1)
    let sign : Lexeme := ⟨'-',[],.minus,rfl,rfl⟩
    have hfirst : t.first.isDigit = true := by
      apply hdigits t.first
      rw [← hraw]
      simp [Lexer.Lexeme.raw]
    refine ⟨[sign,t],⟨List.isChain_pair.mpr ?_,?_⟩,?_⟩
    · have hall : digits.all (fun d => step .minus d = none) = true := by decide
      have hstep : step .minus t.first = none := of_decide_eq_true (of_digit hall hfirst)
      exact hstep
    · have hsign : sign.raw = ['-'] := rfl
      have hprint : toString (Int.negSucc n) = "-" ++ toString (n+1) := rfl
      simp [hprint,hsign,hraw]
    · have hsign : token sign = some (.symbol "-") := rfl
      simp [tokens,hsign,htoken,intTokens]

theorem isLiteralText_int (i : ℤ) : IsLiteralText (toString i) := by
  obtain ⟨ls,hls,htokens⟩ := exists_lexes_int i
  exact ⟨ls,hls,by rw [htokens,isLiteral_intTokens]⟩

/-! ### Quoted identifiers -/

theorem length_undouble_le (q : Char) (cs : List Char) : (undouble q cs).length ≤ cs.length := by
  fun_induction undouble q cs with
  | case1 a b cs h ih => simp; omega
  | case2 a b cs h ih => simpa using ih
  | case3 cs h => exact le_rfl

theorem length_unquote_le (q : Char) (raw : List Char) :
    (unquote q raw).toList.length ≤ raw.length - 2 := by
  have h := length_undouble_le q raw.tail.dropLast
  rw [List.length_dropLast,List.length_tail] at h
  rw [unquote,String.toList_ofList]
  omega

/-- What a quoted string stands for is shorter than its text. -/
theorem length_lt_of_str {ls : List Lexeme} {s : String} (h : tokens ls = [.str s]) :
    s.toList.length < (Lexer.text ls).length := by
  have hmem : Token.str s ∈ tokens ls := by rw [h]; exact List.mem_singleton_self _
  obtain ⟨t,ht,htoken⟩ := List.mem_filterMap.mp hmem
  have hs : unquote '\'' t.raw = s := by
    unfold token at htoken
    split at htoken <;> simp_all
  have hle := length_unquote_le '\'' t.raw
  rw [hs] at hle
  have hraw : 0 < t.raw.length := Nat.succ_pos _
  have hsub :=
    (List.sublist_flatten_of_mem (List.mem_map_of_mem (f := Lexer.Lexeme.raw) ht)).length_le
  rw [← List.flatMap_def] at hsub
  show s.toList.length < (ls.flatMap Lexer.Lexeme.raw).length
  omega

theorem undouble_cons_of_ne {q c : Char} (hc : c ≠ q) (cs : List Char) :
    undouble q (c :: cs) = c :: undouble q cs := by
  cases cs with
  | nil => rfl
  | cons b cs => simp [undouble,hc]

theorem undouble_of_not_mem {q : Char} {cs : List Char} (h : q ∉ cs) : undouble q cs = cs := by
  induction cs with
  | nil => rfl
  | cons c cs ih =>
    simp only [List.mem_cons,not_or] at h
    rw [undouble_cons_of_ne (Ne.symm h.1),ih h.2]

theorem run_ident {cs : List Char} (h : '"' ∉ cs) : lexer.run .ident cs = some .ident := by
  induction cs with
  | nil => rfl
  | cons c cs ih =>
    simp only [List.mem_cons,not_or] at h
    have hstep : lexer.step .ident c = some .ident := by simp [lexer,step,Ne.symm h.1]
    rw [Lexer.run_cons,hstep]
    exact ih h.2

/-- Text that reads back as itself has no quote in it: the first one would have to be
followed by a second, and the two be read as one. -/
theorem not_mem_of_run {cs : List Char}
    (hrun : lexer.run .ident (cs ++ ['"']) = some .identEnd) (hself : undouble '"' cs = cs) :
    '"' ∉ cs := by
  induction cs with
  | nil => simp
  | cons c cs ih =>
    by_cases hc : c = '"'
    · subst hc
      cases cs with
      | nil => exact absurd hrun (by decide)
      | cons b cs =>
        by_cases hb : b = '"'
        · subst hb
          have hlen := length_undouble_le '"' cs
          have hpair : undouble '"' ('"' :: '"' :: cs) = '"' :: undouble '"' cs := by
            simp [undouble]
          rw [hpair] at hself
          have heq := congrArg List.length hself
          simp only [List.length_cons] at heq
          omega
        · simp [lexer,step,hb] at hrun
    · rw [undouble_cons_of_ne hc] at hself
      have hstep : lexer.step .ident c = some .ident := by simp [lexer,step,hc]
      rw [List.cons_append,Lexer.run_cons,hstep] at hrun
      have hcs := ih hrun (List.cons.inj hself).2
      simp [hcs,Ne.symm hc]

/-- A name in quotes is the one identifier of that name exactly when it holds no quote. -/
theorem exists_ident_iff (name : String) :
    (∃ t : Lexeme, t.raw = '"' :: name.toList ++ ['"'] ∧ token t = some (.ident name)) ↔
      '"' ∉ name.toList := by
  have hstart : lexer.start '"' = .ident := by decide
  constructor
  · rintro ⟨t,hraw,htoken⟩
    obtain ⟨hfirst,hrest⟩ := List.cons.inj hraw
    have hreads := t.reads
    rw [hfirst,hrest,hstart] at hreads
    have haccept := t.accepts
    have hfinal : t.final = .identEnd ∧ unquote '"' t.raw = name := by
      unfold token at htoken
      split at htoken <;> simp_all [lexer,accept]
    rw [hfinal.1] at hreads
    refine not_mem_of_run hreads ?_
    have hname := congrArg String.toList hfinal.2
    rw [hraw] at hname
    simpa [unquote] using hname
  · intro hq
    have hrun : lexer.run (lexer.start '"') (name.toList ++ ['"']) = some .identEnd := by
      rw [hstart,Lexer.run_append,run_ident hq]
      rfl
    refine ⟨⟨'"',name.toList ++ ['"'],.identEnd,hrun,rfl⟩,rfl,?_⟩
    simp [token,unquote,Lexer.Lexeme.raw,undouble_of_not_mem hq]

/-! ### Delimiters -/

/-- No token but a comment runs on over a blank or a closing parenthesis. -/
theorem step_delimiter {t : Lexeme} (h : token t ≠ some .comment) :
    step t.final ' ' = none ∧ step t.final ')' = none := by
  have hstates (s : State) : accept s = true → s ≠ .lineComment →
      step s ' ' = none ∧ step s ')' = none := by
    cases s with
    | number afterE => cases afterE <;> decide
    | _ => decide
  exact hstates _ t.accepts fun hf => h (by simp [token,hf])

theorem comment_not_mem_of_isLiteral {ts : List Token} (h : isLiteral ts = true) :
    Token.comment ∉ ts := by
  unfold isLiteral at h
  split at h <;> simp_all

end Sql
