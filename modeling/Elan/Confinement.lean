import Elan.TableScan
import Elan.Sql
import Elan.Table

/-! Where the pieces of a scan's SQL text come from, and when every piece stays the token it
was meant to be: the text is then one `SELECT` over the one table of the scan. -/
namespace Elan
namespace Confinement

open Lexer Sql

/-- A stretch of the text with its origin: text of the program, a quoted name, the literal
of an expression, or the limit. -/
inductive Chunk
  | fixed (s : String)
  | ident (name : String)
  | literal (scalar : ScalarValue)
  | count (n : ℕ)

def Chunk.chars : Chunk → List Char
  | .fixed s => s.toList
  | .ident name => '"' :: name.toList ++ ['"']
  | .literal scalar => scalar.toString.toList
  | .count n => (toString n).toList

def chunkText (cs : List Chunk) : List Char := cs.flatMap Chunk.chars

def exprChunks : Expr → Option (List Chunk)
  | .binaryExpr left op right => do
    let left ← exprChunks left
    let right ← exprChunks right
    let op ← op.sql
    some (.fixed "(" :: left ++ .fixed (" " ++ op ++ " ") :: right ++ [.fixed ")"])
  | .column name => some [.ident name]
  | .literal scalar => some [.literal scalar]
  | .not inner => do
    let inner ← exprChunks inner
    some (.fixed "NOT (" :: inner ++ [.fixed ")"])
  | .other _ => none

def joinChunks : List (List Chunk) → List Chunk
  | [] => []
  | [cs] => cs
  | cs :: css => cs ++ .fixed " AND " :: joinChunks css

def whereChunks (filters : List Expr) : List Chunk :=
  match filters.filterMap exprChunks with
  | [] => []
  | css => .fixed " WHERE " :: joinChunks css

def limitChunks : Option ℕ → List Chunk
  | some lim => [.fixed " LIMIT ",.count lim]
  | none => []

def chunks (n : RemoteTableScanExec) : List Chunk :=
  .fixed "SELECT * FROM " :: .ident n.dataset.name ::
    (whereChunks n.pushedFilters ++ limitChunks n.limit)

/-! ### The chunks spell the text -/

theorem exprToSql_chunks (e : Expr) :
    (exprToSql e).map String.toList = (exprChunks e).map chunkText := by
  induction e with
  | column name => simp [exprToSql,exprChunks,chunkText,Chunk.chars]
  | literal scalar => simp [exprToSql,exprChunks,chunkText,Chunk.chars]
  | binaryExpr left op right ihl ihr =>
    cases hl : exprToSql left <;> cases hl' : exprChunks left <;> simp [hl,hl'] at ihl <;>
      cases hr : exprToSql right <;> cases hr' : exprChunks right <;> simp [hr,hr'] at ihr <;>
      cases hop : op.sql <;>
      simp [exprToSql,exprChunks,hl,hl',hr,hr',hop,ihl,ihr,chunkText,Chunk.chars]
  | not inner ih =>
    cases h : exprToSql inner <;> cases h' : exprChunks inner <;> simp [h,h'] at ih <;>
      simp [exprToSql,exprChunks,h,h',ih,chunkText,Chunk.chars]
  | other node => rfl

theorem isSome_exprToSql (e : Expr) : (exprToSql e).isSome = (exprChunks e).isSome := by
  simpa using congrArg Option.isSome (exprToSql_chunks e)

theorem joinChunks_text (css : List (List Chunk)) :
    chunkText (joinChunks css) = " AND ".toList.intercalate (css.map chunkText) := by
  fun_induction joinChunks css with
  | case1 => rfl
  | case2 cs => simp
  | case3 cs css hne ih =>
    rw [List.map_cons,List.intercalate_cons_of_ne_nil (by simpa using hne),← ih]
    simp [chunkText,Chunk.chars]

theorem filterChunks_text (filters : List Expr) :
    (filters.filterMap exprToSql).map String.toList =
      (filters.filterMap exprChunks).map chunkText := by
  simp only [List.map_filterMap,exprToSql_chunks]

theorem whereChunks_text (filters : List Expr) :
    (RemoteTableScanExec.whereClause filters).toList = chunkText (whereChunks filters) := by
  have htext := filterChunks_text filters
  unfold RemoteTableScanExec.whereClause whereChunks
  cases hs : filters.filterMap exprToSql with
  | nil =>
    rw [hs] at htext
    rw [List.map_eq_nil_iff.mp htext.symm]
    rfl
  | cons s strs =>
    cases hc : filters.filterMap exprChunks with
    | nil => simp [hs,hc] at htext
    | cons cs css =>
      rw [hs,hc] at htext
      have hjoin := joinChunks_text (cs :: css)
      rw [← htext,← String.toList_intercalate] at hjoin
      rw [String.toList_append,← hjoin]
      rfl

theorem toList_append_five (a b c d e : String) : (a ++ b ++ c ++ d ++ e).toList =
    a.toList ++ (b.toList ++ (c.toList ++ (d.toList ++ e.toList))) := by
  simp

/-- The chunks put together are the SQL text of the scan. -/
theorem chunks_text (n : RemoteTableScanExec) : n.buildSql.toList = chunkText (chunks n) := by
  have hlimit : (RemoteTableScanExec.limitClause n.limit).toList =
      chunkText (limitChunks n.limit) := by
    cases n.limit <;> simp [RemoteTableScanExec.limitClause,limitChunks,chunkText,Chunk.chars]
  have hselect : "SELECT * FROM \"".toList = "SELECT * FROM ".toList ++ ['"'] := by decide
  refine (toList_append_five _ _ _ _ _).trans ?_
  rw [hselect,whereChunks_text,hlimit]
  simp [chunks,chunkText,Chunk.chars]

/-! ### Confinement -/

/-- What a stretch has to become: a quoted name its one identifier, a literal one literal. -/
def Chunk.Expects : Chunk → List Lexeme → Prop
  | .fixed _, _ | .count _, _ => True
  | .ident name, part => ∃ t, part = [t] ∧ token t = some (.ident name)
  | .literal _, part => isLiteral (tokens part) = true

/-- Lexemes divided among the chunks, so that no lexeme crosses from one to the next. -/
def Aligned : List Chunk → List Lexeme → Prop
  | [], ls => ls = []
  | c :: cs, ls => ∃ part rest, ls = part ++ rest ∧ text part = c.chars ∧ c.Expects part ∧
      Aligned cs rest

/-- The text is one `SELECT` over the one table of the scan, in which every column of a
filter is one identifier and every literal of a filter is one literal. -/
def Confined (n : RemoteTableScanExec) : Prop :=
  ∃ ls, lexer.Lexes n.buildSql.toList ls ∧ Aligned (chunks n) ls ∧
    SelectsFrom n.dataset.name (tokens ls)

/-- Literals whose printed text is itself one literal. The text of a string is printed bare. -/
def ReadsAsLiteral : ScalarValue → Prop
  | .null | .boolean _ | .int _ | .utf8 none => True
  | .utf8 (some s) => IsLiteralText s
  | .other _ display => IsLiteralText display

/-- No column name holds a quote, and every literal reads as one. -/
def Plain : Expr → Prop
  | .column name => '"' ∉ name.toList
  | .literal scalar => ReadsAsLiteral scalar
  | .binaryExpr left _ right => Plain left ∧ Plain right
  | .not inner => Plain inner
  | .other _ => True

theorem readsAsLiteral_iff (scalar : ScalarValue) :
    ReadsAsLiteral scalar ↔ IsLiteralText scalar.toString := by
  have hnull : IsLiteralText "NULL" := by decide
  have htrue : IsLiteralText "true" := by decide
  have hfalse : IsLiteralText "false" := by decide
  rcases scalar with _ | (_ | _ | _) | (_ | i) | (_ | s) | ⟨kind,display⟩
  case int.some => exact iff_of_true trivial (isLiteralText_int i)
  all_goals simp [ReadsAsLiteral,ScalarValue.toString,hnull,htrue,hfalse]

def Chunk.Plain : Chunk → Prop
  | .fixed _ | .count _ => True
  | .ident name => '"' ∉ name.toList
  | .literal scalar => ReadsAsLiteral scalar

theorem Chunk.plain_of_expects {c : Chunk} {part : List Lexeme} (hmax : Maximal part)
    (htext : text part = c.chars) (h : c.Expects part) : c.Plain := by
  cases c with
  | fixed s => trivial
  | count n => trivial
  | ident name =>
    obtain ⟨t,rfl,htoken⟩ := h
    exact (exists_ident_iff name).mp ⟨t,by simpa [Chunk.chars] using htext,htoken⟩
  | literal scalar => exact (readsAsLiteral_iff scalar).mpr ⟨part,⟨hmax,htext⟩,h⟩

theorem Aligned.plain {cs : List Chunk} {ls : List Lexeme} (h : Aligned cs ls)
    (hmax : Maximal ls) : ∀ c ∈ cs, c.Plain := by
  induction cs generalizing ls with
  | nil => simp
  | cons c cs ih =>
    obtain ⟨part,rest,rfl,htext,hexp,hrest⟩ := h
    obtain ⟨hpart,hmaxrest,-⟩ := List.isChain_append.mp hmax
    intro d hd
    rcases List.mem_cons.mp hd with rfl | hd
    · exact Chunk.plain_of_expects hpart htext hexp
    · exact ih hrest hmaxrest d hd

theorem Aligned.append {cs ds : List Chunk} {ls ms : List Lexeme} (h : Aligned cs ls)
    (h' : Aligned ds ms) : Aligned (cs ++ ds) (ls ++ ms) := by
  induction cs generalizing ls with
  | nil => obtain rfl := h; exact h'
  | cons c cs ih =>
    obtain ⟨part,rest,rfl,htext,hexp,hrest⟩ := h
    exact ⟨part,rest ++ ms,List.append_assoc _ _ _,htext,hexp,ih hrest⟩

theorem Aligned.text_eq {cs : List Chunk} {ls : List Lexeme} (h : Aligned cs ls) :
    text ls = chunkText cs := by
  induction cs generalizing ls with
  | nil => obtain rfl := h; rfl
  | cons c cs ih =>
    obtain ⟨part,rest,rfl,htext,-,hrest⟩ := h
    rw [text_append,htext,ih hrest]
    rfl

/-! ### Putting the pieces together -/

/-- Chunks with their lexemes, such that a delimiter may follow. -/
structure Piece (cs : List Chunk) (ls : List Lexeme) : Prop where
  maximal : Maximal ls
  aligned : Aligned cs ls
  ends : ∀ t ∈ ls.getLast?, step t.final ' ' = none ∧ step t.final ')' = none

theorem Piece.nil : Piece [] [] := ⟨List.isChain_nil,rfl,by simp⟩

theorem Piece.append {cs ds : List Chunk} {ls ms : List Lexeme} (h : Piece cs ls)
    (h' : Piece ds ms)
    (hb : ∀ t ∈ ls.getLast?, ∀ c ∈ (text ms).head?, step t.final c = none) :
    Piece (cs ++ ds) (ls ++ ms) := by
  refine ⟨h.maximal.append h'.maximal hb,h.aligned.append h'.aligned,fun t ht => ?_⟩
  rw [List.getLast?_append] at ht
  cases hms : ms.getLast? with
  | none => exact h.ends t (by simpa [hms] using ht)
  | some u => exact h'.ends t (by simpa [hms] using ht)

theorem Piece.append_blank {cs ds : List Chunk} {ls ms : List Lexeme} (h : Piece cs ls)
    (h' : Piece ds ms) (hstart : ∀ c ∈ (text ms).head?, c = ' ') :
    Piece (cs ++ ds) (ls ++ ms) :=
  h.append h' fun t ht c hc => hstart c hc ▸ (h.ends t ht).1

theorem Piece.fixed {s : String} {ts : List Token} {fs : List Lexeme} (h : Delimits s ts fs) :
    Piece [.fixed s] fs :=
  ⟨h.lexes.1,⟨fs,[],by simp,h.lexes.2,trivial,rfl⟩,
    fun t ht => ⟨step_of_closed (h.closed t ht) _,step_of_closed (h.closed t ht) _⟩⟩

theorem Piece.fixed_cons {s : String} {ts : List Token} {fs ls : List Lexeme} {cs : List Chunk}
    (hs : Delimits s ts fs) (h : Piece cs ls) : Piece (.fixed s :: cs) (fs ++ ls) :=
  (Piece.fixed hs).append h fun t ht _ _ => step_of_closed (hs.closed t ht) _

/-- Text of the program that begins with a delimiter, between two pieces. -/
theorem Piece.join {s : String} {ts : List Token} {fs ls ms : List Lexeme} {cs ds : List Chunk}
    (h : Piece cs ls) (hs : Delimits s ts fs) (hstart : s.toList.head? ∈ [some ' ',some ')'])
    (h' : Piece ds ms) : Piece (cs ++ .fixed s :: ds) (ls ++ (fs ++ ms)) := by
  refine h.append (h'.fixed_cons hs) fun t ht c hc => ?_
  rw [text_append,hs.lexes.2,List.head?_append] at hc
  have hends := h.ends t ht
  rcases List.mem_pair.mp hstart with hh | hh <;> rw [hh] at hc <;> cases hc
  exacts [hends.1,hends.2]

theorem exists_piece_ident {name : String} (h : '"' ∉ name.toList) :
    ∃ ls, Piece [.ident name] ls ∧ tokens ls = [.ident name] := by
  obtain ⟨t,hraw,htoken⟩ := (exists_ident_iff name).mpr h
  refine ⟨[t],⟨maximal_singleton t,⟨[t],[],rfl,by simpa [Chunk.chars] using hraw,
    ⟨t,rfl,htoken⟩,rfl⟩,?_⟩,by simp [tokens,htoken]⟩
  rintro u ⟨⟩
  exact step_delimiter (by simp [htoken])

theorem exists_piece_literal {scalar : ScalarValue} (h : ReadsAsLiteral scalar) :
    ∃ ls, Piece [.literal scalar] ls ∧ lexer.Lexes scalar.toString.toList ls ∧
      isLiteral (tokens ls) = true := by
  obtain ⟨ls,⟨hmax,htext⟩,hlit⟩ := (readsAsLiteral_iff scalar).mp h
  refine ⟨ls,⟨hmax,⟨ls,[],by simp,htext,hlit,rfl⟩,fun t ht => step_delimiter fun hc => ?_⟩,
    ⟨hmax,htext⟩,hlit⟩
  exact comment_not_mem_of_isLiteral hlit
    (List.mem_filterMap.mpr ⟨t,List.mem_of_getLast? ht,hc⟩)

theorem exists_piece_count (n : ℕ) :
    ∃ ls, Piece [.count n] ls ∧ tokens ls = [.number (toString n)] ∧
      isNumber (toString n).toList = true := by
  obtain ⟨t,hraw,htoken,hnum⟩ := exists_natural n
  refine ⟨[t],⟨maximal_singleton t,⟨[t],[],rfl,by simpa [Chunk.chars] using hraw,trivial,rfl⟩,?_⟩,
    by simp [tokens,htoken],hnum⟩
  rintro u ⟨⟩
  exact step_delimiter (by simp [htoken])

def operatorToken : Operator → Option Token
  | .eq => some (.symbol "=")
  | .notEq => some (.symbol "!=")
  | .lt => some (.symbol "<")
  | .ltEq => some (.symbol "<=")
  | .gt => some (.symbol ">")
  | .gtEq => some (.symbol ">=")
  | .and => some (.word "AND")
  | .or => some (.word "OR")
  | .other _ => none

/-- The tokens an expression is written with, when its literals read as literals. -/
inductive Spells : Expr → List Token → Prop
  | column (name : String) : Spells (.column name) [.ident name]
  | literal {scalar : ScalarValue} {ls : List Lexeme}
    (hls : lexer.Lexes scalar.toString.toList ls) (hlit : isLiteral (tokens ls) = true) :
    Spells (.literal scalar) (tokens ls)
  | binary {left right : Expr} {op : Operator} {ls rs : List Token} {t : Token}
    (hl : Spells left ls) (hr : Spells right rs) (ht : operatorToken op = some t) :
    Spells (.binaryExpr left op right) (.symbol "(" :: ls ++ t :: rs ++ [.symbol ")"])
  | not {inner : Expr} {ts : List Token} (h : Spells inner ts) :
    Spells (.not inner) (.word "NOT" :: .symbol "(" :: ts ++ [.symbol ")"])

theorem operatorToken_mem {op : Operator} {t : Token} (h : operatorToken op = some t) :
    t ∈ comparisons := by
  cases op <;> cases h <;> decide

theorem Spells.condition {e : Expr} {ts : List Token} (h : Spells e ts) : Condition ts := by
  induction h with
  | column name => exact .column name
  | literal _ hlit => exact .literal hlit
  | binary _ _ ht ihl ihr => exact .binary ihl ihr (operatorToken_mem ht)
  | not _ ih => exact .not ih

theorem exists_delimits_operator {op : Operator} {s : String} (h : op.sql = some s) :
    ∃ t, operatorToken op = some t ∧ ∃ ls, Delimits (" " ++ s ++ " ") [t] ls := by
  cases op <;> cases h <;> exact ⟨_,rfl,exists_delimits (by decide)⟩

theorem exprChunks_binary {left right : Expr} {op : Operator} {cs : List Chunk} :
    exprChunks (.binaryExpr left op right) = some cs ↔
      ∃ ls rs s, exprChunks left = some ls ∧ exprChunks right = some rs ∧ op.sql = some s ∧
        cs = .fixed "(" :: (ls ++ .fixed (" " ++ s ++ " ") :: (rs ++ [.fixed ")"])) := by
  cases hl : exprChunks left <;> cases hr : exprChunks right <;> cases hop : op.sql <;>
    simp [exprChunks,hl,hr,hop,eq_comm]

theorem exprChunks_not {inner : Expr} {cs : List Chunk} :
    exprChunks (.not inner) = some cs ↔
      ∃ is, exprChunks inner = some is ∧ cs = .fixed "NOT (" :: (is ++ [.fixed ")"]) := by
  cases h : exprChunks inner <;> simp [exprChunks,h,eq_comm]

theorem plain_expr_iff {e : Expr} {cs : List Chunk} (h : exprChunks e = some cs) :
    (∀ c ∈ cs, c.Plain) ↔ Plain e := by
  induction e generalizing cs with
  | column name => cases h; simp [Chunk.Plain,Plain]
  | literal scalar => cases h; simp [Chunk.Plain,Plain]
  | binaryExpr left op right ihl ihr =>
    obtain ⟨ls,rs,s,hl,hr,-,rfl⟩ := exprChunks_binary.mp h
    rw [Plain,← ihl hl,← ihr hr]
    simp [Chunk.Plain,or_imp,forall_and]
  | not inner ih =>
    obtain ⟨is,hi,rfl⟩ := exprChunks_not.mp h
    rw [Plain,← ih hi]
    simp [Chunk.Plain,or_imp,forall_and]
  | other node => cases h

theorem exists_piece_expr {e : Expr} {cs : List Chunk} (h : exprChunks e = some cs)
    (hplain : Plain e) : ∃ ls, Piece cs ls ∧ Spells e (tokens ls) := by
  obtain ⟨fopen,hopen⟩ : ∃ ls, Delimits "(" [.symbol "("] ls := exists_delimits (by decide)
  obtain ⟨fclose,hclose⟩ : ∃ ls, Delimits ")" [.symbol ")"] ls := exists_delimits (by decide)
  induction e generalizing cs with
  | column name =>
    cases h
    obtain ⟨ls,hpiece,htokens⟩ := exists_piece_ident hplain
    exact ⟨ls,hpiece,htokens ▸ .column name⟩
  | literal scalar =>
    cases h
    obtain ⟨ls,hpiece,hlexes,hlit⟩ := exists_piece_literal hplain
    exact ⟨ls,hpiece,.literal hlexes hlit⟩
  | binaryExpr left op right ihl ihr =>
    obtain ⟨ls,rs,s,hl,hr,hop,rfl⟩ := exprChunks_binary.mp h
    obtain ⟨lefts,hleft,hsl⟩ := ihl hl hplain.1
    obtain ⟨rights,hright,hsr⟩ := ihr hr hplain.2
    obtain ⟨t,ht,fop,hfop⟩ := exists_delimits_operator hop
    have hstart : (" " ++ s ++ " ").toList.head? ∈ [some ' ',some ')'] := by simp
    refine ⟨_,(hleft.join hfop hstart (hright.join hclose (by decide) .nil)).fixed_cons hopen,?_⟩
    simpa [hopen.tokens_eq,hfop.tokens_eq,hclose.tokens_eq] using hsl.binary hsr ht
  | not inner ih =>
    obtain ⟨is,hi,rfl⟩ := exprChunks_not.mp h
    obtain ⟨inners,hinner,hs⟩ := ih hi hplain
    obtain ⟨fnot,hnot⟩ : ∃ ls, Delimits "NOT (" [.word "NOT",.symbol "("] ls :=
      exists_delimits (by decide)
    refine ⟨_,(hinner.join hclose (by decide) .nil).fixed_cons hnot,?_⟩
    simpa [hnot.tokens_eq,hclose.tokens_eq] using hs.not
  | other node => cases h

theorem subset_joinChunks {css : List (List Chunk)} {cs : List Chunk} (h : cs ∈ css) :
    cs ⊆ joinChunks css := by
  fun_induction joinChunks css with
  | case1 => cases h
  | case2 ds => simp_all
  | case3 ds css hne ih =>
    rcases List.mem_cons.mp h with rfl | h
    · exact List.subset_append_left _ _
    · exact fun c hc => List.mem_append_right _ (List.mem_cons_of_mem _ (ih h hc))

def joinTokens : List (List Token) → List Token
  | [] => []
  | [ts] => ts
  | ts :: tss => ts ++ .word "AND" :: joinTokens tss

def whereTokens : List (List Token) → List Token
  | [] => []
  | ts :: tss => .word "WHERE" :: joinTokens (ts :: tss)

theorem conjunction_joinTokens {ts : List Token} {tss : List (List Token)}
    (h : ∀ us ∈ ts :: tss, Condition us) : Conjunction (joinTokens (ts :: tss)) := by
  induction tss generalizing ts with
  | nil => exact .single (h ts (by simp))
  | cons us tss ih => exact .cons (h ts (by simp)) (ih fun vs hvs => h vs (by simp [hvs]))

/-- The filters that have SQL text; the others are left out of the clause. -/
def rendered (filters : List Expr) : List Expr := filters.filter fun e => (exprToSql e).isSome

theorem mem_rendered {filters : List Expr} {e : Expr} :
    e ∈ rendered filters ↔ e ∈ filters ∧ (exprToSql e).isSome := by
  simp [rendered]

theorem whereTokens_cases {es : List Expr} {tss : List (List Token)}
    (h : List.Forall₂ Spells es tss) :
    whereTokens tss = [] ∨ ∃ us, whereTokens tss = .word "WHERE" :: us ∧ Conjunction us := by
  have hconditions : ∀ ts ∈ tss, Condition ts := fun ts hts => by
    obtain ⟨e,-,hs⟩ := Table.exists_of_forall₂ h hts
    exact hs.condition
  cases tss with
  | nil => exact .inl rfl
  | cons ts tss => exact .inr ⟨_,rfl,conjunction_joinTokens hconditions⟩

theorem exists_pieces {filters : List Expr} (h : ∀ e ∈ rendered filters, Plain e) :
    ∃ lss, List.Forall₂ Piece (filters.filterMap exprChunks) lss ∧
      List.Forall₂ Spells (rendered filters) (lss.map tokens) := by
  induction filters with
  | nil => exact ⟨[],.nil,.nil⟩
  | cons e es ih =>
    cases hcs : exprChunks e with
    | none =>
      have hskip : rendered (e :: es) = rendered es := by
        simp [rendered,isSome_exprToSql,hcs]
      rw [hskip] at h ⊢
      rw [List.filterMap_cons_none hcs]
      exact ih h
    | some cs =>
      have hkeep : rendered (e :: es) = e :: rendered es := by
        simp [rendered,isSome_exprToSql,hcs]
      rw [hkeep] at h ⊢
      rw [List.filterMap_cons_some hcs]
      obtain ⟨ls,hpiece,hs⟩ := exists_piece_expr hcs (h e (by simp))
      obtain ⟨lss,hpieces,hspelled⟩ := ih fun f hf => h f (by simp [hf])
      exact ⟨ls :: lss,.cons hpiece hpieces,.cons hs hspelled⟩

theorem exists_piece_join {css : List (List Chunk)} {lss : List (List Lexeme)}
    (h : List.Forall₂ Piece css lss) :
    ∃ ls, Piece (joinChunks css) ls ∧ tokens ls = joinTokens (lss.map tokens) := by
  obtain ⟨fand,hand⟩ : ∃ ls, Delimits " AND " [.word "AND"] ls := exists_delimits (by decide)
  induction h with
  | nil => exact ⟨[],.nil,rfl⟩
  | @cons cs ls css lss hpiece hrest ih =>
    cases hrest with
    | nil => exact ⟨ls,hpiece,rfl⟩
    | cons hnext hrest =>
      obtain ⟨ms,hjoined,htokens⟩ := ih
      exact ⟨_,hpiece.join hand (by decide) hjoined,by simp [hand.tokens_eq,htokens,joinTokens]⟩

/-- The clause consists of the filters that have SQL text, each one whole. -/
theorem exists_piece_where {filters : List Expr} (h : ∀ e ∈ rendered filters, Plain e) :
    ∃ ls tss, Piece (whereChunks filters) ls ∧ (∀ c ∈ (text ls).head?, c = ' ') ∧
      tokens ls = whereTokens tss ∧ List.Forall₂ Spells (rendered filters) tss := by
  obtain ⟨lss,hpieces,hspelled⟩ := exists_pieces h
  obtain ⟨ls,hjoined,htokens⟩ := exists_piece_join hpieces
  unfold whereChunks
  generalize filters.filterMap exprChunks = css at hpieces hjoined ⊢
  cases hpieces with
  | nil => exact ⟨[],[],.nil,by simp,rfl,hspelled⟩
  | cons hpiece hrest =>
    obtain ⟨fwhere,hwhere⟩ : ∃ ls, Delimits " WHERE " [.word "WHERE"] ls :=
      exists_delimits (by decide)
    refine ⟨_,_,hjoined.fixed_cons hwhere,by simp [hwhere.lexes.2,eq_comm],?_,hspelled⟩
    simp [hwhere.tokens_eq,htokens,whereTokens]

theorem exists_piece_limit (limit : Option ℕ) :
    ∃ ls, Piece (limitChunks limit) ls ∧ (∀ c ∈ (text ls).head?, c = ' ') ∧
      (tokens ls = [] ∨ ∃ n, tokens ls = [.word "LIMIT",.number n] ∧
        isNumber n.toList = true) := by
  cases limit with
  | none => exact ⟨[],.nil,by simp,.inl rfl⟩
  | some lim =>
    obtain ⟨flimit,hlimit⟩ : ∃ ls, Delimits " LIMIT " [.word "LIMIT"] ls :=
      exists_delimits (by decide)
    obtain ⟨ls,hpiece,htokens,hnum⟩ := exists_piece_count lim
    refine ⟨_,hpiece.fixed_cons hlimit,by simp [hlimit.lexes.2,eq_comm],.inr ⟨_,?_,hnum⟩⟩
    simp [hlimit.tokens_eq,htokens]

/-! ### When a scan is confined -/

theorem Confined.plain {n : RemoteTableScanExec} (h : Confined n) :
    '"' ∉ n.dataset.name.toList ∧ ∀ e ∈ n.pushedFilters, (exprToSql e).isSome → Plain e := by
  obtain ⟨ls,hlexes,haligned,-⟩ := h
  have hplain := haligned.plain hlexes.1
  refine ⟨hplain (.ident n.dataset.name) (by simp [chunks]),fun e he hsome => ?_⟩
  rw [isSome_exprToSql] at hsome
  obtain ⟨cs,hcs⟩ := Option.isSome_iff_exists.mp hsome
  refine (plain_expr_iff hcs).mp fun c hc => hplain c ?_
  have hmem : cs ∈ n.pushedFilters.filterMap exprChunks := List.mem_filterMap.mpr ⟨e,he,hcs⟩
  have hwhere : c ∈ whereChunks n.pushedFilters := by
    unfold whereChunks
    cases hcss : n.pushedFilters.filterMap exprChunks with
    | nil => simp [hcss] at hmem
    | cons ds css => exact List.mem_cons_of_mem _ (subset_joinChunks (hcss ▸ hmem) hc)
  simp [chunks,hwhere]

/-- The SQL of a scan stays within its table exactly when no name holds a quote and every
literal prints as one literal. -/
theorem confined_iff (n : RemoteTableScanExec) :
    Confined n ↔
      '"' ∉ n.dataset.name.toList ∧ ∀ e ∈ n.pushedFilters, (exprToSql e).isSome → Plain e := by
  refine ⟨Confined.plain,fun ⟨hname,hfilters⟩ => ?_⟩
  obtain ⟨fselect,hselect⟩ :
      ∃ ls, Delimits "SELECT * FROM " [.word "SELECT",.symbol "*",.word "FROM"] ls :=
    exists_delimits (by decide)
  obtain ⟨names,hident,hnametokens⟩ := exists_piece_ident hname
  obtain ⟨wheres,tss,hwhere,hwstart,hwtokens,hspelled⟩ := exists_piece_where fun e he =>
    hfilters e (mem_rendered.mp he).1 (mem_rendered.mp he).2
  obtain ⟨limits,hlimit,hlstart,hltokens⟩ := exists_piece_limit n.limit
  have hpiece := ((hident.append_blank hwhere hwstart).append_blank hlimit hlstart).fixed_cons
    hselect
  rw [List.append_assoc] at hpiece
  refine ⟨_,⟨hpiece.maximal,?_⟩,hpiece.aligned,tokens wheres,tokens limits,?_,
    hwtokens ▸ whereTokens_cases hspelled,hltokens⟩
  · rw [chunks_text]
    exact hpiece.aligned.text_eq
  · simp [hselect.tokens_eq,hnametokens]

/-- A string chosen by the author of a query: `… WHERE tier = '0) UNION …'`. -/
theorem union_not_confined :
    ¬ Confined ⟨sampleDataset "crm" "accounts" "elan-executor:50055",[],
      [.binaryExpr (.column "tier") .eq
        (.literal (.utf8 (some "0) UNION SELECT * FROM \"payroll\" --")))],none⟩ := by
  intro h
  have hplain := (h.plain.2 _ (List.mem_singleton_self _) rfl).2
  revert hplain
  change ¬ IsLiteralText _
  decide

end Confinement
end Elan
