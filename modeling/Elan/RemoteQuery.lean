import Elan.Pushdown
import Elan.SelectStatements
import Elan.TableScan

/-! The statement that a scan sends, read back by the executor as a whole, and the rows that come
back: pushing filters and limits down gives what the whole table would have given. -/
namespace Elan

open Sql Lexer Confinement Pushdown

/-! ### The statement -/

/-- No operator comes next. -/
def Ends (ts : List Token) : Prop := ts.head?.bind binaryOp = none

theorem Ends.stops {ts : List Token} (h : Ends ts) (p : ℕ) : Stops p ts := by
  simp [Stops,show ts.head?.bind binaryOp = none from h]

/-- The conjuncts are read one after the other, up to where the condition ends. -/
theorem parseInfix_conjuncts_append {tss : List (List Token)} {ss : List Expression}
    (h : List.Forall₂ (fun ts s => ∃ e, ReadsAs e ts s) tss ss) {rest : List Token}
    (hrest : Ends rest) (acc : Expression) {n : ℕ}
    (hn : 3*(tss.flatMap (.word "AND" :: ·)).length + 1 ≤ n) :
    parseInfix n 0 acc (tss.flatMap (.word "AND" :: ·) ++ rest) = some (conjoin acc ss,rest) := by
  have hand : binaryOp (.word "AND") = some .and := by decide
  induction h generalizing acc n with
  | nil =>
    obtain ⟨m,rfl⟩ : ∃ m, n = m+1 := ⟨n-1,by omega⟩
    exact parseInfix_of_stops (hrest.stops 0) m acc
  | @cons ts s tss ss hs _ ih =>
    obtain ⟨m,rfl⟩ : ∃ m, n = m+1 := ⟨n-1,by omega⟩
    obtain ⟨e,hreads⟩ := hs
    simp only [List.flatMap_cons,List.cons_append,List.append_assoc,List.length_cons,
      List.length_append] at hn ⊢
    have hnext {p : ℕ} (hp : 2 ≤ p) : Stops p (tss.flatMap (.word "AND" :: ·) ++ rest) := by
      cases tss with
      | nil => exact hrest.stops p
      | cons us tss => exact stops_cons hand hp _
    have hright : parseExpr m BinaryOp.and.precedence
        (ts ++ (tss.flatMap (.word "AND" :: ·) ++ rest)) =
          some (s,tss.flatMap (.word "AND" :: ·) ++ rest) :=
      hreads.operand (by omega) (hnext le_rfl) (hnext (by decide))
    rw [parseInfix_operator hand (by decide) hright,ih (.binary acc .and s) (by omega)]
    rfl

theorem parseExpr_joinTokens {ts : List Token} {tss : List (List Token)} {s : Expression}
    {ss : List Expression}
    (h : List.Forall₂ (fun ts s => ∃ e, ReadsAs e ts s) (ts :: tss) (s :: ss))
    {rest : List Token} (hrest : Ends rest) {n : ℕ}
    (hn : 3*(joinTokens (ts :: tss)).length + 2 ≤ n) :
    parseExpr n 0 (joinTokens (ts :: tss) ++ rest) = some (conjoin s ss,rest) := by
  obtain ⟨⟨e,hs⟩,hss⟩ := List.forall₂_cons.mp h
  have hand : binaryOp (.word "AND") = some .and := by decide
  rw [joinTokens_cons,List.length_append] at hn
  rw [joinTokens_cons,List.append_assoc]
  obtain ⟨m,rfl⟩ : ∃ m, n = m+1 := ⟨n-1,by omega⟩
  have hstops : Stops notPrecedence (tss.flatMap (.word "AND" :: ·) ++ rest) := by
    cases tss with
    | nil => exact hrest.stops _
    | cons us tss => exact stops_cons hand (by decide) _
  have hfirst := hs.reads m (tss.flatMap (.word "AND" :: ·) ++ rest) (by omega) fun _ => hstops
  rw [parseExpr_of_parsePrefix hfirst]
  exact parseInfix_conjuncts_append hss hrest s (by omega)

/-- A clause is read as the conjunction of its conditions, whatever ends it. -/
theorem parseClause_whereTokens {tss : List (List Token)} {ss : List Expression}
    (h : List.Forall₂ (fun ts s => ∃ e, ReadsAs e ts s) tss ss) {rest : List Token}
    (hrest : Ends rest) (hwhere : rest.head?.bind Token.spelling ≠ some "WHERE") :
    parseClause (whereTokens tss ++ rest) = some (conjunction ss,rest) := by
  cases h with
  | nil =>
    cases rest with
    | nil => rfl
    | cons t ts => exact if_neg hwhere
  | cons hs hss =>
    have hspelling : (Token.word "WHERE").spelling = some "WHERE" := by decide
    rw [whereTokens,List.cons_append,parseClause,if_pos hspelling,
      parseExpr_joinTokens (.cons hs hss) hrest (by simp; omega)]
    rfl

def limitTokens : Option ℕ → List Token
  | some lim => [.word "LIMIT",.number (toString lim)]
  | none => []

theorem parseLimit_limitTokens (limit : Option ℕ) :
    parseLimit (limitTokens limit) = some limit := by
  cases limit with
  | none => rfl
  | some lim => exact parseLimit_natural lim

theorem limitTokens_ends (limit : Option ℕ) : Ends (limitTokens limit) ∧
    (limitTokens limit).head?.bind Token.spelling ≠ some "WHERE" := by
  cases limit with
  | none => exact ⟨rfl,by simp [limitTokens]⟩
  | some lim =>
    have hop : binaryOp (.word "LIMIT") = none := by decide
    have hspelling : (Token.word "LIMIT").spelling ≠ some "WHERE" := by decide
    exact ⟨hop,hspelling⟩

theorem exists_limit (limit : Option ℕ) : ∃ ls, Piece (limitChunks limit) ls ∧
    (∀ c ∈ (text ls).head?, c = ' ') ∧ tokens ls = limitTokens limit := by
  cases limit with
  | none => exact ⟨[],.nil,by simp,rfl⟩
  | some lim =>
    obtain ⟨flimit,hlimit⟩ : ∃ ls, Delimits " LIMIT " [.word "LIMIT"] ls :=
      exists_delimits (by decide)
    obtain ⟨ls,hpiece,htokens,-⟩ := exists_piece_count lim
    refine ⟨_,hpiece.fixed_cons hlimit,by simp [hlimit.lexes.2,eq_comm],?_⟩
    simp [hlimit.tokens_eq,htokens,limitTokens]

theorem exists_literal {ts : List Token} (h : isLiteral ts = true) : ∃ e, literal ts = some e := by
  unfold isLiteral at h
  split at h
  · rename_i text
    exact ⟨.number text,by simp [literal,isLiteral,atom,h]⟩
  · rename_i sign text
    simp only [Bool.and_eq_true,Bool.or_eq_true,beq_iff_eq] at h
    obtain ⟨rfl | rfl,hnumber⟩ := h
    · exact ⟨.neg (.number text),by simp [literal,hnumber]⟩
    · exact ⟨.number text,by simp [literal,hnumber]⟩
  · rename_i s
    exact ⟨.text s,rfl⟩
  · rename_i text
    have hlit : isLiteral [.word text] = true := h
    rcases spelling_of_isLiteral hlit with hs | hs | hs <;> simp [literal,hlit,atom,hs]
  · cases h

theorem exists_reread {e : Expr} (h : Plain e) (hsome : (exprToSql e).isSome) :
    ∃ s, reread e = some s := by
  induction e with
  | column name => exact ⟨_,rfl⟩
  | literal scalar =>
    obtain ⟨ls,hls,hlit⟩ := (readsAsLiteral_iff scalar).mp h
    obtain ⟨s,hs⟩ := exists_literal hlit
    exact ⟨s,by rw [reread,readLiteral,lex_eq_some_iff.mpr hls,Option.bind_some,hs]⟩
  | binaryExpr left op right ihl ihr =>
    rw [isSome_exprToSql,Option.isSome_iff_exists] at hsome
    obtain ⟨cs,hcs⟩ := hsome
    obtain ⟨ls,rs,t,hls,hrs,hop,-⟩ := exprChunks_binary.mp hcs
    obtain ⟨l,hl⟩ := ihl h.1 (by rw [isSome_exprToSql,hls]; rfl)
    obtain ⟨r,hr⟩ := ihr h.2 (by rw [isSome_exprToSql,hrs]; rfl)
    obtain ⟨b,hb⟩ : ∃ b, operatorOp op = some b := by cases op <;> cases hop <;> exact ⟨_,rfl⟩
    exact ⟨_,reread_binary.mpr ⟨l,r,b,hl,hr,hb,rfl⟩⟩
  | not inner ih =>
    rw [isSome_exprToSql,Option.isSome_iff_exists] at hsome
    obtain ⟨cs,hcs⟩ := hsome
    obtain ⟨is,his,-⟩ := exprChunks_not.mp hcs
    obtain ⟨s,hs⟩ := ih h (by rw [isSome_exprToSql,his]; rfl)
    exact ⟨.not s,by rw [reread,hs]; rfl⟩
  | other node => cases hsome

theorem isSome_of_reread {e : Expr} {s : Expression} (h : reread e = some s) :
    (exprToSql e).isSome := by
  induction e generalizing s with
  | column name | literal scalar => rfl
  | binaryExpr left op right ihl ihr =>
    obtain ⟨l,r,b,hl,hr,hop,-⟩ := reread_binary.mp h
    obtain ⟨ls,hls⟩ := Option.isSome_iff_exists.mp (ihl hl)
    obtain ⟨rs,hrs⟩ := Option.isSome_iff_exists.mp (ihr hr)
    cases op <;> cases hop <;> simp [exprToSql,hls,hrs,Operator.sql]
  | not inner ih =>
    obtain ⟨t,ht,rfl⟩ := Option.map_eq_some_iff.mp h
    obtain ⟨is,his⟩ := Option.isSome_iff_exists.mp (ih ht)
    simp [exprToSql,his]
  | other node => cases h

theorem forall_reread {filters : List Expr} (h : ∀ e ∈ rendered filters, Plain e) :
    List.Forall₂ (fun e s => reread e = some s) (rendered filters) (filters.filterMap reread) := by
  induction filters with
  | nil => exact .nil
  | cons e es ih =>
    by_cases hsome : (exprToSql e).isSome
    · have hkeep : rendered (e :: es) = e :: rendered es := List.filter_cons_of_pos hsome
      rw [hkeep] at h ⊢
      obtain ⟨s,hs⟩ := exists_reread (h e (by simp)) hsome
      rw [List.filterMap_cons_some hs]
      exact .cons hs (ih fun f hf => h f (by simp [hf]))
    · have hskip : rendered (e :: es) = rendered es := List.filter_cons_of_neg hsome
      have hnone : reread e = none :=
        Option.eq_none_iff_forall_not_mem.mpr fun s hs => hsome (isSome_of_reread hs)
      rw [hskip] at h ⊢
      rw [List.filterMap_cons_none hnone]
      exact ih h

/-- The statement that a scan stands for: its table, the conjunction of the filters that have SQL
text, and its limit. -/
def RemoteTableScanExec.statement (n : RemoteTableScanExec) : Select :=
  ⟨n.dataset.name,conjunction (n.pushedFilters.filterMap reread),n.limit⟩

theorem readSelect_buildSql {n : RemoteTableScanExec} (hname : '"' ∉ n.dataset.name.toList)
    (hplain : ∀ e ∈ n.pushedFilters, (exprToSql e).isSome → Plain e) :
    readSelect n.buildSql = some n.statement := by
  have hrendered : ∀ e ∈ rendered n.pushedFilters, Plain e := fun e he =>
    hplain e (mem_rendered.mp he).1 (mem_rendered.mp he).2
  obtain ⟨fselect,hselect⟩ :
      ∃ ls, Delimits "SELECT * FROM " [.word "SELECT",.symbol "*",.word "FROM"] ls :=
    exists_delimits (by decide)
  obtain ⟨names,hident,hnametokens⟩ := exists_piece_ident hname
  obtain ⟨wheres,tss,hwhere,hwstart,hwtokens,hspelled⟩ := exists_piece_where hrendered
  obtain ⟨limits,hlimit,hlstart,hltokens⟩ := exists_limit n.limit
  have hpiece := ((hident.append_blank hwhere hwstart).append_blank hlimit hlstart).fixed_cons
    hselect
  have hlex := lex_eq_some_iff.mpr ⟨hpiece.maximal,hpiece.aligned.text_eq⟩
  have htext : n.buildSql.toList = chunkText (.fixed "SELECT * FROM " ::
      ([.ident n.dataset.name] ++ whereChunks n.pushedFilters ++ limitChunks n.limit)) := by
    rw [chunks_text,chunks,List.append_assoc]
    rfl
  have htokens : tokens (fselect ++ (names ++ wheres ++ limits)) =
      .word "SELECT" :: .symbol "*" :: .word "FROM" :: .ident n.dataset.name ::
        (whereTokens tss ++ limitTokens n.limit) := by
    simp [hselect.tokens_eq,hnametokens,hwtokens,hltokens]
  have hcomment : Token.comment ∉ tokens (fselect ++ (names ++ wheres ++ limits)) := by
    have hclause := comment_not_mem_whereTokens hspelled
    rw [htokens]
    cases n.limit <;> simp [limitTokens,hclause]
  have hfilter : (tokens (fselect ++ (names ++ wheres ++ limits))).filter (· ≠ .comment) =
      tokens (fselect ++ (names ++ wheres ++ limits)) :=
    List.filter_eq_self.mpr fun t ht => by
      have hne : t ≠ .comment := fun he => hcomment (he ▸ ht)
      simpa using hne
  obtain ⟨hends,hnowhere⟩ := limitTokens_ends n.limit
  have hconditions := readsAs_of_forall hspelled (forall_reread hrendered)
  rw [readSelect,htext,hlex,Option.bind_some,hfilter,htokens]
  exact parseSelect_eq (parseClause_whereTokens hconditions hends hnowhere)
    (parseLimit_limitTokens n.limit)

section
variable {V : Type}

/-- The cells of a row by the names of their columns. -/
def cellRow (schema : Schema) (cells : List (Option V)) : Row V :=
  fun name => (cells[schema.findIdx (·.name = name)]?).join

def IpcStream.rows {C : Type} (stream : IpcStream C) : List (List C) :=
  stream.batches.flatMap RecordBatch.rows

variable [FilterValues V]

/-- The rows on which all filters are true, as the planner filters them once more. -/
def refilter (schema : Schema) (filters : List Expr) (rows : List (List (Option V))) :
    List (List (Option V)) :=
  rows.filter fun cells => filters.all fun f => truth (f.eval (cellRow schema cells)) = some true

/-- What is known of the query engine of an executor: when it answers a statement over one of its
tables, it answers with batches of the schema of the table, and with its selected rows. -/
def Evaluates (tables : String → Option (RecordBatch (Option V)))
    (ctx : SessionContext (Option V)) : Prop :=
  ∀ sql s table batches, readSelect sql = some s → tables s.table = some table →
    ctx sql = .ok batches → (∀ b ∈ batches, b.schema = table.schema) ∧
      s.Answer (cellRow table.schema) table.rows (batches.flatMap RecordBatch.rows)

omit [FilterValues V] in
/-- A scan succeeds only with the batches that the engine answered with. -/
theorem exists_of_execute {rt : Runtime V} {n : RemoteTableScanExec} {url : String}
    {session : Except String (SessionContext V)}
    (hurl : executorUrl rt.overflowChecks n.dataset.executorEndpoint = .ok url)
    (hserver : ∀ sql response, rt.post url sql = .ok response → response = handleSql session sql)
    {out : IpcStream V} (hout : n.execute rt = .ok out) :
    ∃ ctx, session = .ok ctx ∧ ctx n.buildSql = .ok out.batches := by
  have hreq : n.request rt.overflowChecks = .ok (url,n.buildSql) := by
    simp [RemoteTableScanExec.request,hurl,bind,Except.bind]
  cases hpost : rt.post url n.buildSql with
  | error e => simp [RemoteTableScanExec.execute,hreq,bind,Except.bind,hpost] at hout
  | ok response =>
    obtain rfl := hserver _ _ hpost
    cases session with
    | error e =>
      simp [RemoteTableScanExec.execute,hreq,bind,Except.bind,hpost,handleSql,
        StatusCode.isSuccess,StatusCode.internalServerError] at hout
    | ok ctx =>
      cases hctx : ctx n.buildSql with
      | error e =>
        simp [RemoteTableScanExec.execute,hreq,bind,Except.bind,hpost,handleSql,hctx,
          StatusCode.isSuccess,StatusCode.badRequest] at hout
      | ok batches =>
        rw [execute_eq_ok ⟨url,ctx,hurl,hpost,hctx⟩] at hout
        cases hout
        exact ⟨ctx,rfl,hctx⟩

theorem all_conjunction {ss : List Expression} {row : Row V} :
    (∀ e ∈ conjunction ss, truth (e.eval row) = some true) ↔
      ∀ s ∈ ss, truth (s.eval row) = some true := by
  cases ss with
  | nil => simp [conjunction]
  | cons s ss => simpa [conjunction] using truth_conjoin

/-- Rows on which all filters are true meet the condition that the filters are read as. -/
theorem refilter_selected {schema : Schema} {n : RemoteTableScanExec}
    (hfaithful : ∀ f ∈ n.pushedFilters, (exprToSql f).isSome → Faithful V f)
    (rows : List (List (Option V))) :
    refilter schema n.pushedFilters (n.statement.selected (cellRow schema) rows) =
      refilter schema n.pushedFilters rows := by
  unfold refilter Select.selected
  rw [List.filter_filter]
  apply List.filter_congr
  intro cells _
  simp only [Bool.and_eq_left_iff_imp,List.all_eq_true,decide_eq_true_eq,Option.all_eq_true]
  intro hall
  apply all_conjunction.mpr
  intro s hs
  obtain ⟨f,hf,hread⟩ := List.mem_filterMap.mp hs
  have hknown := knownIn_reread (hfaithful f hf (isSome_of_reread hread)) hread
    (cellRow schema cells)
  exact knownIn_truth hknown true (hall f hf)

/-- Pushing filters and limits down to an executor agrees with reading the whole table. Whenever the
scan of a table succeeds, its batches have the columns of the table and its rows are rows of the
table, none of them twice; filtered once more, they are exactly the rows of the table on which the
filters are true; and without filters a limit leaves as many as there are, up to the limit. -/
theorem pushed_down_agrees {rt : Runtime (Option V)} {n : RemoteTableScanExec} {url : String}
    {session : Except String (SessionContext (Option V))}
    {tables : String → Option (RecordBatch (Option V))} {table : RecordBatch (Option V)}
    (hurl : executorUrl rt.overflowChecks n.dataset.executorEndpoint = .ok url)
    (hserver : ∀ sql response, rt.post url sql = .ok response → response = handleSql session sql)
    (hengine : ∀ ctx, session = .ok ctx → Evaluates tables ctx)
    (htable : tables n.dataset.name = some table) (hname : '"' ∉ n.dataset.name.toList)
    (hfaithful : ∀ f ∈ n.pushedFilters, (exprToSql f).isSome → Faithful V f)
    {out : IpcStream (Option V)} (hout : n.execute rt = .ok out) :
    (∀ b ∈ out.batches, b.schema = table.schema) ∧ out.rows.Subperm table.rows ∧
    (n.limit = none → (refilter table.schema n.pushedFilters out.rows).Perm
      (refilter table.schema n.pushedFilters table.rows)) ∧
    ∀ lim, n.limit = some lim → n.pushedFilters = [] →
      out.rows.length = min lim table.rows.length := by
  obtain ⟨ctx,hctx,hanswer⟩ := exists_of_execute hurl hserver hout
  have hread := readSelect_buildSql hname fun f hf hsome => (hfaithful f hf hsome).plain
  obtain ⟨hschema,hrows⟩ := hengine ctx hctx _ _ _ _ hread htable hanswer
  refine ⟨hschema,hrows.subperm,?_,?_⟩
  · intro hlimit
    rw [← refilter_selected hfaithful table.rows]
    exact (hrows.perm hlimit).filter _
  · intro lim hlimit hfilters
    have hall : n.statement.selected (cellRow table.schema) table.rows = table.rows := by
      rw [RemoteTableScanExec.statement,hfilters]
      exact List.filter_eq_self.mpr fun _ _ => rfl
    rw [← hall]
    exact hrows.length hlimit

/-- An engine that reads its tables from top to bottom. -/
def orderedEngine (tables : String → Option (RecordBatch (Option V))) :
    SessionContext (Option V) := fun sql =>
  match readSelect sql with
  | none => .error "syntax error"
  | some s =>
    match tables s.table with
    | none => .error ("table '" ++ s.table ++ "' not found")
    | some table =>
      let rows := s.selected (cellRow table.schema) table.rows
      .ok [⟨table.schema,s.limit.elim rows rows.take,fun row hrow => table.width row (by
        cases hlimit : s.limit with
        | none =>
          rw [hlimit] at hrow
          exact List.mem_of_mem_filter hrow
        | some n =>
          rw [hlimit] at hrow
          exact List.mem_of_mem_filter (List.mem_of_mem_take hrow))⟩]

theorem orderedEngine_evaluates (tables : String → Option (RecordBatch (Option V))) :
    Evaluates tables (orderedEngine tables) := by
  intro sql s table batches hread htable hbatches
  simp only [orderedEngine,hread,htable,Except.ok.injEq] at hbatches
  subst hbatches
  refine ⟨by simp,s.selected (cellRow table.schema) table.rows,.rfl,by simp⟩

end

/-- Three customers with their orders, one of them unknown. -/
def orderCounts : RecordBatch (Option SampleValue) :=
  ⟨[⟨"customer_id",.utf8,true⟩,⟨"orders",.int64,true⟩],
    [[some (.text "cust-001"),some (.int 5)],[some (.text "cust-002"),none],
      [some (.text "cust-003"),some (.int 2)]],by decide⟩

def manyOrders : RemoteTableScanExec :=
  scanWhere [.binaryExpr (.column "orders") .gtEq (.literal (.int (some 3)))]

def orderCountsRuntime : Runtime (Option SampleValue) :=
  ⟨true,fun _ sql => .ok (handleSql (.ok (orderedEngine fun _ => some orderCounts)) sql)⟩

theorem pushed_down_agrees_sample : ∃ out, manyOrders.execute orderCountsRuntime = .ok out ∧
    (refilter orderCounts.schema manyOrders.pushedFilters out.rows).Perm
      [[some (SampleValue.text "cust-001"),some (.int 5)]] := by
  have horders : '"' ∉ "orders".toList := by decide
  have hfaithful : ∀ f ∈ manyOrders.pushedFilters, (exprToSql f).isSome →
      Faithful SampleValue f := by
    intro f hf _
    cases List.mem_singleton.mp hf
    exact ⟨horders,readsBack_int _,fun _ => rfl⟩
  have hurl : executorUrl orderCountsRuntime.overflowChecks manyOrders.dataset.executorEndpoint =
      .ok "http://elan-executor:50056/sql" := by decide
  have hname : '"' ∉ manyOrders.dataset.name.toList := by decide
  have hserver : ∀ sql response,
      orderCountsRuntime.post "http://elan-executor:50056/sql" sql = .ok response →
      response = handleSql (.ok (orderedEngine fun _ => some orderCounts)) sql :=
    fun _ _ h => (Except.ok.inj h).symm
  have hengine : ∀ ctx : SessionContext (Option SampleValue),
      (Except.ok (orderedEngine fun _ => some orderCounts) : Except String _) = .ok ctx →
      Evaluates (fun _ => some orderCounts) ctx := by
    rintro _ ⟨⟩
    exact orderedEngine_evaluates _
  have hread := readSelect_buildSql hname fun f hf hsome => (hfaithful f hf hsome).plain
  obtain ⟨batches,hbatches⟩ : ∃ batches,
      orderedEngine (fun _ => some orderCounts) manyOrders.buildSql = .ok batches :=
    ⟨_,by rw [orderedEngine,hread]⟩
  have hanswers : Answers orderCountsRuntime manyOrders batches := ⟨_,_,hurl,rfl,hbatches⟩
  have hout := execute_eq_ok hanswers
  exact ⟨_,hout,(pushed_down_agrees hurl hserver hengine rfl hname hfaithful hout).2.2.1 rfl⟩

end Elan
