import Elan.RemoteScan

/-! From a table provider to the rows its parent reads: the scan declares a projected
schema and then returns what the executor answered to `SELECT *`. -/
namespace Elan

/-- A table of the catalog, backed by a remote executor. -/
structure ElanTableProvider where
  dataset : DatasetInfo
  schema : Schema

namespace ElanTableProvider

def scan (t : ElanTableProvider) (projection : Option (List ℕ)) (filters : List Expr)
    (limit : Option ℕ) : Except String RemoteTableScanExec := do
  let projectedSchema ←
    match projection with
    | some proj => t.schema.project proj
    | none => .ok t.schema
  .ok ⟨t.dataset,projectedSchema,filters,limit⟩

/-- How far the provider promises to apply a pushed filter itself. -/
inductive FilterPushDown
  | unsupported | inexact | exact
  deriving DecidableEq

def supportsFiltersPushdown (filters : List Expr) : List FilterPushDown :=
  filters.map fun _ => .inexact

end ElanTableProvider

variable {V : Type}

/-- The cells of a row, at the requested columns in the requested order. -/
def projectRow (projection : Option (List ℕ)) (row : List V) : List V :=
  match projection with
  | some proj => proj.filterMap (row[·]?)
  | none => row

/-- A projection the planner may ask for: every index names a column. -/
def ValidProjection (schema : Schema) (projection : Option (List ℕ)) : Prop :=
  ∀ proj, projection = some proj → ∀ i ∈ proj, i < schema.length

def declaredSchema (schema : Schema) (projection : Option (List ℕ)) : Schema :=
  projectRow projection schema

theorem scan_eq_ok {t : ElanTableProvider} {projection : Option (List ℕ)}
    (h : ValidProjection t.schema projection) (filters : List Expr) (limit : Option ℕ) :
    t.scan projection filters limit =
      .ok ⟨t.dataset,declaredSchema t.schema projection,filters,limit⟩ := by
  cases projection with
  | none => rfl
  | some proj =>
    simp only [ElanTableProvider.scan,Schema.project_eq_ok (h proj rfl)]
    rfl

/-- The executor at the endpoint of `n` is up and answers its SQL with `answer`. -/
def Answers (rt : Runtime V) (n : RemoteTableScanExec) (answer : List (RecordBatch V)) : Prop :=
  ∃ url ctx, executorUrl rt.overflowChecks n.dataset.executorEndpoint = .ok url ∧
    rt.post url n.buildSql = .ok (handleSql (.ok ctx) n.buildSql) ∧
    ctx n.buildSql = .ok answer

/-- The batches of the answer reach the parent of the scan as they are. -/
theorem execute_eq_ok {rt : Runtime V} {n : RemoteTableScanExec} {answer : List (RecordBatch V)}
    (h : Answers rt n answer) :
    n.execute rt = .ok ⟨(answer.head?.map RecordBatch.schema).getD n.schema,answer⟩ := by
  obtain ⟨url,ctx,hurl,hpost,hctx⟩ := h
  have hreq : n.request rt.overflowChecks = .ok (url,n.buildSql) := by
    simp [RemoteTableScanExec.request,hurl,bind,Except.bind]
  simp only [RemoteTableScanExec.execute,hreq,bind,Except.bind,hpost,handleSql,hctx]
  cases answer <;> simp

/-- A scan is faithful when its batches have the declared schema and its rows are the
executor's rows at the requested columns, so that a column index of the declared schema
reads the column of that name. -/
structure ScanFaithful (projection : Option (List ℕ)) (n : RemoteTableScanExec)
    (answer : List (RecordBatch V)) (out : IpcStream V) : Prop where
  schema_eq : ∀ b ∈ out.batches, b.schema = n.schema
  rows_eq : out.batches.flatMap RecordBatch.rows =
    (answer.flatMap RecordBatch.rows).map (projectRow projection)
  named : ∀ b ∈ out.batches, ∀ (i : ℕ) (f : Field), n.schema[i]? = some f →
    (b.schema[i]?).map Field.name = some f.name

/-- The requested columns are the stored ones: as many, and each requested column has the
field and the cells of the stored column at its place. -/
def ColumnsUnmoved (schema : Schema) (answer : List (RecordBatch V)) :
    Option (List ℕ) → Prop
  | none => True
  | some proj => proj.length = schema.length ∧ ∀ i j : ℕ, proj[i]? = some j →
      schema[j]? = schema[i]? ∧ ∀ b ∈ answer, ∀ row ∈ b.rows, row[j]? = row[i]?

theorem filterMap_getElem?_of_valid {α : Type} {xs : List α} {proj : List ℕ}
    (h : ∀ i ∈ proj, i < xs.length) (i : ℕ) :
    (proj.filterMap (xs[·]?))[i]? = (proj[i]?).bind (xs[·]?) := by
  induction proj generalizing i with
  | nil => simp
  | cons j js ih =>
    have hj : j < xs.length := h j (by simp)
    have htail := ih fun k hk => h k (by simp [hk])
    rw [List.filterMap_cons_some (List.getElem?_eq_getElem hj)]
    cases i with
    | zero => simp [List.getElem?_eq_getElem hj]
    | succ i => simpa using htail i

theorem filterMap_length_of_valid {α : Type} {xs : List α} {proj : List ℕ}
    (h : ∀ i ∈ proj, i < xs.length) : (proj.filterMap (xs[·]?)).length = proj.length := by
  induction proj with
  | nil => rfl
  | cons j js ih =>
    rw [List.filterMap_cons_some (List.getElem?_eq_getElem (h j (by simp)))]
    simp [ih fun k hk => h k (by simp [hk])]

/-- Projecting leaves a list alone exactly when every index finds what stood there. -/
theorem projectRow_eq_self_iff {α : Type} {xs : List α} {proj : List ℕ}
    (h : ∀ i ∈ proj, i < xs.length) :
    projectRow (some proj) xs = xs ↔
      proj.length = xs.length ∧ ∀ i j : ℕ, proj[i]? = some j → xs[j]? = xs[i]? := by
  constructor
  · intro heq
    refine ⟨(filterMap_length_of_valid h).symm.trans (congrArg List.length heq),?_⟩
    intro i j hij
    have hi := filterMap_getElem?_of_valid h i
    rw [hij] at hi
    simpa [heq] using hi.symm.trans (congrArg (·[i]?) heq)
  · rintro ⟨hlen,hsame⟩
    apply List.ext_getElem?
    intro i
    rw [projectRow,filterMap_getElem?_of_valid h i]
    cases hp : proj[i]? with
    | some j => simpa [hp] using hsame i j hp
    | none =>
      have hi : proj.length ≤ i := List.getElem?_eq_none_iff.mp hp
      simp [List.getElem?_eq_none (hlen ▸ hi)]

theorem eq_of_map_eq_self {α : Type} {f : α → α} {xs : List α} (h : xs.map f = xs) :
    ∀ x ∈ xs, f x = x := by
  intro x hx
  obtain ⟨i,hi,rfl⟩ := List.mem_iff_getElem.mp hx
  simpa [List.getElem?_eq_getElem hi] using congrArg (·[i]?) h

/-- The rows of the answer and its schema are their own projections. -/
theorem columnsUnmoved_iff {schema : Schema} {projection : Option (List ℕ)}
    {answer : List (RecordBatch V)} (hproj : ValidProjection schema projection)
    (hschema : ∀ b ∈ answer, b.schema = schema) :
    ColumnsUnmoved schema answer projection ↔
      declaredSchema schema projection = schema ∧
        ∀ b ∈ answer, ∀ row ∈ b.rows, projectRow projection row = row := by
  cases projection with
  | none => simp [ColumnsUnmoved,declaredSchema,projectRow]
  | some proj =>
    have hvalid := hproj proj rfl
    -- a row is as wide as the schema, so the projection is valid on it as well
    have hwidth : ∀ b ∈ answer, ∀ row ∈ b.rows, row.length = schema.length :=
      fun b hb row hrow => (b.width row hrow).trans (congrArg List.length (hschema b hb))
    have hrow : ∀ b ∈ answer, ∀ row ∈ b.rows, ∀ i ∈ proj, i < row.length :=
      fun b hb row hr i hi => by rw [hwidth b hb row hr]; exact hvalid i hi
    constructor
    · rintro ⟨hlen,hsame⟩
      refine ⟨(projectRow_eq_self_iff hvalid).mpr ⟨hlen,fun i j hij => (hsame i j hij).1⟩,?_⟩
      intro b hb row hr
      exact (projectRow_eq_self_iff (hrow b hb row hr)).mpr
        ⟨hlen.trans (hwidth b hb row hr).symm,fun i j hij => (hsame i j hij).2 b hb row hr⟩
    · rintro ⟨hs,hrows⟩
      obtain ⟨hlen,hsame⟩ := (projectRow_eq_self_iff hvalid).mp hs
      refine ⟨hlen,fun i j hij => ⟨hsame i j hij,fun b hb row hr => ?_⟩⟩
      exact ((projectRow_eq_self_iff (hrow b hb row hr)).mp (hrows b hb row hr)).2 i j hij

/-- With distinct column names only the identity list leaves every column in place. -/
theorem declaredSchema_eq_self_iff {schema : Schema} {projection : Option (List ℕ)}
    (hproj : ValidProjection schema projection) (hnodup : (schema.map Field.name).Nodup) :
    declaredSchema schema projection = schema ↔
      projection = none ∨ projection = some (List.range schema.length) := by
  cases projection with
  | none => simp [declaredSchema,projectRow]
  | some proj =>
    rw [declaredSchema,projectRow_eq_self_iff (hproj proj rfl)]
    simp only [reduceCtorEq,Option.some.injEq,false_or]
    constructor
    · rintro ⟨hlen,hsame⟩
      apply List.ext_getElem (by simpa using hlen)
      intro i hi hi'
      have hj : proj[i] < schema.length := hproj proj rfl _ (List.getElem_mem hi)
      have hname := congrArg (Option.map Field.name)
        (hsame i proj[i] (List.getElem?_eq_getElem hi))
      rw [← List.getElem?_map,← List.getElem?_map] at hname
      simpa using (List.getElem?_inj (by simpa using hj) hnodup).mp hname
    · rintro rfl
      refine ⟨by simp,fun i j hij => ?_⟩
      obtain ⟨hi,rfl⟩ := List.getElem?_eq_some_iff.mp hij
      simp

theorem scanFaithful_iff_unmoved {rt : Runtime V} {schema : Schema}
    {projection : Option (List ℕ)} {n : RemoteTableScanExec} {answer : List (RecordBatch V)}
    (hproj : ValidProjection schema projection) (hn : n.schema = declaredSchema schema projection)
    (hans : Answers rt n answer) (hne : answer ≠ []) (hschema : ∀ b ∈ answer, b.schema = schema) :
    (∃ out, n.execute rt = .ok out ∧ ScanFaithful projection n answer out) ↔
      ColumnsUnmoved schema answer projection := by
  simp only [execute_eq_ok hans,Except.ok.injEq,exists_eq_left']
  rw [columnsUnmoved_iff hproj hschema]
  constructor
  · rintro ⟨hs,hr,-⟩
    obtain ⟨b,hb⟩ := List.exists_mem_of_ne_nil answer hne
    refine ⟨hn.symm.trans ((hs b hb).symm.trans (hschema b hb)),fun b hb row hrow => ?_⟩
    exact eq_of_map_eq_self hr.symm row (List.mem_flatMap.mpr ⟨b,hb,hrow⟩)
  · rintro ⟨hs,hr⟩
    have hs' : ∀ b ∈ answer, b.schema = n.schema :=
      fun b hb => (hschema b hb).trans (hs.symm.trans hn.symm)
    refine ⟨hs',?_,fun b hb i f hf => by rw [hs' b hb,hf]; rfl⟩
    have hid : ∀ row ∈ answer.flatMap RecordBatch.rows, projectRow projection row = id row := by
      intro row hrow
      obtain ⟨b,hb,hrow⟩ := List.mem_flatMap.mp hrow
      exact hr b hb row hrow
    rw [List.map_congr_left hid,List.map_id]

/-- With distinct column names the rows follow the schema. -/
theorem columnsUnmoved_iff_identity {schema : Schema} {projection : Option (List ℕ)}
    {answer : List (RecordBatch V)} (hproj : ValidProjection schema projection)
    (hschema : ∀ b ∈ answer, b.schema = schema) (hnodup : (schema.map Field.name).Nodup) :
    ColumnsUnmoved schema answer projection ↔
      projection = none ∨ projection = some (List.range schema.length) := by
  rw [columnsUnmoved_iff hproj hschema,← declaredSchema_eq_self_iff hproj hnodup]
  refine ⟨And.left,fun hs => ⟨hs,fun b hb row hrow => ?_⟩⟩
  rcases (declaredSchema_eq_self_iff hproj hnodup).mp hs with rfl | rfl
  · rfl
  · have hw : row.length = schema.length :=
      (b.width row hrow).trans (congrArg List.length (hschema b hb))
    rw [← hw]
    refine (projectRow_eq_self_iff (by simp)).mpr ⟨by simp,fun i j hij => ?_⟩
    obtain ⟨hi,rfl⟩ := List.getElem?_eq_some_iff.mp hij
    simp

/-- A scan is faithful exactly when the requested columns are the stored ones; with
distinct column names that is no projection, or the one that lists every column in order. -/
theorem scan_faithful_iff {rt : Runtime V} {t : ElanTableProvider}
    {projection : Option (List ℕ)} {filters : List Expr} {limit : Option ℕ}
    {n : RemoteTableScanExec} {answer : List (RecordBatch V)}
    (hproj : ValidProjection t.schema projection)
    (hscan : t.scan projection filters limit = .ok n) (hans : Answers rt n answer)
    (hne : answer ≠ []) (hschema : ∀ b ∈ answer, b.schema = t.schema) :
    ((∃ out, n.execute rt = .ok out ∧ ScanFaithful projection n answer out) ↔
      ColumnsUnmoved t.schema answer projection) ∧
    ((t.schema.map Field.name).Nodup →
      ((∃ out, n.execute rt = .ok out ∧ ScanFaithful projection n answer out) ↔
        projection = none ∨ projection = some (List.range t.schema.length))) := by
  have hn : n.schema = declaredSchema t.schema projection := by
    rw [scan_eq_ok hproj] at hscan
    obtain rfl := Except.ok.inj hscan
    rfl
  have hiff := scanFaithful_iff_unmoved hproj hn hans hne hschema
  exact ⟨hiff,fun hnodup => hiff.trans (columnsUnmoved_iff_identity hproj hschema hnodup)⟩

/-! A table of three columns on an executor that answers every query with its rows. -/

def sampleDataset (ns name endpoint : String) : DatasetInfo :=
  ⟨Uuid.ofByte 7,name,ns,.csv,"coordinator-01",endpoint,[],.null⟩

def customers : ElanTableProvider :=
  ⟨sampleDataset "crm" "customers" "elan-executor:50055",
    [⟨"customer_id",.utf8,true⟩,⟨"name",.utf8,true⟩,⟨"tier",.utf8,true⟩]⟩

def customerRows : RecordBatch String :=
  ⟨customers.schema,[["cust-001","Alice Martin","gold"],["cust-002","Bob Tanaka","silver"]],
    by decide⟩

def customersRuntime : Runtime String :=
  ⟨true,fun _ sql => .ok (handleSql (.ok fun _ => .ok [customerRows]) sql)⟩

theorem customersRuntime_answers (schema : Schema) (filters : List Expr) (limit : Option ℕ) :
    Answers customersRuntime ⟨customers.dataset,schema,filters,limit⟩ [customerRows] := by
  have hurl : executorUrl true "elan-executor:50055" = .ok "http://elan-executor:50056/sql" := by
    decide
  exact ⟨_,fun _ => .ok [customerRows],hurl,rfl,rfl⟩

theorem customers_validProjection (proj : List ℕ) (h : ∀ i ∈ proj, i < 3) :
    ValidProjection customers.schema (some proj) := by
  intro proj' hp
  obtain rfl := Option.some.inj hp
  exact h

theorem scan_faithful_all_columns :
    ∃ out, RemoteTableScanExec.execute customersRuntime
        ⟨customers.dataset,customers.schema,[],none⟩ = .ok out ∧
      ScanFaithful (some [0,1,2]) ⟨customers.dataset,customers.schema,[],none⟩
        [customerRows] out :=
  ((scan_faithful_iff (customers_validProjection [0,1,2] (by decide)) rfl
    (customersRuntime_answers _ _ _) (by simp) (by simp [customerRows])).2 (by decide)).mpr
    (Or.inr rfl)

/-- Asking for the tier alone: the declared schema has one column, the batches three. -/
theorem scan_single_column_unfaithful :
    ∃ n, customers.scan (some [2]) [] none = .ok n ∧ Answers customersRuntime n [customerRows] ∧
      ValidProjection customers.schema (some [2]) ∧ customerRows.schema = customers.schema ∧
      customerRows.rows ≠ [] ∧
      ¬ ∃ out, n.execute customersRuntime = .ok out ∧
        ScanFaithful (some [2]) n [customerRows] out := by
  refine ⟨⟨customers.dataset,[⟨"tier",.utf8,true⟩],[],none⟩,rfl,
    customersRuntime_answers _ _ _,customers_validProjection [2] (by decide),rfl,
    by simp [customerRows],?_⟩
  rintro ⟨out,hout,hs,-⟩
  rw [execute_eq_ok (customersRuntime_answers _ _ _)] at hout
  obtain rfl := Except.ok.inj hout
  have hlen := congrArg List.length (hs customerRows (by simp))
  simp [customerRows,customers] at hlen

end Elan
