import Elan.Catalog

/-! The response to a query: record batches as rows of JSON cells, under the column names. -/
namespace Elan

/-- What the response is made from of a column; the arrays and their casts are not part of the
program. `isNull` reads the null buffer, and `isLogicallyNull` also what an array of nulls or of
references to other arrays stands for. -/
class ArrowArray (A : Type) where
  dataTypeText : A → String
  length : A → ℕ
  isNull : A → ℕ → Bool
  isLogicallyNull : A → ℕ → Bool
  castUtf8 : A → Option (ℕ → Option String)

/-- A batch as columns of one length, one for each field. -/
structure ArrowBatch (A : Type) [ArrowArray A] where
  schema : Schema
  columns : List A
  numRows : ℕ
  width : columns.length = schema.length
  height : ∀ c ∈ columns, ArrowArray.length c = numRows

structure QueryResponse where
  queryId : Uuid
  columns : List String
  rows : List (List JsonValue)
  durationMs : ℕ

structure QueryCompletedPayload where
  queryId : Uuid
  durationMs : ℕ
  rowsReturned : ℕ
  bytesScanned : ℕ
  deriving DecidableEq

def Schema.names (schema : Schema) : List String := schema.map Field.name

namespace HttpQuery

section
variable {A : Type} [ArrowArray A]

def arrowColToJson (col : A) (row : ℕ) : JsonValue :=
  if ArrowArray.isNull col row then .null
  else match ArrowArray.castUtf8 col with
    | some cast => .string ((cast row).getD "null")
    | none => .string ("<" ++ ArrowArray.dataTypeText col ++ ">")

def batchesToResponse (queryId : Uuid) (batches : List (ArrowBatch A)) (durationMs : ℕ) :
    QueryResponse :=
  match batches with
  | [] => ⟨queryId,[],[],durationMs⟩
  | first :: _ =>
    { queryId := queryId
      columns := first.schema.names
      rows := batches.flatMap fun b => (List.range b.numRows).map fun row =>
        b.columns.map (arrowColToJson · row)
      durationMs := durationMs }

/-- What a successful query publishes and answers with. -/
def complete (queryId : Uuid) (batches : List (ArrowBatch A)) (durationMs : ℕ) :
    QueryCompletedPayload × QueryResponse :=
  (⟨queryId,durationMs,(batches.map ArrowBatch.numRows).sum,0⟩,
    batchesToResponse queryId batches durationMs)

def places (batches : List (ArrowBatch A)) : List (ArrowBatch A × ℕ) :=
  batches.flatMap fun b => (List.range b.numRows).map (b,·)

/-- A cell is JSON null for a null value, and the text of any other. -/
structure Shows (col : A) (row : ℕ) (v : JsonValue) : Prop where
  null : v = .null ↔ ArrowArray.isLogicallyNull col row = true
  text : ArrowArray.isLogicallyNull col row = false → ∀ cast s,
    ArrowArray.castUtf8 col = some cast → cast row = some s → v = .string s

structure Faithful (schema : Schema) (batches : List (ArrowBatch A))
    (completed : QueryCompletedPayload) (response : QueryResponse) : Prop where
  columns : response.columns = schema.names
  rows : List.Forall₂ (fun row p => List.Forall₂ (fun v col => Shows col p.2 v) row p.1.columns)
    response.rows (places batches)
  width : ∀ row ∈ response.rows, row.length = response.columns.length
  count : response.rows.length = completed.rowsReturned

/-- Every null value of the result is recorded in the null buffer of its column. -/
def NullsRecorded (batches : List (ArrowBatch A)) : Prop :=
  ∀ b ∈ batches, ∀ col ∈ b.columns, ∀ row < b.numRows,
    ArrowArray.isLogicallyNull col row = true → ArrowArray.isNull col row = true

theorem arrowColToJson_eq_null {col : A} {row : ℕ} :
    arrowColToJson col row = .null ↔ ArrowArray.isNull col row = true := by
  unfold arrowColToJson
  cases ArrowArray.isNull col row with
  | true => simp
  | false => cases ArrowArray.castUtf8 col <;> simp

/-- A cell shows its value exactly when a null is one of the null buffer. -/
theorem shows_iff (hbuffer : ∀ (col : A) row, ArrowArray.isNull col row = true →
      ArrowArray.isLogicallyNull col row = true) {col : A} {row : ℕ} :
    Shows col row (arrowColToJson col row) ↔
      (ArrowArray.isLogicallyNull col row = true → ArrowArray.isNull col row = true) := by
  constructor
  · intro h hnull
    exact arrowColToJson_eq_null.mp (h.null.mpr hnull)
  · intro h
    refine ⟨arrowColToJson_eq_null.trans ⟨hbuffer col row,h⟩,?_⟩
    intro hvalue cast s hcast hs
    have hrecorded : ArrowArray.isNull col row = false := by
      by_contra hnull
      rw [hbuffer col row (by simpa using hnull)] at hvalue
      cases hvalue
    simp [arrowColToJson,hrecorded,hcast,hs]

theorem rows_eq (queryId : Uuid) (batches : List (ArrowBatch A)) (durationMs : ℕ) :
    (batchesToResponse queryId batches durationMs).rows =
      (places batches).map fun p => p.1.columns.map (arrowColToJson · p.2) := by
  have hplaces : (places batches).map (fun p => p.1.columns.map (arrowColToJson · p.2)) =
      batches.flatMap fun b => (List.range b.numRows).map fun row =>
        b.columns.map (arrowColToJson · row) := by
    simp [places,List.map_flatMap,List.map_map,Function.comp_def]
  rw [hplaces]
  cases batches <;> rfl

theorem length_places (batches : List (ArrowBatch A)) :
    (places batches).length = (batches.map ArrowBatch.numRows).sum := by
  simp [places,List.length_flatMap]

theorem mem_places {batches : List (ArrowBatch A)} {b : ArrowBatch A} {row : ℕ} :
    (b,row) ∈ places batches ↔ b ∈ batches ∧ row < b.numRows := by
  simp [places]

/-- The cells of the rows show the values exactly when all nulls are recorded. -/
theorem shows_rows_iff (hbuffer : ∀ (col : A) row, ArrowArray.isNull col row = true →
      ArrowArray.isLogicallyNull col row = true) {batches : List (ArrowBatch A)} :
    List.Forall₂ (fun row p => List.Forall₂ (fun v col => Shows col p.2 v) row p.1.columns)
      ((places batches).map fun p => p.1.columns.map (arrowColToJson · p.2)) (places batches) ↔
      NullsRecorded batches := by
  simp only [List.forall₂_map_left_iff,List.forall₂_same,shows_iff hbuffer]
  constructor
  · intro h b hb col hcol row hrow
    exact h (b,row) (mem_places.mpr ⟨hb,hrow⟩) col hcol
  · intro h p hp col hcol
    obtain ⟨hb,hrow⟩ := mem_places.mp hp
    exact h p.1 hb col hcol p.2 hrow

/-- The response is faithful exactly when there is a batch, or no column to lose, and all null
values are recorded. -/
theorem faithful_iff {schema : Schema} {batches : List (ArrowBatch A)}
    (hschema : ∀ b ∈ batches, b.schema = schema)
    (hbuffer : ∀ (col : A) row, ArrowArray.isNull col row = true →
      ArrowArray.isLogicallyNull col row = true) (queryId : Uuid) (durationMs : ℕ) :
    Faithful schema batches (complete queryId batches durationMs).1
        (complete queryId batches durationMs).2 ↔
      (batches ≠ [] ∨ schema = []) ∧ NullsRecorded batches := by
  have hcolumns : (batchesToResponse queryId batches durationMs).columns = schema.names ↔
      batches ≠ [] ∨ schema = [] := by
    cases batches with
    | nil =>
      simp only [batchesToResponse,Schema.names,ne_eq,not_true,false_or]
      rw [eq_comm,List.map_eq_nil_iff]
    | cons b bs => simp [batchesToResponse,hschema b (by simp)]
  constructor
  · intro h
    refine ⟨hcolumns.mp h.columns,?_⟩
    have hrows := h.rows
    rw [complete,rows_eq] at hrows
    exact (shows_rows_iff hbuffer).mp hrows
  · intro ⟨hbatch,hrecorded⟩
    have hnames := hcolumns.mpr hbatch
    refine ⟨hnames,?_,?_,?_⟩
    · rw [complete,rows_eq]
      exact (shows_rows_iff hbuffer).mpr hrecorded
    · intro row hrow
      rw [complete,rows_eq] at hrow
      obtain ⟨⟨b,i⟩,hp,rfl⟩ := List.mem_map.mp hrow
      have hb := (mem_places.mp hp).1
      rw [complete,hnames,List.length_map,b.width,hschema b hb,Schema.names,List.length_map]
    · rw [complete,rows_eq,List.length_map,length_places]

end

/-! ### Strings, and an array of nulls -/

/-- A column of strings with a null buffer, or a column that only has a length. -/
inductive SampleArray
  | strings (values : List (Option String))
  | nulls (length : ℕ)

instance : ArrowArray SampleArray where
  dataTypeText
    | .strings _ => "Utf8"
    | .nulls _ => "Null"
  length
    | .strings values => values.length
    | .nulls length => length
  isNull
    | .strings values, row => values[row]? = some none
    | .nulls _, _ => false
  isLogicallyNull
    | .strings values, row => values[row]? = some none
    | .nulls _, _ => true
  castUtf8
    | .strings values => some fun row => values[row]?.join
    | .nulls _ => some fun _ => none

def customerNames : ArrowBatch SampleArray :=
  ⟨[⟨"name",.utf8,true⟩],[.strings [some "Alice Martin",none]],2,rfl,by simp [ArrowArray.length]⟩

def selectNull : ArrowBatch SampleArray :=
  ⟨[⟨"NULL",.null,true⟩],[.nulls 1],1,rfl,by simp [ArrowArray.length]⟩

theorem isLogicallyNull_of_isNull (col : SampleArray) (row : ℕ)
    (h : ArrowArray.isNull col row = true) : ArrowArray.isLogicallyNull col row = true := by
  cases col with
  | strings values => exact h
  | nulls length => rfl

theorem faithful_names : Faithful [⟨"name",.utf8,true⟩] [customerNames]
    (complete (.ofByte 1) [customerNames] 5).1 (complete (.ofByte 1) [customerNames] 5).2 := by
  refine (faithful_iff (by simp [customerNames]) isLogicallyNull_of_isNull _ _).mpr
    ⟨.inl (by simp),?_⟩
  intro b hb col hcol row _ hnull
  rw [List.mem_singleton.mp hb] at hcol
  rw [List.mem_singleton.mp hcol] at hnull ⊢
  exact hnull

/-- Without a batch the columns are lost, and the null of an untyped column is a text. -/
theorem empty_result_loses_columns :
    (¬ ∀ (schema : Schema) (batches : List (ArrowBatch SampleArray)),
      (∀ b ∈ batches, b.schema = schema) → ∀ queryId durationMs,
        Faithful schema batches (complete queryId batches durationMs).1
          (complete queryId batches durationMs).2) ∧
      (complete (.ofByte 1) [selectNull] 5).2.rows = [[.string "null"]] := by
  refine ⟨fun h => ?_,rfl⟩
  have hcolumns := (h customerNames.schema [] (by simp) (.ofByte 1) 5).columns
  exact absurd hcolumns (by decide)

end HttpQuery
end Elan
