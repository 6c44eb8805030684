import Elan.Uuid

/-! Catalog records and tabular data: schemas, record batches and the description of a
registered dataset. -/
namespace Elan

/-- Column types; the ones the program never looks into are known by name. -/
inductive DataType
  | null | boolean | int64 | float64 | utf8 | date32
  | other (name : String)
  deriving DecidableEq

structure Field where
  name : String
  dataType : DataType
  nullable : Bool
  deriving DecidableEq

abbrev Schema := List Field

/-- The fields at the given indices, in the order of the indices. -/
def Schema.project (schema : Schema) (indices : List ℕ) : Except String Schema :=
  indices.mapM fun i =>
    match schema[i]? with
    | some f => .ok f
    | none => .error s!"project index {i} out of bounds, max field {schema.length}"

theorem Schema.project_eq_ok {schema : Schema} {indices : List ℕ}
    (h : ∀ i ∈ indices, i < schema.length) :
    schema.project indices = .ok (indices.filterMap (schema[·]?)) := by
  unfold Schema.project
  induction indices with
  | nil => rfl
  | cons i is ih =>
    have hi : i < schema.length := h i (by simp)
    rw [List.mapM_cons,ih fun j hj => h j (by simp [hj])]
    simp [List.getElem?_eq_getElem hi,pure,Except.pure,bind,Except.bind]

/-- Rows of one schema; every row has a cell for every column. -/
structure RecordBatch (V : Type) where
  schema : Schema
  rows : List (List V)
  width : ∀ row ∈ rows, row.length = schema.length

inductive SourceType
  | parquet | csv | postgres | delta
  deriving DecidableEq

/-- Errors of the program's own; only a wrong configuration value occurs here. -/
inductive ElanError
  | config (message : String)
  deriving DecidableEq

def ElanError.toString : ElanError → String
  | .config message => "config error: " ++ message

namespace SourceType

def toString : SourceType → String
  | .parquet => "parquet"
  | .csv => "csv"
  | .postgres => "postgres"
  | .delta => "delta"

def tryFrom (s : String) : Except ElanError SourceType :=
  match s with
  | "parquet" => .ok .parquet
  | "csv" => .ok .csv
  | "postgres" => .ok .postgres
  | "delta" => .ok .delta
  | other => .error (.config ("unknown source type: " ++ other))

@[simp] theorem tryFrom_toString (t : SourceType) : tryFrom t.toString = .ok t := by
  cases t <;> rfl

end SourceType

/-- JSON documents, as far as the program carries them around. -/
inductive JsonValue
  | null
  | bool (b : Bool)
  | number (text : String)
  | string (s : String)
  | array (items : List JsonValue)
  | object (entries : List (String × JsonValue))

/-- The JSON reader and printer, which are not part of the program. -/
class JsonText where
  fromStr : String → Option JsonValue
  toString : JsonValue → String

structure DatasetInfo where
  id : Uuid
  name : String
  ns : String
  sourceType : SourceType
  coordinatorId : String
  executorEndpoint : String
  schemaIpc : List UInt8
  metadata : JsonValue

end Elan
