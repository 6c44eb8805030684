import Elan.Endpoint
import Elan.Expr

/-! The scan node: the SQL it sends, the request, and the batches it hands to its parent,
together with the HTTP service that answers it. -/
namespace Elan

/-- A leaf of a physical plan that reads one dataset from a remote executor. -/
structure RemoteTableScanExec where
  dataset : DatasetInfo
  schema : Schema
  pushedFilters : List Expr
  limit : Option ℕ

namespace RemoteTableScanExec

def datasetNamespace (n : RemoteTableScanExec) : String := n.dataset.ns
def datasetName (n : RemoteTableScanExec) : String := n.dataset.name

/-- ` WHERE …`, when some filter has SQL text. -/
def whereClause (filters : List Expr) : String :=
  match filters.filterMap exprToSql with
  | [] => ""
  | strs => " WHERE " ++ String.intercalate " AND " strs

def limitClause : Option ℕ → String
  | some lim => " LIMIT " ++ toString lim
  | none => ""

/-- Always `SELECT *`: columns are left to the query side. -/
def buildSql (n : RemoteTableScanExec) : String :=
  "SELECT * FROM \"" ++ n.dataset.name ++ "\"" ++ whereClause n.pushedFilters ++
    limitClause n.limit

end RemoteTableScanExec

/-- Batches with their schema, as a response body carries them. -/
structure IpcStream (V : Type) where
  schema : Schema
  batches : List (RecordBatch V)

inductive Body (V : Type)
  | text (message : String)
  | ipc (stream : IpcStream V)

/-- A status with its reason phrase, which are printed together. -/
structure StatusCode where
  code : ℕ
  reason : String

namespace StatusCode

def ok : StatusCode := ⟨200,"OK"⟩
def badRequest : StatusCode := ⟨400,"Bad Request"⟩
def internalServerError : StatusCode := ⟨500,"Internal Server Error"⟩

def isSuccess (s : StatusCode) : Bool := decide (200 ≤ s.code) && decide (s.code < 300)

@[simp] theorem isSuccess_ok : ok.isSuccess = true := rfl

def toString (s : StatusCode) : String := ToString.toString s.code ++ " " ++ s.reason

end StatusCode

structure HttpResponse (V : Type) where
  status : StatusCode
  body : Body V

/-- A query context over the mounted tables: run one SQL text, collect its batches. -/
abbrev SessionContext (V : Type) := String → Except String (List (RecordBatch V))

/-- `POST /sql`: build a context, run the text, and stream the batches back. -/
def handleSql {V : Type} (session : Except String (SessionContext V)) (sql : String) :
    HttpResponse V :=
  match session with
  | .error e => ⟨.internalServerError,.text e⟩
  | .ok ctx =>
    match ctx sql with
    | .error e => ⟨.badRequest,.text e⟩
    | .ok [] => ⟨.ok,.ipc ⟨[],[]⟩⟩
    | .ok (b :: bs) => ⟨.ok,.ipc ⟨b.schema,b :: bs⟩⟩

/-- What a scan is executed against: the arithmetic of the build, and the network. -/
structure Runtime (V : Type) where
  overflowChecks : Bool
  post : String → String → Except String (HttpResponse V)

namespace RemoteTableScanExec

variable {V : Type}

def request (overflowChecks : Bool) (n : RemoteTableScanExec) :
    Except DataFusionError (String × String) := do
  let url ← executorUrl overflowChecks n.dataset.executorEndpoint
  .ok (url,n.buildSql)

/-- Post the SQL and hand the received batches on, under the schema they came with. -/
def execute (rt : Runtime V) (n : RemoteTableScanExec) : Except DataFusionError (IpcStream V) := do
  let (url,sql) ← n.request rt.overflowChecks
  match rt.post url sql with
  | .error e => .error (.external e)
  | .ok ⟨status,body⟩ =>
    if status.isSuccess then
      match body with
      | .text _ => .error (.external "not an Arrow stream")
      | .ipc ⟨_,batches⟩ =>
        -- the schema of the batches, or the declared one when there are none
        .ok ⟨(batches.head?.map RecordBatch.schema).getD n.schema,batches⟩
    else
      match body with
      | .text message =>
        .error (.external s!"executor SQL service error ({status.toString}): {message}")
      | .ipc _ => .error (.external s!"executor SQL service error ({status.toString}): ")

end RemoteTableScanExec
end Elan
