import Elan.CsvDatasets
import Elan.CatalogDecoding

/-! The coordinator: what it announces to central when it starts, and what stands in the catalog
once central has taken it. -/
namespace Elan

/-- A configured dataset, with all that goes into its registration. -/
inductive DatasetEntry
  | parquet (name ns path : String)
  | csv (name ns path : String) (format : CsvFormat)
  | postgres (name ns host : String) (port : UInt16) (database schema table username : String)
  | delta (name ns path : String)
  deriving DecidableEq

namespace DatasetEntry

/-- What the upload and the probe read of the entry. -/
def config : DatasetEntry → DatasetConfig
  | parquet name ns path => .parquet name ns path
  | csv name ns path _ => .csv name ns path
  | postgres name ns _ _ _ _ _ _ => .postgres name ns
  | delta name ns path => .delta name ns path

/-- Only CSV files have a format to configure. -/
def format : DatasetEntry → CsvFormat
  | csv _ _ _ format => format
  | _ => {}

def name (e : DatasetEntry) : String := e.config.name
def ns (e : DatasetEntry) : String := e.config.ns
def key (e : DatasetEntry) : String × String := (e.ns,e.name)

def sourceType : DatasetEntry → String
  | parquet .. => "parquet"
  | csv .. => "csv"
  | postgres .. => "postgres"
  | delta .. => "delta"

/-- The password of a database is not part of the metadata. -/
def metadataJson : DatasetEntry → JsonValue
  | parquet _ _ path => .object [("path",.string path)]
  | csv _ _ path format => format.metadataJson path
  | postgres _ _ host port database schema table username =>
    .object [("database",.string database),("host",.string host),
      ("port",.number (toString port.toNat)),("schema",.string schema),("table",.string table),
      ("username",.string username)]
  | delta _ _ path => .object [("path",.string path)]

theorem tryFrom_sourceType (e : DatasetEntry) :
    ∃ s, SourceType.tryFrom e.sourceType = .ok s ∧ s.toString = e.sourceType := by
  cases e
  · exact ⟨.parquet,rfl,rfl⟩
  · exact ⟨.csv,rfl,rfl⟩
  · exact ⟨.postgres,rfl,rfl⟩
  · exact ⟨.delta,rfl,rfl⟩

end DatasetEntry

structure CoordinatorConfig where
  coordinatorId : String
  environment : String
  hostname : String
  executorEndpoint : String
  datasets : List DatasetEntry
  deriving DecidableEq

def CoordinatorConfig.registerRequest (cfg : CoordinatorConfig) : RegisterRequest :=
  ⟨cfg.coordinatorId,cfg.environment,cfg.hostname,cfg.executorEndpoint⟩

def CoordinatorConfig.Mentions (cfg : CoordinatorConfig) (key : String × String) : Prop :=
  ∃ e ∈ cfg.datasets, e.key = key

/-- The writer of the IPC format, which is not part of the program. -/
class SchemaWriter where
  serialize : Schema → Except String (List UInt8)

variable [JsonText] [DataFusion] [SchemaWriter]

/-- The registration of a dataset under a fresh identifier. -/
def DatasetEntry.toRegistration (e : DatasetEntry) (coordinatorId : String) (datasetId : Uuid) :
    Except String DatasetRegistration := do
  let schemaIpc ← SchemaWriter.serialize (inferSchema e.format e.config)
  return ⟨coordinatorId,datasetId.toString,e.name,e.ns,e.sourceType,schemaIpc,
    JsonText.toString e.metadataJson⟩

/-- The metadata is written as a text that reads back. -/
structure DatasetEntry.ReadsBack (e : DatasetEntry) : Prop where
  text_ne : JsonText.toString e.metadataJson ≠ ""
  reads : JsonText.fromStr (JsonText.toString e.metadataJson) = some e.metadataJson

/-- The row holds the entry, as announced by this coordinator. -/
structure DatasetEntry.Stored (e : DatasetEntry) (coordinatorId executorEndpoint : String)
    (r : DatasetRow) : Prop where
  key : r.key = e.key
  id : ∃ u, Uuid.parseStr r.id = some u
  sourceType : r.sourceType = e.sourceType
  coordinatorId : r.coordinatorId = coordinatorId
  executorEndpoint : r.executorEndpoint = executorEndpoint
  schema : SchemaWriter.serialize (inferSchema e.format e.config) = .ok r.arrowSchemaIpc
  metadata : r.metadataJson = some (JsonText.toString e.metadataJson)
  isActive : r.isActive = true

/-- The record that a reader gets holds the entry, as announced by this coordinator. -/
structure DatasetEntry.Shown (e : DatasetEntry) (coordinatorId executorEndpoint : String)
    (d : DatasetInfo) : Prop where
  key : d.key = e.key
  sourceType : d.sourceType.toString = e.sourceType
  coordinatorId : d.coordinatorId = coordinatorId
  executorEndpoint : d.executorEndpoint = executorEndpoint
  schema : SchemaWriter.serialize (inferSchema e.format e.config) = .ok d.schemaIpc
  metadata : d.metadata = e.metadataJson

variable {e : DatasetEntry} {coordinatorId executorEndpoint : String} {r : DatasetRow}

theorem DatasetEntry.toRegistration_eq_ok {datasetId : Uuid} {req : DatasetRegistration} :
    e.toRegistration coordinatorId datasetId = .ok req ↔
      ∃ schemaIpc, SchemaWriter.serialize (inferSchema e.format e.config) = .ok schemaIpc ∧
        req = ⟨coordinatorId,datasetId.toString,e.name,e.ns,e.sourceType,schemaIpc,
          JsonText.toString e.metadataJson⟩ := by
  unfold DatasetEntry.toRegistration
  cases SchemaWriter.serialize (inferSchema e.format e.config) with
  | error message => simp [bind,Except.bind]
  | ok schemaIpc => simp [bind,Except.bind,pure,Except.pure,eq_comm]

theorem DatasetEntry.Stored.shown (h : e.Stored coordinatorId executorEndpoint r)
    (hjson : e.ReadsBack) :
    ∃ d, r.Describes d ∧ e.Shown coordinatorId executorEndpoint d := by
  obtain ⟨u,hu⟩ := h.id
  obtain ⟨s,hs,htext⟩ := e.tryFrom_sourceType
  have hns : r.ns = e.ns := congrArg Prod.fst h.key
  have hname : r.name = e.name := congrArg Prod.snd h.key
  have hmeta : decodeMetadata r.metadataJson = .ok e.metadataJson := by
    rw [h.metadata]
    simp only [decodeMetadata,hjson.reads]
  refine ⟨⟨u,e.name,e.ns,s,coordinatorId,executorEndpoint,r.arrowSchemaIpc,e.metadataJson⟩,?_,
    ⟨rfl,htext,rfl,rfl,h.schema,rfl⟩⟩
  exact ⟨hu,hname.symm,hns.symm,h.sourceType ▸ hs,h.coordinatorId.symm,h.executorEndpoint.symm,rfl,
    hmeta⟩

theorem DatasetEntry.stored_written {t : CatalogTables} {datasetId : Uuid}
    {req : DatasetRegistration} {now : String}
    (hreq : e.toRegistration coordinatorId datasetId = .ok req) (hjson : e.ReadsBack)
    (hid : ∀ r, t.dataset? e.key = some r → ∃ u, Uuid.parseStr r.id = some u) :
    req.key = e.key ∧
      e.Stored coordinatorId executorEndpoint (req.written t now executorEndpoint) := by
  obtain ⟨schemaIpc,hschema,rfl⟩ := DatasetEntry.toRegistration_eq_ok.mp hreq
  refine ⟨rfl,?_⟩
  have hparsed : ∃ u, Uuid.parseStr (((t.dataset? e.key).map DatasetRow.id).getD
      datasetId.toString) = some u := by
    cases hr : t.dataset? e.key with
    | none => exact ⟨datasetId,Uuid.parseStr_toString datasetId⟩
    | some r => exact hid r hr
  rw [DatasetRegistration.written_eq,DatasetRegistration.written_id]
  exact ⟨rfl,hparsed,rfl,rfl,rfl,hschema,if_neg hjson.text_ne,rfl⟩

end Elan
