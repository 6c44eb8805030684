import Elan.CatalogSvc
import Elan.IamFilterRule
import Elan.IamSvc
import Elan.StringMaps
import Elan.TableScan

/-! What a query session is built from: the datasets and policies received from the central
services, the providers that planning asks for tables, and the catalog that users browse. -/
namespace Elan

/-- Reading a schema from an Arrow stream; the reader is not part of the program. -/
class ArrowIpc where
  schema : List UInt8 → Option Schema

/-- Placeholders that are no stream stand for a table without columns. -/
def decodeSchema [ArrowIpc] (ipcBytes : List UInt8) : Option Schema :=
  if ipcBytes = [] ∨ ipcBytes = [0,0,0,0] ∨ ipcBytes.length < 8 then some []
  else ArrowIpc.schema ipcBytes

/-- The provider of a dataset; a schema that cannot be read is left empty. -/
def ElanTableProvider.ofDataset [ArrowIpc] (ds : DatasetInfo) : ElanTableProvider :=
  ⟨ds,(decodeSchema ds.schemaIpc).getD []⟩

inductive RpcError
  | status (s : CatalogStatus)
  | transport (message : String)
  deriving DecidableEq

inductive CatalogClientError
  | rpc (e : RpcError)
  | decode (e : DecodeError)
  deriving DecidableEq

/-- A record as it is received; metadata that cannot be read is left out. -/
def DatasetInfo.ofProto [JsonText] (proto : DatasetProto) : Except DecodeError DatasetInfo :=
  match Uuid.parseStr proto.datasetId with
  | none => .error (.uuid proto.datasetId)
  | some id =>
    match SourceType.tryFrom proto.sourceType with
    | .error e => .error (.sourceType e)
    | .ok sourceType => .ok
      { id := id
        name := proto.name
        ns := proto.ns
        sourceType := sourceType
        coordinatorId := proto.coordinatorId
        executorEndpoint := proto.executorEndpoint
        schemaIpc := proto.arrowSchemaIpc
        metadata := (JsonText.fromStr proto.metadataJson).getD .null }

abbrev DatasetsByNs := StringMap (List DatasetInfo)

/-- Group the messages of the stream, after those already in `byNs`. -/
def loadDatasetsFrom [JsonText] (byNs : DatasetsByNs) :
    List (Except RpcError DatasetProto) → Except CatalogClientError DatasetsByNs
  | [] => .ok byNs
  | .error e :: _ => .error (.rpc e)
  | .ok proto :: stream =>
    match DatasetInfo.ofProto proto with
    | .error e => .error (.decode e)
    | .ok ds => loadDatasetsFrom (byNs.push ds.ns ds) stream

def loadDatasets [JsonText] (answer : Except RpcError (List (Except RpcError DatasetProto))) :
    Except CatalogClientError DatasetsByNs :=
  match answer with
  | .error e => .error (.rpc e)
  | .ok stream => loadDatasetsFrom .empty stream

/-- A policy as it is received; an identifier that cannot be read is replaced by a fresh one. -/
def Policy.ofProto (fresh : Uuid) (proto : PolicyProto) : Policy where
  id := (Uuid.parseStr proto.policyId).getD fresh
  subjectName := proto.subjectName
  subjectType :=
    match proto.subjectType with
    | "group" => .group
    | _ => .user
  resourcePattern := proto.resourcePattern
  action := proto.action
  effect := if proto.effect = 1 then .deny else .allow
  rowFilter := if proto.rowFilter = "" then none else some proto.rowFilter
  columnMaskJson := if proto.columnMaskJson = "" then none else some proto.columnMaskJson
  priority := proto.priority

/-- The policies of a stream, each message with the identifier that would be drawn for it. -/
def loadIamPolicies (stream : List (PolicyProto × Uuid)) : List Policy :=
  stream.map fun message => Policy.ofProto message.2 message.1

/-- The tables of one namespace, as one subject may see them. -/
structure ElanSchemaProvider where
  ns : String
  datasets : StringMap ElanTableProvider
  engine : IamEngine
  subject : Subject

namespace ElanSchemaProvider

def new [ArrowIpc] (ns : String) (datasets : List DatasetInfo) (engine : IamEngine)
    (subject : Subject) : ElanSchemaProvider :=
  ⟨ns,.collect (datasets.map fun ds => (ds.name,.ofDataset ds)),engine,subject⟩

def tableNames (p : ElanSchemaProvider) : List String :=
  p.datasets.keys.filter (isVisible p.engine p.subject p.ns)

/-- The central catalog is asked, with answer `central`, only for a visible name that is not
cached; what it returns is cached under the name asked for. -/
def table [JsonText] [ArrowIpc] (p : ElanSchemaProvider) (name : String)
    (central : Except RpcError DatasetProto) :
    Except CatalogClientError (Option ElanTableProvider) × ElanSchemaProvider :=
  if isVisible p.engine p.subject p.ns name then
    match p.datasets.get? name with
    | some provider => (.ok (some provider),p)
    | none =>
      match central with
      | .ok proto =>
        match DatasetInfo.ofProto proto with
        | .error e => (.error (.decode e),p)
        | .ok ds => (.ok (some (.ofDataset ds)),
            { p with datasets := p.datasets.insert name (.ofDataset ds) })
      | .error (.status (.notFound _)) => (.ok none,p)
      | .error e => (.error (.rpc e),p)
  else (.ok none,p)

def tableExist (p : ElanSchemaProvider) (name : String) : Bool := (p.datasets.get? name).isSome

end ElanSchemaProvider

structure ElanCatalogProvider where
  schemas : StringMap ElanSchemaProvider

namespace ElanCatalogProvider

def schemaNames (c : ElanCatalogProvider) : List String := c.schemas.keys

def schema (c : ElanCatalogProvider) (name : String) : Option ElanSchemaProvider :=
  c.schemas.get? name

/-- Ask for a table; the provider of its namespace keeps what it caches. -/
def table [JsonText] [ArrowIpc] (c : ElanCatalogProvider) (ns name : String)
    (central : Except RpcError DatasetProto) :
    Except CatalogClientError (Option ElanTableProvider) × ElanCatalogProvider :=
  match c.schema ns with
  | none => (.ok none,c)
  | some p => ((p.table name central).1,⟨c.schemas.insert ns (p.table name central).2⟩)

end ElanCatalogProvider

/-- A session: the catalog it plans over, and the rule that every plan passes. -/
structure Session (Op : Type) where
  catalog : ElanCatalogProvider
  rule : IamFilterRule Op

/-- One provider for each namespace, all with the engine and subject of the rule. -/
def buildForUser [ArrowIpc] {Op : Type} (datasetsByNs : DatasetsByNs) (engine : IamEngine)
    (subject : Subject) : Session Op where
  catalog := ⟨.collect (datasetsByNs.entries.map fun e => (e.1,.new e.1 e.2 engine subject))⟩
  rule := sessionRule engine subject

structure DatasetSummary where
  name : String
  sourceType : String
  coordinatorId : String
  deriving DecidableEq

structure NamespaceInfo where
  name : String
  datasets : List DatasetSummary
  deriving DecidableEq

/-- `GET /api/v1/catalog`: every namespace, with the tables of it that the subject may see. -/
def handleCatalog (catalog : ElanCatalogProvider) : List NamespaceInfo :=
  catalog.schemaNames.filterMap fun nsName =>
    (catalog.schema nsName).map fun schema =>
      ⟨nsName,schema.tableNames.map fun name => ⟨name,"unknown",""⟩⟩

def centralAnswer [JsonText] (t : CatalogTables) (ns name : String) :
    Except RpcError DatasetProto :=
  (CatalogSvc.getDataset t ns name).mapError .status

/-- A record after it has been sent: its metadata is printed and read again. -/
def DatasetInfo.received [JsonText] (d : DatasetInfo) : DatasetInfo :=
  { d with metadata := (JsonText.fromStr (JsonText.toString d.metadata)).getD .null }

section
variable [JsonText]

@[simp] theorem DatasetInfo.ofProto_ofDataset (d : DatasetInfo) :
    DatasetInfo.ofProto (.ofDataset d) = .ok d.received := by
  simp [DatasetInfo.ofProto,DatasetProto.ofDataset,DatasetInfo.received]

theorem loadDatasetsFrom_eq_ok {byNs m : DatasetsByNs}
    {stream : List (Except RpcError DatasetProto)} (h : loadDatasetsFrom byNs stream = .ok m) :
    ∃ (protos : List DatasetProto) (ds : List DatasetInfo), stream = protos.map .ok ∧
      protos.mapM DatasetInfo.ofProto = .ok ds ∧ ∀ ns, m.get? ns =
        if ds.filter (·.ns = ns) = [] then byNs.get? ns
        else some ((byNs.get? ns).getD [] ++ ds.filter (·.ns = ns)) := by
  induction stream generalizing byNs with
  | nil =>
    cases h
    exact ⟨[],[],rfl,rfl,fun ns => rfl⟩
  | cons message stream ih =>
    cases message with
    | error e => cases h
    | ok proto =>
      rw [loadDatasetsFrom] at h
      cases hd : DatasetInfo.ofProto proto with
      | error e =>
        rw [hd] at h
        cases h
      | ok d =>
        rw [hd] at h
        obtain ⟨protos,ds,rfl,hds,hget⟩ := ih h
        refine ⟨proto :: protos,d :: ds,rfl,?_,?_⟩
        · rw [List.mapM_cons,hd,hds]
          rfl
        · intro ns
          rw [hget ns,StringMap.get?_push]
          by_cases hns : ns = d.ns
          · subst hns
            by_cases hnil : ds.filter (·.ns = d.ns) = [] <;> simp [hnil]
          · simp [hns,Ne.symm hns]

/-- A loaded catalog holds the records of the stream, each under its own namespace. -/
theorem loadDatasets_eq_ok {answer : Except RpcError (List (Except RpcError DatasetProto))}
    {m : DatasetsByNs} (h : loadDatasets answer = .ok m) :
    ∃ (protos : List DatasetProto) (ds : List DatasetInfo), answer = .ok (protos.map .ok) ∧
      protos.mapM DatasetInfo.ofProto = .ok ds ∧ ∀ ns, m.get? ns =
        if ds.filter (·.ns = ns) = [] then none else some (ds.filter (·.ns = ns)) := by
  cases answer with
  | error e => cases h
  | ok stream =>
    obtain ⟨protos,ds,rfl,hds,hget⟩ := loadDatasetsFrom_eq_ok h
    exact ⟨protos,ds,rfl,hds,fun ns => by simpa using hget ns⟩

end

section
variable [ArrowIpc] {Op : Type}

theorem buildForUser_schema (m : DatasetsByNs) (engine : IamEngine) (subject : Subject)
    (ns : String) : (buildForUser m engine subject : Session Op).catalog.schema ns =
      (m.get? ns).map fun ds => ElanSchemaProvider.new ns ds engine subject :=
  m.get?_collect_entries (fun ns ds => ElanSchemaProvider.new ns ds engine subject) ns

theorem ElanSchemaProvider.exists_of_new {ns name : String} {ds : List DatasetInfo}
    {engine : IamEngine} {subject : Subject} {t : ElanTableProvider}
    (h : (ElanSchemaProvider.new ns ds engine subject).datasets.get? name = some t) :
    ∃ d ∈ ds, d.name = name ∧ t = .ofDataset d := by
  obtain ⟨d,hd,he⟩ := List.mem_map.mp (StringMap.exists_of_collect h)
  obtain ⟨rfl,rfl⟩ := Prod.mk.inj he
  exact ⟨d,hd,rfl,rfl⟩

variable [JsonText]

/-- What one request for a table may do: it changes the cache only by adding, under a visible
name that was not there, the record that the central catalog answered with. -/
theorem ElanSchemaProvider.table_cases (p : ElanSchemaProvider) (name : String)
    (central : Except RpcError DatasetProto) :
    (p.table name central).2 = p ∧ (∀ t, (p.table name central).1 = .ok (some t) →
      isVisible p.engine p.subject p.ns name ∧ p.datasets.get? name = some t) ∨
    ∃ proto d, central = .ok proto ∧ DatasetInfo.ofProto proto = .ok d ∧
      isVisible p.engine p.subject p.ns name ∧ p.datasets.get? name = none ∧
      p.table name central = (.ok (some (.ofDataset d)),
        { p with datasets := p.datasets.insert name (.ofDataset d) }) := by
  unfold ElanSchemaProvider.table
  by_cases hvisible : isVisible p.engine p.subject p.ns name
  · simp only [if_pos hvisible]
    cases hcached : p.datasets.get? name with
    | some t =>
      refine .inl ⟨rfl,?_⟩
      intro t' ht'
      cases ht'
      exact ⟨hvisible,rfl⟩
    | none =>
      cases central with
      | ok proto =>
        cases hd : DatasetInfo.ofProto proto with
        | error e =>
          refine .inl ⟨by simp [hd],?_⟩
          intro t ht
          simp [hd] at ht
        | ok d => exact .inr ⟨proto,d,rfl,hd,hvisible,rfl,by simp [hd]⟩
      | error e =>
        left
        rcases e with ⟨_ | _⟩ | _ <;> simp
  · simp [hvisible]

end

/-- The JSON reader and printer, on documents that are null. -/
@[reducible] def nullJson : JsonText :=
  ⟨fun s => if s = "null" then some .null else none,fun _ => "null"⟩

/-- A schema reader that is only asked about placeholders. -/
@[reducible] def noSchemas : ArrowIpc := ⟨fun _ => none⟩

def sampleProto (ns name : String) : DatasetProto :=
  ⟨"00000000-0000-0000-0000-000000000007",name,ns,"csv","coordinator-01","elan-executor:50055",[],
    "null"⟩

end Elan
