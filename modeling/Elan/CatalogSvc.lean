import Elan.CatalogStore
import Elan.TransitionSystem

/-! The services over the catalog tables: coordinators register themselves and their datasets,
and readers ask for one dataset or for all of them. -/
namespace Elan

structure RegisterRequest where
  coordinatorId : String
  environment : String
  hostname : String
  executorEndpoint : String
  deriving DecidableEq

/-- A dataset as a coordinator announces it; absent metadata is an empty text. -/
structure DatasetRegistration where
  coordinatorId : String
  datasetId : String
  name : String
  ns : String
  sourceType : String
  arrowSchemaIpc : List UInt8
  metadataJson : String
  deriving DecidableEq

structure DatasetProto where
  datasetId : String
  name : String
  ns : String
  sourceType : String
  coordinatorId : String
  executorEndpoint : String
  arrowSchemaIpc : List UInt8
  metadataJson : String
  deriving DecidableEq

def DatasetProto.ofDataset [JsonText] (d : DatasetInfo) : DatasetProto where
  datasetId := d.id.toString
  name := d.name
  ns := d.ns
  sourceType := d.sourceType.toString
  coordinatorId := d.coordinatorId
  executorEndpoint := d.executorEndpoint
  arrowSchemaIpc := d.schemaIpc
  metadataJson := JsonText.toString d.metadata

inductive CatalogStatus
  | internal (cause : DecodeError)
  | notFound (message : String)
  deriving DecidableEq

def DatasetRegistration.key (req : DatasetRegistration) : String × String := (req.ns,req.name)

/-- The metadata column: an empty text is stored as no text. -/
def DatasetRegistration.metadata (req : DatasetRegistration) : Option String :=
  if req.metadataJson = "" then none else some req.metadataJson

/-- The row a registration inserts, with the endpoint that was looked up for it. -/
def DatasetRegistration.row (req : DatasetRegistration) (now executorEndpoint : String) :
    DatasetRow :=
  CatalogStore.datasetRow now req.coordinatorId req.datasetId req.name req.ns req.sourceType
    executorEndpoint req.arrowSchemaIpc req.metadata

/-- The row that stands under the key once the registration is accepted. -/
def DatasetRegistration.written (req : DatasetRegistration) (t : CatalogTables)
    (now executorEndpoint : String) : DatasetRow :=
  t.written (req.row now executorEndpoint)

/-- What the constraints ask of a registration. -/
def DatasetRegistration.Accepted (req : DatasetRegistration) (t : CatalogTables) : Prop :=
  t.coordinator? req.coordinatorId ≠ none ∧
    (t.dataset? req.key = none → ∀ key d, t.dataset? key = some d → d.id ≠ req.datasetId)

namespace DatasetRegistration

variable {req : DatasetRegistration} {t t' : CatalogTables} {now executorEndpoint : String}

theorem accepted_iff :
    (∃ t', t.insertDataset (req.row now executorEndpoint) = .ok t') ↔ req.Accepted t :=
  CatalogTables.exists_insertDataset

theorem written_eq : req.written t now executorEndpoint =
    { req.row now executorEndpoint with
      id := (req.written t now executorEndpoint).id
      registeredAt := (req.written t now executorEndpoint).registeredAt } :=
  CatalogTables.written_eq rfl

theorem written_id : (req.written t now executorEndpoint).id =
    ((t.dataset? req.key).map DatasetRow.id).getD req.datasetId :=
  t.written_id (req.row now executorEndpoint)

/-- The texts of the row can be read: a known source type, metadata that is empty or JSON, and
a UUID for the identifier, which is the stored one when the key is registered already. -/
def Readable [JsonText] (req : DatasetRegistration) (t : CatalogTables) : Prop :=
  (∃ s, SourceType.tryFrom req.sourceType = .ok s) ∧
    (req.metadataJson = "" ∨ ∃ v, JsonText.fromStr req.metadataJson = some v) ∧
    ∃ id, Uuid.parseStr (((t.dataset? req.key).map DatasetRow.id).getD req.datasetId) = some id

theorem decodeMetadata_eq_ok [JsonText] : (∃ v, decodeMetadata req.metadata = .ok v) ↔
    req.metadataJson = "" ∨ ∃ v, JsonText.fromStr req.metadataJson = some v := by
  unfold metadata
  by_cases h : req.metadataJson = ""
  · simp [h,decodeMetadata]
  · rw [if_neg h]
    cases hv : JsonText.fromStr req.metadataJson <;> simp [h,decodeMetadata,hv]

theorem decodes_written [JsonText] :
    (req.written t now executorEndpoint).Decodes ↔ req.Readable t := by
  rw [DatasetRow.decodes_iff,written_id,written_eq]
  unfold Readable
  rw [← decodeMetadata_eq_ok]
  exact ⟨fun ⟨hid,hs,hm⟩ => ⟨hs,hm,hid⟩,fun ⟨hs,hm,hid⟩ => ⟨hid,hs,hm⟩⟩

theorem written_isActive : (req.written t now executorEndpoint).isActive = true := by
  rw [written_eq]; rfl

theorem written_coordinatorId :
    (req.written t now executorEndpoint).coordinatorId = req.coordinatorId := by
  rw [written_eq]; rfl

theorem written_executorEndpoint :
    (req.written t now executorEndpoint).executorEndpoint = executorEndpoint := by
  rw [written_eq]; rfl

theorem dataset?_insert (h : t.insertDataset (req.row now executorEndpoint) = .ok t')
    (key : String × String) : t'.dataset? key =
      if key = req.key then some (req.written t now executorEndpoint) else t.dataset? key :=
  (CatalogTables.insertDataset_eq_ok h).2 key

theorem served?_insert (h : t.insertDataset (req.row now executorEndpoint) = .ok t')
    (key : String × String) : t'.served? key =
      if key = req.key
      then if t.living req.coordinatorId then some (req.written t now executorEndpoint) else none
      else t.served? key := by
  have hliving (id : String) : t'.living id = t.living id := by
    unfold CatalogTables.living
    rw [CatalogTables.coordinator?_insertDataset h]
  unfold CatalogTables.served?
  simp only [hliving,dataset?_insert h]
  by_cases hk : key = req.key
  · simp only [if_pos hk,Option.filter_some,written_isActive,written_coordinatorId,Bool.true_and]
  · rw [if_neg hk,if_neg hk]

end DatasetRegistration

namespace CoordinatorSvc

def register (t : CatalogTables) (now : String) (req : RegisterRequest) : CatalogTables :=
  CatalogStore.upsertCoordinator t now req.coordinatorId req.environment req.hostname
    req.executorEndpoint

/-- One message of a heartbeat stream. -/
def heartbeat (t : CatalogTables) (now coordinatorId : String) : CatalogTables :=
  CatalogStore.heartbeat t now coordinatorId

/-- The answer is `accepted`, and is only given when the statements went through. -/
def registerDataset (t : CatalogTables) (now : String) (req : DatasetRegistration) :
    Except ConstraintError Bool × CatalogTables :=
  match CatalogStore.upsertDataset t now req.coordinatorId req.datasetId req.name req.ns
    req.sourceType req.arrowSchemaIpc
    (if req.metadataJson = "" then none else some req.metadataJson) with
  | .error e => (.error e,t)
  | .ok t' => (.ok true,t')

def unregisterDataset (t : CatalogTables) (datasetId : String) : CatalogTables :=
  CatalogStore.deactivateDataset t datasetId

@[simp] theorem dataset?_register (t : CatalogTables) (now : String) (req : RegisterRequest)
    (key : String × String) : (register t now req).dataset? key = t.dataset? key := rfl

@[simp] theorem dataset?_heartbeat (t : CatalogTables) (now coordinatorId : String)
    (key : String × String) : (heartbeat t now coordinatorId).dataset? key = t.dataset? key := rfl

theorem dataset?_unregisterDataset (t : CatalogTables) (datasetId : String)
    (key : String × String) :
    (unregisterDataset t datasetId).dataset? key =
      (t.dataset? key).map fun d => if d.id = datasetId then d.deactivate else d :=
  t.dataset?_deactivateDatasets datasetId key

/-- The rows of the identifier, whatever their key, are no longer served. -/
theorem served?_unregisterDataset (t : CatalogTables) (datasetId : String)
    (key : String × String) :
    (unregisterDataset t datasetId).served? key = (t.served? key).filter (·.id ≠ datasetId) := by
  have hliving (id : String) : (unregisterDataset t datasetId).living id = t.living id := rfl
  unfold CatalogTables.served?
  simp only [dataset?_unregisterDataset,hliving]
  cases hd : t.dataset? key with
  | none => rfl
  | some d =>
    rw [Option.filter_filter]
    by_cases hid : d.id = datasetId <;> simp [hid,DatasetRow.deactivate,Option.filter_some]

theorem coordinator?_register {t : CatalogTables} {now : String} {req : RegisterRequest}
    {id : String} {c : CoordinatorRow} (h : (register t now req).coordinator? id = some c) :
    id = req.coordinatorId ∧ c.executorEndpoint = req.executorEndpoint ∧ c.isAlive ∨
      id ≠ req.coordinatorId ∧ t.coordinator? id = some c := by
  rw [register,CatalogStore.upsertCoordinator,CatalogTables.coordinator?_insertCoordinator] at h
  split_ifs at h with hid
  · cases hc : t.coordinator? id <;> rw [hc] at h <;> cases h <;> exact .inl ⟨hid,rfl,rfl⟩
  · exact .inr ⟨hid,h⟩

/-- A heartbeat revives its coordinator and changes nothing else that is read. -/
theorem coordinator?_heartbeat {t : CatalogTables} {now coordinatorId id : String}
    {c : CoordinatorRow} (h : (heartbeat t now coordinatorId).coordinator? id = some c) :
    ∃ c₀, t.coordinator? id = some c₀ ∧ c.executorEndpoint = c₀.executorEndpoint ∧
      c.isAlive = (c₀.isAlive || id = coordinatorId) := by
  rw [heartbeat,CatalogStore.heartbeat,CatalogTables.coordinator?_updateCoordinator] at h
  split_ifs at h with hid
  · obtain ⟨c₀,hc₀,rfl⟩ := Option.map_eq_some_iff.mp h
    exact ⟨c₀,hc₀,rfl,by simp [hid]⟩
  · exact ⟨c,h,rfl,by simp [hid]⟩

theorem registerDataset_eq (t : CatalogTables) (now : String) (req : DatasetRegistration) :
    registerDataset t now req =
      match t.insertDataset (req.row now (CatalogStore.lookupEndpoint t req.coordinatorId)) with
      | .error e => (.error e,t)
      | .ok t' => (.ok true,t') := rfl

/-- A registration is refused and changes nothing, or its row is inserted. -/
theorem registerDataset_cases (t : CatalogTables) (now : String) (req : DatasetRegistration) :
    ¬ req.Accepted t ∧ (∃ e, registerDataset t now req = (.error e,t)) ∨
      req.Accepted t ∧ (registerDataset t now req).1 = .ok true ∧
        t.insertDataset (req.row now (CatalogStore.lookupEndpoint t req.coordinatorId)) =
          .ok (registerDataset t now req).2 := by
  rw [registerDataset_eq]
  cases hins : t.insertDataset (req.row now (CatalogStore.lookupEndpoint t req.coordinatorId)) with
  | error e =>
    refine .inl ⟨?_,e,rfl⟩
    intro hacc
    obtain ⟨t',ht'⟩ := DatasetRegistration.accepted_iff.mpr hacc
    rw [hins] at ht'
    cases ht'
  | ok t' => exact .inr ⟨DatasetRegistration.accepted_iff.mp ⟨t',hins⟩,rfl,rfl⟩

end CoordinatorSvc

namespace CatalogTables.AllLiving

variable {t : CatalogTables}

theorem register (h : t.AllLiving) (now : String) (req : RegisterRequest) :
    (CoordinatorSvc.register t now req).AllLiving := by
  intro id c hc
  rcases CoordinatorSvc.coordinator?_register hc with ⟨-,-,halive⟩ | ⟨-,hold⟩
  · exact halive
  · exact h id c hold

theorem heartbeat (h : t.AllLiving) (now coordinatorId : String) :
    (CoordinatorSvc.heartbeat t now coordinatorId).AllLiving := by
  intro id c hc
  obtain ⟨c₀,hc₀,-,halive⟩ := CoordinatorSvc.coordinator?_heartbeat hc
  rw [halive,h id c₀ hc₀]
  rfl

end CatalogTables.AllLiving

namespace CatalogSvc

variable [JsonText]

def getDataset (t : CatalogTables) (ns name : String) : Except CatalogStatus DatasetProto :=
  match CatalogStore.getDataset t ns name with
  | .error e => .error (.internal e)
  | .ok none => .error (.notFound ("dataset not found: " ++ ns ++ "." ++ name))
  | .ok (some d) => .ok (.ofDataset d)

/-- The stream of a listing; an empty filter covers every namespace. -/
def listDatasets (t : CatalogTables) (namespaceFilter : String) :
    Except CatalogStatus (List DatasetProto) :=
  match CatalogStore.listDatasets t
    (if namespaceFilter = "" then none else some namespaceFilter) with
  | .error e => .error (.internal e)
  | .ok ds => .ok (ds.map .ofDataset)

end CatalogSvc

/-- A call that writes to the catalog, with the time it is made at. -/
inductive CatalogCall
  | register (now : String) (req : RegisterRequest)
  | heartbeat (now coordinatorId : String)
  | registerDataset (now : String) (req : DatasetRegistration)
  | unregisterDataset (datasetId : String)
  deriving DecidableEq

/-- Every call is answered; one that is refused leaves the tables as they are. -/
def CatalogCall.step (call : CatalogCall) (t : CatalogTables) : Option CatalogTables :=
  match call with
  | .register now req => some (CoordinatorSvc.register t now req)
  | .heartbeat now coordinatorId => some (CoordinatorSvc.heartbeat t now coordinatorId)
  | .registerDataset now req => some (CoordinatorSvc.registerDataset t now req).2
  | .unregisterDataset datasetId => some (CoordinatorSvc.unregisterDataset t datasetId)

def sampleCoordinator (executorEndpoint : String) : RegisterRequest :=
  ⟨"c1","prod","node-1",executorEndpoint⟩

def sampleRegistration (datasetId : String) : DatasetRegistration :=
  ⟨"c1",datasetId,"events","analytics","parquet",[],""⟩

end Elan
