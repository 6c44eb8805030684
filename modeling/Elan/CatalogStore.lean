import Mathlib.Data.Prod.Lex
import Mathlib.Data.String.Basic
import Elan.StableSort
import Elan.Catalog
import Elan.Table

/-! The tables of coordinators and datasets, the statements over them, and the catalog
operations made of these statements. -/
namespace Elan

open StableSort Table

structure CoordinatorRow where
  id : String
  environment : String
  hostname : String
  executorEndpoint : String
  registeredAt : String
  lastHeartbeatAt : String
  isAlive : Bool
  deriving DecidableEq

structure DatasetRow where
  id : String
  name : String
  ns : String
  sourceType : String
  coordinatorId : String
  executorEndpoint : String
  arrowSchemaIpc : List UInt8
  metadataJson : Option String
  registeredAt : String
  lastSeenAt : String
  isActive : Bool
  deriving DecidableEq

/-- What a dataset is registered under. -/
def DatasetRow.key (d : DatasetRow) : String × String := (d.ns,d.name)

/-- `ON CONFLICT(id) DO UPDATE`: `registered_at` stays. -/
def CoordinatorRow.merge (excluded stored : CoordinatorRow) : CoordinatorRow :=
  { stored with
    environment := excluded.environment
    hostname := excluded.hostname
    executorEndpoint := excluded.executorEndpoint
    lastHeartbeatAt := excluded.lastHeartbeatAt
    isAlive := true }

/-- `ON CONFLICT(namespace, name) DO UPDATE`: `id` and `registered_at` stay. -/
def DatasetRow.merge (excluded stored : DatasetRow) : DatasetRow :=
  { stored with
    sourceType := excluded.sourceType
    coordinatorId := excluded.coordinatorId
    executorEndpoint := excluded.executorEndpoint
    arrowSchemaIpc := excluded.arrowSchemaIpc
    metadataJson := excluded.metadataJson
    lastSeenAt := excluded.lastSeenAt
    isActive := true }

def DatasetRow.deactivate (d : DatasetRow) : DatasetRow := { d with isActive := false }

@[simp] theorem CoordinatorRow.merge_id (c s : CoordinatorRow) : (c.merge s).id = s.id := rfl
@[simp] theorem DatasetRow.merge_id (d s : DatasetRow) : (d.merge s).id = s.id := rfl
@[simp] theorem DatasetRow.merge_key (d s : DatasetRow) : (d.merge s).key = s.key := rfl
@[simp] theorem DatasetRow.deactivate_id (d : DatasetRow) : d.deactivate.id = d.id := rfl
@[simp] theorem DatasetRow.deactivate_key (d : DatasetRow) : d.deactivate.key = d.key := rfl

/-- The rows of the two tables, which meet the constraints the tables declare. -/
structure CatalogTables where
  coordinators : List CoordinatorRow
  datasets : List DatasetRow
  coordinator_ids : (coordinators.map CoordinatorRow.id).Nodup
  dataset_ids : (datasets.map DatasetRow.id).Nodup
  dataset_keys : (datasets.map DatasetRow.key).Nodup
  dataset_coordinators : ∀ d ∈ datasets, d.coordinatorId ∈ coordinators.map CoordinatorRow.id
  deriving DecidableEq

inductive ConstraintError
  | unique (column : String)
  | foreignKey (column : String)
  deriving DecidableEq

namespace CatalogTables

def empty : CatalogTables where
  coordinators := []
  datasets := []
  coordinator_ids := List.nodup_nil
  dataset_ids := List.nodup_nil
  dataset_keys := List.nodup_nil
  dataset_coordinators := by simp

def coordinator? (t : CatalogTables) (id : String) : Option CoordinatorRow :=
  lookup CoordinatorRow.id id t.coordinators

def dataset? (t : CatalogTables) (key : String × String) : Option DatasetRow :=
  lookup DatasetRow.key key t.datasets

def insertCoordinator (t : CatalogTables) (c : CoordinatorRow) : CatalogTables :=
  { t with
    coordinators := upsert CoordinatorRow.id c.merge c t.coordinators
    coordinator_ids := nodup_upsert c.merge_id c t.coordinator_ids
    dataset_coordinators := fun d hd =>
      mem_map_upsert c.merge_id c (t.dataset_coordinators d hd) }

def updateCoordinator (t : CatalogTables) (id : String) (u : CoordinatorRow → CoordinatorRow)
    (hu : ∀ c, (u c).id = c.id) : CatalogTables :=
  { t with
    coordinators := update (·.id = id) u t.coordinators
    coordinator_ids := by rw [map_update hu]; exact t.coordinator_ids
    dataset_coordinators := by rw [map_update hu]; exact t.dataset_coordinators }

/-- The conflict target is checked before the other unique column, so that a taken `id` is an
error for a new key only. -/
def insertDataset (t : CatalogTables) (d : DatasetRow) : Except ConstraintError CatalogTables :=
  if hid : d.id ∈ t.datasets.map DatasetRow.id ∧ d.key ∉ t.datasets.map DatasetRow.key then
    .error (.unique "id")
  else if hcoordinator : d.coordinatorId ∉ t.coordinators.map CoordinatorRow.id then
    .error (.foreignKey "coordinator_id")
  else .ok { t with
    datasets := upsert DatasetRow.key d.merge d t.datasets
    dataset_ids := by
      unfold upsert
      split_ifs with hkey
      · rw [map_update d.merge_id]
        exact t.dataset_ids
      · exact nodup_map_concat _ t.dataset_ids fun h => hid ⟨h,hkey⟩
    dataset_keys := nodup_upsert d.merge_key d t.dataset_keys
    dataset_coordinators := by
      intro e he
      rcases mem_upsert he with he | rfl | ⟨z,hz,-,rfl⟩
      · exact t.dataset_coordinators e he
      · exact not_not.mp hcoordinator
      · exact not_not.mp hcoordinator }

/-- `UPDATE datasets SET is_active = 0 WHERE id = ?`. -/
def deactivateDatasets (t : CatalogTables) (id : String) : CatalogTables :=
  { t with
    datasets := update (·.id = id) DatasetRow.deactivate t.datasets
    dataset_ids := by rw [map_update DatasetRow.deactivate_id]; exact t.dataset_ids
    dataset_keys := by rw [map_update DatasetRow.deactivate_key]; exact t.dataset_keys
    dataset_coordinators := by
      intro d hd
      obtain ⟨e,he,rfl⟩ := List.mem_map.mp hd
      have hcoordinator := t.dataset_coordinators e he
      by_cases hid : e.id = id <;> simpa [hid,DatasetRow.deactivate] using hcoordinator }

theorem coordinator?_insertCoordinator (t : CatalogTables) (c : CoordinatorRow) (id : String) :
    (t.insertCoordinator c).coordinator? id =
      if id = c.id then some (((t.coordinator? id).map c.merge).getD c) else t.coordinator? id :=
  lookup_upsert c.merge_id c id t.coordinators

theorem coordinator?_updateCoordinator (t : CatalogTables) {id : String}
    {u : CoordinatorRow → CoordinatorRow} (hu : ∀ c, (u c).id = c.id) (id' : String) :
    (t.updateCoordinator id u hu).coordinator? id' =
      if id' = id then (t.coordinator? id').map u else t.coordinator? id' := by
  show lookup _ _ (update _ _ _) = _
  rw [lookup_update hu]
  cases hc : t.coordinator? id' with
  | none => simp [show lookup CoordinatorRow.id id' t.coordinators = none from hc]
  | some c =>
    have hid : c.id = id' := ((lookup_eq_some_iff t.coordinator_ids).mp hc).2
    rw [show lookup CoordinatorRow.id id' t.coordinators = some c from hc]
    by_cases h : id' = id <;> simp [hid,h]

/-- The constraints let the row in: its coordinator is there, and its identifier is free
unless a row of its key is there to be updated. -/
def Accepts (t : CatalogTables) (d : DatasetRow) : Prop :=
  t.coordinator? d.coordinatorId ≠ none ∧
    (t.dataset? d.key = none → ∀ key e, t.dataset? key = some e → e.id ≠ d.id)

theorem dataset?_id_free {t : CatalogTables} {id : String} :
    (∀ key e, t.dataset? key = some e → e.id ≠ id) ↔ id ∉ t.datasets.map DatasetRow.id := by
  constructor
  · intro h hid
    obtain ⟨e,he,heid⟩ := List.mem_map.mp hid
    exact h e.key e ((lookup_eq_some_iff t.dataset_keys).mpr ⟨he,rfl⟩) heid
  · intro h key e he heid
    exact h (heid ▸ List.mem_map_of_mem ((lookup_eq_some_iff t.dataset_keys).mp he).1)

theorem exists_insertDataset {t : CatalogTables} {d : DatasetRow} :
    (∃ t', t.insertDataset d = .ok t') ↔ t.Accepts d := by
  have hcoordinator : t.coordinator? d.coordinatorId = none ↔
      d.coordinatorId ∉ t.coordinators.map CoordinatorRow.id := lookup_eq_none_iff
  have hkey : t.dataset? d.key = none ↔ d.key ∉ t.datasets.map DatasetRow.key := lookup_eq_none_iff
  unfold Accepts insertDataset
  rw [dataset?_id_free,hkey,Ne,hcoordinator]
  split_ifs with h₁ h₂
  · simp [h₁]
  · simp only [Except.ok.injEq,exists_eq',true_iff]
    exact ⟨not_not.mpr h₂,fun hk hid => h₁ ⟨hid,hk⟩⟩
  · simp [h₂]

/-- The row that stands under the key of `d` once `d` is accepted. -/
def written (t : CatalogTables) (d : DatasetRow) : DatasetRow :=
  ((t.dataset? d.key).map d.merge).getD d

/-- An accepted row is new, or changes the row of its key; no other key is touched. -/
theorem insertDataset_eq_ok {t t' : CatalogTables} {d : DatasetRow}
    (h : t.insertDataset d = .ok t') :
    t'.coordinators = t.coordinators ∧
      ∀ key, t'.dataset? key = if key = d.key then some (t.written d) else t.dataset? key := by
  unfold insertDataset at h
  split_ifs at h
  cases h
  refine ⟨rfl,fun key => (lookup_upsert d.merge_key d key t.datasets).trans ?_⟩
  by_cases hk : key = d.key
  · subst hk; rfl
  · rw [if_neg hk,if_neg hk]
    rfl

theorem coordinator?_insertDataset {t t' : CatalogTables} {d : DatasetRow}
    (h : t.insertDataset d = .ok t') (id : String) : t'.coordinator? id = t.coordinator? id := by
  unfold coordinator?
  rw [(insertDataset_eq_ok h).1]

theorem dataset?_deactivateDatasets (t : CatalogTables) (id : String) (key : String × String) :
    (t.deactivateDatasets id).dataset? key =
      (t.dataset? key).map fun d => if d.id = id then d.deactivate else d := by
  show lookup _ _ (update _ _ _) = _
  rw [lookup_update DatasetRow.deactivate_key]
  simp [dataset?]

theorem dataset?_key {t : CatalogTables} {key : String × String} {d : DatasetRow}
    (h : t.dataset? key = some d) : d.key = key :=
  ((lookup_eq_some_iff t.dataset_keys).mp h).2

/-- The identifier of a row is that of its first registration. -/
theorem written_id (t : CatalogTables) (d : DatasetRow) :
    (t.written d).id = ((t.dataset? d.key).map DatasetRow.id).getD d.id := by
  unfold written
  cases hd : t.dataset? d.key <;> rfl

/-- All columns but the identifier are those of the latest registration. -/
theorem written_eq {t : CatalogTables} {d : DatasetRow} (hactive : d.isActive = true) :
    t.written d =
      { d with id := (t.written d).id, registeredAt := (t.written d).registeredAt } := by
  unfold written
  cases hd : t.dataset? d.key with
  | none => rfl
  | some e =>
    obtain ⟨hns,hname⟩ := Prod.mk.inj (dataset?_key hd)
    simp [DatasetRow.merge,hns,hname,hactive]

/-- Datasets of different keys have different identifiers. -/
theorem dataset?_id_inj {t : CatalogTables} {key key' : String × String} {d d' : DatasetRow}
    (h : t.dataset? key = some d) (h' : t.dataset? key' = some d') (hid : d.id = d'.id) :
    key = key' := by
  have hd := (lookup_eq_some_iff t.dataset_keys).mp h
  have hd' := (lookup_eq_some_iff t.dataset_keys).mp h'
  rw [← hd.2,← hd'.2,List.inj_on_of_nodup_map t.dataset_ids hd.1 hd'.1 hid]

theorem exists_coordinator {t : CatalogTables} {key : String × String} {d : DatasetRow}
    (h : t.dataset? key = some d) : ∃ c, t.coordinator? d.coordinatorId = some c := by
  have hmem := t.dataset_coordinators d ((lookup_eq_some_iff t.dataset_keys).mp h).1
  cases hc : t.coordinator? d.coordinatorId with
  | none => exact absurd hmem (lookup_eq_none_iff.mp hc)
  | some c => exact ⟨c,rfl⟩

/-- `datasets JOIN coordinators`. -/
def joined (t : CatalogTables) : List (DatasetRow × CoordinatorRow) :=
  t.datasets.flatMap fun d => (t.coordinators.filter (·.id = d.coordinatorId)).map (d,·)

/-- The rows that catalog reads see: active, and of a living coordinator. -/
def served (t : CatalogTables) : List DatasetRow :=
  (t.joined.filter fun r => r.1.isActive && r.2.isAlive).map Prod.fst

/-- Whether the coordinator is there and not marked dead. -/
def living (t : CatalogTables) (coordinatorId : String) : Bool :=
  ((t.coordinator? coordinatorId).map CoordinatorRow.isAlive).getD false

theorem living_iff {t : CatalogTables} {id : String} :
    t.living id ↔ ∃ c, t.coordinator? id = some c ∧ c.isAlive := by
  cases hc : t.coordinator? id <;> simp [living,hc]

def AllLiving (t : CatalogTables) : Prop :=
  ∀ id c, t.coordinator? id = some c → c.isAlive

theorem AllLiving.living {t : CatalogTables} (h : t.AllLiving) {key : String × String}
    {d : DatasetRow} (hd : t.dataset? key = some d) : t.living d.coordinatorId := by
  obtain ⟨c,hc⟩ := exists_coordinator hd
  exact living_iff.mpr ⟨c,hc,h _ c hc⟩

theorem AllLiving.insertDataset {t t' : CatalogTables} (h : t.AllLiving) {d : DatasetRow}
    (hins : t.insertDataset d = .ok t') : t'.AllLiving := by
  intro id c hc
  rw [coordinator?_insertDataset hins] at hc
  exact h id c hc

theorem served_eq (t : CatalogTables) :
    t.served = t.datasets.filter fun d => d.isActive && t.living d.coordinatorId := by
  have hrow : ∀ d ∈ t.datasets,
      (((t.coordinators.filter (·.id = d.coordinatorId)).map (d,·)).filter
          fun r => r.1.isActive && r.2.isAlive).map Prod.fst =
        if d.isActive && t.living d.coordinatorId then [d] else [] := by
    intro d hd
    obtain ⟨c,hc,hid⟩ := List.mem_map.mp (t.dataset_coordinators d hd)
    have hlookup : t.coordinator? d.coordinatorId = some c :=
      (lookup_eq_some_iff t.coordinator_ids).mpr ⟨hc,hid⟩
    rw [← hid,filter_key_eq CoordinatorRow.id t.coordinator_ids hc,hid]
    by_cases hserved : (d.isActive && c.isAlive) = true <;> simp [living,hlookup,hserved]
  unfold served joined
  rw [List.filter_flatMap,List.map_flatMap,List.flatMap_congr hrow,flatMap_ite_singleton]

theorem mem_served {t : CatalogTables} {d : DatasetRow} :
    d ∈ t.served ↔ t.dataset? d.key = some d ∧ d.isActive ∧ t.living d.coordinatorId := by
  rw [served_eq,List.mem_filter,Bool.and_eq_true,dataset?,lookup_eq_some_iff t.dataset_keys]
  simp

/-- The row of a key that catalog reads see. -/
def served? (t : CatalogTables) (key : String × String) : Option DatasetRow :=
  (t.dataset? key).filter fun d => d.isActive && t.living d.coordinatorId

theorem AllLiving.served?_eq {t : CatalogTables} (h : t.AllLiving) (key : String × String) :
    t.served? key = (t.dataset? key).filter DatasetRow.isActive := by
  unfold served?
  cases hd : t.dataset? key with
  | none => rfl
  | some d => simp only [Option.filter_some,h.living hd,Bool.and_true]

theorem served?_eq_some {t : CatalogTables} {key : String × String} {d : DatasetRow} :
    t.served? key = some d ↔
      t.dataset? key = some d ∧ d.isActive ∧ t.living d.coordinatorId := by
  simp [served?,Option.filter_eq_some_iff]

theorem mem_served_iff {t : CatalogTables} {d : DatasetRow} :
    d ∈ t.served ↔ t.served? d.key = some d := by
  rw [mem_served,served?_eq_some]

theorem served_keys (t : CatalogTables) : (t.served.map DatasetRow.key).Nodup := by
  rw [served_eq]
  exact t.dataset_keys.sublist (List.filter_sublist.map _)

end CatalogTables

/-- Why a stored row cannot be read back. -/
inductive DecodeError
  | uuid (text : String)
  | sourceType (e : ElanError)
  | json (text : String)
  deriving DecidableEq

/-- Optional text columns decode to `null` when they are absent. -/
def decodeMetadata [JsonText] : Option String → Except DecodeError JsonValue
  | none => .ok .null
  | some text =>
    match JsonText.fromStr text with
    | some v => .ok v
    | none => .error (.json text)

def rowToDataset [JsonText] (r : DatasetRow) : Except DecodeError DatasetInfo :=
  match Uuid.parseStr r.id with
  | none => .error (.uuid r.id)
  | some id =>
    match SourceType.tryFrom r.sourceType with
    | .error e => .error (.sourceType e)
    | .ok sourceType =>
      match decodeMetadata r.metadataJson with
      | .error e => .error e
      | .ok metadata => .ok
        { id := id
          name := r.name
          ns := r.ns
          sourceType := sourceType
          coordinatorId := r.coordinatorId
          executorEndpoint := r.executorEndpoint
          schemaIpc := r.arrowSchemaIpc
          metadata := metadata }

def DatasetInfo.key (d : DatasetInfo) : String × String := (d.ns,d.name)

/-- The record holds what the columns of the row say. -/
structure DatasetRow.Describes [JsonText] (r : DatasetRow) (d : DatasetInfo) : Prop where
  id : Uuid.parseStr r.id = some d.id
  name : d.name = r.name
  ns : d.ns = r.ns
  sourceType : SourceType.tryFrom r.sourceType = .ok d.sourceType
  coordinatorId : d.coordinatorId = r.coordinatorId
  executorEndpoint : d.executorEndpoint = r.executorEndpoint
  schemaIpc : d.schemaIpc = r.arrowSchemaIpc
  metadata : decodeMetadata r.metadataJson = .ok d.metadata

theorem rowToDataset_eq_ok [JsonText] {r : DatasetRow} {d : DatasetInfo} :
    rowToDataset r = .ok d ↔ r.Describes d := by
  unfold rowToDataset
  constructor
  · intro h
    cases hid : Uuid.parseStr r.id <;> rw [hid] at h <;> try cases h
    cases hs : SourceType.tryFrom r.sourceType <;> simp only [hs] at h <;> try cases h
    cases hm : decodeMetadata r.metadataJson <;> simp only [hm] at h <;> cases h
    exact ⟨hid,rfl,rfl,hs,rfl,rfl,rfl,hm⟩
  · intro h
    cases d
    simp only [h.id,h.sourceType,h.metadata]
    have hname := h.name
    have hns := h.ns
    have hcoordinator := h.coordinatorId
    have hendpoint := h.executorEndpoint
    have hschema := h.schemaIpc
    simp_all

theorem DatasetRow.Describes.key [JsonText] {r : DatasetRow} {d : DatasetInfo}
    (h : r.Describes d) : d.key = r.key :=
  Prod.ext h.ns h.name

/-- Every column that is read as more than text can be read. -/
def DatasetRow.Decodes [JsonText] (r : DatasetRow) : Prop :=
  ∃ d, rowToDataset r = .ok d

theorem DatasetRow.decodes_iff [JsonText] {r : DatasetRow} :
    r.Decodes ↔ (∃ id, Uuid.parseStr r.id = some id) ∧
      (∃ s, SourceType.tryFrom r.sourceType = .ok s) ∧
      ∃ v, decodeMetadata r.metadataJson = .ok v := by
  unfold DatasetRow.Decodes
  constructor
  · intro ⟨d,hd⟩
    have hdesc := rowToDataset_eq_ok.mp hd
    exact ⟨⟨_,hdesc.id⟩,⟨_,hdesc.sourceType⟩,⟨_,hdesc.metadata⟩⟩
  · intro ⟨⟨id,hid⟩,⟨s,hs⟩,⟨v,hv⟩⟩
    exact ⟨_,by rw [rowToDataset,hid,hs,hv]⟩

@[simp] theorem DatasetRow.decodes_deactivate [JsonText] {r : DatasetRow} :
    r.deactivate.Decodes ↔ r.Decodes := Iff.rfl

/-- `ORDER BY d.namespace, d.name`. -/
def ByKey (a b : DatasetRow) : Prop := toLex a.key ≤ toLex b.key

instance : DecidableRel ByKey := fun a b =>
  inferInstanceAs (Decidable (toLex a.key ≤ toLex b.key))

instance : Std.Total ByKey := ⟨fun a b => le_total (toLex a.key) (toLex b.key)⟩

instance : IsTrans DatasetRow ByKey := ⟨fun _ _ _ hab hbc => le_trans hab hbc⟩

namespace CatalogStore

open CatalogTables

def upsertCoordinator (t : CatalogTables) (now id environment hostname executorEndpoint : String) :
    CatalogTables :=
  t.insertCoordinator ⟨id,environment,hostname,executorEndpoint,now,now,true⟩

def heartbeat (t : CatalogTables) (now coordinatorId : String) : CatalogTables :=
  t.updateCoordinator coordinatorId (fun c => { c with lastHeartbeatAt := now, isAlive := true })
    fun _ => rfl

def markCoordinatorDead (t : CatalogTables) (coordinatorId : String) : CatalogTables :=
  t.updateCoordinator coordinatorId (fun c => { c with isAlive := false }) fun _ => rfl

/-- The first statement of `upsertDataset`: the endpoint of an unknown coordinator is empty. -/
def lookupEndpoint (t : CatalogTables) (coordinatorId : String) : String :=
  ((t.coordinator? coordinatorId).map CoordinatorRow.executorEndpoint).getD ""

/-- The row that the second statement of `upsertDataset` inserts. -/
def datasetRow (now coordinatorId datasetId name ns sourceType executorEndpoint : String)
    (arrowSchemaIpc : List UInt8) (metadataJson : Option String) : DatasetRow :=
  ⟨datasetId,name,ns,sourceType,coordinatorId,executorEndpoint,arrowSchemaIpc,metadataJson,now,now,
    true⟩

def upsertDataset (t : CatalogTables) (now coordinatorId datasetId name ns sourceType : String)
    (arrowSchemaIpc : List UInt8) (metadataJson : Option String) :
    Except ConstraintError CatalogTables :=
  t.insertDataset (datasetRow now coordinatorId datasetId name ns sourceType
    (lookupEndpoint t coordinatorId) arrowSchemaIpc metadataJson)

def deactivateDataset (t : CatalogTables) (datasetId : String) : CatalogTables :=
  t.deactivateDatasets datasetId

def getDataset [JsonText] (t : CatalogTables) (ns name : String) :
    Except DecodeError (Option DatasetInfo) :=
  match (t.served.filter (·.key = (ns,name))).head? with
  | none => .ok none
  | some r => (rowToDataset r).map some

def inNamespace (namespaceFilter : Option String) (ns : String) : Bool :=
  (namespaceFilter.map (decide <| ns = ·)).getD true

/-- The rows of the listing query, in the order they come. -/
def listedRows (t : CatalogTables) (namespaceFilter : Option String) : List DatasetRow :=
  (t.served.filter fun r => inNamespace namespaceFilter r.ns).insertionSort ByKey

def listDatasets [JsonText] (t : CatalogTables) (namespaceFilter : Option String) :
    Except DecodeError (List DatasetInfo) :=
  (listedRows t namespaceFilter).mapM rowToDataset

variable {t : CatalogTables}

theorem mem_listedRows {namespaceFilter : Option String} {r : DatasetRow} :
    r ∈ listedRows t namespaceFilter ↔
      t.served? r.key = some r ∧ inNamespace namespaceFilter r.ns := by
  unfold listedRows
  rw [List.mem_insertionSort,List.mem_filter,mem_served_iff]

/-- No two rows tie, so that the order is the only one the query may answer in. -/
theorem listedRows_pairwise (t : CatalogTables) (namespaceFilter : Option String) :
    (listedRows t namespaceFilter).Pairwise fun a b => toLex a.key < toLex b.key := by
  have hordered := orderedBy_insertionSort ByKey
    (t.served.filter fun r => inNamespace namespaceFilter r.ns)
  have hkeys : ((listedRows t namespaceFilter).map DatasetRow.key).Nodup := by
    apply (hordered.1.map DatasetRow.key).nodup_iff.mpr
    exact t.served_keys.sublist (List.filter_sublist.map _)
  exact hordered.2.imp₂ (fun a b hle hne => lt_of_le_of_ne hle hne) (List.pairwise_map.mp hkeys)

variable [JsonText]

theorem getDataset_eq (t : CatalogTables) (ns name : String) :
    getDataset t ns name = match t.served? (ns,name) with
      | none => .ok none
      | some r => (rowToDataset r).map some := by
  unfold getDataset
  cases hr : t.served? (ns,name) with
  | none =>
    have hnil : t.served.filter (·.key = (ns,name)) = [] := by
      apply List.filter_eq_nil_iff.mpr
      intro r hmem hkey
      rw [mem_served_iff,of_decide_eq_true hkey,hr] at hmem
      cases hmem
    rw [hnil]
    rfl
  | some r =>
    have hkey : r.key = (ns,name) := dataset?_key (served?_eq_some.mp hr).1
    have hmem : r ∈ t.served := mem_served_iff.mpr (hkey ▸ hr)
    rw [← hkey,filter_key_eq DatasetRow.key t.served_keys hmem]
    rfl

/-- A lookup depends on the row served for its key alone. -/
theorem getDataset_congr {t' : CatalogTables} {ns name : String}
    (h : t'.served? (ns,name) = t.served? (ns,name)) :
    getDataset t' ns name = getDataset t ns name := by
  rw [getDataset_eq,getDataset_eq,h]

theorem getDataset_eq_some {ns name : String} {d : DatasetInfo} :
    getDataset t ns name = .ok (some d) ↔ ∃ r, t.served? (ns,name) = some r ∧ r.Describes d := by
  rw [getDataset_eq]
  cases hr : t.served? (ns,name) with
  | none => simp
  | some r => cases hd : rowToDataset r <;> simp [Except.map,hd,← rowToDataset_eq_ok]

theorem getDataset_eq_none {ns name : String} :
    getDataset t ns name = .ok none ↔ t.served? (ns,name) = none := by
  rw [getDataset_eq]
  cases hr : t.served? (ns,name) with
  | none => simp
  | some r => cases hd : rowToDataset r <;> simp [Except.map,hd]

theorem getDataset_key {ns name : String} {d : DatasetInfo}
    (h : getDataset t ns name = .ok (some d)) : d.key = (ns,name) := by
  obtain ⟨r,hr,hd⟩ := getDataset_eq_some.mp h
  exact hd.key.trans (dataset?_key (served?_eq_some.mp hr).1)

theorem exists_getDataset_iff {ns name : String} :
    (∃ o, getDataset t ns name = .ok o) ↔ ∀ r, t.served? (ns,name) = some r → r.Decodes := by
  rw [getDataset_eq]
  cases hr : t.served? (ns,name) with
  | none => simp
  | some r => cases hd : rowToDataset r <;> simp [Except.map,DatasetRow.Decodes,hd]

theorem decoded_keys {rows : List DatasetRow} {ds : List DatasetInfo}
    (h : rows.mapM rowToDataset = .ok ds) : ds.map DatasetInfo.key = rows.map DatasetRow.key := by
  have h₂ := mapM_eq_ok.mp h
  clear h
  induction h₂ with
  | nil => rfl
  | cons hd _ ih => rw [List.map_cons,List.map_cons,ih,(rowToDataset_eq_ok.mp hd).key]

theorem listDatasets_spec {namespaceFilter : Option String} {ds : List DatasetInfo}
    (h : listDatasets t namespaceFilter = .ok ds) :
    ds.Pairwise (fun a b => toLex a.key < toLex b.key) ∧
      ∀ d, d ∈ ds ↔ inNamespace namespaceFilter d.ns ∧ getDataset t d.ns d.name = .ok (some d) := by
  constructor
  · have hrows : ((listedRows t namespaceFilter).map DatasetRow.key).Pairwise (toLex · < toLex ·) :=
      List.pairwise_map.mpr (listedRows_pairwise t namespaceFilter)
    rw [← decoded_keys h] at hrows
    exact List.pairwise_map.mp hrows
  · intro d
    rw [mem_of_mapM h,getDataset_eq_some]
    constructor
    · intro ⟨r,hr,hd⟩
      have hdesc := rowToDataset_eq_ok.mp hd
      obtain ⟨hserved,hns⟩ := mem_listedRows.mp hr
      rw [← hdesc.key] at hserved
      exact ⟨hdesc.ns ▸ hns,r,hserved,hdesc⟩
    · intro ⟨hns,r,hserved,hdesc⟩
      have hkey : r.key = d.key := dataset?_key (served?_eq_some.mp hserved).1
      exact ⟨r,mem_listedRows.mpr ⟨hkey ▸ hserved,hdesc.ns ▸ hns⟩,rowToDataset_eq_ok.mpr hdesc⟩

/-- A listing succeeds when every record of the namespaces it covers can be read. -/
theorem exists_listDatasets_iff {namespaceFilter : Option String} :
    (∃ ds, listDatasets t namespaceFilter = .ok ds) ↔
      ∀ ns name, inNamespace namespaceFilter ns → ∃ o, getDataset t ns name = .ok o := by
  simp only [exists_getDataset_iff]
  constructor
  · intro ⟨ds,hds⟩ ns name hns r hr
    have hkey : r.key = (ns,name) := dataset?_key (served?_eq_some.mp hr).1
    have hns' : r.ns = ns := congrArg Prod.fst hkey
    have hrow : r ∈ listedRows t namespaceFilter := mem_listedRows.mpr ⟨hkey ▸ hr,hns' ▸ hns⟩
    obtain ⟨d,-,hd⟩ := exists_of_mapM hds hrow
    exact ⟨d,hd⟩
  · intro h
    apply exists_mapM
    intro r hr
    obtain ⟨hserved,hns⟩ := mem_listedRows.mp hr
    exact h r.ns r.name hns r hserved

/-- A listing holds the records of the namespaces it covers, in the order of their keys, and
fails when one of them cannot be read. -/
theorem listDatasets_eq_ok {namespaceFilter : Option String} {ds : List DatasetInfo} :
    listDatasets t namespaceFilter = .ok ds ↔
      (∀ ns name, inNamespace namespaceFilter ns → ∃ o, getDataset t ns name = .ok o) ∧
      ds.Pairwise (fun a b => toLex a.key < toLex b.key) ∧
      ∀ d, d ∈ ds ↔ inNamespace namespaceFilter d.ns ∧ getDataset t d.ns d.name = .ok (some d) := by
  constructor
  · intro h
    exact ⟨exists_listDatasets_iff.mp ⟨ds,h⟩,listDatasets_spec h⟩
  · intro ⟨hok,hsorted,hmem⟩
    obtain ⟨ds',hds'⟩ := exists_listDatasets_iff.mpr hok
    obtain ⟨hsorted',hmem'⟩ := listDatasets_spec hds'
    have : Std.Irrefl fun a b : DatasetInfo => toLex a.key < toLex b.key := ⟨fun _ => lt_irrefl _⟩
    have : Std.Antisymm fun a b : DatasetInfo => toLex a.key < toLex b.key :=
      ⟨fun _ _ hab hba => absurd hba (lt_asymm hab)⟩
    rw [hds',hsorted'.eq_of_mem_iff hsorted fun d => (hmem' d).trans (hmem d).symm]

/-- The listing of one namespace is the part of the whole listing in it. -/
theorem listDatasets_namespace {ds : List DatasetInfo} (h : listDatasets t none = .ok ds)
    (ns : String) : listDatasets t (some ns) = .ok (ds.filter (·.ns = ns)) := by
  obtain ⟨hok,hsorted,hmem⟩ := listDatasets_eq_ok.mp h
  apply listDatasets_eq_ok.mpr
  refine ⟨fun ns' name _ => hok ns' name rfl,hsorted.filter _,?_⟩
  intro d
  rw [List.mem_filter,hmem]
  simp [inNamespace,and_comm]

end CatalogStore

end Elan
