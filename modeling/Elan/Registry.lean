import Elan.CatalogStore
import Elan.TransitionSystem

/-! The catalog store as a registry by namespace and name. What is registered is said of the
history of accepted operations alone, and the tables represent it. -/
namespace Elan

open TransitionSystem CatalogTables

structure DatasetUpsert where
  coordinatorId : String
  datasetId : String
  name : String
  ns : String
  sourceType : String
  arrowSchemaIpc : List UInt8
  metadataJson : Option String
  deriving DecidableEq

def DatasetUpsert.key (u : DatasetUpsert) : String × String := (u.ns,u.name)

inductive CatalogOp
  | upsertCoordinator (now id environment hostname executorEndpoint : String)
  | heartbeat (now coordinatorId : String)
  | markCoordinatorDead (coordinatorId : String)
  | upsertDataset (now : String) (u : DatasetUpsert)
  | deactivateDataset (datasetId : String)
  deriving DecidableEq

namespace CatalogOp

def apply (op : CatalogOp) (t : CatalogTables) : Except ConstraintError CatalogTables :=
  match op with
  | upsertCoordinator now id environment hostname executorEndpoint =>
    .ok (CatalogStore.upsertCoordinator t now id environment hostname executorEndpoint)
  | heartbeat now coordinatorId => .ok (CatalogStore.heartbeat t now coordinatorId)
  | markCoordinatorDead coordinatorId => .ok (CatalogStore.markCoordinatorDead t coordinatorId)
  | upsertDataset now u =>
    CatalogStore.upsertDataset t now u.coordinatorId u.datasetId u.name u.ns u.sourceType
      u.arrowSchemaIpc u.metadataJson
  | deactivateDataset datasetId => .ok (CatalogStore.deactivateDataset t datasetId)

def step (op : CatalogOp) (t : CatalogTables) : Option CatalogTables :=
  match op.apply t with
  | .ok t' => some t'
  | .error _ => some t

/-- Accepted operations are recorded, the latest first. -/
def record (op : CatalogOp) (t _ : CatalogTables) (h : List CatalogOp) : List CatalogOp :=
  match op.apply t with
  | .ok _ => op :: h
  | .error _ => h

end CatalogOp

namespace Registry

/-- The upsert of the key that an operation is. -/
def upsertOf (key : String × String) : CatalogOp → Option DatasetUpsert
  | .upsertDataset _ u => if u.key = key then some u else none
  | _ => none

def latest (key : String × String) (h : List CatalogOp) : Option DatasetUpsert :=
  h.findSome? (upsertOf key)

/-- The identifier stored for a key: that of its first upsert. -/
def storedId (key : String × String) (h : List CatalogOp) : Option String :=
  (h.reverse.findSome? (upsertOf key)).map DatasetUpsert.datasetId

/-- The upserts of the key, and the deactivations that name its identifier. -/
def concerns (key : String × String) (id : String) : CatalogOp → Bool
  | .upsertDataset _ u => u.key = key
  | .deactivateDataset datasetId => datasetId = id
  | _ => false

/-- The last operation that concerns the key is an upsert. -/
def registered (key : String × String) (h : List CatalogOp) : Bool :=
  match storedId key h with
  | none => false
  | some id => ((h.find? (concerns key id)).bind (upsertOf key)).isSome

def changesLiveness (coordinatorId : String) : CatalogOp → Bool
  | .upsertCoordinator _ id _ _ _ => id = coordinatorId
  | .heartbeat _ id => id = coordinatorId
  | .markCoordinatorDead id => id = coordinatorId
  | _ => false

/-- The last operation that changes the coordinator's liveness does not mark it dead. -/
def live (coordinatorId : String) (h : List CatalogOp) : Bool :=
  h.find? (changesLiveness coordinatorId) ≠ some (.markCoordinatorDead coordinatorId)

/-- The dataset that is registered under a key and served. -/
def entry (key : String × String) (h : List CatalogOp) : Option DatasetUpsert :=
  (latest key h).filter fun u => registered key h && live u.coordinatorId h

variable {key : String × String} {h : List CatalogOp}

theorem latest_cons (op : CatalogOp) :
    latest key (op :: h) = (upsertOf key op).or (latest key h) := by
  unfold latest
  rw [List.findSome?_cons]
  cases upsertOf key op <;> rfl

theorem storedId_cons (op : CatalogOp) : storedId key (op :: h) =
    (storedId key h).or ((upsertOf key op).map DatasetUpsert.datasetId) := by
  unfold storedId
  rw [List.reverse_cons,List.findSome?_append]
  cases h.reverse.findSome? (upsertOf key) <;> cases hop : upsertOf key op <;>
    simp [List.findSome?,hop]

theorem storedId_eq_none : storedId key h = none ↔ latest key h = none := by
  unfold storedId latest
  simp [List.findSome?_eq_none_iff]

/-- Operations that are neither upserts of the key nor deactivations leave it as it was. -/
theorem registered_cons_of_not (op : CatalogOp) (hop : ∀ id, concerns key id op = false) :
    registered key (op :: h) = registered key h := by
  have hupsert : upsertOf key op = none := by
    cases op with
    | upsertDataset now u =>
      have hne : u.key ≠ key := by simpa [concerns] using hop ""
      exact if_neg hne
    | _ => rfl
  unfold registered
  rw [storedId_cons,hupsert]
  cases storedId key h with
  | none => rfl
  | some id => simp [hop]

theorem registered_upsert {now : String} {u : DatasetUpsert} (hu : u.key = key) :
    registered key (.upsertDataset now u :: h) = true := by
  have hop : upsertOf key (.upsertDataset now u) = some u := if_pos hu
  unfold registered
  rw [storedId_cons,hop]
  cases storedId key h <;> simp [concerns,hu,hop]

theorem registered_deactivate {id datasetId : String} (hid : storedId key h = some id) :
    registered key (.deactivateDataset datasetId :: h) =
      (registered key h && id ≠ datasetId) := by
  have hcons : storedId key (.deactivateDataset datasetId :: h) = some id := by
    rw [storedId_cons,hid]
    rfl
  unfold registered
  rw [hcons,hid]
  by_cases he : datasetId = id
  · simp [concerns,he,upsertOf]
  · simp [concerns,he,Ne.symm he]

theorem live_cons (coordinatorId : String) (op : CatalogOp) : live coordinatorId (op :: h) =
    if changesLiveness coordinatorId op then decide (op ≠ .markCoordinatorDead coordinatorId)
    else live coordinatorId h := by
  unfold live
  by_cases hop : changesLiveness coordinatorId op = true <;> simp [hop]

end Registry

structure DatasetUpsert.StoredIn (u : DatasetUpsert) (r : DatasetRow) : Prop where
  name : r.name = u.name
  ns : r.ns = u.ns
  sourceType : r.sourceType = u.sourceType
  coordinatorId : r.coordinatorId = u.coordinatorId
  arrowSchemaIpc : r.arrowSchemaIpc = u.arrowSchemaIpc
  metadataJson : r.metadataJson = u.metadataJson

open Registry

/-- The tables agree with the history. -/
structure Represents (t : CatalogTables) (h : List CatalogOp) : Prop where
  living : ∀ id c, t.coordinator? id = some c → c.isAlive = live id h
  absent : ∀ key, t.dataset? key = none → latest key h = none
  row : ∀ key r, t.dataset? key = some r → ∃ u, latest key h = some u ∧ u.StoredIn r ∧
    storedId key h = some r.id ∧ r.isActive = registered key h

theorem represents_empty : Represents .empty [] := by
  refine ⟨?_,fun _ _ => rfl,?_⟩
  · intro id c hc
    cases hc
  · intro key r hr
    cases hr

/-- An operation on a coordinator alone changes no more than whether it is alive. -/
theorem Represents.coordinatorOp {t t' : CatalogTables} {h : List CatalogOp}
    (hrep : Represents t h) {op : CatalogOp} (hdatasets : t'.datasets = t.datasets)
    (hconcerns : ∀ key id, concerns key id op = false)
    (hupsert : ∀ key, upsertOf key op = none)
    (hliving : ∀ id c, t'.coordinator? id = some c → c.isAlive = live id (op :: h)) :
    Represents t' (op :: h) := by
  have hdataset (key : String × String) : t'.dataset? key = t.dataset? key := by
    unfold dataset?
    rw [hdatasets]
  refine ⟨hliving,?_,?_⟩
  · intro key hnone
    rw [latest_cons,hupsert]
    exact hrep.absent key (hdataset key ▸ hnone)
  · intro key r hr
    rw [latest_cons,hupsert,storedId_cons,hupsert,registered_cons_of_not op (hconcerns key)]
    obtain ⟨u,hu,hstored,hid,hactive⟩ := hrep.row key r (hdataset key ▸ hr)
    exact ⟨u,hu,hstored,by rw [hid]; rfl,hactive⟩

theorem Represents.upsertCoordinator {t : CatalogTables} {h : List CatalogOp}
    (hrep : Represents t h) (now id environment hostname executorEndpoint : String) :
    Represents (CatalogStore.upsertCoordinator t now id environment hostname executorEndpoint)
      (.upsertCoordinator now id environment hostname executorEndpoint :: h) := by
  refine hrep.coordinatorOp rfl (fun _ _ => rfl) (fun _ => rfl) ?_
  intro id' c hc
  rw [CatalogStore.upsertCoordinator,coordinator?_insertCoordinator] at hc
  rw [live_cons]
  by_cases hid : id' = id
  · rw [if_pos hid] at hc
    have halive : c.isAlive = true := by
      cases hold : t.coordinator? id' <;> rw [hold] at hc <;> cases hc <;> rfl
    simp [changesLiveness,hid,halive]
  · rw [if_neg hid] at hc
    simpa [changesLiveness,Ne.symm hid] using hrep.living id' c hc

theorem Represents.updateCoordinator {t : CatalogTables} {h : List CatalogOp}
    (hrep : Represents t h) {op : CatalogOp} {id : String} {u : CoordinatorRow → CoordinatorRow}
    (hu : ∀ c, (u c).id = c.id) (hconcerns : ∀ key id, concerns key id op = false)
    (hupsert : ∀ key, upsertOf key op = none)
    (hchanges : ∀ id', changesLiveness id' op = decide (id = id'))
    (hset : ∀ c, (u c).isAlive = decide (op ≠ .markCoordinatorDead id)) :
    Represents (t.updateCoordinator id u hu) (op :: h) := by
  refine hrep.coordinatorOp rfl hconcerns hupsert ?_
  intro id' c hc
  rw [coordinator?_updateCoordinator] at hc
  rw [live_cons,hchanges]
  by_cases hid : id' = id
  · rw [if_pos hid] at hc
    obtain ⟨c₀,-,rfl⟩ := Option.map_eq_some_iff.mp hc
    simp [hset,hid]
  · rw [if_neg hid] at hc
    simpa [Ne.symm hid] using hrep.living id' c hc

theorem Represents.deactivateDataset {t : CatalogTables} {h : List CatalogOp}
    (hrep : Represents t h) (datasetId : String) :
    Represents (CatalogStore.deactivateDataset t datasetId)
      (.deactivateDataset datasetId :: h) := by
  refine ⟨?_,?_,?_⟩
  · intro id c hc
    rw [live_cons]
    exact hrep.living id c hc
  · intro key hnone
    rw [CatalogStore.deactivateDataset,dataset?_deactivateDatasets,Option.map_eq_none_iff] at hnone
    exact hrep.absent key hnone
  · intro key r hr
    rw [CatalogStore.deactivateDataset,dataset?_deactivateDatasets] at hr
    obtain ⟨r₀,hr₀,rfl⟩ := Option.map_eq_some_iff.mp hr
    obtain ⟨u,hu,hstored,hid,hactive⟩ := hrep.row key r₀ hr₀
    have hkept : storedId key (.deactivateDataset datasetId :: h) = some r₀.id := by
      rw [storedId_cons,hid]
      rfl
    rw [registered_deactivate hid,← hactive,hkept]
    by_cases he : r₀.id = datasetId
    · rw [if_pos he]
      refine ⟨u,hu,?_,rfl,by simp [he,DatasetRow.deactivate]⟩
      exact ⟨hstored.1,hstored.2,hstored.3,hstored.4,hstored.5,hstored.6⟩
    · rw [if_neg he]
      exact ⟨u,hu,hstored,rfl,by simp [he]⟩

theorem Represents.insertDataset {t t' : CatalogTables} {h : List CatalogOp}
    (hrep : Represents t h) {now : String} {u : DatasetUpsert} {d : DatasetRow}
    (hins : t.insertDataset d = .ok t') (hstored : u.StoredIn d) (hid : d.id = u.datasetId)
    (hactive : d.isActive = true) : Represents t' (.upsertDataset now u :: h) := by
  have hdkey : d.key = u.key := Prod.ext hstored.ns hstored.name
  have hrow := (insertDataset_eq_ok hins).2
  refine ⟨?_,?_,?_⟩
  · intro id c hc
    rw [coordinator?_insertDataset hins] at hc
    rw [live_cons]
    exact hrep.living id c hc
  · intro key hnone
    rw [hrow,hdkey] at hnone
    split_ifs at hnone with hkey
    have hop : upsertOf key (.upsertDataset now u) = none := if_neg (Ne.symm hkey)
    rw [latest_cons,hop]
    exact hrep.absent key hnone
  · intro key r hr
    rw [hrow,hdkey] at hr
    rw [latest_cons,storedId_cons]
    split_ifs at hr with hkey
    · subst hkey
      cases hr
      have hop : upsertOf u.key (.upsertDataset now u) = some u := if_pos rfl
      rw [hop,registered_upsert rfl,written_id,written_eq hactive,hdkey]
      refine ⟨u,rfl,⟨hstored.1,hstored.2,hstored.3,hstored.4,hstored.5,hstored.6⟩,?_,hactive⟩
      cases hold : t.dataset? u.key with
      | none => simp [storedId_eq_none.mpr (hrep.absent _ hold),hid]
      | some r₀ =>
        obtain ⟨-,-,-,hid₀,-⟩ := hrep.row _ r₀ hold
        simp [hid₀]
    · have hop : upsertOf key (.upsertDataset now u) = none := if_neg (Ne.symm hkey)
      obtain ⟨v,hv,hstoredv,hidv,hactivev⟩ := hrep.row key r hr
      rw [hop,hv,hidv,registered_cons_of_not _ fun id => by simpa [concerns] using Ne.symm hkey]
      exact ⟨v,rfl,hstoredv,rfl,hactivev⟩

theorem Represents.step {t t' : CatalogTables} {h : List CatalogOp} (hrep : Represents t h)
    {op : CatalogOp} (hstep : op.step t = some t') : Represents t' (op.record t t' h) := by
  cases op with
  | upsertCoordinator now id environment hostname executorEndpoint =>
    cases hstep
    exact hrep.upsertCoordinator now id environment hostname executorEndpoint
  | heartbeat now id =>
    cases hstep
    exact hrep.updateCoordinator _ (fun _ _ => rfl) (fun _ => rfl) (fun _ => rfl) fun _ => rfl
  | markCoordinatorDead id =>
    cases hstep
    refine hrep.updateCoordinator _ (fun _ _ => rfl) (fun _ => rfl) (fun _ => rfl) fun _ => ?_
    simp
  | deactivateDataset datasetId =>
    cases hstep
    exact hrep.deactivateDataset datasetId
  | upsertDataset now u =>
    unfold CatalogOp.step at hstep
    unfold CatalogOp.record
    cases hins : CatalogOp.apply (.upsertDataset now u) t with
    | error e =>
      rw [hins] at hstep
      cases hstep
      exact hrep
    | ok t₁ =>
      rw [hins] at hstep
      cases hstep
      exact hrep.insertDataset hins ⟨rfl,rfl,rfl,rfl,rfl,rfl⟩ rfl rfl

theorem represents_run {ops : List CatalogOp} {t : CatalogTables} {h : List CatalogOp}
    (hrun : run (withHistory CatalogOp.step CatalogOp.record) ops (.empty,[]) = some (t,h)) :
    Represents t h := by
  have hstep : ∀ op (x y : CatalogTables × List CatalogOp), Represents x.1 x.2 → True →
      withHistory CatalogOp.step CatalogOp.record op x = some y → Represents y.1 y.2 := by
    intro op x y hrep _ hxy
    obtain ⟨htables,hhistory⟩ := withHistory_eq_some.mp hxy
    rw [hhistory]
    exact hrep.step htables
  exact run_invariant hstep represents_empty (meets_of_forall (fun _ _ _ => trivial) _) hrun

theorem exists_of_latest {key : String × String} {h : List CatalogOp} {u : DatasetUpsert}
    (hu : latest key h = some u) : ∃ now, .upsertDataset now u ∈ h := by
  obtain ⟨op,hop,hupsert⟩ := List.exists_of_findSome?_eq_some hu
  cases op with
  | upsertDataset now v =>
    simp only [upsertOf] at hupsert
    split_ifs at hupsert
    cases hupsert
    exact ⟨now,hop⟩
  | _ => cases hupsert

theorem exists_of_storedId {key : String × String} {h : List CatalogOp} {id : String}
    (hid : storedId key h = some id) : ∃ now u, .upsertDataset now u ∈ h ∧ u.datasetId = id := by
  obtain ⟨u,hu,rfl⟩ := Option.map_eq_some_iff.mp hid
  obtain ⟨now,hmem⟩ := exists_of_latest hu
  exact ⟨now,u,List.mem_reverse.mp hmem,rfl⟩

/-- What is served under a key is the entry of the key. -/
theorem Represents.served? {t : CatalogTables} {h : List CatalogOp} (hrep : Represents t h)
    (key : String × String) :
    entry key h = none ∧ t.served? key = none ∨ ∃ u r, entry key h = some u ∧
      t.served? key = some r ∧ latest key h = some u ∧ storedId key h = some r.id ∧
      u.StoredIn r := by
  unfold entry CatalogTables.served?
  cases hr : t.dataset? key with
  | none => exact .inl ⟨by rw [hrep.absent key hr]; rfl,rfl⟩
  | some r =>
    obtain ⟨u,hu,hstored,hid,hactive⟩ := hrep.row key r hr
    obtain ⟨c,hc⟩ := exists_coordinator hr
    have hliving : t.living r.coordinatorId = live u.coordinatorId h := by
      rw [← hstored.coordinatorId,← hrep.living _ c hc]
      simp [CatalogTables.living,hc]
    rw [hu,Option.filter_some,Option.filter_some,← hactive,← hliving]
    by_cases hserved : (r.isActive && t.living r.coordinatorId) = true
    · rw [if_pos hserved,if_pos hserved]
      exact .inr ⟨u,r,rfl,rfl,rfl,hid,hstored⟩
    · rw [if_neg hserved,if_neg hserved]
      exact .inl ⟨rfl,rfl⟩

variable [JsonText]

/-- The texts of the dataset can be read. -/
structure DatasetUpsert.Decodable (u : DatasetUpsert) : Prop where
  id : ∃ id, Uuid.parseStr u.datasetId = some id
  sourceType : ∃ s, SourceType.tryFrom u.sourceType = .ok s
  metadata : ∃ v, decodeMetadata u.metadataJson = .ok v

/-- The record carries what the dataset was handed over with. -/
structure DatasetUpsert.CarriedBy (u : DatasetUpsert) (d : DatasetInfo) : Prop where
  key : d.key = u.key
  sourceType : SourceType.tryFrom u.sourceType = .ok d.sourceType
  coordinatorId : d.coordinatorId = u.coordinatorId
  schemaIpc : d.schemaIpc = u.arrowSchemaIpc
  metadata : decodeMetadata u.metadataJson = .ok d.metadata

/-- The store answers as the registry does: a lookup returns the entry of its key, and the
listing holds just what lookups return. -/
structure AnswersAs (t : CatalogTables) (h : List CatalogOp) : Prop where
  get : ∀ ns name, match entry (ns,name) h with
    | none => CatalogStore.getDataset t ns name = .ok none
    | some u => ∃ d, CatalogStore.getDataset t ns name = .ok (some d) ∧ u.CarriedBy d
  list : ∃ ds, CatalogStore.listDatasets t none = .ok ds ∧
    (∀ d, d ∈ ds ↔ CatalogStore.getDataset t d.ns d.name = .ok (some d)) ∧
    ds.Pairwise (fun a b => toLex a.key < toLex b.key) ∧
    ∀ ns, CatalogStore.listDatasets t (some ns) = .ok (ds.filter (·.ns = ns))

theorem Represents.getDataset {t : CatalogTables} {h : List CatalogOp} (hrep : Represents t h)
    (hdec : ∀ now u, .upsertDataset now u ∈ h → u.Decodable) (ns name : String) :
    match entry (ns,name) h with
    | none => CatalogStore.getDataset t ns name = .ok none
    | some u => ∃ d, CatalogStore.getDataset t ns name = .ok (some d) ∧ u.CarriedBy d := by
  rcases hrep.served? (ns,name) with ⟨hentry,hserved⟩ | ⟨u,r,hentry,hserved,hu,hid,hstored⟩
  · rw [hentry]
    exact CatalogStore.getDataset_eq_none.mpr hserved
  · rw [hentry]
    obtain ⟨now,hmem⟩ := exists_of_latest hu
    obtain ⟨now',v,hmem',hvid⟩ := exists_of_storedId hid
    have hdecodes : r.Decodes := by
      rw [DatasetRow.decodes_iff,← hvid,hstored.sourceType,hstored.metadataJson]
      exact ⟨(hdec now' v hmem').id,(hdec now u hmem).sourceType,(hdec now u hmem).metadata⟩
    obtain ⟨d,hd⟩ := hdecodes
    have hdesc := rowToDataset_eq_ok.mp hd
    refine ⟨d,CatalogStore.getDataset_eq_some.mpr ⟨r,hserved,hdesc⟩,?_⟩
    exact
      { key := hdesc.key.trans (Prod.ext hstored.ns hstored.name)
        sourceType := hstored.sourceType ▸ hdesc.sourceType
        coordinatorId := hdesc.coordinatorId.trans hstored.coordinatorId
        schemaIpc := hdesc.schemaIpc.trans hstored.arrowSchemaIpc
        metadata := hstored.metadataJson ▸ hdesc.metadata }

/-- After any sequence of operations the store answers as the registry of the accepted ones. -/
theorem catalogStore_refines_registry {ops : List CatalogOp} {t : CatalogTables}
    {h : List CatalogOp}
    (hrun : run (withHistory CatalogOp.step CatalogOp.record) ops (.empty,[]) = some (t,h))
    (hdec : ∀ now u, .upsertDataset now u ∈ h → u.Decodable) : AnswersAs t h := by
  have hget := (represents_run hrun).getDataset hdec
  have hok : ∀ ns name, ∃ o, CatalogStore.getDataset t ns name = .ok o := by
    intro ns name
    have hgot := hget ns name
    cases hentry : entry (ns,name) h with
    | none =>
      rw [hentry] at hgot
      exact ⟨none,hgot⟩
    | some u =>
      rw [hentry] at hgot
      obtain ⟨d,hd,-⟩ := hgot
      exact ⟨some d,hd⟩
  obtain ⟨ds,hds⟩ := CatalogStore.exists_listDatasets_iff.mpr fun ns name _ => hok ns name
  obtain ⟨hsorted,hmem⟩ := CatalogStore.listDatasets_spec hds
  refine ⟨hget,ds,hds,?_,hsorted,CatalogStore.listDatasets_namespace hds⟩
  intro d
  simpa [CatalogStore.inNamespace] using hmem d

def sampleUpsert (coordinatorId datasetId name : String) : DatasetUpsert :=
  ⟨coordinatorId,datasetId,name,"analytics","parquet",[],none⟩

/-- Of three datasets one is deactivated, and the coordinator of another is marked dead. -/
def sampleOps : List CatalogOp :=
  [.upsertCoordinator "t0" "c1" "prod" "node-1" "node-1:50051",
    .upsertCoordinator "t0" "c2" "prod" "node-2" "node-2:50051",
    .upsertDataset "t1" (sampleUpsert "c1" "00000000-0000-0000-0000-000000000010" "events"),
    .upsertDataset "t1" (sampleUpsert "c1" "00000000-0000-0000-0000-000000000011" "clicks"),
    .upsertDataset "t1" (sampleUpsert "c2" "00000000-0000-0000-0000-000000000012" "orders"),
    .deactivateDataset "00000000-0000-0000-0000-000000000011",.markCoordinatorDead "c2"]

theorem sampleOps_decodable :
    ∀ now u, .upsertDataset now u ∈ sampleOps.reverse → u.Decodable := by
  have hdecodable {coordinatorId datasetId name : String} (id : Uuid)
      (hid : Uuid.parseStr datasetId = some id) :
      (sampleUpsert coordinatorId datasetId name).Decodable :=
    ⟨⟨id,hid⟩,⟨.parquet,rfl⟩,⟨.null,rfl⟩⟩
  intro now u hmem
  simp only [sampleOps,List.mem_reverse,List.mem_cons,CatalogOp.upsertDataset.injEq,reduceCtorEq,
    List.not_mem_nil,false_or,or_false] at hmem
  rcases hmem with ⟨-,rfl⟩ | ⟨-,rfl⟩ | ⟨-,rfl⟩
  · exact hdecodable (.ofByte 16) rfl
  · exact hdecodable (.ofByte 17) rfl
  · exact hdecodable (.ofByte 18) rfl

omit [JsonText] in
theorem catalogStore_refines_registry_sample : ∃ t h,
    run (withHistory CatalogOp.step CatalogOp.record) sampleOps (.empty,[]) = some (t,h) ∧
    h = sampleOps.reverse ∧ ∀ _ : JsonText, AnswersAs t h ∧
      (∃ d, CatalogStore.getDataset t "analytics" "events" = .ok (some d) ∧
        (sampleUpsert "c1" "00000000-0000-0000-0000-000000000010" "events").CarriedBy d) ∧
      CatalogStore.getDataset t "analytics" "clicks" = .ok none ∧
      CatalogStore.getDataset t "analytics" "orders" = .ok none := by
  obtain ⟨⟨t,h⟩,hrun,hhistory⟩ : ∃ s : CatalogTables × List CatalogOp,
      run (withHistory CatalogOp.step CatalogOp.record) sampleOps (.empty,[]) = some s ∧
        s.2 = sampleOps.reverse := ⟨_,rfl,rfl⟩
  subst hhistory
  refine ⟨t,_,hrun,rfl,fun _ => ?_⟩
  have hanswers := catalogStore_refines_registry hrun sampleOps_decodable
  exact ⟨hanswers,hanswers.get "analytics" "events",hanswers.get "analytics" "clicks",
    hanswers.get "analytics" "orders"⟩

end Elan
