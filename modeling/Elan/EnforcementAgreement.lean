import Elan.PlanRewrite
import Elan.Session
import Elan.TransitionSystem

/-! The two places where access is decided: the catalog checks the name a table is asked for,
and the optimizer rule checks the identity that the scan of the table carries. -/
namespace Elan

open TransitionSystem PlanRewrite

/-- A request for a table, with the central catalog's answer in case it is asked. -/
structure TableCall where
  ns : String
  name : String
  central : Except RpcError DatasetProto

variable [JsonText]

/-- The answer is that of the central catalog over some tables, or none came. -/
def TableCall.FromCentral (call : TableCall) : Prop :=
  (∃ t, call.central = centralAnswer t call.ns call.name) ∨
    ∃ message, call.central = .error (.transport message)

variable [ArrowIpc]

def TableCall.step (call : TableCall) (c : ElanCatalogProvider) : Option ElanCatalogProvider :=
  some (c.table call.ns call.name call.central).2

/-- Everything cached under a namespace and a name describes the dataset of that namespace
and name, and all providers decide by one engine and subject. -/
def Keyed (engine : IamEngine) (subject : Subject) (c : ElanCatalogProvider) : Prop :=
  ∀ ns p, c.schema ns = some p → p.ns = ns ∧ p.engine = engine ∧ p.subject = subject ∧
    ∀ name t, p.datasets.get? name = some t → t.dataset.key = (ns,name)

/-- The provider comes from a session that started with this catalog: some requests were made,
and then one for this namespace and name returned it. -/
def Obtained (start : ElanCatalogProvider) (ns name : String) (t : ElanTableProvider) : Prop :=
  ∃ (calls : List TableCall) (c : ElanCatalogProvider) (central : Except RpcError DatasetProto),
    (∀ call ∈ calls, call.FromCentral) ∧ run TableCall.step calls start = some c ∧
    TableCall.FromCentral ⟨ns,name,central⟩ ∧ (c.table ns name central).1 = .ok (some t)

variable {engine : IamEngine} {subject : Subject}

omit [ArrowIpc] in
/-- The central catalog answers a request with the dataset asked for. -/
theorem TableCall.FromCentral.key {call : TableCall} (h : call.FromCentral) {proto : DatasetProto}
    (hproto : call.central = .ok proto) {d : DatasetInfo}
    (hd : DatasetInfo.ofProto proto = .ok d) : d.key = (call.ns,call.name) := by
  rcases h with ⟨t,ht⟩ | ⟨message,hm⟩
  · rw [hproto] at ht
    unfold centralAnswer CatalogSvc.getDataset at ht
    cases hget : CatalogStore.getDataset t call.ns call.name with
    | error e =>
      rw [hget] at ht
      cases ht
    | ok o =>
      cases o with
      | none =>
        rw [hget] at ht
        cases ht
      | some d₀ =>
        rw [hget] at ht
        cases ht
        rw [DatasetInfo.ofProto_ofDataset] at hd
        cases hd
        have hkey : d₀.key = (call.ns,call.name) := CatalogStore.getDataset_key hget
        exact hkey
  · rw [hproto] at hm
    cases hm

omit [ArrowIpc] in
theorem loadDatasets_ns {answer : Except RpcError (List (Except RpcError DatasetProto))}
    {m : DatasetsByNs} (h : loadDatasets answer = .ok m) {ns : String} {ds : List DatasetInfo}
    (hds : m.get? ns = some ds) {d : DatasetInfo} (hd : d ∈ ds) : d.ns = ns := by
  obtain ⟨-,all,-,-,hget⟩ := loadDatasets_eq_ok h
  rw [hget] at hds
  split_ifs at hds
  cases hds
  simpa using (List.mem_filter.mp hd).2

theorem keyed_build {answer : Except RpcError (List (Except RpcError DatasetProto))}
    {m : DatasetsByNs} (h : loadDatasets answer = .ok m) {Op : Type} :
    Keyed engine subject (buildForUser m engine subject : Session Op).catalog := by
  intro ns p hp
  rw [buildForUser_schema] at hp
  obtain ⟨ds,hds,rfl⟩ := Option.map_eq_some_iff.mp hp
  refine ⟨rfl,rfl,rfl,?_⟩
  intro name t ht
  obtain ⟨d,hd,rfl,rfl⟩ := ElanSchemaProvider.exists_of_new ht
  exact Prod.ext (loadDatasets_ns h hds hd) rfl

/-- A request leaves each name with its own dataset, also where it fills the cache. -/
theorem Keyed.step {c c' : ElanCatalogProvider} (h : Keyed engine subject c) {call : TableCall}
    (hcall : call.FromCentral) (hstep : call.step c = some c') : Keyed engine subject c' := by
  cases hstep
  unfold ElanCatalogProvider.table
  cases hp : c.schema call.ns with
  | none => exact h
  | some p =>
    obtain ⟨hns,hengine,hsubject,hcache⟩ := h call.ns p hp
    intro ns q hq
    rw [ElanCatalogProvider.schema,StringMap.get?_insert] at hq
    split_ifs at hq with heq
    · subst heq
      cases hq
      rcases p.table_cases call.name call.central with ⟨hsame,-⟩ | ⟨proto,d,hproto,hd,-,-,htable⟩
      · rw [hsame]
        exact ⟨hns,hengine,hsubject,hcache⟩
      · rw [htable]
        refine ⟨hns,hengine,hsubject,?_⟩
        intro name t ht
        rw [StringMap.get?_insert] at ht
        split_ifs at ht with hname
        · subst hname
          cases ht
          exact hcall.key hproto hd
        · exact hcache name t ht
    · exact h ns q hq

theorem Keyed.run {calls : List TableCall} {c c' : ElanCatalogProvider}
    (h : Keyed engine subject c) (hcalls : ∀ call ∈ calls, call.FromCentral)
    (hrun : run TableCall.step calls c = some c') : Keyed engine subject c' :=
  run_invariant (fun _ _ _ h hcall hstep => h.step hcall hstep) h
    (meets_of_forall (fun call hmem _ => hcalls call hmem) c) hrun

/-- What a request returns is visible to the subject and describes the dataset asked for. -/
theorem Keyed.table {c : ElanCatalogProvider} (h : Keyed engine subject c) {ns name : String}
    {central : Except RpcError DatasetProto} (hcall : TableCall.FromCentral ⟨ns,name,central⟩)
    {t : ElanTableProvider} (ht : (c.table ns name central).1 = .ok (some t)) :
    t.dataset.key = (ns,name) ∧ isVisible engine subject ns name := by
  unfold ElanCatalogProvider.table at ht
  cases hp : c.schema ns with
  | none =>
    rw [hp] at ht
    cases ht
  | some p =>
    rw [hp] at ht
    obtain ⟨hns,hengine,hsubject,hcache⟩ := h ns p hp
    rcases p.table_cases name central with ⟨-,hresult⟩ | ⟨proto,d,hproto,hd,hvisible,-,htable⟩
    · obtain ⟨hvisible,hcached⟩ := hresult t ht
      rw [hns,hengine,hsubject] at hvisible
      exact ⟨hcache name t hcached,hvisible⟩
    · rw [hns,hengine,hsubject] at hvisible
      simp only [htable] at ht
      cases ht
      exact ⟨hcall.key hproto hd,hvisible⟩

omit [JsonText] [ArrowIpc] in
theorem ElanTableProvider.scan_dataset {t : ElanTableProvider} {projection : Option (List ℕ)}
    {filters : List Expr} {limit : Option ℕ} {scan : RemoteTableScanExec}
    (h : t.scan projection filters limit = .ok scan) : scan.dataset = t.dataset := by
  cases projection with
  | none => cases h; rfl
  | some proj =>
    simp only [ElanTableProvider.scan,bind,Except.bind] at h
    cases hs : t.schema.project proj with
    | error e => simp [hs] at h
    | ok s =>
      simp only [hs,Except.ok.injEq] at h
      rw [← h]

theorem Obtained.spec {start : ElanCatalogProvider} (hstart : Keyed engine subject start)
    {ns name : String} {t : ElanTableProvider} (h : Obtained start ns name t) :
    t.dataset.key = (ns,name) ∧ isVisible engine subject ns name := by
  obtain ⟨calls,c,central,hcalls,hrun,hcall,ht⟩ := h
  exact (hstart.run hcalls hrun).table hcall ht

def PlannedFrom (start : ElanCatalogProvider) (scan : RemoteTableScanExec) : Prop :=
  ∃ ns name t projection filters limit, Obtained start ns name t ∧
    t.scan projection filters limit = .ok scan

theorem PlannedFrom.allowed {start : ElanCatalogProvider} (hstart : Keyed engine subject start)
    {scan : RemoteTableScanExec} (h : PlannedFrom start scan) :
    deniedScan engine subject scan = false := by
  obtain ⟨ns,name,t,projection,filters,limit,hobtained,hscan⟩ := h
  obtain ⟨hkey,hvisible⟩ := hobtained.spec hstart
  obtain ⟨hns,hname⟩ := Prod.mk.inj hkey
  unfold deniedScan RemoteTableScanExec.datasetNamespace RemoteTableScanExec.datasetName
  rw [ElanTableProvider.scan_dataset hscan,hns,hname]
  unfold isVisible at hvisible
  rw [hvisible]
  rfl

/-- Catalog and rule agree: a provider returned for a name describes the dataset of that name,
its scans are allowed by the rule, and a plan of such scans alone is left as it is. -/
theorem enforcement_agrees {Op : Type} [PlanOperators Op] (hops : LawfulOperators Op)
    {answer : Except RpcError (List (Except RpcError DatasetProto))} {m : DatasetsByNs}
    (hload : loadDatasets answer = .ok m) (engine : IamEngine) (subject : Subject) :
    (∀ ns name t, Obtained (buildForUser m engine subject : Session Op).catalog ns name t →
      t.dataset.ns = ns ∧ t.dataset.name = name) ∧
    (∀ scan, PlannedFrom (buildForUser m engine subject : Session Op).catalog scan →
      (engine.check subject ⟨scan.datasetNamespace,scan.datasetName⟩ "SELECT").isAllowed) ∧
    ∀ plan : ExecutionPlan Op, (∀ path scan, subtree plan path = some (.remoteTableScan scan) →
        PlannedFrom (buildForUser m engine subject : Session Op).catalog scan) →
      (buildForUser m engine subject : Session Op).rule.optimize plan = .ok plan := by
  have hstart : Keyed engine subject (buildForUser m engine subject : Session Op).catalog :=
    keyed_build hload
  refine ⟨?_,?_,?_⟩
  · intro ns name t ht
    exact Prod.mk.inj (ht.spec hstart).1
  · intro scan hscan
    simpa [deniedScan] using hscan.allowed hstart
  · intro plan hplan
    show (sessionRule engine subject).optimize plan = .ok plan
    rw [optimize_eq_restrict hops]
    apply congrArg Except.ok
    apply restrict_eq_self
    intro path scan hscan
    exact (hplan path scan hscan).allowed hstart

omit [JsonText] [ArrowIpc]

/-- A dataset that the central catalog has, and the session has not loaded. -/
def accountsTables : CatalogTables :=
  (CoordinatorSvc.registerDataset
    (CoordinatorSvc.register .empty "t0" (sampleCoordinator "node-1:50051")) "t1"
    { sampleRegistration "00000000-0000-0000-0000-000000000010" with
      ns := "crm", name := "accounts" }).2

abbrev aliceCatalog (m : DatasetsByNs) : ElanCatalogProvider :=
  (@buildForUser noSchemas SampleOperator m (@SnapshotIamEngine.toEngine noMasks financeClosed)
    ⟨"alice",[]⟩).catalog

def filterPlan (scan : RemoteTableScanExec) : ExecutionPlan SampleOperator :=
  .node ⟨"FilterExec",[]⟩ [.remoteTableScan scan]

theorem filterPlan_scans {scan scan' : RemoteTableScanExec} {path : List ℕ}
    (h : subtree (filterPlan scan) path = some (.remoteTableScan scan')) : scan' = scan := by
  rcases path with _ | ⟨_ | i,path⟩
  · cases h
  · cases path with
    | nil =>
      cases h
      rfl
    | cons i path => cases h
  · cases h

/-- A table that was looked up at the central catalog, under an engine that denies another
namespace: its scan passes the rule. -/
theorem enforcement_agrees_accounts : ∃ m t scan,
    @loadDatasets nullJson (.ok [.ok (sampleProto "crm" "customers")]) = .ok m ∧
    ((aliceCatalog m).schema "crm").map (·.tableExist "accounts") = some false ∧
    @Obtained nullJson noSchemas (aliceCatalog m) "crm" "accounts" t ∧
    t.scan none [] none = .ok scan ∧ t.dataset.ns = "crm" ∧ t.dataset.name = "accounts" ∧
    ((@SnapshotIamEngine.toEngine noMasks financeClosed).check ⟨"alice",[]⟩
      ⟨scan.datasetNamespace,scan.datasetName⟩ "SELECT").isAllowed ∧
    (sessionRule (@SnapshotIamEngine.toEngine noMasks financeClosed) ⟨"alice",[]⟩).optimize
      (filterPlan scan) = .ok (filterPlan scan) := by
  obtain ⟨m,hload⟩ : ∃ m, @loadDatasets nullJson (.ok [.ok (sampleProto "crm" "customers")]) =
      .ok m := ⟨_,rfl⟩
  obtain ⟨hmiss,t,ht⟩ :
      ((aliceCatalog m).schema "crm").map (·.tableExist "accounts") = some false ∧
      ∃ t, @Obtained nullJson noSchemas (aliceCatalog m) "crm" "accounts" t := by
    cases hload
    exact ⟨rfl,_,[],_,_,by simp,rfl,.inl ⟨accountsTables,rfl⟩,rfl⟩
  obtain ⟨hkey,hallowed,hunchanged⟩ := @enforcement_agrees nullJson noSchemas _ _
    sampleOperator_lawful _ _ hload (@SnapshotIamEngine.toEngine noMasks financeClosed) ⟨"alice",[]⟩
  obtain ⟨hns,hname⟩ := hkey _ _ _ ht
  have hplanned : @PlannedFrom nullJson noSchemas (aliceCatalog m) ⟨t.dataset,t.schema,[],none⟩ :=
    ⟨_,_,t,none,[],none,ht,rfl⟩
  refine ⟨m,t,_,hload,hmiss,ht,rfl,hns,hname,hallowed _ hplanned,hunchanged _ ?_⟩
  intro path scan hscan
  exact filterPlan_scans hscan ▸ hplanned

end Elan
