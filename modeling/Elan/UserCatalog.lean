import Elan.Session

/-! The catalog that a user browses, as the central catalog restricted to what the user may
read: nothing is lost and nothing appears twice on the way. -/
namespace Elan

def listedPairs (response : List NamespaceInfo) : List (String × String) :=
  response.flatMap fun info => info.datasets.map fun d => (info.name,d.name)

theorem handleCatalog_names (c : ElanCatalogProvider) :
    (handleCatalog c).map NamespaceInfo.name = c.schemaNames := by
  have hsome : ∀ ns ∈ c.schemaNames, ((c.schema ns).map fun p => (⟨ns,p.tableNames.map fun name =>
      ⟨name,"unknown",""⟩⟩ : NamespaceInfo)).map NamespaceInfo.name = some ns := by
    intro ns hns
    obtain ⟨p,hp⟩ := StringMap.mem_keys.mp hns
    rw [ElanCatalogProvider.schema,hp]
    rfl
  unfold handleCatalog
  rw [List.map_filterMap,List.filterMap_congr hsome,List.filterMap_some]

theorem mem_handleCatalog {c : ElanCatalogProvider} {info : NamespaceInfo} :
    info ∈ handleCatalog c ↔ ∃ p, c.schema info.name = some p ∧
      info.datasets = p.tableNames.map fun name => ⟨name,"unknown",""⟩ := by
  unfold handleCatalog
  rw [List.mem_filterMap]
  constructor
  · intro ⟨ns,_,hinfo⟩
    obtain ⟨p,hp,rfl⟩ := Option.map_eq_some_iff.mp hinfo
    exact ⟨p,hp,rfl⟩
  · intro ⟨p,hp,hdatasets⟩
    refine ⟨info.name,StringMap.mem_keys.mpr ⟨p,hp⟩,?_⟩
    rw [hp,Option.map_some,← hdatasets]

/-- A pair is listed when its namespace has a visible table of that name. -/
theorem mem_listedPairs {c : ElanCatalogProvider} {ns name : String} :
    (ns,name) ∈ listedPairs (handleCatalog c) ↔
      ∃ p, c.schema ns = some p ∧ name ∈ p.tableNames := by
  simp only [listedPairs,List.mem_flatMap,List.mem_map,Prod.mk.injEq]
  constructor
  · intro ⟨info,hinfo,d,hd,hns,hname⟩
    obtain ⟨p,hp,hdatasets⟩ := mem_handleCatalog.mp hinfo
    rw [hdatasets] at hd
    obtain ⟨name',hname',rfl⟩ := List.mem_map.mp hd
    exact ⟨p,hns ▸ hp,hname ▸ hname'⟩
  · intro ⟨p,hp,hname⟩
    refine ⟨⟨ns,p.tableNames.map fun name => ⟨name,"unknown",""⟩⟩,mem_handleCatalog.mpr ⟨p,hp,rfl⟩,
      ⟨name,"unknown",""⟩,List.mem_map_of_mem hname,rfl,rfl⟩

theorem listedPairs_nodup (c : ElanCatalogProvider) : (listedPairs (handleCatalog c)).Nodup := by
  unfold listedPairs
  rw [List.nodup_flatMap]
  constructor
  · intro info hinfo
    obtain ⟨p,-,hdatasets⟩ := mem_handleCatalog.mp hinfo
    rw [hdatasets,List.map_map]
    apply List.Nodup.map (fun a b hab => (Prod.mk.inj hab).2)
    exact p.datasets.keys_nodup.filter _
  · have hnames : ((handleCatalog c).map NamespaceInfo.name).Nodup := by
      rw [handleCatalog_names]
      exact c.schemas.keys_nodup
    apply (List.pairwise_map.mp hnames).imp
    intro a b hab pair ha hb
    obtain ⟨d,-,rfl⟩ := List.mem_map.mp ha
    obtain ⟨e,-,he⟩ := List.mem_map.mp hb
    exact hab (Prod.mk.inj he).1.symm

theorem names_nodup {ds : List DatasetInfo} (hkeys : (ds.map DatasetInfo.key).Nodup) (ns : String) :
    ((ds.filter (·.ns = ns)).map DatasetInfo.name).Nodup := by
  have hfilter : ((ds.filter (·.ns = ns)).map DatasetInfo.key).Nodup :=
    hkeys.sublist (List.filter_sublist.map _)
  have hpairs : (ds.filter (·.ns = ns)).map DatasetInfo.key =
      ((ds.filter (·.ns = ns)).map DatasetInfo.name).map (ns,·) := by
    rw [List.map_map]
    apply List.map_congr_left
    intro d hd
    have hns : d.ns = ns := by simpa using (List.mem_filter.mp hd).2
    simp [DatasetInfo.key,hns]
  rw [hpairs] at hfilter
  exact hfilter.of_map

variable [JsonText]

/-- The central catalog's answer to a listing, as its client sees it. -/
def centralListing (t : CatalogTables) : Except RpcError (List (Except RpcError DatasetProto)) :=
  match CatalogSvc.listDatasets t "" with
  | .error e => .error (.status e)
  | .ok protos => .ok (protos.map .ok)

theorem centralListing_eq_ok {t : CatalogTables} {stream : List (Except RpcError DatasetProto)}
    (h : centralListing t = .ok stream) :
    ∃ ds, CatalogStore.listDatasets t none = .ok ds ∧
      stream = (ds.map DatasetProto.ofDataset).map .ok := by
  unfold centralListing CatalogSvc.listDatasets at h
  rw [if_pos rfl] at h
  cases hds : CatalogStore.listDatasets t none with
  | error e =>
    rw [hds] at h
    cases h
  | ok ds =>
    rw [hds] at h
    cases h
    exact ⟨ds,rfl,rfl⟩

theorem mapM_ofProto (ds : List DatasetInfo) :
    (ds.map DatasetProto.ofDataset).mapM DatasetInfo.ofProto =
      .ok (ds.map DatasetInfo.received) := by
  induction ds with
  | nil => rfl
  | cons d ds ih =>
    rw [List.map_cons,List.mapM_cons,ih,DatasetInfo.ofProto_ofDataset]
    rfl

/-- What is loaded from the central catalog is its listing, grouped by namespace. -/
theorem loadDatasets_central {t : CatalogTables} {m : DatasetsByNs}
    (h : loadDatasets (centralListing t) = .ok m) :
    ∃ ds, CatalogStore.listDatasets t none = .ok ds ∧ ∀ ns, m.get? ns =
      if (ds.map DatasetInfo.received).filter (·.ns = ns) = [] then none
      else some ((ds.map DatasetInfo.received).filter (·.ns = ns)) := by
  obtain ⟨protos,received,hanswer,hreceived,hget⟩ := loadDatasets_eq_ok h
  obtain ⟨ds,hds,hstream⟩ := centralListing_eq_ok hanswer
  have hprotos : protos = ds.map DatasetProto.ofDataset :=
    List.map_injective_iff.mpr (fun _ _ he => Except.ok.inj he) hstream
  rw [hprotos,mapM_ofProto] at hreceived
  cases hreceived
  exact ⟨ds,hds,hget⟩

variable [ArrowIpc] {Op : Type}

/-- The tables of a session loaded from the central catalog are those of its listing. -/
theorem session_table_iff {t : CatalogTables} {m : DatasetsByNs}
    (h : loadDatasets (centralListing t) = .ok m) {ds : List DatasetInfo}
    (hds : CatalogStore.listDatasets t none = .ok ds) (engine : IamEngine) (subject : Subject)
    (ns name : String) (provider : ElanTableProvider) :
    (∃ p, (buildForUser m engine subject : Session Op).catalog.schema ns = some p ∧
        p.datasets.get? name = some provider) ↔
      ∃ d ∈ ds, d.key = (ns,name) ∧ provider = .ofDataset d.received := by
  obtain ⟨ds',hds',hget⟩ := loadDatasets_central h
  cases hds.symm.trans hds'
  have hkeys : ((ds.map DatasetInfo.received).map DatasetInfo.key).Nodup := by
    rw [List.map_map]
    apply List.pairwise_map.mpr
    exact (CatalogStore.listDatasets_spec hds).1.imp fun hlt he => absurd (congrArg toLex he) hlt.ne
  rw [buildForUser_schema,hget]
  constructor
  · intro ⟨p,hp,hprovider⟩
    obtain ⟨group,hgroup,rfl⟩ := Option.map_eq_some_iff.mp hp
    split_ifs at hgroup
    cases hgroup
    obtain ⟨r,hr,rfl,rfl⟩ := ElanSchemaProvider.exists_of_new hprovider
    obtain ⟨hmem,hns⟩ := List.mem_filter.mp hr
    obtain ⟨d,hd,rfl⟩ := List.mem_map.mp hmem
    have hdns : d.received.ns = ns := by simpa using hns
    exact ⟨d,hd,Prod.ext hdns rfl,rfl⟩
  · intro ⟨d,hd,hkey,hprovider⟩
    obtain ⟨hns,hname⟩ := Prod.mk.inj hkey
    have hmem : d.received ∈ (ds.map DatasetInfo.received).filter (·.ns = ns) :=
      List.mem_filter.mpr ⟨List.mem_map_of_mem hd,decide_eq_true hns⟩
    rw [if_neg (List.ne_nil_of_mem hmem)]
    refine ⟨_,rfl,(StringMap.get?_collect_of_nodup ?_).mpr ?_⟩
    · rw [List.map_map]
      exact names_nodup hkeys ns
    · exact List.mem_map.mpr ⟨d.received,hmem,Prod.ext hname hprovider.symm⟩

omit [JsonText] in
/-- The providers of a session decide for its own subject, each under its own namespace. -/
theorem session_schema {m : DatasetsByNs} {engine : IamEngine} {subject : Subject} {ns : String}
    {p : ElanSchemaProvider}
    (h : (buildForUser m engine subject : Session Op).catalog.schema ns = some p) :
    p.ns = ns ∧ p.engine = engine ∧ p.subject = subject := by
  rw [buildForUser_schema] at h
  obtain ⟨-,-,rfl⟩ := Option.map_eq_some_iff.mp h
  exact ⟨rfl,rfl,rfl⟩

/-- The pairs that a session lists are those of the central listing that the user may read. -/
theorem mem_session_listedPairs {t : CatalogTables} {m : DatasetsByNs}
    (h : loadDatasets (centralListing t) = .ok m) {ds : List DatasetInfo}
    (hds : CatalogStore.listDatasets t none = .ok ds) (engine : IamEngine) (subject : Subject)
    (ns name : String) :
    (ns,name) ∈ listedPairs (handleCatalog
        (buildForUser m engine subject : Session Op).catalog) ↔
      (∃ d ∈ ds, d.key = (ns,name)) ∧ isVisible engine subject ns name := by
  have htable := @session_table_iff _ _ Op _ _ h _ hds engine subject ns name
  rw [mem_listedPairs]
  constructor
  · intro ⟨p,hp,hname⟩
    obtain ⟨hkey,hvisible⟩ := List.mem_filter.mp hname
    obtain ⟨hns,hengine,hsubject⟩ := session_schema hp
    obtain ⟨provider,hprovider⟩ := StringMap.mem_keys.mp hkey
    obtain ⟨d,hd,hdkey,-⟩ := (htable provider).mp ⟨p,hp,hprovider⟩
    rw [hns,hengine,hsubject] at hvisible
    exact ⟨⟨d,hd,hdkey⟩,hvisible⟩
  · intro ⟨⟨d,hd,hdkey⟩,hvisible⟩
    obtain ⟨p,hp,hprovider⟩ := (htable _).mpr ⟨d,hd,hdkey,rfl⟩
    obtain ⟨hns,hengine,hsubject⟩ := session_schema hp
    refine ⟨p,hp,List.mem_filter.mpr ⟨StringMap.mem_keys.mpr ⟨_,hprovider⟩,?_⟩⟩
    rw [hns,hengine,hsubject]
    exact hvisible

/-- A listed dataset is there when it is asked for, whatever the central catalog would say. -/
theorem session_table {t : CatalogTables} {m : DatasetsByNs}
    (h : loadDatasets (centralListing t) = .ok m) {ds : List DatasetInfo}
    (hds : CatalogStore.listDatasets t none = .ok ds) {engine : IamEngine} {subject : Subject}
    {d : DatasetInfo} (hd : d ∈ ds) (hvisible : isVisible engine subject d.ns d.name)
    (central : Except RpcError DatasetProto) :
    ((buildForUser m engine subject : Session Op).catalog.table d.ns d.name central).1 =
      .ok (some (.ofDataset d.received)) := by
  obtain ⟨p,hp,hprovider⟩ :=
    (@session_table_iff _ _ Op _ _ h _ hds engine subject d.ns d.name _).mpr ⟨d,hd,rfl,rfl⟩
  obtain ⟨hns,hengine,hsubject⟩ := session_schema hp
  have hshown : isVisible p.engine p.subject p.ns d.name = true := by
    rw [hns,hengine,hsubject]
    exact hvisible
  simp only [ElanCatalogProvider.table,hp,ElanSchemaProvider.table,if_pos hshown,hprovider]

/-- What a user browses after the central catalog was loaded: exactly the datasets that it
lists and that the engine allows the user to select, each once, and each behind its own name. -/
theorem user_catalog {t : CatalogTables} {m : DatasetsByNs}
    (h : loadDatasets (centralListing t) = .ok m) (engine : IamEngine) (subject : Subject) :
    ∃ ds, CatalogStore.listDatasets t none = .ok ds ∧
      (listedPairs (handleCatalog
        (buildForUser m engine subject : Session Op).catalog)).Nodup ∧
      (∀ ns name, (ns,name) ∈ listedPairs (handleCatalog
          (buildForUser m engine subject : Session Op).catalog) ↔
        (∃ d ∈ ds, d.key = (ns,name)) ∧
          (engine.check subject ⟨ns,name⟩ "SELECT").isAllowed = true) ∧
      ∀ d ∈ ds, (engine.check subject ⟨d.ns,d.name⟩ "SELECT").isAllowed = true →
        ∀ central, ∃ provider,
        ((buildForUser m engine subject : Session Op).catalog.table d.ns d.name central).1 =
          .ok (some provider) ∧ provider.dataset = d.received ∧
        (JsonText.fromStr (JsonText.toString d.metadata) = some d.metadata →
          provider.dataset = d) := by
  obtain ⟨ds,hds,-⟩ := loadDatasets_central h
  refine ⟨ds,hds,listedPairs_nodup _,mem_session_listedPairs h hds engine subject,?_⟩
  intro d hd hvisible central
  refine ⟨.ofDataset d.received,session_table h hds hd hvisible central,rfl,?_⟩
  intro hjson
  simp [ElanTableProvider.ofDataset,DatasetInfo.received,hjson]

def sampleTables : CatalogTables :=
  (CoordinatorSvc.registerDataset
    (CoordinatorSvc.register .empty "t0" (sampleCoordinator "node-1:50051")) "t1"
    (sampleRegistration "00000000-0000-0000-0000-000000000010")).2

omit [JsonText] [ArrowIpc]

/-- A second dataset, in another namespace. -/
def financeTables : CatalogTables :=
  (CoordinatorSvc.registerDataset sampleTables "t2"
    { sampleRegistration "00000000-0000-0000-0000-000000000011" with
      ns := "finance", name := "accounts" }).2

def financeDenied : IamEngine :=
  ⟨fun _ r _ => if r.ns = "finance" then .deny "" else .allow none none⟩

/-- Of two datasets the user sees one, and reads the record of it. -/
theorem user_catalog_sample : ∃ m,
    @loadDatasets nullJson (@centralListing nullJson financeTables) = .ok m ∧
    (∀ ns name, (ns,name) ∈ listedPairs (handleCatalog
      (@buildForUser noSchemas Empty m financeDenied ⟨"alice",[]⟩).catalog) ↔
        (ns,name) = ("analytics","events")) ∧
    ∃ provider, (@ElanCatalogProvider.table nullJson noSchemas
      (@buildForUser noSchemas Empty m financeDenied ⟨"alice",[]⟩).catalog "analytics" "events"
        (.error (.transport ""))).1 = .ok (some provider) ∧
      provider.dataset.id = Uuid.ofByte 16 := by
  obtain ⟨m,hload⟩ : ∃ m,
    @loadDatasets nullJson (@centralListing nullJson financeTables) = .ok m := ⟨_,rfl⟩
  obtain ⟨ds,hds,-,hlisted,hread⟩ := @user_catalog nullJson noSchemas Empty _ _ hload financeDenied
    ⟨"alice",[]⟩
  cases hds
  refine ⟨m,hload,?_,?_⟩
  · intro ns name
    rw [hlisted]
    constructor
    · rintro ⟨⟨d,hd,hkey⟩,hallowed⟩
      rcases List.mem_cons.mp hd with rfl | hd
      · exact hkey.symm
      · cases List.mem_singleton.mp hd
        cases hkey
        cases hallowed
    · rintro ⟨⟩
      exact ⟨⟨_,List.mem_cons_self,rfl⟩,rfl⟩
  · obtain ⟨provider,hprovider,hdataset,-⟩ :=
      hread _ List.mem_cons_self rfl (.error (.transport ""))
    exact ⟨provider,hprovider,hdataset ▸ rfl⟩

end Elan
