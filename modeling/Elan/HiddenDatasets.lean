import Mathlib.Data.Multiset.Basic
import Mathlib.Data.Option.Basic
import Elan.PlanRewrite
import Elan.Session

/-! What a user can observe of datasets that are hidden from them: two session catalogs that
agree on everything the user may read are asked the same questions. -/
namespace Elan

inductive CatalogQuery
  | schemaNames
  | tableNames (ns : String)
  | tableExist (ns name : String)
  | table (ns name : String) (central : Except RpcError DatasetProto)
  | response

/-- Its answer; names are compared up to their order. -/
inductive Observation
  | schemaNames (names : Multiset String)
  | tableNames (names : Option (Multiset String))
  | tableExist (there : Option Bool)
  | table (result : Except CatalogClientError (Option ElanTableProvider))
  | response (namespaces : Multiset (String × Multiset DatasetSummary))

/-- The response, with namespaces and datasets in no order. -/
def unordered (response : List NamespaceInfo) : Multiset (String × Multiset DatasetSummary) :=
  response.map fun info => (info.name,(info.datasets : Multiset DatasetSummary))

section
variable [JsonText] [ArrowIpc]

def CatalogQuery.answer (c : ElanCatalogProvider) :
    CatalogQuery → Observation × ElanCatalogProvider
  | schemaNames => (.schemaNames c.schemaNames,c)
  | tableNames ns => (.tableNames ((c.schema ns).map fun p => p.tableNames),c)
  | tableExist ns name => (.tableExist ((c.schema ns).map fun p => p.tableExist name),c)
  | table ns name central => ((.table (c.table ns name central).1),(c.table ns name central).2)
  | response => (.response (unordered (handleCatalog c)),c)

/-- The answers to a sequence of questions, which may fill the cache. -/
def observations : List CatalogQuery → ElanCatalogProvider → List Observation
  | [], _ => []
  | q :: qs, c => (q.answer c).1 :: observations qs (q.answer c).2

end

/-- Providers of one namespace that have the same names, and behind the visible ones the same
tables. -/
structure AlikeProviders (p₁ p₂ : ElanSchemaProvider) : Prop where
  ns : p₁.ns = p₂.ns
  engine : p₁.engine = p₂.engine
  subject : p₁.subject = p₂.subject
  names : ∀ name, (p₁.datasets.get? name).isSome = (p₂.datasets.get? name).isSome
  visible : ∀ name, isVisible p₁.engine p₁.subject p₁.ns name →
    p₁.datasets.get? name = p₂.datasets.get? name

def Alike (c₁ c₂ : ElanCatalogProvider) : Prop :=
  ∀ ns, Option.Rel AlikeProviders (c₁.schema ns) (c₂.schema ns)

theorem keys_perm {V W : Type} {m₁ : StringMap V} {m₂ : StringMap W}
    (h : ∀ k, (m₁.get? k).isSome = (m₂.get? k).isSome) : m₁.keys.Perm m₂.keys := by
  apply (List.perm_ext_iff_of_nodup m₁.keys_nodup m₂.keys_nodup).mpr
  intro k
  rw [StringMap.mem_keys,StringMap.mem_keys,← Option.isSome_iff_exists,← Option.isSome_iff_exists,h]

theorem AlikeProviders.tableNames {p₁ p₂ : ElanSchemaProvider} (h : AlikeProviders p₁ p₂) :
    p₁.tableNames.Perm p₂.tableNames := by
  unfold ElanSchemaProvider.tableNames
  rw [h.engine,h.subject,h.ns]
  exact (keys_perm h.names).filter _

/-- Alike catalogs have the same namespaces, with alike providers. -/
theorem Alike.schema_cases {c₁ c₂ : ElanCatalogProvider} (h : Alike c₁ c₂) (ns : String) :
    c₁.schema ns = none ∧ c₂.schema ns = none ∨
      ∃ p₁ p₂, c₁.schema ns = some p₁ ∧ c₂.schema ns = some p₂ ∧ AlikeProviders p₁ p₂ := by
  have hns := h ns
  generalize c₁.schema ns = o₁ at hns ⊢
  generalize c₂.schema ns = o₂ at hns ⊢
  cases hns with
  | none => exact .inl ⟨rfl,rfl⟩
  | some hp => exact .inr ⟨_,_,rfl,rfl,hp⟩

/-- What alike providers have in common is the same in alike catalogs. -/
theorem Alike.map_schema {c₁ c₂ : ElanCatalogProvider} (h : Alike c₁ c₂) (ns : String) {β : Type}
    {f : ElanSchemaProvider → β} (hf : ∀ p₁ p₂, AlikeProviders p₁ p₂ → f p₁ = f p₂) :
    (c₁.schema ns).map f = (c₂.schema ns).map f := by
  rcases h.schema_cases ns with ⟨h₁,h₂⟩ | ⟨p₁,p₂,h₁,h₂,hp⟩
  · rw [h₁,h₂]
  · rw [h₁,h₂,Option.map_some,Option.map_some,hf p₁ p₂ hp]

theorem Alike.schemaNames {c₁ c₂ : ElanCatalogProvider} (h : Alike c₁ c₂) :
    c₁.schemaNames.Perm c₂.schemaNames := by
  apply keys_perm
  intro ns
  show (c₁.schema ns).isSome = (c₂.schema ns).isSome
  have hns := congrArg Option.isSome (h.map_schema ns fun _ _ _ => (rfl : () = ()))
  simpa using hns

theorem unordered_handleCatalog (c : ElanCatalogProvider) : unordered (handleCatalog c) =
    (c.schemaNames.filterMap fun ns => (c.schema ns).map fun p =>
      (ns,((p.tableNames.map fun name => (⟨name,"unknown",""⟩ : DatasetSummary)) :
        Multiset DatasetSummary)) : List (String × Multiset DatasetSummary)) := by
  unfold unordered handleCatalog
  rw [List.map_filterMap]
  simp only [Option.map_map]
  rfl

theorem Alike.response {c₁ c₂ : ElanCatalogProvider} (h : Alike c₁ c₂) :
    unordered (handleCatalog c₁) = unordered (handleCatalog c₂) := by
  have hrow (ns : String) := h.map_schema ns
    (f := fun p => (ns,((p.tableNames.map fun name => (⟨name,"unknown",""⟩ : DatasetSummary)) :
      Multiset DatasetSummary)))
    fun p₁ p₂ hp => congrArg (Prod.mk ns) (Multiset.coe_eq_coe.mpr (hp.tableNames.map _))
  rw [unordered_handleCatalog,unordered_handleCatalog,List.filterMap_congr fun ns _ => hrow ns]
  exact Multiset.coe_eq_coe.mpr (h.schemaNames.filterMap _)

section
variable [JsonText] [ArrowIpc]

omit [JsonText] [ArrowIpc] in
theorem AlikeProviders.insert {p₁ p₂ : ElanSchemaProvider} (h : AlikeProviders p₁ p₂)
    (name : String) (t : ElanTableProvider) :
    AlikeProviders { p₁ with datasets := p₁.datasets.insert name t }
      { p₂ with datasets := p₂.datasets.insert name t } := by
  refine ⟨h.ns,h.engine,h.subject,?_,?_⟩
  · intro name'
    simp only [StringMap.get?_insert]
    by_cases hname : name' = name
    · simp [hname]
    · simpa [hname] using h.names name'
  · intro name' hvisible
    simp only [StringMap.get?_insert]
    by_cases hname : name' = name
    · simp [hname]
    · simpa [hname] using h.visible name' hvisible

/-- Asked for a table, alike providers give the same result and stay alike. -/
theorem AlikeProviders.table {p₁ p₂ : ElanSchemaProvider} (h : AlikeProviders p₁ p₂)
    (name : String) (central : Except RpcError DatasetProto) :
    (p₁.table name central).1 = (p₂.table name central).1 ∧
      AlikeProviders (p₁.table name central).2 (p₂.table name central).2 := by
  unfold ElanSchemaProvider.table
  rw [← h.engine,← h.subject,← h.ns]
  by_cases hvisible : isVisible p₁.engine p₁.subject p₁.ns name
  · rw [if_pos hvisible,if_pos hvisible,← h.visible name hvisible]
    cases hcached : p₁.datasets.get? name with
    | some t => exact ⟨rfl,h⟩
    | none =>
      cases central with
      | error e => rcases e with ⟨_ | _⟩ | _ <;> exact ⟨rfl,h⟩
      | ok proto =>
        cases hd : DatasetInfo.ofProto proto with
        | error e => exact ⟨by simp [hd],by simpa [hd] using h⟩
        | ok d =>
          simp only [hd,true_and]
          have hinsert := h.insert name (.ofDataset d)
          rwa [← h.engine,← h.subject,← h.ns] at hinsert
  · rw [if_neg hvisible,if_neg hvisible]
    exact ⟨rfl,h⟩

theorem Alike.table {c₁ c₂ : ElanCatalogProvider} (h : Alike c₁ c₂) (ns name : String)
    (central : Except RpcError DatasetProto) :
    (c₁.table ns name central).1 = (c₂.table ns name central).1 ∧
      Alike (c₁.table ns name central).2 (c₂.table ns name central).2 := by
  unfold ElanCatalogProvider.table
  rcases h.schema_cases ns with ⟨h₁,h₂⟩ | ⟨p₁,p₂,h₁,h₂,hp⟩
  · rw [h₁,h₂]
    exact ⟨rfl,h⟩
  · rw [h₁,h₂]
    obtain ⟨hresult,hnext⟩ := hp.table name central
    refine ⟨hresult,?_⟩
    intro ns'
    unfold ElanCatalogProvider.schema
    rw [StringMap.get?_insert,StringMap.get?_insert]
    by_cases heq : ns' = ns
    · rw [if_pos heq,if_pos heq]
      exact .some hnext
    · rw [if_neg heq,if_neg heq]
      exact h ns'

theorem Alike.answer {c₁ c₂ : ElanCatalogProvider} (h : Alike c₁ c₂) (q : CatalogQuery) :
    (q.answer c₁).1 = (q.answer c₂).1 ∧ Alike (q.answer c₁).2 (q.answer c₂).2 := by
  cases q with
  | schemaNames =>
    exact ⟨congrArg Observation.schemaNames (Multiset.coe_eq_coe.mpr h.schemaNames),h⟩
  | tableNames ns =>
    refine ⟨congrArg Observation.tableNames (h.map_schema ns ?_),h⟩
    intro p₁ p₂ hp
    exact Multiset.coe_eq_coe.mpr hp.tableNames
  | tableExist ns name =>
    refine ⟨congrArg Observation.tableExist (h.map_schema ns ?_),h⟩
    intro p₁ p₂ hp
    exact hp.names name
  | table ns name central =>
    obtain ⟨hresult,hnext⟩ := h.table ns name central
    exact ⟨congrArg Observation.table hresult,hnext⟩
  | response => exact ⟨congrArg Observation.response h.response,h⟩

theorem Alike.observations {c₁ c₂ : ElanCatalogProvider} (h : Alike c₁ c₂)
    (qs : List CatalogQuery) : observations qs c₁ = observations qs c₂ := by
  induction qs generalizing c₁ c₂ with
  | nil => rfl
  | cons q qs ih =>
    obtain ⟨hanswer,hnext⟩ := h.answer q
    show _ :: _ = _ :: _
    rw [hanswer,ih hnext]

end

/-- The record behind a name: the last one of that name in the namespace. -/
def datasetOf (m : DatasetsByNs) (ns name : String) : Option DatasetInfo :=
  (m.get? ns).bind fun ds => ds.reverse.find? (·.name = name)

/-- The two catalogs hold the same records behind the names that the subject may read. -/
def AgreeOnVisible (engine : IamEngine) (subject : Subject) (m₁ m₂ : DatasetsByNs) : Prop :=
  ∀ ns name, isVisible engine subject ns name → datasetOf m₁ ns name = datasetOf m₂ ns name

/-- The two catalogs have the same namespaces, and in each the same names. -/
structure SameNames (m₁ m₂ : DatasetsByNs) : Prop where
  namespaces : ∀ ns, (m₁.get? ns).isSome = (m₂.get? ns).isSome
  names : ∀ ns name, (datasetOf m₁ ns name).isSome = (datasetOf m₂ ns name).isSome

variable [ArrowIpc]

theorem new_get? (ns : String) (ds : List DatasetInfo) (engine : IamEngine) (subject : Subject)
    (name : String) : (ElanSchemaProvider.new ns ds engine subject).datasets.get? name =
      (ds.reverse.find? (·.name = name)).map ElanTableProvider.ofDataset := by
  unfold ElanSchemaProvider.new
  rw [StringMap.get?_collect,← List.map_reverse,List.find?_map]
  simp [Function.comp_def]

variable {engine : IamEngine} {subject : Subject} {m₁ m₂ : DatasetsByNs} {Op : Type}

theorem SameNames.alike (h : SameNames m₁ m₂) (hagree : AgreeOnVisible engine subject m₁ m₂) :
    Alike (buildForUser m₁ engine subject : Session Op).catalog
      (buildForUser m₂ engine subject : Session Op).catalog := by
  intro ns
  rw [buildForUser_schema,buildForUser_schema]
  have hns := h.namespaces ns
  have hnames := h.names ns
  have hvisible := hagree ns
  unfold datasetOf at hnames hvisible
  cases hm₁ : m₁.get? ns with
  | none =>
    cases hm₂ : m₂.get? ns with
    | none => exact .none
    | some ds₂ =>
      rw [hm₁,hm₂] at hns
      cases hns
  | some ds₁ =>
    cases hm₂ : m₂.get? ns with
    | none =>
      rw [hm₁,hm₂] at hns
      cases hns
    | some ds₂ =>
      rw [hm₁,hm₂] at hnames hvisible
      refine .some ⟨rfl,rfl,rfl,?_,?_⟩
      · intro name
        rw [new_get?,new_get?,Option.isSome_map,Option.isSome_map]
        exact hnames name
      · intro name hshown
        rw [new_get?,new_get?]
        exact congrArg _ (hvisible name hshown)

variable [JsonText]

/-- Names alone give hidden datasets away: asking whether a table exists tells of its namespace
and of its name. -/
theorem sameNames_of_observations (h : ∀ qs,
    observations qs (buildForUser m₁ engine subject : Session Op).catalog =
      observations qs (buildForUser m₂ engine subject : Session Op).catalog) :
    SameNames m₁ m₂ := by
  have hexist (ns name : String) := h [.tableExist ns name]
  simp only [observations,CatalogQuery.answer,List.cons.injEq,and_true,Observation.tableExist.injEq,
    buildForUser_schema,Option.map_map] at hexist
  have hns : ∀ ns, (m₁.get? ns).isSome = (m₂.get? ns).isSome := by
    intro ns
    have hsome := congrArg Option.isSome (hexist ns "")
    simpa using hsome
  refine ⟨hns,?_⟩
  intro ns name
  have hname := hexist ns name
  unfold datasetOf
  cases hm₁ : m₁.get? ns with
  | none =>
    have hnone : m₂.get? ns = none := by
      have hboth := hns ns
      rw [hm₁] at hboth
      simpa using hboth.symm
    rw [hnone]
  | some ds₁ =>
    obtain ⟨ds₂,hm₂⟩ : ∃ ds₂, m₂.get? ns = some ds₂ := by
      have hboth := hns ns
      rw [hm₁] at hboth
      exact Option.isSome_iff_exists.mp hboth.symm
    rw [hm₁,hm₂] at hname
    rw [hm₂]
    simpa [ElanSchemaProvider.tableExist,new_get?] using hname

/-- Two catalogs that agree on what the subject may read are told apart by some sequence of
questions exactly when a namespace or a name is in one of them only. -/
theorem hidden_unobservable_iff (hagree : AgreeOnVisible engine subject m₁ m₂) :
    (∀ qs, observations qs (buildForUser m₁ engine subject : Session Op).catalog =
        observations qs (buildForUser m₂ engine subject : Session Op).catalog) ↔
      SameNames m₁ m₂ :=
  ⟨sameNames_of_observations,fun h => (h.alike hagree).observations⟩

open PlanRewrite

def sampleRecord (ns name : String) (id : ℕ) : DatasetInfo :=
  ⟨Uuid.ofByte id,name,ns,.csv,"coordinator-01","elan-executor:50055",[],.null⟩

/-- A readable dataset, and nothing of the namespace that is closed. -/
def crmOnly : DatasetsByNs := ⟨[("crm",[sampleRecord "crm" "customers" 1])],by decide⟩

/-- The same with a hidden dataset of that identifier. -/
def crmAndFinance (id : ℕ) : DatasetsByNs :=
  ⟨[("crm",[sampleRecord "crm" "customers" 1]),("finance",[sampleRecord "finance" "accounts" id])],
    by simp⟩

def alice : Subject := ⟨"alice",[]⟩

def closedEngine : IamEngine := @SnapshotIamEngine.toEngine noMasks financeClosed

omit [JsonText] [ArrowIpc] in
theorem finance_hidden (name : String) : isVisible closedEngine alice "finance" name = false := rfl

omit [JsonText] [ArrowIpc] in
theorem datasetOf_crmAndFinance (id : ℕ) {ns : String} (hns : ns ≠ "finance") (name : String) :
    datasetOf (crmAndFinance id) ns name = datasetOf crmOnly ns name := by
  by_cases hcrm : ns = "crm"
  · subst hcrm
    rfl
  · simp [datasetOf,StringMap.get?,Table.lookup,crmAndFinance,crmOnly,Ne.symm hns,Ne.symm hcrm]

omit [JsonText] [ArrowIpc] in
theorem ne_finance {ns name : String} (h : isVisible closedEngine alice ns name) :
    ns ≠ "finance" := by
  intro hns
  subst hns
  rw [finance_hidden] at h
  cases h

omit [JsonText] [ArrowIpc] in
/-- Which of the two hidden datasets is there makes no difference to what may be read. -/
theorem agreeOnVisible_crmAndFinance (id id' : ℕ) :
    AgreeOnVisible closedEngine alice (crmAndFinance id) (crmAndFinance id') := by
  intro ns name hvisible
  have hns := ne_finance hvisible
  rw [datasetOf_crmAndFinance id hns,datasetOf_crmAndFinance id' hns]

omit [JsonText] [ArrowIpc] in
theorem sameNames_crmAndFinance (id id' : ℕ) :
    SameNames (crmAndFinance id) (crmAndFinance id') := by
  constructor
  · intro ns
    by_cases hcrm : "crm" = ns <;> by_cases hfinance : "finance" = ns <;>
      simp [StringMap.get?,Table.lookup,crmAndFinance,hcrm,hfinance]
  · intro ns name
    by_cases hns : ns = "finance"
    · subst hns
      by_cases hname : "accounts" = name <;>
        simp [datasetOf,StringMap.get?,Table.lookup,crmAndFinance,sampleRecord,hname]
    · rw [datasetOf_crmAndFinance id hns,datasetOf_crmAndFinance id' hns]

omit [JsonText] [ArrowIpc] in
/-- Two catalogs that differ in the hidden dataset's identifier only are not told apart. -/
theorem hidden_unobservable_accounts :
    (datasetOf (crmAndFinance 2) "finance" "accounts").map DatasetInfo.id ≠
      (datasetOf (crmAndFinance 3) "finance" "accounts").map DatasetInfo.id ∧
    ∀ qs, @observations nullJson noSchemas qs
        (@buildForUser noSchemas SampleOperator (crmAndFinance 2) closedEngine alice).catalog =
      @observations nullJson noSchemas qs
        (@buildForUser noSchemas SampleOperator (crmAndFinance 3) closedEngine alice).catalog := by
  constructor
  · decide
  · apply (@hidden_unobservable_iff noSchemas closedEngine alice _ _ SampleOperator nullJson _).mpr
    · exact sameNames_crmAndFinance 2 3
    · exact agreeOnVisible_crmAndFinance 2 3

omit [JsonText] [ArrowIpc] in
/-- A hidden namespace shows in the list of namespaces. -/
theorem hidden_namespace_observable :
    AgreeOnVisible closedEngine alice crmOnly (crmAndFinance 2) ∧
    @observations nullJson noSchemas [.schemaNames]
        (@buildForUser noSchemas SampleOperator crmOnly closedEngine alice).catalog ≠
      @observations nullJson noSchemas [.schemaNames]
        (@buildForUser noSchemas SampleOperator (crmAndFinance 2) closedEngine alice).catalog := by
  constructor
  · intro ns name hvisible
    rw [datasetOf_crmAndFinance 2 (ne_finance hvisible)]
  · intro h
    have hnames : Observation.schemaNames ↑["crm"] = .schemaNames ↑["crm","finance"] :=
      (List.cons.inj h).1
    have hcard := congrArg Multiset.card (Observation.schemaNames.inj hnames)
    cases hcard

end Elan
