import Elan.GatewayAccess

/-! Where the tables of the query service come from: every table was a record of the central
catalog, and a session that was told of one is told the same again. -/
namespace Elan

open TransitionSystem PlanRewrite

section
variable [JsonText] [ArrowIpc] {Op : Type} [SerdeJson] [PlanOperators Op]

namespace ElanCatalogProvider

/-- The table is cached behind a name that the subject of its namespace may see. -/
def Cached (c : ElanCatalogProvider) (ns name : String) (t : ElanTableProvider) : Prop :=
  ∃ p, c.schema ns = some p ∧ isVisible p.engine p.subject p.ns name ∧
    p.datasets.get? name = some t

/-- The central catalog is asked, and answers with the record of the table. -/
def Fetched (c : ElanCatalogProvider) (ns name : String) (central : Except RpcError DatasetProto)
    (t : ElanTableProvider) : Prop :=
  c.asks ns name ∧ ∃ proto d, central = .ok proto ∧ DatasetInfo.ofProto proto = .ok d ∧
    t = .ofDataset d

variable {c : ElanCatalogProvider} {ns name : String} {central : Except RpcError DatasetProto}
  {t : ElanTableProvider}

omit [JsonText] [ArrowIpc] [SerdeJson] [PlanOperators Op] in
theorem asks_iff : c.asks ns name ↔ ∃ p, c.schema ns = some p ∧
    isVisible p.engine p.subject p.ns name ∧ p.datasets.get? name = none := by
  cases hp : c.schema ns <;>
    simp [ElanCatalogProvider.asks,ElanSchemaProvider.asks,ElanSchemaProvider.tableExist,hp]

omit [SerdeJson] [PlanOperators Op] in
/-- A request changes nothing and finds what is cached, or fetches the table and caches it. -/
theorem table_cases (c : ElanCatalogProvider) (ns name : String)
    (central : Except RpcError DatasetProto) :
    (∀ ns', (c.table ns name central).2.schema ns' = c.schema ns') ∧
        (∀ t, (c.table ns name central).1 = .ok (some t) ↔ c.Cached ns name t) ∧
        (∀ t, ¬ c.Fetched ns name central t) ∨
      ∃ p t, c.schema ns = some p ∧ p.datasets.get? name = none ∧
        isVisible p.engine p.subject p.ns name ∧ c.Fetched ns name central t ∧
        (c.table ns name central).1 = .ok (some t) ∧
        ∀ ns', (c.table ns name central).2.schema ns' =
          if ns' = ns then some { p with datasets := p.datasets.insert name t }
          else c.schema ns' := by
  cases hp : c.schema ns with
  | none =>
    refine .inl ⟨?_,?_,?_⟩
    · simp [ElanCatalogProvider.table,hp]
    · simp [ElanCatalogProvider.table,Cached,hp]
    · intro t hfetched
      obtain ⟨p,hp',-⟩ := asks_iff.mp hfetched.1
      rw [hp] at hp'
      cases hp'
  | some p =>
    have hschema (ns' : String) : (c.table ns name central).2.schema ns' =
        if ns' = ns then some (p.table name central).2 else c.schema ns' := by
      rw [ElanCatalogProvider.table,hp]
      exact StringMap.get?_insert c.schemas ns _ ns'
    have hresult : (c.table ns name central).1 = (p.table name central).1 := by
      simp only [ElanCatalogProvider.table,hp]
    rcases p.table_cases name central with
      ⟨hsame,hfound⟩ | ⟨proto,d,hproto,hd,hvisible,hnone,htable⟩
    · refine .inl ⟨?_,?_,?_⟩
      · intro ns'
        rw [hschema,hsame]
        split_ifs with hns
        · rw [hns,hp]
        · rfl
      · intro t
        rw [hresult]
        constructor
        · intro ht
          exact ⟨p,hp,hfound t ht⟩
        · rintro ⟨p',hp',hvisible,hcached⟩
          cases hp.symm.trans hp'
          unfold ElanSchemaProvider.table
          rw [if_pos hvisible,hcached]
      · rintro t ⟨hasks,proto,d,rfl,hd,-⟩
        obtain ⟨p',hp',hvisible,hnone⟩ := asks_iff.mp hasks
        cases hp.symm.trans hp'
        have hresult : (p.table name (.ok proto)).1 = .ok (some (.ofDataset d)) := by
          simp [ElanSchemaProvider.table,hvisible,hnone,hd]
        have hcached := (hfound _ hresult).2
        rw [hnone] at hcached
        cases hcached
    · refine .inr ⟨p,.ofDataset d,rfl,hnone,hvisible,?_,?_,?_⟩
      · exact ⟨asks_iff.mpr ⟨p,hp,hvisible,hnone⟩,proto,d,hproto,hd,rfl⟩
      · rw [hresult,htable]
      · intro ns'
        rw [hschema,htable]

omit [SerdeJson] [PlanOperators Op] in
theorem Fetched.unique {t' : ElanTableProvider} (h : c.Fetched ns name central t)
    (h' : c.Fetched ns name central t') : t = t' := by
  obtain ⟨-,proto,d,hproto,hd,rfl⟩ := h
  obtain ⟨-,proto',d',hproto',hd',rfl⟩ := h'
  cases hproto.symm.trans hproto'
  cases hd.symm.trans hd'
  rfl

omit [SerdeJson] [PlanOperators Op] in
theorem table_eq_ok : (c.table ns name central).1 = .ok (some t) ↔
    c.Cached ns name t ∨ c.Fetched ns name central t := by
  rcases c.table_cases ns name central with
    ⟨-,hfound,hnone⟩ | ⟨p,t',hp,hget,hvisible,hfetched,hresult,-⟩
  · rw [hfound]
    exact ⟨.inl,fun h => h.resolve_right (hnone t)⟩
  · rw [hresult]
    constructor
    · rintro ⟨⟩
      exact .inr hfetched
    · rintro (⟨p',hp',-,hcached⟩ | hfetched')
      · cases hp.symm.trans hp'
        rw [hget] at hcached
        cases hcached
      · rw [hfetched.unique hfetched']

omit [SerdeJson] [PlanOperators Op] in
/-- Afterwards the cache has what it had, and what was fetched. -/
theorem cached_table {ns' name' : String} : (c.table ns name central).2.Cached ns' name' t ↔
    c.Cached ns' name' t ∨ ns' = ns ∧ name' = name ∧ c.Fetched ns name central t := by
  rcases c.table_cases ns name central with
    ⟨hschema,-,hnone⟩ | ⟨p,t',hp,hget,hvisible,hfetched,-,hschema⟩
  · have hsame : (c.table ns name central).2.Cached ns' name' t ↔ c.Cached ns' name' t := by
      simp only [Cached,hschema]
    rw [hsame]
    exact ⟨.inl,fun h => h.resolve_right fun hf => hnone t hf.2.2⟩
  · have hfetch : c.Fetched ns name central t ↔ t' = t :=
      ⟨fun h => hfetched.unique h,fun h => h ▸ hfetched⟩
    rw [hfetch]
    unfold Cached
    rw [hschema]
    by_cases hns : ns' = ns
    · subst hns
      simp only [if_true,Option.some.injEq,exists_eq_left',StringMap.get?_insert,hp,true_and]
      by_cases hname : name' = name
      · subst hname
        simp [hget,hvisible]
      · simp [hname]
    · simp [hns]

end ElanCatalogProvider

namespace Gateway

/-- A table that is behind a namespace and a name anywhere in the service. -/
inductive Holds (g : Gateway Op) : String × String × ElanTableProvider → Prop
  | loaded {ns ds d} (hns : g.datasetsByNs.get? ns = some ds) (hd : d ∈ ds) :
    Holds g (ns,d.name,.ofDataset d)
  | listing {answer m ns ds d} (hclient : g.client = some (.listing answer))
    (hload : loadDatasets answer = .ok m) (hns : m.get? ns = some ds) (hd : d ∈ ds) :
    Holds g (ns,d.name,.ofDataset d)
  | lookup {i ns name proto d} (hclient : g.client = some (.lookup i ns name (.ok proto)))
    (hd : DatasetInfo.ofProto proto = .ok d) : Holds g (ns,name,.ofDataset d)
  | cached {q ns name t} (hq : q ∈ g.sessions) (ht : q.session.catalog.Cached ns name t) :
    Holds g (ns,name,t)
  | told {q a t} (hq : q ∈ g.sessions) (ha : a ∈ q.told) (ht : a.result = .ok (some t)) :
    Holds g (a.ns,a.name,t)

def Serves (g : Gateway Op) (x : String × String × ElanTableProvider) : Prop :=
  ∃ d, CatalogStore.getDataset g.central.tables x.1 x.2.1 = .ok (some d) ∧
    x.2.2 = .ofDataset d.received

omit [SerdeJson] [PlanOperators Op] in
theorem serves_of_listing {g : Gateway Op} {m : DatasetsByNs}
    (hload : loadDatasets (centralListing g.central.tables) = .ok m) {ns : String}
    {ds : List DatasetInfo} (hns : m.get? ns = some ds) {d : DatasetInfo} (hd : d ∈ ds) :
    g.Serves (ns,d.name,.ofDataset d) := by
  obtain ⟨listed,hlisted,hget⟩ := loadDatasets_central hload
  rw [hget] at hns
  split_ifs at hns
  cases hns
  obtain ⟨hmem,hdns⟩ := List.mem_filter.mp hd
  obtain ⟨d₀,hd₀,rfl⟩ := List.mem_map.mp hmem
  obtain ⟨-,hserved⟩ := ((CatalogStore.listDatasets_spec hlisted).2 d₀).mp hd₀
  have hdns : d₀.ns = ns := of_decide_eq_true hdns
  exact ⟨d₀,hdns ▸ hserved,rfl⟩

omit [SerdeJson] [PlanOperators Op] in
theorem serves_of_lookup {g : Gateway Op} {fault : Option Fault} {ns name : String}
    {proto : DatasetProto}
    (hproto : Fault.lookup fault (centralAnswer g.central.tables ns name) = .ok proto)
    {d : DatasetInfo} (hd : DatasetInfo.ofProto proto = .ok d) :
    g.Serves (ns,name,.ofDataset d) := by
  rcases fault with _ | message | ⟨received,message⟩
  · simp only [Fault.lookup,centralAnswer,CatalogSvc.getDataset] at hproto
    rcases hget : CatalogStore.getDataset g.central.tables ns name with e | _ | d₀ <;>
      rw [hget] at hproto <;> cases hproto
    rw [DatasetInfo.ofProto_ofDataset] at hd
    cases hd
    exact ⟨d₀,hget,rfl⟩
  · cases hproto
  · cases hproto

omit [SerdeJson] [PlanOperators Op] in
/-- What taking an answer in brings about was cached before, or is the answer. -/
theorem holds_take {g : Gateway Op} {q : QuerySession Op} (hq : q ∈ g.sessions) {ns name : String}
    {central : Except RpcError DatasetProto}
    (hfetched : ∀ t, q.session.catalog.Fetched ns name central t → g.Holds (ns,name,t)) :
    (∀ ns' name' t, (q.take ns name central).session.catalog.Cached ns' name' t →
        g.Holds (ns',name',t)) ∧
      ∀ a ∈ (q.take ns name central).told, ∀ t, a.result = .ok (some t) →
        g.Holds (a.ns,a.name,t) := by
  constructor
  · intro ns' name' t ht
    rcases ElanCatalogProvider.cached_table.mp ht with hcached | ⟨rfl,rfl,hnew⟩
    · exact .cached hq hcached
    · exact hfetched t hnew
  · intro a ha t ht
    rcases List.mem_append.mp ha with ha | ha
    · exact .told hq ha ht
    · obtain rfl := List.mem_singleton.mp ha
      rcases ElanCatalogProvider.table_eq_ok.mp ht with hcached | hnew
      · exact .cached hq hcached
      · exact hfetched t hnew

omit [SerdeJson] [PlanOperators Op] in
/-- Where the loaded catalog is kept and no call is made, only the sessions matter. -/
theorem Holds.of_sessions {g g' : Gateway Op} {x : String × String × ElanTableProvider}
    (hx : g'.Holds x) (hloaded : g'.datasetsByNs = g.datasetsByNs)
    (hclient : ∀ rpc, g'.client = some rpc → g.client = some rpc)
    (hsessions : ∀ q ∈ g'.sessions,
      (∀ ns name t, q.session.catalog.Cached ns name t → g.Holds (ns,name,t)) ∧
        ∀ a ∈ q.told, ∀ t, a.result = .ok (some t) → g.Holds (a.ns,a.name,t)) : g.Holds x := by
  cases hx with
  | loaded hns hd => exact .loaded (hloaded ▸ hns) hd
  | listing hrpc hload hns hd => exact .listing (hclient _ hrpc) hload hns hd
  | lookup hrpc hd => exact .lookup (hclient _ hrpc) hd
  | cached hq ht => exact (hsessions _ hq).1 _ _ _ ht
  | told hq ha ht => exact (hsessions _ hq).2 _ ha _ ht

omit [SerdeJson] [PlanOperators Op] in
theorem holds_of_mem {g : Gateway Op} {q : QuerySession Op} (hq : q ∈ g.sessions) :
    (∀ ns name t, q.session.catalog.Cached ns name t → g.Holds (ns,name,t)) ∧
      ∀ a ∈ q.told, ∀ t, a.result = .ok (some t) → g.Holds (a.ns,a.name,t) :=
  ⟨fun _ _ _ ht => .cached hq ht,fun _ ha _ ht => .told hq ha ht⟩

omit [PlanOperators Op] in
theorem holds_of_sessionFor {g : Gateway Op} {subject : Subject} {ns name : String}
    {t : ElanTableProvider} (ht : (g.sessionFor subject).catalog.Cached ns name t) :
    g.Holds (ns,name,t) := by
  obtain ⟨p,hp,-,hcached⟩ := ht
  rw [sessionFor,buildForUser_schema] at hp
  obtain ⟨ds,hds,rfl⟩ := Option.map_eq_some_iff.mp hp
  obtain ⟨d,hd,rfl,rfl⟩ := ElanSchemaProvider.exists_of_new hcached
  exact .loaded hds hd

/-- A step adds only what the central catalog has when the step is taken. -/
theorem holds_step {a : GatewayAction Op} {g g' : Gateway Op} (h : step a g = some g')
    (x : String × String × ElanTableProvider) (hx : g'.Holds x) : g.Holds x ∨ g.Serves x := by
  cases step_effect h with
  | central t => exact .inl (hx.of_sessions rfl (fun _ => id) fun _ => holds_of_mem (g := g))
  | polled hclient fault =>
    cases hx with
    | listing hrpc hload hns hd =>
      cases hrpc
      exact .inr (serves_of_listing (Fault.loadDatasets_listing hload) hns hd)
    | lookup hrpc => cases hrpc
    | loaded hns hd => exact .inl (.loaded hns hd)
    | cached hq ht => exact .inl (.cached hq ht)
    | told hq ha ht => exact .inl (.told hq ha ht)
  | asked hclient i ns name fault =>
    cases hx with
    | listing hrpc => cases hrpc
    | lookup hrpc hd =>
      obtain ⟨rfl,rfl,rfl,hproto⟩ : _ ∧ _ ∧ _ ∧ _ := by simpa using hrpc
      exact .inr (serves_of_lookup hproto hd)
    | loaded hns hd => exact .inl (.loaded hns hd)
    | cached hq ht => exact .inl (.cached hq ht)
    | told hq ha ht => exact .inl (.told hq ha ht)
  | kept hclient hload =>
    exact .inl (hx.of_sessions rfl (fun _ he => by cases he) fun _ => holds_of_mem (g := g))
  | refreshed hclient hload =>
    left
    cases hx with
    | loaded hns hd => exact .listing hclient hload hns hd
    | listing hrpc => cases hrpc
    | lookup hrpc => cases hrpc
    | cached hq ht => exact .cached hq ht
    | told hq ha ht => exact .told hq ha ht
  | built subject =>
    refine .inl (hx.of_sessions rfl (fun _ => id) ?_)
    intro q hq
    rcases List.mem_append.mp hq with hq | hq
    · exact holds_of_mem hq
    · obtain rfl := List.mem_singleton.mp hq
      exact ⟨fun _ _ _ ht => holds_of_sessionFor ht,by simp⟩
  | answered hclient =>
    refine .inl (hx.of_sessions rfl (fun _ he => by cases he) ?_)
    intro q hq
    rcases mem_modify hq with hold | ⟨q',hq',rfl⟩
    · exact holds_of_mem hold
    · refine holds_take hq' ?_
      rintro t ⟨-,proto,d,rfl,hd,rfl⟩
      exact .lookup hclient hd
  | told i ns name message =>
    refine .inl (hx.of_sessions rfl (fun _ => id) ?_)
    intro q hq
    rcases mem_modify hq with hold | ⟨q',hq',rfl⟩
    · exact holds_of_mem hold
    · refine holds_take hq' ?_
      rintro t ⟨-,proto,d,hproto,-⟩
      cases hproto
  | failed => exact .inl hx
  | executed hq plan hrule started =>
    exact .inl (hx.of_sessions rfl (fun _ => id) fun _ => holds_of_mem (g := g))
  | browsed subject => exact .inl (hx.of_sessions rfl (fun _ => id) fun _ => holds_of_mem (g := g))

/-- Every table that a session was ever told of is, as a whole, the record that the central catalog
had under its name at some moment since the start. -/
theorem told_was_served {central : CatalogState} {fault : Option Fault} {policies : PolicyAnswer}
    {g₀ g : Gateway Op}
    (hnew : new central fault policies = .ok g₀) {as : List (GatewayAction Op)}
    (hrun : run step as g₀ = some g) {q : QuerySession Op} (hq : q ∈ g.sessions) {a : TableAnswer}
    (ha : a ∈ q.told) {t : ElanTableProvider} (ht : a.result = .ok (some t)) :
    ∃ bs past d, bs <+: as ∧ run step bs g₀ = some past ∧
      CatalogStore.getDataset past.central.tables a.ns a.name = .ok (some d) ∧
      t = .ofDataset d.received := by
  obtain ⟨hload,hclient,hsessions⟩ := start_of_new hnew
  have hstart : ∀ x, g₀.Holds x → g₀.Serves x := by
    intro x hx
    cases hx with
    | loaded hns hd => exact serves_of_listing hload hns hd
    | listing hrpc | lookup hrpc => simp [hclient] at hrpc
    | cached hq | told hq => simp [hsessions] at hq
  obtain ⟨bs,past,hbs,hpast,d,hd,rfl⟩ :=
    held_was_shown (fun _ _ _ => holds_step) hstart hrun (Holds.told hq ha ht)
  exact ⟨bs,past,d,hbs,hpast,hd,rfl⟩

end Gateway

/-! ### Reading again -/

/-- What was found once is found again by every later request for it. -/
def Repeats (told : List TableAnswer) : Prop :=
  told.Pairwise fun a b => a.ns = b.ns → a.name = b.name → ∀ t, a.result = .ok (some t) →
    b.result = .ok (some t)

/-- What the session was told of is cached, and was told again. -/
structure QuerySession.Settled (q : QuerySession Op) : Prop where
  cached : ∀ a ∈ q.told, ∀ t, a.result = .ok (some t) → q.session.catalog.Cached a.ns a.name t
  repeats : Repeats q.told

omit [SerdeJson] [PlanOperators Op] in
theorem QuerySession.Settled.take {q : QuerySession Op} (h : q.Settled) (ns name : String)
    (central : Except RpcError DatasetProto) : (q.take ns name central).Settled := by
  constructor
  · intro a ha t ht
    apply ElanCatalogProvider.cached_table.mpr
    rcases List.mem_append.mp ha with ha | ha
    · exact .inl (h.cached a ha t ht)
    · obtain rfl := List.mem_singleton.mp ha
      rcases ElanCatalogProvider.table_eq_ok.mp ht with hcached | hfetched
      · exact .inl hcached
      · exact .inr ⟨rfl,rfl,hfetched⟩
  · refine List.pairwise_append.mpr ⟨h.repeats,List.pairwise_singleton _ _,?_⟩
    intro a ha b hb hns hname t ht
    obtain rfl := List.mem_singleton.mp hb
    have hcached := h.cached a ha t ht
    rw [show a.ns = ns from hns,show a.name = name from hname] at hcached
    show (q.session.catalog.table ns name central).1 = .ok (some t)
    exact ElanCatalogProvider.table_eq_ok.mpr (.inl hcached)

namespace Gateway

theorem settled_step {a : GatewayAction Op} {g g' : Gateway Op} (h : ∀ q ∈ g.sessions, q.Settled)
    (hstep : step a g = some g') : ∀ q ∈ g'.sessions, q.Settled := by
  have htake (i : ℕ) (ns name : String) (central : Except RpcError DatasetProto) :
      ∀ q ∈ g.sessions.modify i (·.take ns name central), q.Settled := by
    intro q hq
    rcases mem_modify hq with hold | ⟨q',hq',rfl⟩
    · exact h q hold
    · exact (h q' hq').take ns name central
  cases step_effect hstep with
  | built subject =>
    intro q hq
    rcases List.mem_append.mp hq with hq | hq
    · exact h q hq
    · obtain rfl := List.mem_singleton.mp hq
      exact ⟨by simp,List.Pairwise.nil⟩
  | answered => exact htake _ _ _ _
  | told i ns name message => exact htake i ns name _
  | _ => exact h

/-- While the catalog changes and is polled, and other sessions fill their caches, a session reads
the same: a table that it was told of once it is told of at every later request. -/
theorem reads_repeat {central : CatalogState} {fault : Option Fault} {policies : PolicyAnswer}
    {g₀ g : Gateway Op}
    (hnew : new central fault policies = .ok g₀) {as : List (GatewayAction Op)}
    (hrun : run step as g₀ = some g) : ∀ q ∈ g.sessions, Repeats q.told := by
  have hstart : ∀ q ∈ g₀.sessions, q.Settled := by
    rw [(start_of_new hnew).2.2]
    simp
  have hsettled := run_preserves (fun _ _ _ h hstep => settled_step h hstep) hstart hrun
  exact fun q hq => (hsettled q hq).repeats

end Gateway

end

namespace Gateway

theorem told_was_served_sample : ∃ g₀ g q a t,
    sampleGateway sampleTables (.ok [.ok (openPolicy,Uuid.ofByte 1)]) = .ok g₀ ∧
    run sampleStep sampleActions g₀ = some g ∧ q ∈ g.sessions ∧ a ∈ q.told ∧
    a.result = .ok (some t) ∧ ∃ bs past d, bs <+: sampleActions ∧
      run sampleStep bs g₀ = some past ∧
      @CatalogStore.getDataset nullJson past.central.tables a.ns a.name = .ok (some d) ∧
      t = @ElanTableProvider.ofDataset noSchemas (@DatasetInfo.received nullJson d) :=
  ⟨_,_,_,_,_,rfl,rfl,.head _,.head _,rfl,@told_was_served nullJson noSchemas _ noMasks _
    ⟨sampleTables,[]⟩ none _ _ _ rfl sampleActions rfl _ (.head _) _ (.head _) _ rfl⟩

theorem reads_repeat_sample : ∃ g₀ g,
    sampleGateway sampleTables (.ok [.ok (openPolicy,Uuid.ofByte 1)]) = .ok g₀ ∧
    run sampleStep sampleActions g₀ = some g ∧ (∃ q ∈ g.sessions, q.told.length = 2) ∧
    ∀ q ∈ g.sessions, Repeats q.told :=
  ⟨_,_,rfl,rfl,⟨_,.head _,rfl⟩,@reads_repeat nullJson noSchemas _ noMasks _ ⟨sampleTables,[]⟩
    none (.ok [.ok (openPolicy,Uuid.ofByte 1)]) _ _ rfl sampleActions rfl⟩

end Gateway

end Elan
