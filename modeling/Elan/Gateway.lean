import Elan.EndpointSync
import Elan.EnforcementAgreement
import Elan.Replication
import Elan.UserCatalog

/-! The query service over its whole life: the policies it read when it started, the catalog it
polls, the sessions it builds, and the one client that polls and lookups share. -/
namespace Elan

open TransitionSystem PlanRewrite

/-- How the network lets a call down: it fails, or its stream breaks off. -/
inductive Fault
  | call (message : String)
  | stream (received : ℕ) (message : String)

def Fault.listing (fault : Option Fault)
    (answer : Except RpcError (List (Except RpcError DatasetProto))) :
    Except RpcError (List (Except RpcError DatasetProto)) :=
  match fault with
  | none => answer
  | some (.call message) => .error (.transport message)
  | some (.stream received message) =>
    answer.map fun stream => stream.take received ++ [.error (.transport message)]

def Fault.lookup (fault : Option Fault) (answer : Except RpcError DatasetProto) :
    Except RpcError DatasetProto :=
  match fault with
  | none => answer
  | some (.call message) | some (.stream _ message) => .error (.transport message)

/-- The answer to the request for all policies, each with the identifier that would be drawn for
it. -/
abbrev PolicyAnswer := Except RpcError (List (Except RpcError (PolicyProto × Uuid)))

/-- The policies of the engine: a stream that fails anywhere leaves none at all. -/
def policiesAtStartup (answer : PolicyAnswer) : List Policy :=
  match answer with
  | .error _ => []
  | .ok stream =>
    match stream.mapM id with
    | .error _ => []
    | .ok messages => loadIamPolicies messages

/-- Whether a request for a table goes to the central catalog: a visible name that is not cached. -/
def ElanSchemaProvider.asks (p : ElanSchemaProvider) (name : String) : Bool :=
  isVisible p.engine p.subject p.ns name && !p.tableExist name

def ElanCatalogProvider.asks (c : ElanCatalogProvider) (ns name : String) : Bool :=
  ((c.schema ns).map (·.asks name)).getD false

/-- What planning was told about a table. -/
structure TableAnswer where
  ns : String
  name : String
  result : Except CatalogClientError (Option ElanTableProvider)

/-- The session of one query, and what it was told in turn. -/
structure QuerySession (Op : Type) where
  subject : Subject
  session : Session Op
  told : List TableAnswer

/-- A call of the catalog client whose answer has not been taken in yet. -/
inductive CatalogRpc
  | listing (answer : Except RpcError (List (Except RpcError DatasetProto)))
  | lookup (session : ℕ) (ns name : String) (answer : Except RpcError DatasetProto)

/-- The query service, and the catalog of the central service with the registrations it is at. The
client is held from a call to its answer; `sent` are the scans whose requests went to executors. -/
structure Gateway (Op : Type) where
  central : CatalogState
  iamEngine : SnapshotIamEngine
  datasetsByNs : DatasetsByNs
  client : Option CatalogRpc
  sessions : List (QuerySession Op)
  responses : List (Subject × List NamespaceInfo)
  sent : List (Subject × RemoteTableScanExec)

inductive GatewayAction (Op : Type)
  | central (stmt : CatalogStatement)
  | poll (fault : Option Fault)
  | build (subject : Subject)
  | table (session : ℕ) (ns name : String) (fault : Option Fault)
  | receive
  | execute (session : ℕ) (plan : ExecutionPlan Op) (started : ℕ)
  | browse (subject : Subject)

mutual
def ExecutionPlan.scans {Op : Type} : ExecutionPlan Op → List RemoteTableScanExec
  | .remoteTableScan scan => [scan]
  | .empty _ => []
  | .node _ children => scansAll children

def ExecutionPlan.scansAll {Op : Type} : List (ExecutionPlan Op) → List RemoteTableScanExec
  | [] => []
  | child :: rest => child.scans ++ scansAll rest
end

section
variable [JsonText] [ArrowIpc] {Op : Type}

def QuerySession.take (q : QuerySession Op) (ns name : String)
    (central : Except RpcError DatasetProto) : QuerySession Op where
  subject := q.subject
  session := { q.session with catalog := (q.session.catalog.table ns name central).2 }
  told := q.told ++ [⟨ns,name,(q.session.catalog.table ns name central).1⟩]

variable [SerdeJson] [PlanOperators Op]

namespace Gateway

/-- Startup: without the catalog there is no service, without the policies it denies everything. -/
def new (central : CatalogState) (fault : Option Fault) (policies : PolicyAnswer) :
    Except CatalogClientError (Gateway Op) :=
  match loadDatasets (Fault.listing fault (centralListing central.tables)) with
  | .error e => .error e
  | .ok datasetsByNs => .ok ⟨central,⟨policiesAtStartup policies⟩,datasetsByNs,none,[],[],[]⟩

def sessionFor (g : Gateway Op) (subject : Subject) : Session Op :=
  buildForUser g.datasetsByNs g.iamEngine.toEngine subject

/-- The steps of the service and of the central catalog. A request for a table looks at the cache
before it waits for the client, and here in one step with it: the requests of a session come one
after the other, so that nothing is cached for it in between. -/
def step : GatewayAction Op → Gateway Op → Option (Gateway Op)
  | .central stmt, g => (stmt.step g.central).map fun central => { g with central := central }
  | .poll fault, g =>
    match g.client with
    | some _ => none
    | none => some { g with
        client := some (.listing (Fault.listing fault (centralListing g.central.tables))) }
  | .build subject, g =>
    some { g with sessions := g.sessions ++ [⟨subject,g.sessionFor subject,[]⟩] }
  | .table i ns name fault, g =>
    match g.sessions[i]? with
    | none => none
    | some q =>
      if q.session.catalog.asks ns name then
        match g.client with
        | some _ => none
        | none => some { g with
            client := some (.lookup i ns name
              (Fault.lookup fault (centralAnswer g.central.tables ns name))) }
      else
        -- the central catalog is not asked, so that it does not matter what it would say
        some { g with sessions := g.sessions.modify i (·.take ns name (.error (.transport ""))) }
  | .receive, g =>
    match g.client with
    | none => none
    | some (.listing answer) =>
      match loadDatasets answer with
      | .error _ => some { g with client := none }
      | .ok fresh => some { g with client := none, datasetsByNs := fresh }
    | some (.lookup i ns name answer) =>
      -- the name is still not cached: this is the one request that its session waits for
      some { g with client := none, sessions := g.sessions.modify i (·.take ns name answer) }
  | .execute i plan started, g =>
    match g.sessions[i]? with
    | none => none
    | some q =>
      match q.session.rule.optimize plan with
      | .error _ => some g
      | .ok optimized => some { g with
          sent := g.sent ++ (optimized.scans.take started).map (q.subject,·) }
  | .browse subject, g =>
    some { g with
      responses := g.responses ++ [(subject,handleCatalog (g.sessionFor subject).catalog)] }

inductive Effect (g : Gateway Op) : Gateway Op → Prop
  | central (central : CatalogState) : Effect g { g with central := central }
  | polled (hfree : g.client = none) (fault : Option Fault) :
    Effect g { g with
      client := some (.listing (Fault.listing fault (centralListing g.central.tables))) }
  | asked (hfree : g.client = none) (i : ℕ) (ns name : String) (fault : Option Fault) :
    Effect g { g with
      client := some (.lookup i ns name
        (Fault.lookup fault (centralAnswer g.central.tables ns name))) }
  | kept {answer e} (hclient : g.client = some (.listing answer))
    (hload : loadDatasets answer = .error e) : Effect g { g with client := none }
  | refreshed {answer fresh} (hclient : g.client = some (.listing answer))
    (hload : loadDatasets answer = .ok fresh) :
    Effect g { g with client := none, datasetsByNs := fresh }
  | built (subject : Subject) :
    Effect g { g with sessions := g.sessions ++ [⟨subject,g.sessionFor subject,[]⟩] }
  | answered {i ns name answer} (hclient : g.client = some (.lookup i ns name answer)) :
    Effect g { g with client := none, sessions := g.sessions.modify i (·.take ns name answer) }
  | told (i : ℕ) (ns name message : String) :
    Effect g { g with
      sessions := g.sessions.modify i (·.take ns name (.error (.transport message))) }
  | failed : Effect g g
  | executed {q optimized} (hq : q ∈ g.sessions) (plan : ExecutionPlan Op)
    (hrule : q.session.rule.optimize plan = .ok optimized) (started : ℕ) :
    Effect g { g with sent := g.sent ++ (optimized.scans.take started).map (q.subject,·) }
  | browsed (subject : Subject) :
    Effect g { g with
      responses := g.responses ++ [(subject,handleCatalog (g.sessionFor subject).catalog)] }

theorem step_effect {a : GatewayAction Op} {g g' : Gateway Op} (h : step a g = some g') :
    Effect g g' := by
  cases a with
  | central stmt =>
    obtain ⟨central,-,rfl⟩ := Option.map_eq_some_iff.mp h
    exact .central central
  | poll fault =>
    cases hclient : g.client <;> simp only [step,hclient] at h <;> cases h
    exact .polled hclient fault
  | build subject =>
    cases h
    exact .built subject
  | table i ns name fault =>
    cases hq : g.sessions[i]? with
    | none => simp [step,hq] at h
    | some q =>
      simp only [step,hq] at h
      split_ifs at h
      · cases hclient : g.client <;> simp only [hclient] at h <;> cases h
        exact .asked hclient i ns name fault
      · cases h
        exact .told i ns name ""
  | receive =>
    rcases hclient : g.client with _ | ⟨answer⟩ | ⟨i,ns,name,answer⟩
    · simp [step,hclient] at h
    · cases hload : loadDatasets answer <;> simp only [step,hclient,hload] at h <;> cases h
      · exact .kept hclient hload
      · exact .refreshed hclient hload
    · simp only [step,hclient] at h
      cases h
      exact .answered hclient
  | execute i plan started =>
    cases hq : g.sessions[i]? with
    | none => simp [step,hq] at h
    | some q =>
      cases hrule : q.session.rule.optimize plan <;> simp only [step,hq,hrule] at h <;> cases h
      · exact .failed
      · exact .executed (List.mem_of_getElem? hq) plan hrule started
  | browse subject =>
    cases h
    exact .browsed subject

end Gateway

/-! ### The polled catalog -/

omit [ArrowIpc] [SerdeJson] [PlanOperators Op] in
/-- A listing that was let down loads nothing. -/
theorem Fault.loadDatasets_listing {fault : Option Fault}
    {answer : Except RpcError (List (Except RpcError DatasetProto))} {m : DatasetsByNs}
    (h : loadDatasets (Fault.listing fault answer) = .ok m) : loadDatasets answer = .ok m := by
  rcases fault with _ | message | ⟨received,message⟩
  · exact h
  · cases h
  · obtain ⟨protos,-,hstream,-⟩ := loadDatasets_eq_ok h
    cases answer with
    | error e => cases hstream
    | ok stream =>
      have hlast := congrArg List.getLast? (Except.ok.inj hstream)
      rw [List.getLast?_append,List.getLast?_map] at hlast
      cases hprotos : protos.getLast? <;> simp [hprotos] at hlast

namespace Gateway

def source (g : Gateway Op) : Except CatalogClientError DatasetsByNs :=
  loadDatasets (centralListing g.central.tables)

def cached (g : Gateway Op) : Except CatalogClientError DatasetsByNs := .ok g.datasetsByNs

/-- The listing on its way, if it arrives whole. -/
def onItsWay (g : Gateway Op) : Option (Except CatalogClientError DatasetsByNs) :=
  match g.client with
  | some (.listing answer) =>
    if (loadDatasets answer).toBool then some (loadDatasets answer) else none
  | _ => none

theorem replicates {a : GatewayAction Op} {g g' : Gateway Op} (h : step a g = some g') :
    Replicates source cached onItsWay g g' := by
  cases step_effect h with
  | polled hfree fault =>
    cases hload : loadDatasets (Fault.listing fault (centralListing g.central.tables)) with
    | error e => exact .idle rfl (.inl (by simp [onItsWay,hload,Except.toBool]))
    | ok m =>
      refine .read rfl ?_
      simp [onItsWay,hload,Except.toBool,source,Fault.loadDatasets_listing hload]
  | asked => exact .idle rfl (.inl rfl)
  | kept => exact .idle rfl (.inl rfl)
  | refreshed hclient hload =>
    exact .install (by simp [onItsWay,hclient,hload,Except.toBool,cached]) rfl
  | answered => exact .idle rfl (.inl rfl)
  | _ => exact .idle rfl (.inr rfl)

omit [ArrowIpc] [SerdeJson] [PlanOperators Op] in
theorem new_eq_ok {central : CatalogState} {fault : Option Fault} {policies : PolicyAnswer}
    {g : Gateway Op}
    (h : new central fault policies = .ok g) :
    ∃ m, loadDatasets (centralListing central.tables) = .ok m ∧
      g = ⟨central,⟨policiesAtStartup policies⟩,m,none,[],[],[]⟩ := by
  unfold new at h
  cases hload : loadDatasets (Fault.listing fault (centralListing central.tables)) with
  | error e =>
    rw [hload] at h
    cases h
  | ok m =>
    rw [hload] at h
    cases h
    exact ⟨m,Fault.loadDatasets_listing hload,rfl⟩

omit [ArrowIpc] [SerdeJson] [PlanOperators Op] in
theorem start_of_new {central : CatalogState} {fault : Option Fault} {policies : PolicyAnswer}
    {g : Gateway Op}
    (h : new central fault policies = .ok g) :
    loadDatasets (centralListing g.central.tables) = .ok g.datasetsByNs ∧ g.client = none ∧
      g.sessions = [] := by
  obtain ⟨m,hload,rfl⟩ := new_eq_ok h
  exact ⟨hload,rfl,rfl⟩

/-- At every moment the cached catalog is one whole listing of the central catalog as it stood at
some earlier moment, and these moments never go back. -/
theorem cache_follows_central {central : CatalogState} {fault : Option Fault}
    {policies : PolicyAnswer} {g₀ : Gateway Op}
    (hnew : new central fault policies = .ok g₀) (as : List (GatewayAction Op)) :
    ∃ moment : ℕ → ℕ, Monotone moment ∧ ∀ k g, run step (as.take k) g₀ = some g → moment k ≤ k ∧
      ∃ past, run step (as.take (moment k)) g₀ = some past ∧
        loadDatasets (centralListing past.central.tables) = .ok g.datasetsByNs := by
  obtain ⟨hload,hclient,-⟩ := start_of_new hnew
  have hsent : onItsWay g₀ = none := by rw [onItsWay,hclient]
  obtain ⟨moment,hmono,hmoment⟩ := @exists_moments _ _ _ step source cached onItsWay g₀
    (fun _ _ _ h => replicates h) hload.symm hsent as
  refine ⟨moment,hmono,fun k g hg => ?_⟩
  obtain ⟨hle,past,hpast,hcopy⟩ := hmoment k g hg
  exact ⟨hle,past,hpast,hcopy.symm⟩

end Gateway

end

namespace Gateway

def openPolicy : PolicyProto :=
  ⟨"00000000-0000-0000-0000-000000000001","*","user","*","SELECT",0,"","",0⟩

abbrev sampleGateway (tables : CatalogTables) (policies : PolicyAnswer) :
    Except CatalogClientError (Gateway SampleOperator) :=
  @new nullJson _ ⟨tables,[]⟩ none policies

abbrev sampleStep : GatewayAction SampleOperator → Gateway SampleOperator →
    Option (Gateway SampleOperator) :=
  @step nullJson noSchemas _ noMasks _

/-- A query asks for the dataset before and after it is taken out of the catalog. -/
def sampleActions : List (GatewayAction SampleOperator) :=
  [.build ⟨"alice",[]⟩,.table 0 "analytics" "events" none,
    .central (.deactivateDataset "00000000-0000-0000-0000-000000000010"),.poll none,.receive,
    .table 0 "analytics" "events" none,.browse ⟨"alice",[]⟩]

theorem cache_follows_central_sample : ∃ g₀,
    sampleGateway sampleTables (.ok [.ok (openPolicy,Uuid.ofByte 1)]) = .ok g₀ ∧
    ∃ moment : ℕ → ℕ, Monotone moment ∧ ∀ k g, run sampleStep (sampleActions.take k) g₀ = some g →
      moment k ≤ k ∧ ∃ past, run sampleStep (sampleActions.take (moment k)) g₀ = some past ∧
        @loadDatasets nullJson (@centralListing nullJson past.central.tables) =
          .ok g.datasetsByNs :=
  ⟨_,rfl,@cache_follows_central nullJson noSchemas _ noMasks _ ⟨sampleTables,[]⟩ none _ _ rfl
    sampleActions⟩

end Gateway

end Elan
