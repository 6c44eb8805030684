import Elan.Gateway

/-! What users get out of the query service: tables they are told of, names that are listed for
them, and scans that run for them. -/
namespace Elan

open TransitionSystem PlanRewrite

theorem mem_modify {α : Type} {f : α → α} {i : ℕ} {xs : List α} {x : α}
    (h : x ∈ xs.modify i f) : x ∈ xs ∨ ∃ y ∈ xs, x = f y := by
  obtain ⟨j,hj⟩ := List.mem_iff_getElem?.mp h
  rw [List.getElem?_modify] at hj
  obtain ⟨y,hy,rfl⟩ := Option.map_eq_some_iff.mp hj
  have hmem := List.mem_of_getElem? hy
  split_ifs
  · exact .inr ⟨y,hmem,rfl⟩
  · exact .inl hmem

section
variable [JsonText] [ArrowIpc] {Op : Type} [SerdeJson] [PlanOperators Op]

/-- Some policy lets the subject select from the dataset, and none forbids it. -/
def Selectable (policies : List Policy) (s : Subject) (ns name : String) : Prop :=
  (∃ p ∈ policies, Matches p s ⟨ns,name⟩ "SELECT" ∧ p.effect = .allow) ∧
    ∀ p ∈ policies, Matches p s ⟨ns,name⟩ "SELECT" → p.effect ≠ .deny

omit [JsonText] [ArrowIpc] [PlanOperators Op] in
theorem isVisible_toEngine {e : SnapshotIamEngine} {s : Subject} {ns name : String} :
    isVisible e.toEngine s ns name ↔ Selectable e.policies s ns name := by
  unfold isVisible SnapshotIamEngine.toEngine
  rw [check_isAllowed_iff]
  constructor
  · intro ⟨hdenied,hmatched⟩
    have hnone : ∀ p ∈ e.policies, Matches p s ⟨ns,name⟩ "SELECT" → p.effect ≠ .deny :=
      fun p hp hm he => hdenied ⟨p,hp,hm,he⟩
    refine ⟨by_contra fun hno => hmatched fun p hp hm => hno ⟨p,hp,hm,?_⟩,hnone⟩
    cases he : p.effect with
    | allow => rfl
    | deny => exact absurd he (hnone p hp hm)
  · rintro ⟨⟨p,hp,hm,-⟩,hnone⟩
    exact ⟨fun ⟨q,hq,hqm,he⟩ => hnone q hq hqm he,fun hno => hno p hp hm⟩

omit [JsonText] [ArrowIpc] [SerdeJson] [PlanOperators Op] in
mutual
/-- Restricting a plan takes the denied scans out, and leaves the order of the others. -/
theorem scans_restrict (denied : RemoteTableScanExec → Bool) : ∀ plan : ExecutionPlan Op,
    (restrict denied plan).scans = plan.scans.filter (!denied ·)
  | .remoteTableScan scan => by
    by_cases h : denied scan <;> simp [restrict,ExecutionPlan.scans,h]
  | .empty schema => rfl
  | .node op children => scansAll_restrictAll denied children

theorem scansAll_restrictAll (denied : RemoteTableScanExec → Bool) :
    ∀ children : List (ExecutionPlan Op), ExecutionPlan.scansAll (restrictAll denied children) =
      (ExecutionPlan.scansAll children).filter (!denied ·)
  | [] => rfl
  | child :: rest => by
    simp only [restrictAll,ExecutionPlan.scansAll,scans_restrict denied child,
      scansAll_restrictAll denied rest,List.filter_append]
end

/-- The session asks for its own subject, under the rule of that subject, and was told of visible
tables under their own names only. -/
structure QuerySession.Guarded (engine : IamEngine) (q : QuerySession Op) : Prop where
  rule : q.session.rule = sessionRule engine q.subject
  keyed : Keyed engine q.subject q.session.catalog
  told : ∀ a ∈ q.told, ∀ t, a.result = .ok (some t) →
    t.dataset.key = (a.ns,a.name) ∧ isVisible engine q.subject a.ns a.name

omit [SerdeJson] [PlanOperators Op] in
theorem QuerySession.Guarded.take {engine : IamEngine} {q : QuerySession Op}
    (h : q.Guarded engine) {ns name : String} {central : Except RpcError DatasetProto}
    (hcall : TableCall.FromCentral ⟨ns,name,central⟩) :
    (q.take ns name central).Guarded engine := by
  refine ⟨h.rule,h.keyed.step hcall rfl,?_⟩
  intro a ha t ht
  rcases List.mem_append.mp ha with ha | ha
  · exact h.told a ha t ht
  · obtain rfl := List.mem_singleton.mp ha
    exact h.keyed.table hcall ht

omit [JsonText] [ArrowIpc] [SerdeJson] in
/-- Of a plan, whatever it reads, only the allowed scans are executed. -/
theorem QuerySession.Guarded.optimized (hops : LawfulOperators Op) {engine : IamEngine}
    {q : QuerySession Op}
    (h : q.Guarded engine) {plan optimized : ExecutionPlan Op}
    (hrule : q.session.rule.optimize plan = .ok optimized) :
    ∀ scan ∈ optimized.scans,
      isVisible engine q.subject scan.datasetNamespace scan.datasetName := by
  rw [h.rule,optimize_eq_restrict hops] at hrule
  cases hrule
  intro scan hscan
  rw [scans_restrict] at hscan
  simpa [deniedScan,isVisible] using (List.mem_filter.mp hscan).2

omit [ArrowIpc] [SerdeJson] [PlanOperators Op] in
theorem Fault.fromCentral (fault : Option Fault) (t : CatalogTables) (ns name : String) :
    TableCall.FromCentral ⟨ns,name,Fault.lookup fault (centralAnswer t ns name)⟩ := by
  rcases fault with _ | message | ⟨received,message⟩
  · exact .inl ⟨t,rfl⟩
  · exact .inr ⟨message,rfl⟩
  · exact .inr ⟨message,rfl⟩

namespace Gateway

/-- All that the service holds, has told, has listed and has sent, is decided by one engine. -/
structure Guarded (engine : IamEngine) (g : Gateway Op) : Prop where
  engine_eq : g.iamEngine.toEngine = engine
  loaded : ∃ answer, loadDatasets answer = .ok g.datasetsByNs
  asked : ∀ i ns name answer, g.client = some (.lookup i ns name answer) →
    TableCall.FromCentral ⟨ns,name,answer⟩
  sessions : ∀ q ∈ g.sessions, q.Guarded engine
  responses : ∀ r ∈ g.responses, ∀ ns name, (ns,name) ∈ listedPairs r.2 →
    isVisible engine r.1 ns name
  sent : ∀ x ∈ g.sent, isVisible engine x.1 x.2.datasetNamespace x.2.datasetName

variable {engine : IamEngine} {g g' : Gateway Op}

omit [PlanOperators Op] in
theorem Guarded.modify (h : g.Guarded engine) {i : ℕ} {ns name : String}
    {central : Except RpcError DatasetProto} (hcall : TableCall.FromCentral ⟨ns,name,central⟩) :
    ∀ q ∈ g.sessions.modify i (·.take ns name central), q.Guarded engine := by
  intro q hq
  rcases mem_modify hq with hold | ⟨q',hq',rfl⟩
  · exact h.sessions q hold
  · exact (h.sessions q' hq').take hcall

omit [PlanOperators Op] in
theorem Guarded.listed (h : g.Guarded engine) {subject : Subject} {ns name : String}
    (hmem : (ns,name) ∈ listedPairs (handleCatalog (g.sessionFor subject).catalog)) :
    isVisible engine subject ns name := by
  obtain ⟨p,hp,hname⟩ := mem_listedPairs.mp hmem
  obtain ⟨hns,hengine,hsubject⟩ := session_schema hp
  have hvisible := (List.mem_filter.mp hname).2
  rwa [hns,hengine,hsubject,h.engine_eq] at hvisible

theorem Guarded.step (hops : LawfulOperators Op) {a : GatewayAction Op} (h : g.Guarded engine)
    (hstep : step a g = some g') : g'.Guarded engine := by
  have hfree : ∀ i ns name answer, none = some (CatalogRpc.lookup i ns name answer) →
      TableCall.FromCentral ⟨ns,name,answer⟩ := fun _ _ _ _ he => by cases he
  cases step_effect hstep with
  | central t => exact ⟨h.engine_eq,h.loaded,h.asked,h.sessions,h.responses,h.sent⟩
  | polled hclient fault =>
    refine ⟨h.engine_eq,h.loaded,?_,h.sessions,h.responses,h.sent⟩
    intro _ _ _ _ he
    cases he
  | asked hclient i ns name fault =>
    refine ⟨h.engine_eq,h.loaded,?_,h.sessions,h.responses,h.sent⟩
    rintro _ _ _ _ ⟨⟩
    exact Fault.fromCentral fault g.central.tables ns name
  | kept => exact ⟨h.engine_eq,h.loaded,hfree,h.sessions,h.responses,h.sent⟩
  | refreshed hclient hload =>
    exact ⟨h.engine_eq,⟨_,hload⟩,hfree,h.sessions,h.responses,h.sent⟩
  | built subject =>
    refine ⟨h.engine_eq,h.loaded,h.asked,?_,h.responses,h.sent⟩
    intro q hq
    rcases List.mem_append.mp hq with hq | hq
    · exact h.sessions q hq
    · obtain rfl := List.mem_singleton.mp hq
      obtain ⟨answer,hload⟩ := h.loaded
      refine ⟨?_,?_,by simp⟩
      · rw [← h.engine_eq]
        rfl
      · rw [← h.engine_eq]
        exact keyed_build hload
  | answered hclient =>
    exact ⟨h.engine_eq,h.loaded,hfree,h.modify (h.asked _ _ _ _ hclient),h.responses,h.sent⟩
  | told i ns name message =>
    exact ⟨h.engine_eq,h.loaded,h.asked,h.modify (.inr ⟨message,rfl⟩),h.responses,h.sent⟩
  | failed => exact h
  | executed hq plan hrule started =>
    refine ⟨h.engine_eq,h.loaded,h.asked,h.sessions,h.responses,?_⟩
    intro x hx
    rcases List.mem_append.mp hx with hx | hx
    · exact h.sent x hx
    · obtain ⟨scan,hscan,rfl⟩ := List.mem_map.mp hx
      exact (h.sessions _ hq).optimized hops hrule scan (List.mem_of_mem_take hscan)
  | browsed subject =>
    refine ⟨h.engine_eq,h.loaded,h.asked,h.sessions,?_,h.sent⟩
    intro r hr ns name hmem
    rcases List.mem_append.mp hr with hr | hr
    · exact h.responses r hr ns name hmem
    · obtain rfl := List.mem_singleton.mp hr
      exact h.listed hmem

omit [ArrowIpc] [PlanOperators Op] in
theorem Guarded.new {central : CatalogState} {fault : Option Fault} {policies : PolicyAnswer}
    (hnew : new central fault policies = .ok g) :
    g.Guarded (SnapshotIamEngine.toEngine ⟨policiesAtStartup policies⟩) := by
  obtain ⟨m,hload,rfl⟩ := new_eq_ok hnew
  refine ⟨rfl,⟨_,hload⟩,?_,by simp,by simp,by simp⟩
  intro _ _ _ _ he
  cases he

theorem Guarded.run (hops : LawfulOperators Op) {as : List (GatewayAction Op)}
    (h : g.Guarded engine) (hrun : run Gateway.step as g = some g') : g'.Guarded engine :=
  run_preserves (fun _ _ _ h hstep => h.step hops hstep) h hrun

/-- Over the whole life of the service, whatever happens in between: a table is returned only
under its own name, and nothing is returned, listed or read at an executor for a subject that the
policies at startup do not let select from it. -/
theorem discloses_only_selectable (hops : LawfulOperators Op) {central : CatalogState}
    {fault : Option Fault} {policies : PolicyAnswer} (hnew : new central fault policies = .ok g)
    {as : List (GatewayAction Op)}
    (hrun : run step as g = some g') :
    (∀ q ∈ g'.sessions, ∀ a ∈ q.told, ∀ t, a.result = .ok (some t) →
      t.dataset.key = (a.ns,a.name) ∧
        Selectable (policiesAtStartup policies) q.subject a.ns a.name) ∧
    (∀ r ∈ g'.responses, ∀ ns name, (ns,name) ∈ listedPairs r.2 →
      Selectable (policiesAtStartup policies) r.1 ns name) ∧
    ∀ x ∈ g'.sent, Selectable (policiesAtStartup policies) x.1 x.2.datasetNamespace
      x.2.datasetName := by
  have h := (Guarded.new hnew).run hops hrun
  refine ⟨?_,?_,?_⟩
  · intro q hq a ha t ht
    obtain ⟨hkey,hvisible⟩ := (h.sessions q hq).told a ha t ht
    exact ⟨hkey,isVisible_toEngine.mp hvisible⟩
  · intro r hr ns name hmem
    exact isVisible_toEngine.mp (h.responses r hr ns name hmem)
  · intro x hx
    exact isVisible_toEngine.mp (h.sent x hx)

omit [JsonText] [ArrowIpc] [SerdeJson] [PlanOperators Op] in
theorem policiesAtStartup_of_failed {policies : PolicyAnswer}
    (h : ∀ stream, policies = .ok stream → ∃ e, .error e ∈ stream) :
    policiesAtStartup policies = [] := by
  cases policies with
  | error e => rfl
  | ok stream =>
    obtain ⟨e,he⟩ := h stream rfl
    cases hstream : stream.mapM id with
    | error e => simp only [policiesAtStartup,hstream]
    | ok messages =>
      obtain ⟨_,-,hok⟩ := Table.exists_of_mapM hstream he
      cases hok

/-- The service that could not read all the policies: no table is ever found, listed or read. -/
theorem denies_all (hops : LawfulOperators Op) {central : CatalogState} {fault : Option Fault}
    {policies : PolicyAnswer}
    (hfailed : ∀ stream, policies = .ok stream → ∃ e, .error e ∈ stream)
    (hnew : new central fault policies = .ok g) {as : List (GatewayAction Op)}
    (hrun : run step as g = some g') :
    (∀ q ∈ g'.sessions, ∀ a ∈ q.told, ∀ t, a.result ≠ .ok (some t)) ∧
      (∀ r ∈ g'.responses, listedPairs r.2 = []) ∧ g'.sent = [] := by
  have h := (Guarded.new hnew).run hops hrun
  have hnone (s : Subject) (ns name : String) :
      ¬ isVisible (SnapshotIamEngine.toEngine ⟨policiesAtStartup policies⟩) s ns name := by
    rw [isVisible_toEngine,policiesAtStartup_of_failed hfailed]
    rintro ⟨⟨p,hp,-⟩,-⟩
    cases hp
  refine ⟨?_,?_,?_⟩
  · intro q hq a ha t ht
    exact hnone _ _ _ ((h.sessions q hq).told a ha t ht).2
  · intro r hr
    apply List.eq_nil_iff_forall_not_mem.mpr
    intro ⟨ns,name⟩ hmem
    exact hnone _ _ _ (h.responses r hr ns name hmem)
  · apply List.eq_nil_iff_forall_not_mem.mpr
    intro x hx
    exact hnone _ _ _ (h.sent x hx)

end Gateway

end

namespace Gateway

def financePolicy : PolicyProto :=
  ⟨"00000000-0000-0000-0000-000000000002","*","user","finance.*","SELECT",1,"","",0⟩

def closedPolicies : PolicyAnswer :=
  .ok [.ok (openPolicy,Uuid.ofByte 1),.ok (financePolicy,Uuid.ofByte 2)]

/-- One query reads two datasets, and a second user browses. -/
def readingActions : List (GatewayAction SampleOperator) :=
  [.build ⟨"alice",[]⟩,.table 0 "analytics" "events" none,.table 0 "finance" "accounts" none,
    .browse ⟨"bob",[]⟩,.execute 0 (.node ⟨"HashJoinExec",[]⟩
      [.remoteTableScan (accountScan "analytics"),.remoteTableScan (accountScan "finance")]) 2]

/-- Of the two datasets one is told of, listed and read. -/
theorem discloses_only_selectable_sample : ∃ g₀ g,
    sampleGateway financeTables closedPolicies = .ok g₀ ∧
    run sampleStep readingActions g₀ = some g ∧
    (g.sessions.flatMap (·.told)).map (·.result.toOption.join.isSome) = [true,false] ∧
    g.responses.flatMap (listedPairs ·.2) = [("analytics","events")] ∧
    g.sent.map (·.2.datasetNamespace) = ["analytics"] ∧
    (∀ q ∈ g.sessions, ∀ a ∈ q.told, ∀ t, a.result = .ok (some t) →
      t.dataset.key = (a.ns,a.name) ∧
        Selectable (policiesAtStartup closedPolicies) q.subject a.ns a.name) ∧
    (∀ r ∈ g.responses, ∀ ns name, (ns,name) ∈ listedPairs r.2 →
      Selectable (policiesAtStartup closedPolicies) r.1 ns name) ∧
    ∀ x ∈ g.sent, Selectable (policiesAtStartup closedPolicies) x.1 x.2.datasetNamespace
      x.2.datasetName :=
  ⟨_,_,rfl,rfl,rfl,rfl,rfl,@discloses_only_selectable nullJson noSchemas _ noMasks _ _ _
    sampleOperator_lawful ⟨financeTables,[]⟩ none _ rfl readingActions rfl⟩

/-- The stream of policies breaks off after the first. -/
theorem denies_all_sample : ∃ g₀ g,
    sampleGateway financeTables (.ok [.ok (openPolicy,Uuid.ofByte 1),.error (.transport "reset")]) =
      .ok g₀ ∧
    run sampleStep readingActions g₀ = some g ∧
    (∀ q ∈ g.sessions, ∀ a ∈ q.told, ∀ t, a.result ≠ .ok (some t)) ∧
      (∀ r ∈ g.responses, listedPairs r.2 = []) ∧ g.sent = [] := by
  have hfailed : ∀ stream, (Except.ok [.ok (openPolicy,Uuid.ofByte 1),.error (.transport "reset")] :
      PolicyAnswer) = .ok stream → ∃ e, .error e ∈ stream := by
    rintro _ ⟨⟩
    exact ⟨.transport "reset",by simp⟩
  exact ⟨_,_,rfl,rfl,@denies_all nullJson noSchemas _ noMasks _ _ _ sampleOperator_lawful
    ⟨financeTables,[]⟩ none _ hfailed rfl readingActions rfl⟩

end Gateway

end Elan
