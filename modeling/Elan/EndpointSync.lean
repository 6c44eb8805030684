import Elan.CatalogSvc

/-! Executor endpoints are copied from the coordinator's row into the rows of its datasets.
The two statements of a dataset registration may have any others between them. -/
namespace Elan

open TransitionSystem CatalogTables

/-- A registration between its statements, with the endpoint it has read. -/
structure PendingInsert where
  req : DatasetRegistration
  executorEndpoint : String
  deriving DecidableEq

structure CatalogState where
  tables : CatalogTables
  pending : List PendingInsert
  deriving DecidableEq

/-- The statements that run against the catalog, one at a time. -/
inductive CatalogStatement
  | upsertCoordinator (now : String) (req : RegisterRequest)
  | heartbeat (now coordinatorId : String)
  | lookupEndpoint (req : DatasetRegistration)
  | insertDataset (now : String) (i : ℕ)
  | deactivateDataset (datasetId : String)
  deriving DecidableEq

namespace CatalogStatement

def step (stmt : CatalogStatement) (s : CatalogState) : Option CatalogState :=
  match stmt with
  | upsertCoordinator now req => some { s with tables := CoordinatorSvc.register s.tables now req }
  | heartbeat now coordinatorId =>
    some { s with tables := CoordinatorSvc.heartbeat s.tables now coordinatorId }
  | lookupEndpoint req =>
    some { s with pending :=
      s.pending ++ [⟨req,CatalogStore.lookupEndpoint s.tables req.coordinatorId⟩] }
  | insertDataset now i =>
    match s.pending[i]? with
    | none => none
    | some p =>
      match s.tables.insertDataset (p.req.row now p.executorEndpoint) with
      | .error _ => some { s with pending := s.pending.eraseIdx i }
      | .ok t => some ⟨t,s.pending.eraseIdx i⟩
  | deactivateDataset datasetId =>
    some { s with tables := CoordinatorSvc.unregisterDataset s.tables datasetId }

end CatalogStatement

def CatalogTables.endpoint? (t : CatalogTables) (coordinatorId : String) : Option String :=
  (t.coordinator? coordinatorId).map CoordinatorRow.executorEndpoint

variable [JsonText]

def Returned (t : CatalogTables) (d : DatasetInfo) : Prop :=
  (∃ ns name, CatalogStore.getDataset t ns name = .ok (some d)) ∨
    ∃ namespaceFilter ds, CatalogStore.listDatasets t namespaceFilter = .ok ds ∧ d ∈ ds

def EndpointsInSync (t : CatalogTables) : Prop :=
  ∀ d, Returned t d → t.endpoint? d.coordinatorId = some d.executorEndpoint

/-- A coordinator moves only when none of the datasets that can be read names another endpoint
for it, and the endpoint that a registration has read is still the coordinator's. -/
def CatalogStatement.KeepsInSync : CatalogStatement → CatalogState → Prop
  | .upsertCoordinator _ req, s => ∀ key r, s.tables.served? key = some r → r.Decodes →
      r.coordinatorId = req.coordinatorId → r.executorEndpoint = req.executorEndpoint
  | .insertDataset _ i, s => ∀ p, s.pending[i]? = some p → p.req.Accepted s.tables →
      p.req.Readable s.tables → s.tables.endpoint? p.req.coordinatorId = some p.executorEndpoint
  | _, _ => True

theorem returned_iff {t : CatalogTables} {d : DatasetInfo} :
    Returned t d ↔ CatalogStore.getDataset t d.ns d.name = .ok (some d) := by
  constructor
  · intro h
    rcases h with ⟨ns,name,hget⟩ | ⟨f,ds,hlist,hmem⟩
    · obtain ⟨rfl,rfl⟩ := Prod.mk.inj (CatalogStore.getDataset_key hget)
      exact hget
    · exact (((CatalogStore.listDatasets_spec hlist).2 d).mp hmem).2
  · intro h
    exact .inl ⟨d.ns,d.name,h⟩

theorem endpointsInSync_iff {t : CatalogTables} : EndpointsInSync t ↔
    ∀ key r, t.served? key = some r → r.Decodes →
      t.endpoint? r.coordinatorId = some r.executorEndpoint := by
  constructor
  · intro h key r hr hdecodes
    obtain ⟨d,hd⟩ := hdecodes
    have hdesc := rowToDataset_eq_ok.mp hd
    rw [← hdesc.coordinatorId,← hdesc.executorEndpoint]
    exact h d (.inl ⟨key.1,key.2,CatalogStore.getDataset_eq_some.mpr ⟨r,hr,hdesc⟩⟩)
  · intro h d hd
    obtain ⟨r,hr,hdesc⟩ := CatalogStore.getDataset_eq_some.mp (returned_iff.mp hd)
    rw [hdesc.coordinatorId,hdesc.executorEndpoint]
    exact h _ r hr ⟨d,rowToDataset_eq_ok.mpr hdesc⟩

structure Synchronised (s : CatalogState) : Prop where
  living : s.tables.AllLiving
  inSync : EndpointsInSync s.tables

omit [JsonText] in
theorem endpoint?_register (t : CatalogTables) (now : String) (req : RegisterRequest)
    (id : String) :
    (CoordinatorSvc.register t now req).endpoint? id =
      if id = req.coordinatorId then some req.executorEndpoint else t.endpoint? id := by
  unfold endpoint?
  rw [CoordinatorSvc.register,CatalogStore.upsertCoordinator,coordinator?_insertCoordinator]
  by_cases hid : id = req.coordinatorId
  · rw [if_pos hid,if_pos hid]
    cases t.coordinator? id <;> rfl
  · rw [if_neg hid,if_neg hid]

omit [JsonText] in
theorem endpoint?_heartbeat (t : CatalogTables) (now coordinatorId id : String) :
    (CoordinatorSvc.heartbeat t now coordinatorId).endpoint? id = t.endpoint? id := by
  unfold endpoint?
  rw [CoordinatorSvc.heartbeat,CatalogStore.heartbeat,coordinator?_updateCoordinator]
  by_cases hid : id = coordinatorId
  · rw [if_pos hid]
    cases t.coordinator? id <;> rfl
  · rw [if_neg hid]

omit [JsonText] in
theorem endpoint?_insertDataset {t t' : CatalogTables} {d : DatasetRow}
    (h : t.insertDataset d = .ok t') (id : String) : t'.endpoint? id = t.endpoint? id := by
  unfold endpoint?
  rw [coordinator?_insertDataset h]

omit [JsonText] in
theorem served?_register {t : CatalogTables} (h : t.AllLiving) (now : String)
    (req : RegisterRequest) (key : String × String) :
    (CoordinatorSvc.register t now req).served? key = t.served? key := by
  rw [h.served?_eq,(h.register now req).served?_eq,CoordinatorSvc.dataset?_register]

omit [JsonText] in
theorem served?_heartbeat {t : CatalogTables} (h : t.AllLiving) (now coordinatorId : String)
    (key : String × String) :
    (CoordinatorSvc.heartbeat t now coordinatorId).served? key = t.served? key := by
  rw [h.served?_eq,(h.heartbeat now coordinatorId).served?_eq,CoordinatorSvc.dataset?_heartbeat]

theorem register_inSync {s : CatalogState} (h : Synchronised s) (now : String)
    (req : RegisterRequest) : EndpointsInSync (CoordinatorSvc.register s.tables now req) ↔
      CatalogStatement.KeepsInSync (.upsertCoordinator now req) s := by
  rw [endpointsInSync_iff]
  simp only [served?_register h.living,endpoint?_register]
  constructor
  · intro hsync key r hr hdecodes hid
    have hr' := hsync key r hr hdecodes
    rw [if_pos hid] at hr'
    exact (Option.some.inj hr').symm
  · intro hkeeps key r hr hdecodes
    by_cases hid : r.coordinatorId = req.coordinatorId
    · rw [if_pos hid,hkeeps key r hr hdecodes hid]
    · rw [if_neg hid]
      exact endpointsInSync_iff.mp h.inSync key r hr hdecodes

theorem insert_inSync {s : CatalogState} (h : Synchronised s) {p : PendingInsert} {now : String}
    {t : CatalogTables} (hins : s.tables.insertDataset (p.req.row now p.executorEndpoint) = .ok t) :
    EndpointsInSync t ↔ (p.req.Readable s.tables →
      s.tables.endpoint? p.req.coordinatorId = some p.executorEndpoint) := by
  have hacc : p.req.Accepted s.tables := DatasetRegistration.accepted_iff.mp ⟨t,hins⟩
  obtain ⟨c,hc⟩ := Option.ne_none_iff_exists'.mp hacc.1
  have hliving : s.tables.living p.req.coordinatorId = true :=
    living_iff.mpr ⟨c,hc,h.living _ c hc⟩
  rw [endpointsInSync_iff]
  simp only [DatasetRegistration.served?_insert hins,endpoint?_insertDataset hins,if_pos hliving]
  constructor
  · intro hsync hread
    have hrow := hsync p.req.key _ (if_pos rfl) (DatasetRegistration.decodes_written.mpr hread)
    rwa [DatasetRegistration.written_coordinatorId,
      DatasetRegistration.written_executorEndpoint] at hrow
  · intro hcurrent key r hr hdecodes
    split_ifs at hr with hkey
    · cases hr
      rw [DatasetRegistration.written_coordinatorId,DatasetRegistration.written_executorEndpoint]
      exact hcurrent (DatasetRegistration.decodes_written.mp hdecodes)
    · exact endpointsInSync_iff.mp h.inSync key r hr hdecodes

omit [JsonText] in
/-- The insert of a pending registration leaves the tables alone when it is refused. -/
theorem insertDataset_cases {s s' : CatalogState} {now : String} {i : ℕ}
    (h : CatalogStatement.step (.insertDataset now i) s = some s') :
    ∃ p, s.pending[i]? = some p ∧ (¬ p.req.Accepted s.tables ∧ s'.tables = s.tables ∨
      s.tables.insertDataset (p.req.row now p.executorEndpoint) = .ok s'.tables) := by
  rw [CatalogStatement.step] at h
  cases hp : s.pending[i]? with
  | none =>
    rw [hp] at h
    cases h
  | some p =>
    rw [hp] at h
    refine ⟨p,rfl,?_⟩
    cases hins : s.tables.insertDataset (p.req.row now p.executorEndpoint) with
    | error e =>
      simp only [hins,Option.some.injEq] at h
      subst h
      refine .inl ⟨fun hacc => ?_,rfl⟩
      obtain ⟨t,ht⟩ : ∃ t, s.tables.insertDataset (p.req.row now p.executorEndpoint) = .ok t :=
        DatasetRegistration.accepted_iff.mpr hacc
      rw [hins] at ht
      cases ht
    | ok t =>
      simp only [hins,Option.some.injEq] at h
      subst h
      exact .inr rfl

/-- One statement keeps the endpoints in sync exactly under its condition. -/
theorem Synchronised.step {s s' : CatalogState} (h : Synchronised s) {stmt : CatalogStatement}
    (hstep : stmt.step s = some s') :
    s'.tables.AllLiving ∧ (EndpointsInSync s'.tables ↔ stmt.KeepsInSync s) := by
  cases stmt with
  | upsertCoordinator now req =>
    cases hstep
    exact ⟨h.living.register now req,register_inSync h now req⟩
  | heartbeat now coordinatorId =>
    cases hstep
    refine ⟨h.living.heartbeat now coordinatorId,iff_of_true ?_ trivial⟩
    apply endpointsInSync_iff.mpr
    intro key r hr hdecodes
    rw [served?_heartbeat h.living] at hr
    rw [endpoint?_heartbeat]
    exact endpointsInSync_iff.mp h.inSync key r hr hdecodes
  | lookupEndpoint req =>
    cases hstep
    exact ⟨h.living,iff_of_true h.inSync trivial⟩
  | deactivateDataset datasetId =>
    cases hstep
    refine ⟨h.living,iff_of_true ?_ trivial⟩
    apply endpointsInSync_iff.mpr
    intro key r hr hdecodes
    rw [CoordinatorSvc.served?_unregisterDataset] at hr
    exact endpointsInSync_iff.mp h.inSync key r (Option.mem_filter_iff.mp hr).1 hdecodes
  | insertDataset now i =>
    obtain ⟨p,hp,hcases⟩ := insertDataset_cases hstep
    have hkeeps : CatalogStatement.KeepsInSync (.insertDataset now i) s ↔
        (p.req.Accepted s.tables → p.req.Readable s.tables →
          s.tables.endpoint? p.req.coordinatorId = some p.executorEndpoint) := by
      simp [CatalogStatement.KeepsInSync,hp]
    rw [hkeeps]
    rcases hcases with ⟨hrefused,hsame⟩ | hins
    · rw [hsame]
      exact ⟨h.living,iff_of_true h.inSync fun hacc => absurd hacc hrefused⟩
    · have hacc : p.req.Accepted s.tables := DatasetRegistration.accepted_iff.mp ⟨_,hins⟩
      refine ⟨h.living.insertDataset hins,(insert_inSync h hins).trans ?_⟩
      exact ⟨fun hsync _ => hsync,fun hsync => hsync hacc⟩

def CatalogState.initial : CatalogState := ⟨.empty,[]⟩

theorem Synchronised.initial : Synchronised .initial := by
  refine ⟨?_,endpointsInSync_iff.mpr ?_⟩
  · intro id c hc
    cases hc
  · intro key r hr
    cases hr

/-- Over any interleaving of statements, all records returned carry their coordinator's current
endpoint in every state exactly when each statement meets its condition. -/
theorem endpoints_inSync_iff (stmts : List CatalogStatement) :
    (∀ done s, done <+: stmts → run CatalogStatement.step done .initial = some s →
        EndpointsInSync s.tables) ↔
      Meets CatalogStatement.step CatalogStatement.KeepsInSync stmts .initial := by
  rw [← always_iff (P := fun s : CatalogState => EndpointsInSync s.tables)]
  apply always_iff_meets fun s => Synchronised.inSync
  · intro stmt s hnone
    cases stmt with
    | insertDataset now i =>
      intro p hp
      rw [CatalogStatement.step,hp] at hnone
      cases hins : s.tables.insertDataset (p.req.row now p.executorEndpoint) <;>
        simp [hins] at hnone
    | _ => cases hnone
  · intro stmt s s' h hstep
    exact (h.step hstep).2
  · intro stmt s s' h hstep hsync
    exact ⟨(h.step hstep).1,hsync⟩
  · exact Synchronised.initial

omit [JsonText] in
/-- A coordinator that registers again at another endpoint leaves its datasets at the old one. -/
theorem register_again_leaves_stale_endpoint : ∃ s,
    run CatalogStatement.step
      [.upsertCoordinator "t0" (sampleCoordinator "node-1:50051"),
        .lookupEndpoint (sampleRegistration "00000000-0000-0000-0000-000000000010"),
        .insertDataset "t1" 0,
        .upsertCoordinator "t2" (sampleCoordinator "node-2:50051")] .initial = some s ∧
    s.tables.endpoint? "c1" = some "node-2:50051" ∧
    ∀ _ : JsonText, ∃ d, CatalogStore.getDataset s.tables "analytics" "events" = .ok (some d) ∧
      d.coordinatorId = "c1" ∧ d.executorEndpoint = "node-1:50051" ∧
      ¬ EndpointsInSync s.tables := by
  refine ⟨_,rfl,rfl,fun _ => ⟨⟨Uuid.ofByte 16,"events","analytics",.parquet,"c1","node-1:50051",[],
    .null⟩,rfl,rfl,rfl,?_⟩⟩
  intro hsync
  have hcurrent := hsync ⟨Uuid.ofByte 16,"events","analytics",.parquet,"c1","node-1:50051",[],.null⟩
    (.inl ⟨"analytics","events",rfl⟩)
  exact absurd hcurrent (by decide)

end Elan
