import Elan.Coordinator
import Elan.EndpointSync
import Elan.Serde

/-! All coordinators together: processes that start, announce their datasets and end at any point,
against one central catalog that may carry out their calls late or not at all. The data files are
taken as fixed: `DataFusion` infers one schema from a file, whenever it is asked. -/
namespace Elan

open TransitionSystem CatalogTables

theorem forall_mem_set {α : Type} {P : α → Prop} {xs : List α} {i : ℕ} {x : α}
    (h : ∀ y ∈ xs, P y) (hx : P x) : ∀ y ∈ xs.set i x, P y := by
  intro y hy
  rcases List.mem_or_eq_of_mem_set hy with hold | rfl
  · exact h y hold
  · exact hx

namespace Fleet

/-- A call that central has not answered yet, with what it has read for it. -/
inductive Call
  | register (req : RegisterRequest)
  | registerDataset (req : DatasetRegistration)
  | insertDataset (req : DatasetRegistration) (executorEndpoint : String)
  | heartbeat (coordinatorId : String)
  deriving DecidableEq

/-- The next statement of a call, and what is left of the call. -/
def Call.execute (now : String) (t : CatalogTables) :
    Call → Except ConstraintError (CatalogTables × Option Call)
  | register req => .ok (CoordinatorSvc.register t now req,none)
  | registerDataset req =>
    .ok (t,some (insertDataset req (CatalogStore.lookupEndpoint t req.coordinatorId)))
  | insertDataset req executorEndpoint => do
    let t' ← t.insertDataset (req.row now executorEndpoint)
    return (t',none)
  | heartbeat coordinatorId => .ok (CoordinatorSvc.heartbeat t now coordinatorId,none)

/-- How far a process is: the datasets that central has taken, and those to come. A process that
ended may leave a call behind. -/
inductive Stage
  | registering
  | announcing (done todo : List DatasetEntry)
  | awaiting (done : List DatasetEntry) (e : DatasetEntry) (todo : List DatasetEntry) (call : Call)
  | abandoned (call : Call)
  | stopped
  deriving DecidableEq

structure Process where
  cfg : CoordinatorConfig
  stage : Stage
  deriving DecidableEq

namespace Process

def call (p : Process) : Option Call :=
  match p.stage with
  | .registering => some (.register p.cfg.registerRequest)
  | .awaiting _ _ _ call | .abandoned call => some call
  | .announcing _ _ | .stopped => none

/-- The call is answered: the process goes on to the next dataset. -/
def answered (p : Process) : Process :=
  match p.stage with
  | .registering => { p with stage := .announcing [] p.cfg.datasets }
  | .awaiting done e todo _ => { p with stage := .announcing (done ++ [e]) todo }
  | .abandoned _ => { p with stage := .stopped }
  | .announcing _ _ | .stopped => p

/-- Central has carried out a statement of the call. -/
def advanced (p : Process) (call : Call) : Process :=
  match p.stage with
  | .awaiting done e todo _ => { p with stage := .awaiting done e todo call }
  | .abandoned _ => { p with stage := .abandoned call }
  | .registering | .announcing _ _ | .stopped => p

/-- The process ends. A heartbeat may still be on its way once all datasets are announced. -/
def ended (p : Process) : Process :=
  match p.stage with
  | .registering => { p with stage := .abandoned (.register p.cfg.registerRequest) }
  | .awaiting _ _ _ call => { p with stage := .abandoned call }
  | .announcing _ [] => { p with stage := .abandoned (.heartbeat p.cfg.coordinatorId) }
  | .announcing _ (_ :: _) | .abandoned _ | .stopped => { p with stage := .stopped }

/-- The datasets that central has taken from the process. -/
def taken (p : Process) : List DatasetEntry :=
  match p.stage with
  | .announcing done _ | .awaiting done _ _ _ => done
  | .registering | .abandoned _ | .stopped => []

end Process

inductive Action
  | start (cfg : CoordinatorConfig)
  | announce (i : ℕ) (datasetId : Uuid)
  | execute (i : ℕ) (now : String)
  | heartbeat (i : ℕ) (now : String)
  | stop (i : ℕ)
  deriving DecidableEq

end Fleet

open Fleet

structure Fleet where
  tables : CatalogTables
  processes : List Process
  deriving DecidableEq

namespace Fleet

def initial : Fleet := ⟨.empty,[]⟩

theorem Process.taken_active {p : Process} {e : DatasetEntry} (he : e ∈ p.taken) :
    p.stage ≠ .stopped := by
  intro hstopped
  unfold Process.taken at he
  rw [hstopped] at he
  cases he

theorem Process.call_active {p : Process} {call : Call} (hcall : p.call = some call) :
    p.stage ≠ .stopped := by
  intro hstopped
  unfold Process.call at hcall
  rw [hstopped] at hcall
  cases hcall

/-- The registration of the coordinator itself has gone through. -/
def Process.Joined (p : Process) : Prop :=
  match p.stage with
  | .announcing _ _ | .awaiting _ _ _ _ | .abandoned (.registerDataset _)
  | .abandoned (.insertDataset _ _) => True
  | _ => False

theorem Process.Joined.active {p : Process} (h : p.Joined) : p.stage ≠ .stopped := by
  intro hstopped
  unfold Process.Joined at h
  rw [hstopped] at h
  exact h

section
variable [JsonText] [DataFusion] [SchemaWriter]

/-- The process sends the registration of its next dataset; it ends where there is none to send. -/
def Process.announce (p : Process) (datasetId : Uuid) : Option Process :=
  match p.stage with
  | .announcing done (e :: todo) =>
    match e.toRegistration p.cfg.coordinatorId datasetId with
    | .error _ => some { p with stage := .stopped }
    | .ok req => some { p with stage := .awaiting done e todo (.registerDataset req) }
  | _ => none

/-- A call that is refused ends the process, as its answer is an error. -/
def step (a : Action) (s : Fleet) : Option Fleet :=
  match a with
  | .start cfg => some { s with processes := s.processes ++ [⟨cfg,.registering⟩] }
  | .announce i datasetId => do
    let p ← s.processes[i]?
    let p' ← p.announce datasetId
    return { s with processes := s.processes.set i p' }
  | .execute i now => do
    let p ← s.processes[i]?
    let call ← p.call
    match call.execute now s.tables with
    | .error _ => return { s with processes := s.processes.set i { p with stage := .stopped } }
    | .ok (t,none) => return ⟨t,s.processes.set i p.answered⟩
    | .ok (t,some rest) => return ⟨t,s.processes.set i (p.advanced rest)⟩
  | .heartbeat i now => do
    let p ← s.processes[i]?
    match p.stage with
    | .announcing _ [] =>
      return { s with tables := CoordinatorSvc.heartbeat s.tables now p.cfg.coordinatorId }
    | _ => none
  | .stop i => do
    let p ← s.processes[i]?
    return { s with processes := s.processes.set i p.ended }

/-- What one process and the tables can turn into. -/
inductive Moves (t : CatalogTables) (p : Process) : CatalogTables → Process → Prop
  | announced {done todo : List DatasetEntry} {e : DatasetEntry} {datasetId : Uuid}
    {req : DatasetRegistration} (hstage : p.stage = .announcing done (e :: todo))
    (hreq : e.toRegistration p.cfg.coordinatorId datasetId = .ok req) :
    Moves t p t { p with stage := .awaiting done e todo (.registerDataset req) }
  | failed : Moves t p t { p with stage := .stopped }
  | ended : Moves t p t p.ended
  | registered {req : RegisterRequest} (hcall : p.call = some (.register req)) (now : String) :
    Moves t p (CoordinatorSvc.register t now req) p.answered
  | lookedUp {req : DatasetRegistration} (hcall : p.call = some (.registerDataset req)) :
    Moves t p t (p.advanced
      (.insertDataset req (CatalogStore.lookupEndpoint t req.coordinatorId)))
  | inserted {req : DatasetRegistration} {executorEndpoint now : String} {t' : CatalogTables}
    (hcall : p.call = some (.insertDataset req executorEndpoint))
    (hins : t.insertDataset (req.row now executorEndpoint) = .ok t') : Moves t p t' p.answered
  | revived {coordinatorId : String} (hcall : p.call = some (.heartbeat coordinatorId))
    (now : String) : Moves t p (CoordinatorSvc.heartbeat t now coordinatorId) p.answered
  | alive (now : String) : Moves t p (CoordinatorSvc.heartbeat t now p.cfg.coordinatorId) p

theorem moves_announce {t : CatalogTables} {p p' : Process} {datasetId : Uuid}
    (h : p.announce datasetId = some p') : Moves t p t p' := by
  unfold Process.announce at h
  split at h
  · rename_i done e todo hstage
    split at h
    · cases h
      exact .failed
    · rename_i req hreq
      cases h
      exact .announced hstage hreq
  · cases h

theorem moves_execute {s s' : Fleet} {i : ℕ} {now : String}
    (h : step (.execute i now) s = some s') : ∃ p t p', s.processes[i]? = some p ∧
      Moves s.tables p t p' ∧ s' = ⟨t,s.processes.set i p'⟩ := by
  obtain ⟨p,hp,h⟩ := Option.bind_eq_some_iff.mp h
  obtain ⟨call,hcall,h⟩ := Option.bind_eq_some_iff.mp h
  cases call with
  | register req =>
    cases h
    exact ⟨p,_,_,hp,.registered hcall now,rfl⟩
  | registerDataset req =>
    cases h
    exact ⟨p,_,_,hp,.lookedUp hcall,rfl⟩
  | heartbeat coordinatorId =>
    cases h
    exact ⟨p,_,_,hp,.revived hcall now,rfl⟩
  | insertDataset req executorEndpoint =>
    cases hins : s.tables.insertDataset (req.row now executorEndpoint) with
    | error e =>
      simp only [Call.execute,hins,bind,Except.bind] at h
      cases h
      exact ⟨p,_,_,hp,.failed,rfl⟩
    | ok t =>
      simp only [Call.execute,hins,bind,Except.bind,pure,Except.pure] at h
      cases h
      exact ⟨p,_,_,hp,.inserted hcall hins,rfl⟩

/-- A process is added, or one of them moves. -/
theorem step_cases {s s' : Fleet} {a : Action} (h : step a s = some s') :
    (∃ cfg, a = .start cfg ∧ s' = { s with processes := s.processes ++ [⟨cfg,.registering⟩] }) ∨
      (∀ cfg, a ≠ .start cfg) ∧ ∃ i p t p', s.processes[i]? = some p ∧ Moves s.tables p t p' ∧
        s' = ⟨t,s.processes.set i p'⟩ := by
  cases a with
  | start cfg =>
    cases h
    exact .inl ⟨cfg,rfl,rfl⟩
  | announce i datasetId =>
    obtain ⟨p,hp,h⟩ := Option.bind_eq_some_iff.mp h
    obtain ⟨p',hp',h⟩ := Option.bind_eq_some_iff.mp h
    cases h
    exact .inr ⟨nofun,i,p,_,p',hp,moves_announce hp',rfl⟩
  | execute i now =>
    obtain ⟨p,t,p',hp,hmoves,rfl⟩ := moves_execute h
    exact .inr ⟨nofun,i,p,t,p',hp,hmoves,rfl⟩
  | heartbeat i now =>
    obtain ⟨p,hp,h⟩ := Option.bind_eq_some_iff.mp h
    have hsame : s.processes.set i p = s.processes := by
      obtain ⟨hi,rfl⟩ := List.getElem?_eq_some_iff.mp hp
      exact List.set_getElem_self hi
    split at h
    · cases h
      exact .inr ⟨nofun,i,p,_,p,hp,.alive now,by rw [hsame]⟩
    · cases h
  | stop i =>
    obtain ⟨p,hp,h⟩ := Option.bind_eq_some_iff.mp h
    cases h
    exact .inr ⟨nofun,i,p,_,_,hp,.ended,rfl⟩

/-! ### One process -/

def Call.Announces (cfg : CoordinatorConfig) (e : DatasetEntry) : Call → Prop
  | .registerDataset req | .insertDataset req _ =>
    ∃ datasetId, e.toRegistration cfg.coordinatorId datasetId = .ok req
  | .register _ | .heartbeat _ => False

def Call.From (cfg : CoordinatorConfig) : Call → Prop
  | .register req => req = cfg.registerRequest
  | .heartbeat _ => True
  | call => ∃ e ∈ cfg.datasets, call.Announces cfg e

namespace Process

/-- The datasets of the stage are those of the configuration, and so is the call. -/
def Sound (p : Process) : Prop :=
  match p.stage with
  | .announcing done todo => p.cfg.datasets = done ++ todo
  | .awaiting done e todo call => p.cfg.datasets = done ++ e :: todo ∧ call.Announces p.cfg e
  | .abandoned call => call.From p.cfg
  | .registering | .stopped => True

variable {p p' : Process}

theorem Sound.call (h : p.Sound) {call : Call} (hcall : p.call = some call) :
    call.From p.cfg := by
  obtain ⟨cfg,stage⟩ := p
  cases stage with
  | registering =>
    cases hcall
    rfl
  | awaiting done e todo call =>
    cases hcall
    have hmem : e ∈ cfg.datasets := by
      rw [h.1]
      simp
    cases call with
    | register req => exact h.2.elim
    | heartbeat coordinatorId => exact h.2.elim
    | _ => exact ⟨e,hmem,h.2⟩
  | abandoned call =>
    cases hcall
    exact h
  | _ => cases hcall

theorem Sound.taken (h : p.Sound) {e : DatasetEntry} (he : e ∈ p.taken) : e ∈ p.cfg.datasets := by
  obtain ⟨cfg,stage⟩ := p
  cases stage with
  | announcing done todo =>
    rw [show cfg.datasets = done ++ todo from h]
    exact List.mem_append_left _ he
  | awaiting done e' todo call =>
    rw [show cfg.datasets = done ++ e' :: todo from h.1]
    exact List.mem_append_left _ he
  | _ => cases he

/-- A dataset whose registration is out belongs to a coordinator that has joined. -/
theorem joined_of_call (h : p.Sound) {req : DatasetRegistration}
    (hcall : p.call = some (.registerDataset req) ∨
      ∃ executorEndpoint, p.call = some (.insertDataset req executorEndpoint)) : p.Joined := by
  obtain ⟨cfg,stage⟩ := p
  rcases hcall with hcall | ⟨executorEndpoint,hcall⟩ <;> cases stage <;> cases hcall <;> trivial

end Process

section
variable {t t' : CatalogTables} {p p' : Process}

theorem Moves.cfg_eq (h : Moves t p t' p') : p'.cfg = p.cfg := by
  obtain ⟨cfg,stage⟩ := p
  cases h with
  | announced | failed | alive => rfl
  | ended =>
    cases stage with
    | announcing done todo => cases todo <;> rfl
    | _ => rfl
  | registered | lookedUp | inserted | revived => cases stage <;> rfl

theorem Moves.active (h : Moves t p t' p') (hactive : p'.stage ≠ .stopped) :
    p.stage ≠ .stopped := by
  obtain ⟨cfg,stage⟩ := p
  rintro ⟨⟩
  cases h with
  | announced hstage => cases hstage
  | failed | ended | alive => exact hactive rfl
  | registered hcall | lookedUp hcall | inserted hcall | revived hcall => cases hcall

theorem Moves.sound (h : Moves t p t' p') (hp : p.Sound) : p'.Sound := by
  obtain ⟨cfg,stage⟩ := p
  have hanswered : Process.Sound (Process.answered ⟨cfg,stage⟩) := by
    cases stage with
    | registering => rfl
    | awaiting done e todo call => simpa [Process.answered,Process.Sound] using hp.1
    | announcing done todo => exact hp
    | abandoned call | stopped => trivial
  cases h with
  | announced hstage hreq =>
    cases hstage
    exact ⟨hp,_,hreq⟩
  | failed => trivial
  | ended =>
    cases stage with
    | registering => rfl
    | awaiting done e todo call =>
      have hsound : Process.Sound ⟨cfg,.awaiting done e todo call⟩ := hp
      exact hsound.call rfl
    | announcing done todo => cases todo <;> trivial
    | _ => trivial
  | lookedUp hcall =>
    cases stage with
    | awaiting done e todo call =>
      cases hcall
      exact hp
    | abandoned call =>
      cases hcall
      exact hp
    | _ => cases hcall
  | registered | inserted | revived => exact hanswered
  | alive => exact hp

/-- A process joins by its own registration only. -/
theorem Moves.joined (h : Moves t p t' p') (hp : p.Sound) (hjoined : p'.Joined) :
    p.Joined ∨ ∃ now, t' = CoordinatorSvc.register t now p.cfg.registerRequest := by
  obtain ⟨cfg,stage⟩ := p
  cases h with
  | announced hstage =>
    cases hstage
    exact .inl trivial
  | failed => exact hjoined.elim
  | ended =>
    cases stage with
    | announcing done todo => exact .inl trivial
    | awaiting done e todo call => exact .inl trivial
    | _ => exact hjoined.elim
  | lookedUp hcall => exact .inl (Process.joined_of_call hp (.inl hcall))
  | inserted hcall => exact .inl (Process.joined_of_call hp (.inr ⟨_,hcall⟩))
  | registered hcall now =>
    have hreq := hp.call hcall
    rw [show _ = cfg.registerRequest from hreq]
    exact .inr ⟨now,rfl⟩
  | revived hcall =>
    cases stage with
    | awaiting done e todo call =>
      cases hcall
      exact hp.2.elim
    | abandoned call => exact hjoined.elim
    | _ => cases hcall
  | alive => exact .inl hjoined

/-- The endpoint that goes into a row is the one that central has for the coordinator. -/
theorem Moves.read (h : Moves t p t' p') (hp : p.Sound) {req : DatasetRegistration}
    {executorEndpoint : String} (hcall : p'.call = some (.insertDataset req executorEndpoint)) :
    p.call = some (.insertDataset req executorEndpoint) ∨
      p.call = some (.registerDataset req) ∧
        executorEndpoint = CatalogStore.lookupEndpoint t req.coordinatorId := by
  obtain ⟨cfg,stage⟩ := p
  cases h with
  | announced | failed => cases hcall
  | ended =>
    cases stage with
    | announcing done todo => cases todo <;> cases hcall
    | awaiting done e todo call => exact .inl hcall
    | _ => cases hcall
  | lookedUp hout =>
    cases stage with
    | awaiting done e todo call =>
      cases hout
      cases hcall
      exact .inr ⟨rfl,rfl⟩
    | abandoned call =>
      cases hout
      cases hcall
      exact .inr ⟨rfl,rfl⟩
    | _ => cases hout
  | registered hout | inserted hout | revived hout =>
    cases stage <;> first | cases hout; done | cases hcall
  | alive => exact .inl hcall

theorem Moves.taken (h : Moves t p t' p') (hp : p.Sound) {e : DatasetEntry} (he : e ∈ p'.taken) :
    e ∈ p.taken ∨ ∃ req executorEndpoint now datasetId,
      p.call = some (.insertDataset req executorEndpoint) ∧
      e.toRegistration p.cfg.coordinatorId datasetId = .ok req ∧
      t.insertDataset (req.row now executorEndpoint) = .ok t' := by
  obtain ⟨cfg,stage⟩ := p
  cases h with
  | announced hstage =>
    cases hstage
    exact .inl he
  | failed => cases he
  | ended =>
    cases stage with
    | announcing done todo => cases todo <;> cases he
    | _ => cases he
  | lookedUp hcall =>
    cases stage with
    | awaiting done e' todo call => exact .inl he
    | abandoned call => cases he
    | _ => cases hcall
  | inserted hcall hins =>
    cases stage with
    | awaiting done e' todo call =>
      cases hcall
      rcases List.mem_append.mp he with hold | hnew
      · exact .inl hold
      · obtain rfl := List.mem_singleton.mp hnew
        obtain ⟨datasetId,hreq⟩ := hp.2
        exact .inr ⟨_,_,_,datasetId,rfl,hreq,hins⟩
    | abandoned call => cases he
    | _ => cases hcall
  | registered hcall | revived hcall =>
    cases stage with
    | registering => cases he
    | awaiting done e' todo call =>
      cases hcall
      exact hp.2.elim
    | abandoned call => cases he
    | _ => cases hcall
  | alive => exact .inl he

/-! ### The tables -/

theorem Moves.allLiving (h : Moves t p t' p') (ht : t.AllLiving) : t'.AllLiving := by
  cases h with
  | announced | failed | ended | lookedUp => exact ht
  | registered hcall now => exact ht.register now _
  | inserted hcall hins => exact ht.insertDataset hins
  | revived hcall now | alive now => exact ht.heartbeat now _

/-- Coordinators move their own endpoint only, to where their configuration has it. -/
theorem Moves.endpoint? (h : Moves t p t' p') (hp : p.Sound) (id : String) :
    t'.endpoint? id = t.endpoint? id ∨ p.stage ≠ .stopped ∧
      id = p.cfg.coordinatorId ∧ t'.endpoint? id = some p.cfg.executorEndpoint := by
  cases h with
  | announced | failed | ended | lookedUp => exact .inl rfl
  | registered hcall now =>
    rw [show _ = p.cfg.registerRequest from hp.call hcall,endpoint?_register]
    by_cases hid : id = p.cfg.coordinatorId
    · exact .inr ⟨Process.call_active hcall,hid,if_pos hid⟩
    · exact .inl (if_neg hid)
  | inserted hcall hins => exact .inl (endpoint?_insertDataset hins id)
  | revived hcall now | alive now => exact .inl (endpoint?_heartbeat t now _ id)

/-- Rows change only by inserting what the configuration of the process has. -/
theorem Moves.dataset? (h : Moves t p t' p') (hp : p.Sound) :
    (∀ key, t'.dataset? key = t.dataset? key) ∨
      ∃ req executorEndpoint now, ∃ e ∈ p.cfg.datasets, ∃ datasetId,
        p.call = some (.insertDataset req executorEndpoint) ∧
        e.toRegistration p.cfg.coordinatorId datasetId = .ok req ∧
        t.insertDataset (req.row now executorEndpoint) = .ok t' := by
  cases h with
  | inserted hcall hins =>
    obtain ⟨e,he,datasetId,hreq⟩ := hp.call hcall
    exact .inr ⟨_,_,_,e,he,datasetId,hcall,hreq,hins⟩
  | _ => exact .inl fun _ => rfl

end

def Known (K : CoordinatorConfig → Prop) (coordinatorId executorEndpoint : String) : Prop :=
  ∃ cfg, K cfg ∧ cfg.coordinatorId = coordinatorId ∧ cfg.executorEndpoint = executorEndpoint

/-- All that the catalog holds comes from the configurations of `K`. -/
structure Sourced (K : CoordinatorConfig → Prop) (s : Fleet) : Prop where
  living : s.tables.AllLiving
  sound : ∀ p ∈ s.processes, p.Sound
  started : ∀ p ∈ s.processes, K p.cfg
  joined : ∀ p ∈ s.processes, p.Joined → ∃ endpoint,
    s.tables.endpoint? p.cfg.coordinatorId = some endpoint
  endpoints : ∀ id endpoint, s.tables.endpoint? id = some endpoint → Known K id endpoint
  read : ∀ p ∈ s.processes, ∀ req endpoint, p.call = some (.insertDataset req endpoint) →
    Known K p.cfg.coordinatorId endpoint
  stored : ∀ key r, s.tables.dataset? key = some r → ∃ cfg, K cfg ∧ ∃ e ∈ cfg.datasets,
    Known K cfg.coordinatorId r.executorEndpoint ∧
      e.Stored cfg.coordinatorId r.executorEndpoint r

/-- The processes that `start` runs have their configuration from `K`. -/
def Starts (K : CoordinatorConfig → Prop) : Action → Fleet → Prop
  | .start cfg, _ => K cfg
  | _, _ => True

section
variable {K : CoordinatorConfig → Prop} {s s' : Fleet}

theorem Sourced.initial : Sourced K initial := by
  refine ⟨allLiving_empty,?_,?_,?_,?_,?_,?_⟩
  · rintro p ⟨⟩
  · rintro p ⟨⟩
  · rintro p ⟨⟩
  · rintro id endpoint ⟨⟩
  · rintro p ⟨⟩
  · rintro key r ⟨⟩

omit K s s' in
theorem lookup_eq {t : CatalogTables} {p : Process} (hsound : p.Sound) {req : DatasetRegistration}
    (hcall : p.call = some (.registerDataset req)) {endpoint : String}
    (hendpoint : t.endpoint? p.cfg.coordinatorId = some endpoint) :
    CatalogStore.lookupEndpoint t req.coordinatorId = endpoint := by
  obtain ⟨e,-,datasetId,hreq⟩ := hsound.call hcall
  obtain ⟨schemaIpc,-,rfl⟩ := DatasetEntry.toRegistration_eq_ok.mp hreq
  unfold CatalogStore.lookupEndpoint
  rw [← CatalogTables.endpoint?,hendpoint]
  rfl

/-- An insert stores the entry whose registration is out. -/
theorem Sourced.insert (h : Sourced K s) (hjson : ∀ cfg, K cfg → ∀ e ∈ cfg.datasets, e.ReadsBack)
    {p : Process} (hp : p ∈ s.processes) {e : DatasetEntry} (he : e ∈ p.cfg.datasets)
    {datasetId : Uuid} {req : DatasetRegistration} {executorEndpoint now : String}
    {t : CatalogTables} (hreq : e.toRegistration p.cfg.coordinatorId datasetId = .ok req)
    (hins : s.tables.insertDataset (req.row now executorEndpoint) = .ok t) :
    (∀ key, key ≠ e.key → t.dataset? key = s.tables.dataset? key) ∧
      ∃ r, t.dataset? e.key = some r ∧ e.Stored p.cfg.coordinatorId executorEndpoint r := by
  have hid : ∀ r, s.tables.dataset? e.key = some r → ∃ u, Uuid.parseStr r.id = some u := by
    intro r hr
    obtain ⟨cfg,-,e',-,-,hstored⟩ := h.stored _ _ hr
    exact hstored.id
  obtain ⟨hkey,hstored⟩ :=
    DatasetEntry.stored_written hreq (hjson _ (h.started p hp) e he) hid
  constructor
  · intro key hne
    rw [DatasetRegistration.dataset?_insert hins,if_neg (hkey ▸ hne)]
  · refine ⟨_,?_,hstored⟩
    rw [DatasetRegistration.dataset?_insert hins,if_pos hkey.symm]

theorem Sourced.moved (h : Sourced K s) (hjson : ∀ cfg, K cfg → ∀ e ∈ cfg.datasets, e.ReadsBack)
    {i : ℕ} {p p' : Process} {t : CatalogTables} (hp : s.processes[i]? = some p)
    (hmoves : Moves s.tables p t p') : Sourced K ⟨t,s.processes.set i p'⟩ := by
  have hmem : p ∈ s.processes := List.mem_of_getElem? hp
  have hsound : p.Sound := h.sound p hmem
  have hcfg : p'.cfg = p.cfg := hmoves.cfg_eq
  have hkept : ∀ id endpoint, s.tables.endpoint? id = some endpoint →
      ∃ endpoint', t.endpoint? id = some endpoint' := by
    intro id endpoint hendpoint
    rcases hmoves.endpoint? hsound id with hsame | ⟨-,-,hmoved⟩
    · exact ⟨endpoint,hsame ▸ hendpoint⟩
    · exact ⟨_,hmoved⟩
  refine ⟨hmoves.allLiving h.living,?_,?_,?_,?_,?_,?_⟩
  · exact forall_mem_set h.sound (hmoves.sound hsound)
  · exact forall_mem_set h.started (hcfg ▸ h.started p hmem)
  · apply forall_mem_set
    · intro q hq hjoined
      obtain ⟨endpoint,hendpoint⟩ := h.joined q hq hjoined
      exact hkept _ _ hendpoint
    · intro hjoined
      rw [hcfg]
      rcases hmoves.joined hsound hjoined with hold | ⟨now,rfl⟩
      · obtain ⟨endpoint,hendpoint⟩ := h.joined p hmem hold
        exact hkept _ _ hendpoint
      · exact ⟨_,(endpoint?_register _ now _ _).trans (if_pos rfl)⟩
  · intro id endpoint hendpoint
    rcases hmoves.endpoint? hsound id with hsame | ⟨-,rfl,hmoved⟩
    · exact h.endpoints id endpoint (hsame ▸ hendpoint)
    · rw [hmoved] at hendpoint
      cases hendpoint
      exact ⟨p.cfg,h.started p hmem,rfl,rfl⟩
  · apply forall_mem_set h.read
    intro req endpoint hcall
    rw [hcfg]
    rcases hmoves.read hsound hcall with hold | ⟨hlookup,rfl⟩
    · exact h.read p hmem req endpoint hold
    · obtain ⟨endpoint,hendpoint⟩ :=
        h.joined p hmem (Process.joined_of_call hsound (.inl hlookup))
      rw [lookup_eq hsound hlookup hendpoint]
      exact h.endpoints _ _ hendpoint
  · intro key r hr
    rcases hmoves.dataset? hsound with hsame | ⟨req,endpoint,now,e,he,datasetId,hcall,hreq,hins⟩
    · exact h.stored key r (hsame key ▸ hr)
    · obtain ⟨hothers,r',hr',hstored⟩ := h.insert hjson hmem he hreq hins
      by_cases hkey : key = e.key
      · subst hkey
        cases hr'.symm.trans hr
        have hread := h.read p hmem req endpoint hcall
        have hendpoint := hstored.executorEndpoint
        subst hendpoint
        exact ⟨p.cfg,h.started p hmem,e,he,hread,hstored⟩
      · exact h.stored key r (hothers key hkey ▸ hr)

theorem Sourced.step (h : Sourced K s) (hjson : ∀ cfg, K cfg → ∀ e ∈ cfg.datasets, e.ReadsBack)
    {a : Action} (hok : Starts K a s) (hstep : step a s = some s') : Sourced K s' := by
  rcases step_cases hstep with ⟨cfg,rfl,rfl⟩ | ⟨-,i,p,t,p',hp,hmoves,rfl⟩
  · have hnew {P : Process → Prop} (hold : ∀ p ∈ s.processes, P p) (hcfg : P ⟨cfg,.registering⟩) :
        ∀ p ∈ s.processes ++ [⟨cfg,.registering⟩], P p :=
      List.forall_mem_append.mpr ⟨hold,List.forall_mem_singleton.mpr hcfg⟩
    refine ⟨h.living,hnew h.sound trivial,hnew h.started hok,hnew h.joined ?_,h.endpoints,
      hnew h.read ?_,h.stored⟩
    · rintro ⟨⟩
    · rintro req endpoint ⟨⟩
  · exact h.moved hjson hp hmoves

omit [JsonText] [DataFusion] [SchemaWriter] in
theorem starts_mem (as : List Action) : ∀ a ∈ as, ∀ s, Starts (.start · ∈ as) a s := by
  intro a ha s
  cases a with
  | start cfg => exact ha
  | _ => trivial

theorem sourced_of_run {as : List Action}
    (hjson : ∀ cfg, .start cfg ∈ as → ∀ e ∈ cfg.datasets, e.ReadsBack)
    (hrun : run Fleet.step as initial = some s) : Sourced (.start · ∈ as) s :=
  run_invariant (fun _ _ _ h hok hstep => h.step hjson hok hstep) .initial
    (meets_of_forall (starts_mem as) _) hrun

theorem Sourced.decoding (h : Sourced K s)
    (hjson : ∀ cfg, K cfg → ∀ e ∈ cfg.datasets, e.ReadsBack) : Decoding s.tables := by
  refine ⟨h.living,?_⟩
  intro key r hr
  obtain ⟨cfg,hcfg,e,he,-,hstored⟩ := h.stored key r hr
  obtain ⟨d,hd,-⟩ := hstored.shown (hjson cfg hcfg e he)
  exact ⟨d,rowToDataset_eq_ok.mpr hd⟩

/-- Whatever processes come and go, the catalog can be read, and what it returns is a dataset of
a configuration, at an endpoint that its coordinator was configured with. -/
theorem catalog_is_sourced {as : List Action}
    (hjson : ∀ cfg, .start cfg ∈ as → ∀ e ∈ cfg.datasets, e.ReadsBack)
    (hrun : run Fleet.step as initial = some s) :
    CatalogReadable s.tables ∧ ∀ d, Returned s.tables d → ∃ cfg, .start cfg ∈ as ∧
      ∃ e ∈ cfg.datasets, e.Shown cfg.coordinatorId d.executorEndpoint d ∧
        Known (.start · ∈ as) cfg.coordinatorId d.executorEndpoint := by
  have h := sourced_of_run hjson hrun
  refine ⟨(h.decoding hjson).readable,?_⟩
  intro d hd
  obtain ⟨r,hr,hdesc⟩ := CatalogStore.getDataset_eq_some.mp (returned_iff.mp hd)
  obtain ⟨cfg,hcfg,e,he,hknown,hstored⟩ := h.stored _ r (served?_eq_some.mp hr).1
  obtain ⟨d',hdesc',hshown⟩ := hstored.shown (hjson cfg hcfg e he)
  have hsame : d' = d := by
    have hd := rowToDataset_eq_ok.mpr hdesc
    rw [rowToDataset_eq_ok.mpr hdesc'] at hd
    exact Except.ok.inj hd
  subst hsame
  rw [hdesc.executorEndpoint]
  exact ⟨cfg,hcfg,e,he,hshown,hknown⟩

/-! ### What stays -/

/-- Two configurations of one coordinator, or with a dataset of this key each. -/
def Contend (key : String × String) (cfg cfg' : CoordinatorConfig) : Prop :=
  cfg.coordinatorId = cfg'.coordinatorId ∨ cfg.Mentions key ∧ cfg'.Mentions key

/-- A configuration is started only when no process of a different one that it contends with is
running, or has ended and left a call that central may still carry out; and it has the key for one
dataset at most. -/
def Uncontended (key : String × String) : Action → Fleet → Prop
  | .start cfg, s =>
    (∀ e ∈ cfg.datasets, ∀ e' ∈ cfg.datasets, e.key = key → e'.key = key → e = e') ∧
      ∀ p ∈ s.processes, p.stage ≠ .stopped → Contend key p.cfg cfg → p.cfg = cfg
  | _, _ => True

instance (key : String × String) : DecidablePred (CoordinatorConfig.Mentions · key) :=
  fun cfg => inferInstanceAs (Decidable (∃ e ∈ cfg.datasets, e.key = key))

instance (key : String × String) (cfg cfg' : CoordinatorConfig) :
    Decidable (Contend key cfg cfg') :=
  inferInstanceAs (Decidable (_ ∨ _ ∧ _))

instance (key : String × String) : ∀ a s, Decidable (Uncontended key a s)
  | .start cfg, s => inferInstanceAs (Decidable ((∀ e ∈ cfg.datasets, _) ∧ ∀ p ∈ s.processes, _))
  | .announce _ _, _ | .execute _ _, _ | .heartbeat _ _, _ | .stop _, _ => isTrue trivial

structure Consistent (key : String × String) (s : Fleet) : Prop where
  agree : ∀ p ∈ s.processes, ∀ q ∈ s.processes, p.stage ≠ .stopped → q.stage ≠ .stopped →
    Contend key p.cfg q.cfg → p.cfg = q.cfg
  single : ∀ p ∈ s.processes, ∀ e ∈ p.cfg.datasets, ∀ e' ∈ p.cfg.datasets,
    e.key = key → e'.key = key → e = e'
  joined : ∀ p ∈ s.processes, p.Joined →
    s.tables.endpoint? p.cfg.coordinatorId = some p.cfg.executorEndpoint
  read : ∀ p ∈ s.processes, ∀ req endpoint, p.call = some (.insertDataset req endpoint) →
    endpoint = p.cfg.executorEndpoint
  taken : ∀ p ∈ s.processes, ∀ e ∈ p.taken, e.key = key → ∃ r, s.tables.dataset? key = some r ∧
    e.Stored p.cfg.coordinatorId p.cfg.executorEndpoint r

theorem Consistent.initial {key : String × String} : Consistent key initial := by
  refine ⟨?_,?_,?_,?_,?_⟩ <;> rintro p ⟨⟩

/-- The row of a dataset stays, where nobody else is about to write it. -/
theorem Consistent.row_kept {key : String × String} (h : Consistent key s) (hs : Sourced K s)
    (hjson : ∀ cfg, K cfg → ∀ e ∈ cfg.datasets, e.ReadsBack) {i : ℕ} {p p' : Process}
    {t : CatalogTables} (hp : s.processes[i]? = some p) (hmoves : Moves s.tables p t p')
    {cfg : CoordinatorConfig} {e : DatasetEntry} (he : e ∈ cfg.datasets) (hkey : e.key = key)
    (hsame : p.stage ≠ .stopped → p.cfg.Mentions key → p.cfg = cfg)
    (hrow : ∃ r, s.tables.dataset? key = some r ∧
      e.Stored cfg.coordinatorId cfg.executorEndpoint r) :
    ∃ r, t.dataset? key = some r ∧ e.Stored cfg.coordinatorId cfg.executorEndpoint r := by
  have hmem : p ∈ s.processes := List.mem_of_getElem? hp
  rcases hmoves.dataset? (hs.sound p hmem) with
    hold | ⟨req,endpoint,now,e',he',datasetId,hcall,hreq,hins⟩
  · rwa [hold]
  · obtain ⟨hothers,hwritten⟩ := hs.insert hjson hmem he' hreq hins
    by_cases hkey' : e'.key = key
    · obtain rfl := hsame (Process.call_active hcall) ⟨e',he',hkey'⟩
      obtain rfl := h.single p hmem e' he' e he hkey' hkey
      rw [h.read p hmem req endpoint hcall,hkey'] at hwritten
      exact hwritten
    · rw [hothers key (Ne.symm hkey')]
      exact hrow

theorem Consistent.moved {key : String × String} (h : Consistent key s) (hs : Sourced K s)
    (hjson : ∀ cfg, K cfg → ∀ e ∈ cfg.datasets, e.ReadsBack) {i : ℕ} {p p' : Process}
    {t : CatalogTables} (hp : s.processes[i]? = some p) (hmoves : Moves s.tables p t p') :
    Consistent key ⟨t,s.processes.set i p'⟩ := by
  have hmem : p ∈ s.processes := List.mem_of_getElem? hp
  have hsound : p.Sound := hs.sound p hmem
  have hcfg : p'.cfg = p.cfg := hmoves.cfg_eq
  have horigin : ∀ q ∈ s.processes.set i p', ∃ q₀ ∈ s.processes, q₀.cfg = q.cfg ∧
      (q.stage ≠ .stopped → q₀.stage ≠ .stopped) :=
    forall_mem_set (fun q hq => ⟨q,hq,rfl,id⟩) ⟨p,hmem,hcfg.symm,hmoves.active⟩
  refine ⟨?_,?_,?_,?_,?_⟩
  · intro q hq q' hq' hactive hactive' hcontend
    obtain ⟨q₀,hq₀,heq,hq₀active⟩ := horigin q hq
    obtain ⟨q₁,hq₁,heq',hq₁active⟩ := horigin q' hq'
    rw [← heq,← heq'] at hcontend ⊢
    exact h.agree q₀ hq₀ q₁ hq₁ (hq₀active hactive) (hq₁active hactive') hcontend
  · exact forall_mem_set h.single (hcfg ▸ h.single p hmem)
  · have hkept : ∀ q ∈ s.processes, q.Joined →
        t.endpoint? q.cfg.coordinatorId = some q.cfg.executorEndpoint := by
      intro q hq hjoined
      rcases hmoves.endpoint? hsound q.cfg.coordinatorId with hsame | ⟨hactive,hid,hmoved⟩
      · rw [hsame]
        exact h.joined q hq hjoined
      · rw [hmoved,h.agree q hq p hmem hjoined.active hactive (.inl hid)]
    apply forall_mem_set hkept
    intro hjoined
    rw [hcfg]
    rcases hmoves.joined hsound hjoined with hold | ⟨now,rfl⟩
    · exact hkept p hmem hold
    · exact (endpoint?_register _ now _ _).trans (if_pos rfl)
  · apply forall_mem_set h.read
    intro req endpoint hcall
    rw [hcfg]
    rcases hmoves.read hsound hcall with hold | ⟨hlookup,rfl⟩
    · exact h.read p hmem req endpoint hold
    · exact lookup_eq hsound hlookup
        (h.joined p hmem (Process.joined_of_call hsound (.inl hlookup)))
  · have hkept : ∀ q ∈ s.processes, ∀ e ∈ q.taken, e.key = key → ∃ r, t.dataset? key = some r ∧
        e.Stored q.cfg.coordinatorId q.cfg.executorEndpoint r := by
      intro q hq e he hkey
      have hdatasets := (hs.sound q hq).taken he
      apply h.row_kept hs hjson hp hmoves hdatasets hkey ?_ (h.taken q hq e he hkey)
      intro hactive hmentions
      exact h.agree p hmem q hq hactive (Process.taken_active he)
        (.inr ⟨hmentions,e,hdatasets,hkey⟩)
    apply forall_mem_set hkept
    intro e he hkey
    rcases hmoves.taken hsound he with hold | ⟨req,endpoint,now,datasetId,hcall,hreq,hins⟩
    · rw [hcfg]
      exact hkept p hmem e hold hkey
    · have hdatasets : e ∈ p.cfg.datasets := hcfg ▸ (hmoves.sound hsound).taken he
      obtain ⟨-,hwritten⟩ := hs.insert hjson hmem hdatasets hreq hins
      rw [h.read p hmem req endpoint hcall,hkey] at hwritten
      rwa [hcfg]

theorem Consistent.step {key : String × String} (h : Consistent key s) (hs : Sourced K s)
    (hjson : ∀ cfg, K cfg → ∀ e ∈ cfg.datasets, e.ReadsBack) {a : Action}
    (hok : Uncontended key a s) (hstep : step a s = some s') : Consistent key s' := by
  rcases step_cases hstep with ⟨cfg,rfl,rfl⟩ | ⟨-,i,p,t,p',hp,hmoves,rfl⟩
  · have hnew {P : Process → Prop} (hold : ∀ p ∈ s.processes, P p) (hcfg : P ⟨cfg,.registering⟩) :
        ∀ p ∈ s.processes ++ [⟨cfg,.registering⟩], P p :=
      List.forall_mem_append.mpr ⟨hold,List.forall_mem_singleton.mpr hcfg⟩
    refine ⟨hnew ?_ (hnew ?_ fun _ _ _ => rfl),hnew h.single hok.1,hnew h.joined nofun,
      hnew h.read nofun,hnew h.taken nofun⟩
    · intro p hp
      exact hnew (h.agree p hp) fun hactive _ hcontend => hok.2 p hp hactive hcontend
    · intro p hp _ hactive hcontend
      refine (hok.2 p hp hactive ?_).symm
      exact hcontend.imp Eq.symm And.symm
  · exact h.moved hs hjson hp hmoves

/-- The row of the dataset is there, and nobody but processes of this configuration writes it. -/
structure Standing (cfg : CoordinatorConfig) (e : DatasetEntry) (s : Fleet) : Prop where
  row : ∃ r, s.tables.dataset? e.key = some r ∧
    e.Stored cfg.coordinatorId cfg.executorEndpoint r
  sole : ∀ p ∈ s.processes, p.stage ≠ .stopped → p.cfg.Mentions e.key → p.cfg = cfg

/-- Another configuration with a dataset of the key is not started. -/
def KeepsTo (cfg : CoordinatorConfig) (key : String × String) : Action → Fleet → Prop
  | .start cfg', _ => cfg'.Mentions key → cfg' = cfg
  | _, _ => True

theorem Consistent.standing {key : String × String} (h : Consistent key s) (hs : Sourced K s)
    {p : Process} (hp : p ∈ s.processes) {e : DatasetEntry} (he : e ∈ p.taken)
    (hkey : e.key = key) : Standing p.cfg e s := by
  subst hkey
  refine ⟨h.taken p hp e he rfl,?_⟩
  intro q hq hactive hmentions
  exact h.agree q hq p hp hactive (Process.taken_active he)
    (.inr ⟨hmentions,e,(hs.sound p hp).taken he,rfl⟩)

theorem Standing.step {cfg : CoordinatorConfig} {e : DatasetEntry} (h : Standing cfg e s)
    (he : e ∈ cfg.datasets) (hs : Sourced K s) (hc : Consistent e.key s)
    (hjson : ∀ cfg, K cfg → ∀ e ∈ cfg.datasets, e.ReadsBack) {a : Action}
    (hok : KeepsTo cfg e.key a s) (hstep : step a s = some s') : Standing cfg e s' := by
  rcases step_cases hstep with ⟨cfg',rfl,rfl⟩ | ⟨-,i,p,t,p',hp,hmoves,rfl⟩
  · refine ⟨h.row,List.forall_mem_append.mpr ⟨h.sole,List.forall_mem_singleton.mpr ?_⟩⟩
    exact fun _ => hok
  · have hmem : p ∈ s.processes := List.mem_of_getElem? hp
    refine ⟨hc.row_kept hs hjson hp hmoves he rfl (h.sole p hmem) h.row,forall_mem_set h.sole ?_⟩
    intro hactive
    rw [hmoves.cfg_eq]
    exact h.sole p hmem (hmoves.active hactive)

theorem Standing.served {cfg : CoordinatorConfig} {e : DatasetEntry} (h : Standing cfg e s)
    (hs : Sourced K s) (hjson : ∀ cfg, K cfg → ∀ e ∈ cfg.datasets, e.ReadsBack)
    (he : e.ReadsBack) : ∃ d, e.Shown cfg.coordinatorId cfg.executorEndpoint d ∧
      CatalogStore.getDataset s.tables e.ns e.name = .ok (some d) ∧
      ∃ ds, CatalogStore.listDatasets s.tables none = .ok ds ∧ d ∈ ds := by
  obtain ⟨r,hr,hstored⟩ := h.row
  obtain ⟨d,hdesc,hshown⟩ := hstored.shown he
  have hserved : s.tables.served? (e.ns,e.name) = some r :=
    served?_eq_some.mpr ⟨hr,hstored.isActive,hs.living.living hr⟩
  have hget : CatalogStore.getDataset s.tables e.ns e.name = .ok (some d) :=
    CatalogStore.getDataset_eq_some.mpr ⟨r,hserved,hdesc⟩
  obtain ⟨ds,hds⟩ := (hs.decoding hjson).readable.1 none
  refine ⟨d,hshown,hget,ds,hds,((CatalogStore.listDatasets_spec hds).2 d).mpr ⟨rfl,?_⟩⟩
  obtain ⟨hns,hname⟩ := Prod.mk.inj hshown.key
  rw [hns,hname]
  exact hget

/-- What central has taken from a process is served as configured, from then on and after the
process has ended, as long as no other configuration with that dataset is started. Configurations
that contend must not overlap, counting the calls that ended processes left behind, and none may
have the key twice. -/
theorem taken_stays_served {as bs : List Action} {p : Process} {e : DatasetEntry}
    (hjson : ∀ cfg, .start cfg ∈ as ++ bs → ∀ e ∈ cfg.datasets, e.ReadsBack)
    (hcontend : Meets Fleet.step (Uncontended e.key) (as ++ bs) initial)
    (hrun : run Fleet.step as initial = some s) (hp : p ∈ s.processes) (he : e ∈ p.taken)
    (hkeeps : ∀ cfg, .start cfg ∈ bs → cfg.Mentions e.key → cfg = p.cfg)
    (hrun' : run Fleet.step bs s = some s') :
    ∃ d, e.Shown p.cfg.coordinatorId p.cfg.executorEndpoint d ∧
      CatalogStore.getDataset s'.tables e.ns e.name = .ok (some d) ∧
      ∃ ds, CatalogStore.listDatasets s'.tables none = .ok ds ∧ d ∈ ds := by
  obtain ⟨hcontend₁,hcontend₂⟩ := meets_append.mp hcontend
  obtain ⟨hstarts₁,hstarts₂⟩ := meets_append.mp (meets_of_forall (starts_mem (as ++ bs)) initial)
  have hboth {a : Action} {s s' : Fleet}
      (h : Sourced (.start · ∈ as ++ bs) s ∧ Consistent e.key s)
      (hok : Starts (.start · ∈ as ++ bs) a s ∧ Uncontended e.key a s)
      (hstep : step a s = some s') : Sourced (.start · ∈ as ++ bs) s' ∧ Consistent e.key s' :=
    ⟨h.1.step hjson hok.1 hstep,h.2.step h.1 hjson hok.2 hstep⟩
  obtain ⟨hs,hc⟩ := run_invariant (fun a s s' h hok hstep => hboth h hok hstep)
    ⟨Sourced.initial,Consistent.initial⟩ (meets_and.mpr ⟨hstarts₁,hcontend₁⟩) hrun
  have hdatasets : e ∈ p.cfg.datasets := (hs.sound p hp).taken he
  have hkeeps' : Meets Fleet.step (KeepsTo p.cfg e.key) bs s := by
    apply meets_of_forall
    intro a ha s
    cases a with
    | start cfg => exact hkeeps cfg ha
    | _ => trivial
  let Inv (s : Fleet) : Prop :=
    (Sourced (.start · ∈ as ++ bs) s ∧ Consistent e.key s) ∧ Standing p.cfg e s
  have hnext : ∀ a s s', Inv s → (Starts (.start · ∈ as ++ bs) a s ∧ Uncontended e.key a s) ∧
      KeepsTo p.cfg e.key a s → step a s = some s' → Inv s' := by
    intro a s s' h hok hstep
    exact ⟨hboth h.1 hok.1 hstep,h.2.step hdatasets h.1.1 h.1.2 hjson hok.2 hstep⟩
  have hfinal : Inv s' := run_invariant hnext ⟨⟨hs,hc⟩,hc.standing hs hp he rfl⟩
    (meets_and.mpr ⟨meets_and.mpr ⟨hstarts₂ s hrun,hcontend₂ s hrun⟩,hkeeps'⟩) hrun'
  exact hfinal.2.served hfinal.1.1 hjson (hjson _ (hs.started p hp) e hdatasets)

/-! ### Starting up -/

def Unused (t : CatalogTables) (datasetId : Uuid) : Prop :=
  ∀ key d, t.dataset? key = some d → d.id ≠ datasetId.toString

omit [JsonText] [DataFusion] [SchemaWriter] in
theorem Unused.insert {t t' : CatalogTables} {u datasetId : Uuid} (h : Unused t u)
    (hu : u ≠ datasetId) {req : DatasetRegistration} (hid : req.datasetId = datasetId.toString)
    {now endpoint : String} (hins : t.insertDataset (req.row now endpoint) = .ok t') :
    Unused t' u := by
  intro key d hd
  rw [DatasetRegistration.dataset?_insert hins] at hd
  split_ifs at hd with hkey
  · cases hd
    rw [DatasetRegistration.written_id]
    cases hr : t.dataset? req.key with
    | none =>
      intro hsame
      have hparse : Uuid.parseStr datasetId.toString = Uuid.parseStr u.toString :=
        congrArg Uuid.parseStr (hid.symm.trans hsame)
      rw [Uuid.parseStr_toString,Uuid.parseStr_toString] at hparse
      exact hu (Option.some.inj hparse).symm
    | some r => exact h _ r hr
  · exact h key d hd

theorem announce_next {i : ℕ} {cfg : CoordinatorConfig} {done todo : List DatasetEntry}
    {e : DatasetEntry} (hp : s.processes[i]? = some ⟨cfg,.announcing done (e :: todo)⟩)
    (hjoined : s.tables.coordinator? cfg.coordinatorId ≠ none) {schemaIpc : List UInt8}
    (hschema : SchemaWriter.serialize (inferSchema e.format e.config) = .ok schemaIpc)
    {datasetId : Uuid} (hunused : Unused s.tables datasetId) (now : String) :
    ∃ t, run Fleet.step [.announce i datasetId,.execute i now,.execute i now] s =
        some ⟨t,s.processes.set i ⟨cfg,.announcing (done ++ [e]) todo⟩⟩ ∧
      t.coordinator? cfg.coordinatorId ≠ none ∧
      ∀ u, u ≠ datasetId → Unused s.tables u → Unused t u := by
  have hi : i < s.processes.length := (List.getElem?_eq_some_iff.mp hp).1
  have hset (p : Process) : (s.processes.set i p)[i]? = some p := List.getElem?_set_self hi
  let req : DatasetRegistration := ⟨cfg.coordinatorId,datasetId.toString,e.name,e.ns,e.sourceType,
    schemaIpc,JsonText.toString e.metadataJson⟩
  have hreq : e.toRegistration cfg.coordinatorId datasetId = .ok req :=
    DatasetEntry.toRegistration_eq_ok.mpr ⟨schemaIpc,hschema,rfl⟩
  let endpoint := CatalogStore.lookupEndpoint s.tables cfg.coordinatorId
  obtain ⟨t,hins⟩ : ∃ t, s.tables.insertDataset (req.row now endpoint) = .ok t :=
    DatasetRegistration.accepted_iff.mpr ⟨hjoined,fun _ => hunused⟩
  refine ⟨t,?_,?_,?_⟩
  · have hannounce : step (.announce i datasetId) s = some ⟨s.tables,
        s.processes.set i ⟨cfg,.awaiting done e todo (.registerDataset req)⟩⟩ := by
      simp [step,hp,Process.announce,hreq]
    have hlookup (ps : List Process)
        (hps : ps[i]? = some ⟨cfg,.awaiting done e todo (.registerDataset req)⟩) :
        step (.execute i now) ⟨s.tables,ps⟩ = some ⟨s.tables,
          ps.set i ⟨cfg,.awaiting done e todo (.insertDataset req endpoint)⟩⟩ := by
      simp [step,hps,Process.call,Call.execute,Process.advanced,req,endpoint]
    have hinsert (ps : List Process)
        (hps : ps[i]? = some ⟨cfg,.awaiting done e todo (.insertDataset req endpoint)⟩) :
        step (.execute i now) ⟨s.tables,ps⟩ = some ⟨t,
          ps.set i ⟨cfg,.announcing (done ++ [e]) todo⟩⟩ := by
      simp [step,hps,Process.call,Call.execute,hins,Process.answered,bind,Except.bind,pure,
        Except.pure]
    simp only [run,hannounce,Option.bind_some]
    rw [hlookup _ (hset _)]
    simp only [Option.bind_some,List.set_set]
    rw [hinsert _ (hset _)]
    simp only [Option.bind_some,List.set_set]
  · rwa [coordinator?_insertDataset hins]
  · exact fun u hu hold => hold.insert hu rfl hins

/-- The actions of one process, and of what central does for it. -/
def OfProcess (i : ℕ) : Action → Prop
  | .announce j _ | .execute j _ => j = i
  | _ => False

/-- Once it has joined, a process that nothing interrupts has all its datasets taken. -/
theorem announce_all {i : ℕ} {cfg : CoordinatorConfig} {done todo : List DatasetEntry}
    (hp : s.processes[i]? = some ⟨cfg,.announcing done todo⟩)
    (hjoined : s.tables.coordinator? cfg.coordinatorId ≠ none)
    (hschema : ∀ e ∈ todo, ∃ schemaIpc,
      SchemaWriter.serialize (inferSchema e.format e.config) = .ok schemaIpc)
    {datasetIds : List Uuid} (hnodup : datasetIds.Nodup)
    (hlength : datasetIds.length = todo.length)
    (hunused : ∀ u ∈ datasetIds, Unused s.tables u) (now : String) :
    ∃ as s', (∀ a ∈ as, OfProcess i a) ∧ run Fleet.step as s = some s' ∧
      s'.processes[i]? = some ⟨cfg,.announcing (done ++ todo) []⟩ := by
  induction todo generalizing s done datasetIds with
  | nil => exact ⟨[],s,by simp,rfl,by simpa using hp⟩
  | cons e todo ih =>
    obtain ⟨u,us,rfl⟩ := List.exists_cons_of_length_eq_add_one hlength
    obtain ⟨hu,hus⟩ := List.nodup_cons.mp hnodup
    obtain ⟨schemaIpc,he⟩ := hschema e (by simp)
    obtain ⟨t,hrun,hstays,hfree⟩ := announce_next hp hjoined he (hunused u (by simp)) now
    have hnext : (s.processes.set i ⟨cfg,.announcing (done ++ [e]) todo⟩)[i]? =
        some ⟨cfg,.announcing (done ++ [e]) todo⟩ :=
      List.getElem?_set_self (List.getElem?_eq_some_iff.mp hp).1
    obtain ⟨as,s',has,hrest,hlast⟩ := ih (s := ⟨t,_⟩) hnext hstays
      (fun e' he' => hschema e' (by simp [he'])) hus (by simpa using hlength)
      (fun v hv => hfree v (fun hvu => hu (hvu ▸ hv)) (hunused v (by simp [hv])))
    refine ⟨[.announce i u,.execute i now,.execute i now] ++ as,s',?_,?_,by simpa using hlast⟩
    · have hround : ∀ a ∈ [Action.announce i u,.execute i now,.execute i now],
          OfProcess i a := by
        simp [OfProcess]
      exact List.forall_mem_append.mpr ⟨hround,has⟩
    · exact run_append.mpr ⟨_,hrun,hrest⟩

/-- Whatever other processes have done or left behind, a process that is started and not
interrupted gets all its datasets into the catalog. -/
theorem startup_completes (s : Fleet) {cfg : CoordinatorConfig}
    (hschema : ∀ e ∈ cfg.datasets, ∃ schemaIpc,
      SchemaWriter.serialize (inferSchema e.format e.config) = .ok schemaIpc)
    {datasetIds : List Uuid} (hnodup : datasetIds.Nodup)
    (hlength : datasetIds.length = cfg.datasets.length)
    (hunused : ∀ u ∈ datasetIds, Unused s.tables u) (now : String) :
    ∃ as s', (∀ a ∈ as, OfProcess s.processes.length a) ∧
      run Fleet.step (.start cfg :: as) s = some s' ∧
      s'.processes[s.processes.length]? = some ⟨cfg,.announcing cfg.datasets []⟩ := by
  let i := s.processes.length
  let started : Fleet := ⟨s.tables,s.processes ++ [⟨cfg,.registering⟩]⟩
  let joined : Fleet := ⟨CoordinatorSvc.register s.tables now cfg.registerRequest,
    started.processes.set i ⟨cfg,.announcing [] cfg.datasets⟩⟩
  have hstarted : started.processes[i]? = some ⟨cfg,.registering⟩ := by simp [started,i]
  have hregister : step (.execute i now) started = some joined := by
    simp [step,hstarted,Process.call,Call.execute,Process.answered,joined,started]
  have hjoined : joined.tables.coordinator? cfg.coordinatorId ≠ none := by
    have hendpoint : joined.tables.endpoint? cfg.coordinatorId = some cfg.executorEndpoint :=
      (endpoint?_register _ now _ _).trans (if_pos rfl)
    intro hnone
    rw [CatalogTables.endpoint?,hnone] at hendpoint
    cases hendpoint
  have hprocess : joined.processes[i]? = some ⟨cfg,.announcing [] cfg.datasets⟩ :=
    List.getElem?_set_self (by simp [started,i])
  obtain ⟨as,s',has,hrun,hlast⟩ :=
    announce_all hprocess hjoined hschema hnodup hlength hunused now
  refine ⟨.execute i now :: as,s',?_,?_,hlast⟩
  · exact List.forall_mem_cons.mpr ⟨rfl,has⟩
  · exact run_cons.mpr ⟨started,rfl,run_cons.mpr ⟨joined,hregister,hrun⟩⟩

end

end

/-! ### A restart -/

@[reducible] def sampleJson : JsonText where
  fromStr text := if text = "\x7b\"path\":\"/data/events\"\x7d"
    then some (.object [("path",.string "/data/events")]) else none
  toString := JsonValue.compact

/-- There are no files, so that placeholders are registered. -/
@[reducible] def sampleFiles : DataFusion where
  connect _ := .ok ()
  openFile _ _ := .error "not found"
  inferCsv _ _ := .error "not found"
  inferParquet _ := .error "not found"
  resolve name := .ok ⟨"datafusion","public",name.toLower⟩
  resolves := ⟨"events",_,rfl⟩

/-- The end of a stream stands for any schema. -/
@[reducible] def sampleWriter : SchemaWriter := ⟨fun _ => .ok [255,255,255,255,0,0,0,0]⟩

def sampleConfig : CoordinatorConfig :=
  ⟨"c1","prod","node-1","node-1:50055",[.parquet "events" "analytics" "/data/events"]⟩

abbrev sampleStep : Action → Fleet → Option Fleet := @step sampleJson sampleFiles sampleWriter

/-- The first process, up to where its dataset is taken. -/
def sampleStart : List Action :=
  [.start sampleConfig,.execute 0 "t0",.announce 0 (Uuid.ofByte 1),.execute 0 "t1",.execute 0 "t1"]

/-- It ends, and the next one gets no further than its own registration. -/
def sampleRestart : List Action :=
  [.heartbeat 0 "t2",.stop 0,.start sampleConfig,.execute 1 "t3",.stop 1,.execute 0 "t4"]

theorem sampleConfig_readsBack : ∀ cfg, .start cfg ∈ sampleStart ++ sampleRestart →
    ∀ e ∈ cfg.datasets, @DatasetEntry.ReadsBack sampleJson e := by
  intro cfg hcfg e he
  have hsame : cfg = sampleConfig := by simpa [sampleStart,sampleRestart] using hcfg
  subst hsame
  obtain rfl := List.mem_singleton.mp he
  exact @DatasetEntry.ReadsBack.mk sampleJson _ (by decide) rfl

theorem catalog_is_sourced_sample : ∃ s, run sampleStep (sampleStart ++ sampleRestart) initial =
      some s ∧ @CatalogReadable sampleJson s.tables ∧
    ∀ d, @Returned sampleJson s.tables d → ∃ cfg, .start cfg ∈ sampleStart ++ sampleRestart ∧
      ∃ e ∈ cfg.datasets,
        @DatasetEntry.Shown sampleFiles sampleWriter e cfg.coordinatorId d.executorEndpoint d ∧
        Known (.start · ∈ sampleStart ++ sampleRestart) cfg.coordinatorId d.executorEndpoint :=
  ⟨_,rfl,@catalog_is_sourced sampleJson sampleFiles sampleWriter _ _ sampleConfig_readsBack rfl⟩

theorem taken_stays_served_sample : ∃ s s', run sampleStep sampleStart initial = some s ∧
    run sampleStep sampleRestart s = some s' ∧ ∃ d,
      @DatasetEntry.Shown sampleFiles sampleWriter (.parquet "events" "analytics" "/data/events")
        "c1" "node-1:50055" d ∧
      @CatalogStore.getDataset sampleJson s'.tables "analytics" "events" = .ok (some d) ∧
      ∃ ds, @CatalogStore.listDatasets sampleJson s'.tables none = .ok ds ∧ d ∈ ds := by
  have hkeeps : ∀ cfg, .start cfg ∈ sampleRestart → cfg = sampleConfig := by
    simp [sampleRestart]
  refine ⟨_,_,rfl,rfl,?_⟩
  exact @taken_stays_served sampleJson sampleFiles sampleWriter _ _ sampleStart sampleRestart _ _
    sampleConfig_readsBack (by decide) rfl (.head _) (.head _) (fun cfg h _ => hkeeps cfg h) rfl

theorem startup_completes_sample : ∃ s, run sampleStep (sampleStart ++ sampleRestart) initial =
      some s ∧ ∃ as s', (∀ a ∈ as, OfProcess s.processes.length a) ∧
      run sampleStep (.start sampleConfig :: as) s = some s' ∧
      s'.processes[s.processes.length]? =
        some ⟨sampleConfig,.announcing sampleConfig.datasets []⟩ := by
  refine ⟨_,rfl,?_⟩
  apply @startup_completes sampleJson sampleFiles sampleWriter _ sampleConfig ?_ [Uuid.ofByte 2]
    (by decide) rfl ?_ "t5"
  · exact fun _ _ => ⟨_,rfl⟩
  · exact List.forall_mem_singleton.mpr (dataset?_id_free.mpr (by decide))

end Fleet

end Elan
