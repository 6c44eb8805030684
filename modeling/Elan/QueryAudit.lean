import Elan.AuditEvents
import Elan.RemoteScan
import Elan.TransitionSystem

/-! The audit trail of queries: requests that run side by side, each publishing an event before
and one after its query, and the central service that stores what reaches it. -/
namespace Elan

open TransitionSystem

structure QueryRequest where
  sql : String
  sessionId : Option String
  deriving DecidableEq

structure ErrorResponse where
  error : String
  detail : Option String
  deriving DecidableEq

/-- The sink a query service has chosen at startup: without a connection, one that does nothing. -/
inductive AuditSink
  | central
  | noOp
  deriving DecidableEq

structure AppState where
  audit : AuditSink
  instanceName : String

def StatusCode.forbidden : StatusCode := ⟨403,"Forbidden"⟩

namespace QueryAudit

abbrev Answer := Except (StatusCode × ErrorResponse) QueryResponse

/-- An event on its way to the log. -/
inductive Publication (T : Type)
  | unsent
  | sent (e : AuditEvent T)
  | stored (e : AuditEvent T)
  | lost (e : AuditEvent T)

def Publication.event? {T : Type} : Publication T → Option (AuditEvent T)
  | .unsent => none
  | .sent e | .stored e | .lost e => some e

/-- How far a request has got. `acked` says that the central service has accepted every event so
far; the handler does not look at it. -/
inductive Stage
  | submitting
  | running (acked : Bool)
  | reporting (acked : Bool) (answer : Answer)
  | answered (acked : Bool) (answer : Answer)
  | dropped

structure Query (T : Type) where
  app : AppState
  subject : Subject
  queryId : Uuid
  sessionId : String
  sql : String
  submitted : Publication T
  ended : Publication T
  stage : Stage

inductive Which
  | submission | ending

section
variable {T : Type}

namespace Query

def publication (q : Query T) : Which → Publication T
  | .submission => q.submitted
  | .ending => q.ended

def setPublication (q : Query T) (p : Publication T) : Which → Query T
  | .submission => { q with submitted := p }
  | .ending => { q with ended := p }

def auditSubject (q : Query T) : AuditSubject :=
  ⟨q.subject.userId,q.subject.groups,some q.sessionId⟩

def publish (q : Query T) (eventId : Uuid) (now : T) (payload : AuditPayload) : Publication T :=
  match q.app.audit with
  | .central => .sent (.new eventId now "elan-query" q.app.instanceName q.auditSubject payload)
  | .noOp => .unsent

def submission (q : Query T) : AuditPayload := .querySubmitted ⟨q.queryId,q.sql,[],.empty⟩

end Query

/-- What is drawn for an event: its identifier and its time. -/
structure Draw (T : Type) where
  eventId : Uuid
  now : T

/-- A request up to the first event: the session of the body is kept, or a new one is named. -/
def submit (app : AppState) (subject : Subject) (body : QueryRequest) (queryId session : Uuid)
    (draw : Draw T) : Query T :=
  let q : Query T :=
    { app, subject, queryId
      sessionId := body.sessionId.getD session.toString
      sql := body.sql
      submitted := .unsent
      ended := .unsent
      stage := .submitting }
  { q with submitted := q.publish draw.eventId draw.now q.submission }

def contains (text part : String) : Bool := decide (part.toList <:+: text.toList)

def isAccessDenied (message : String) : Bool :=
  contains message "AccessDenied" || contains message "permission denied"

def failure (message : String) : Answer :=
  if isAccessDenied message then .error (.forbidden,⟨"AccessDenied",some message⟩)
  else .error (.internalServerError,⟨"query execution failed",some message⟩)

/-- What the end of a query is published and answered as. -/
def outcome {A : Type} [ArrowArray A] (queryId : Uuid)
    (result : Except String (List (ArrowBatch A))) (durationMs : ℕ) : AuditPayload × Answer :=
  match result with
  | .ok batches =>
    let (payload,response) := HttpQuery.complete queryId batches durationMs
    (.queryCompleted payload,.ok response)
  | .error message => (.queryFailed ⟨queryId,durationMs,"DataFusionError",message⟩,failure message)

inductive Local (A T : Type) [ArrowArray A]
  | published (ok : Bool)
  | finish (result : Except String (List (ArrowBatch A))) (durationMs : ℕ) (draw : Draw T)
  | drop

/-- A publication returns: at once without a sink, else as accepted when the event is stored, or
as failed at any time. -/
def Publication.returns (p : Publication T) (sink : AuditSink) (ok : Bool) : Bool :=
  match sink,p with
  | .noOp,_ => ok
  | .central,.stored _ => true
  | .central,_ => !ok

variable {A : Type} [ArrowArray A]

def Query.proceed (q : Query T) : Local A T → Option (Query T)
  | .published ok =>
    match q.stage with
    | .submitting =>
      if q.submitted.returns q.app.audit ok then
        some { q with stage := .running (ok && q.app.audit = .central) }
      else none
    | .reporting acked answer =>
      if q.ended.returns q.app.audit ok then
        some { q with stage := .answered (acked && ok) answer }
      else none
    | _ => none
  | .finish result durationMs draw =>
    match q.stage with
    | .running acked =>
      let (payload,answer) := outcome q.queryId result durationMs
      some { q with
        ended := q.publish draw.eventId draw.now payload
        stage := .reporting acked answer }
    | _ => none
  | .drop =>
    -- the client has gone, so that the handler is not resumed
    match q.stage with
    | .answered _ _ | .dropped => none
    | _ => some { q with stage := .dropped }

structure State (T : Type) where
  table : AuditTable
  queries : List (Query T)

inductive Action (A T : Type) [ArrowArray A]
  | submit (app : AppState) (subject : Subject) (body : QueryRequest) (queryId session : Uuid)
    (draw : Draw T)
  | proceed (i : ℕ) (a : Local A T)
  | store (i : ℕ) (w : Which) (now : String)
  | lose (i : ℕ) (w : Which)

variable [JsonText]

def step : Action A T → State T → Option (State T)
  | .submit app subject body queryId session draw,s =>
    some { s with
      queries := s.queries ++ [QueryAudit.submit app subject body queryId session draw] }
  | .proceed i a,s =>
    match s.queries[i]? with
    | none => none
    | some q => (q.proceed a).map fun q' => { s with queries := s.queries.set i q' }
  | .store i w now,s =>
    match s.queries[i]? with
    | none => none
    | some q =>
      match q.publication w with
      | .sent e =>
        match s.table.storeAuditEvent (.ofEvent (CentralAuditSink.message e) now) with
        | some table => some ⟨table,s.queries.set i (q.setPublication (.stored e) w)⟩
        | none => some { s with queries := s.queries.set i (q.setPublication (.lost e) w) }
      | _ => none
  | .lose i w,s =>
    match s.queries[i]? with
    | none => none
    | some q =>
      match q.publication w with
      | .sent e => some { s with queries := s.queries.set i (q.setPublication (.lost e) w) }
      | _ => none

/-! ### What a log says of a query -/

/-- The answer to a query, and the payload of the event that accounts for it. -/
inductive Accounts (queryId : Uuid) : Answer → AuditPayload → Prop
  | completed (response : QueryResponse) (hid : response.queryId = queryId) :
    Accounts queryId (.ok response)
      (.queryCompleted ⟨queryId,response.durationMs,response.rows.length,0⟩)
  | denied {message : String} (h : isAccessDenied message = true) (durationMs : ℕ) :
    Accounts queryId (.error (.forbidden,⟨"AccessDenied",some message⟩))
      (.queryFailed ⟨queryId,durationMs,"DataFusionError",message⟩)
  | failed {message : String} (h : isAccessDenied message = false) (durationMs : ℕ) :
    Accounts queryId (.error (.internalServerError,⟨"query execution failed",some message⟩))
      (.queryFailed ⟨queryId,durationMs,"DataFusionError",message⟩)

end

end QueryAudit

def AuditPayload.queryId : AuditPayload → Option Uuid
  | .querySubmitted p => some p.queryId
  | .queryCompleted p => some p.queryId
  | .queryFailed p => some p.queryId
  | .accessDenied p => some p.queryId
  | .coordinatorRegistered _ | .datasetRegistered _ => none

namespace QueryAudit

section
variable {T : Type}

/-- What a log holds about a query, in the order it was stored. -/
def trail (log : List (AuditEvent T × String)) (queryId : Uuid) : List AuditPayload :=
  (log.map fun x => x.1.payload).filter (·.queryId = some queryId)

theorem trail_concat (log : List (AuditEvent T × String)) (e : AuditEvent T) (now : String)
    (queryId : Uuid) : trail (log ++ [(e,now)]) queryId =
      trail log queryId ++ if e.payload.queryId = some queryId then [e.payload] else [] := by
  unfold trail
  rw [List.map_append,List.filter_append]
  by_cases h : e.payload.queryId = some queryId <;> simp [h]

/-- The payload of a publication that has reached the log. -/
def Publication.logged : Publication T → List AuditPayload
  | .stored e => [e.payload]
  | _ => []

def Stage.acked : Stage → Bool
  | .running acked | .reporting acked _ | .answered acked _ => acked
  | .submitting | .dropped => false

def Stage.answer? : Stage → Option Answer
  | .reporting _ answer | .answered _ answer => some answer
  | _ => none

def Stage.ends : Stage → Bool
  | .submitting | .running _ => false
  | _ => true

/-- What an event of a query carries. -/
def Query.Made (q : Query T) (p : Publication T) (payload : AuditPayload) : Prop :=
  ∀ e ∈ p.event?, e.payload = payload ∧ e.subject = q.auditSubject

/-- What holds between a query and what the log holds about it. -/
structure Coherent (q : Query T) (ps : List AuditPayload) : Prop where
  submitted : q.Made q.submitted q.submission
  ended : ∃ answer ending, Accounts q.queryId answer ending ∧ q.Made q.ended ending ∧
    ∀ a ∈ q.stage.answer?, a = answer
  unended : q.stage.ends = false → q.ended = .unsent
  logged : ps.Perm (q.submitted.logged ++ q.ended.logged)
  ordered : q.stage.acked = true → q.app.audit = .central ∧
    q.submitted.logged = [q.submission] ∧ ps.head? = some q.submission
  complete : ∀ a, q.stage = .answered true a → q.ended.logged ≠ []

theorem Query.Made.of_logged {q : Query T} {p : Publication T} {payload : AuditPayload}
    (h : q.Made p payload) : p.logged = [] ∨ p.logged = [payload] := by
  cases p with
  | stored e => exact .inr (by rw [Publication.logged,(h e rfl).1])
  | _ => exact .inl rfl

theorem Accounts.queryId_eq {queryId : Uuid} {answer : Answer} {ending : AuditPayload}
    (h : Accounts queryId answer ending) : ending.queryId = some queryId := by
  cases h <;> rfl

theorem Query.made_publish {q q' : Query T} (hsubject : q'.auditSubject = q.auditSubject)
    (draw : Draw T) (payload : AuditPayload) :
    q'.Made (q.publish draw.eventId draw.now payload) payload := by
  unfold Query.publish
  cases q.app.audit with
  | noOp => intro e he; cases he
  | central =>
    rintro e ⟨⟩
    exact ⟨rfl,hsubject.symm⟩

theorem Query.logged_publish (q : Query T) (draw : Draw T) (payload : AuditPayload) :
    (q.publish draw.eventId draw.now payload).logged = [] := by
  unfold Query.publish
  cases q.app.audit <;> rfl

theorem exists_accounts (queryId : Uuid) : ∃ answer ending, Accounts queryId answer ending :=
  ⟨_,_,@Accounts.failed queryId "" (by decide) 0⟩

theorem coherent_submit (app : AppState) (subject : Subject) (body : QueryRequest)
    (queryId session : Uuid) (draw : Draw T) :
    Coherent (submit app subject body queryId session draw) [] := by
  obtain ⟨answer,ending,haccounts⟩ := exists_accounts queryId
  refine ⟨Query.made_publish rfl draw _,⟨answer,ending,haccounts,?_,?_⟩,fun _ => rfl,?_,?_,?_⟩
  · intro e he
    cases he
  · intro a ha
    cases ha
  · have hlogged : (submit app subject body queryId session draw).submitted.logged = [] :=
      Query.logged_publish _ draw _
    rw [hlogged]
    rfl
  · intro h
    cases h
  · intro a h
    cases h

/-- What is published and answered at the end accounts for each other. -/
theorem accounts_outcome {A : Type} [ArrowArray A] (queryId : Uuid)
    (result : Except String (List (ArrowBatch A))) (durationMs : ℕ) :
    Accounts queryId (outcome queryId result durationMs).2
      (outcome queryId result durationMs).1 := by
  cases result with
  | error message =>
    change Accounts queryId (failure message) _
    unfold failure
    cases h : isAccessDenied message with
    | true => exact .denied h durationMs
    | false => exact .failed h durationMs
  | ok batches =>
    have hrows : (HttpQuery.batchesToResponse queryId batches durationMs).rows.length =
        (batches.map ArrowBatch.numRows).sum := by
      rw [HttpQuery.rows_eq,List.length_map,HttpQuery.length_places]
    have hid : (HttpQuery.batchesToResponse queryId batches durationMs).queryId = queryId := by
      cases batches <;> rfl
    have hduration : (HttpQuery.batchesToResponse queryId batches durationMs).durationMs =
        durationMs := by cases batches <;> rfl
    have h := Accounts.completed (HttpQuery.batchesToResponse queryId batches durationMs) hid
    rwa [hrows,hduration] at h

theorem Coherent.perm_submission {q : Query T} {ps : List AuditPayload} (h : Coherent q ps)
    (hstage : q.stage.ends = false) : ps.Perm q.submitted.logged := by
  have hlogged := h.logged
  rw [h.unended hstage] at hlogged
  simpa [Publication.logged] using hlogged

theorem Publication.logged_of_returns {p : Publication T}
    (h : p.returns .central true = true) : p.logged ≠ [] := by
  cases p with
  | stored e => simp [Publication.logged]
  | _ => cases h

theorem Coherent.proceed {A : Type} [ArrowArray A] {q q' : Query T} {ps : List AuditPayload}
    (h : Coherent q ps) {a : Local A T} (hstep : q.proceed a = some q') : Coherent q' ps := by
  obtain ⟨answer,ending,haccounts,hended,hanswer⟩ := h.ended
  cases a with
  | published ok =>
    cases hstage : q.stage with
    | submitting =>
      simp only [Query.proceed,hstage] at hstep
      split_ifs at hstep with hreturns
      cases hstep
      have hends : q.stage.ends = false := by rw [hstage]; rfl
      refine ⟨h.submitted,⟨answer,ending,haccounts,hended,by rintro a ⟨⟩⟩,fun _ => h.unended hends,
        h.logged,?_,by rintro a ⟨⟩⟩
      intro hacked
      obtain ⟨rfl,hcentral⟩ : ok = true ∧ q.app.audit = .central := by
        simpa [Stage.acked] using hacked
      rw [hcentral] at hreturns
      have hstored := h.submitted.of_logged.resolve_left (Publication.logged_of_returns hreturns)
      have hps := h.perm_submission hends
      rw [hstored,List.perm_singleton] at hps
      exact ⟨hcentral,hstored,by rw [hps]; rfl⟩
    | reporting acked a =>
      simp only [Query.proceed,hstage] at hstep
      split_ifs at hstep with hreturns
      cases hstep
      rw [hstage] at hanswer
      have hordered := h.ordered
      rw [hstage] at hordered
      refine ⟨h.submitted,⟨answer,ending,haccounts,hended,hanswer⟩,by rintro ⟨⟩,h.logged,
        fun hacked => hordered (Bool.and_eq_true_iff.mp hacked).1,?_⟩
      intro a' ha'
      obtain ⟨hacked,rfl⟩ := Bool.and_eq_true_iff.mp (Stage.answered.inj ha').1
      rw [(hordered hacked).1] at hreturns
      exact Publication.logged_of_returns hreturns
    | _ => simp [Query.proceed,hstage] at hstep
  | finish result durationMs draw =>
    cases hstage : q.stage with
    | running acked =>
      simp only [Query.proceed,hstage] at hstep
      cases hstep
      have hends : q.stage.ends = false := by rw [hstage]; rfl
      have hordered := h.ordered
      rw [hstage] at hordered
      refine ⟨h.submitted,⟨_,_,accounts_outcome q.queryId result durationMs,
        Query.made_publish rfl draw _,by rintro a ⟨⟩; rfl⟩,by rintro ⟨⟩,?_,hordered,
        by rintro a ⟨⟩⟩
      rw [Query.logged_publish,List.append_nil]
      exact h.perm_submission hends
    | _ => simp [Query.proceed,hstage] at hstep
  | drop =>
    have hdropped : Coherent { q with stage := .dropped } ps :=
      ⟨h.submitted,⟨answer,ending,haccounts,hended,by rintro a ⟨⟩⟩,by rintro ⟨⟩,h.logged,
        by rintro ⟨⟩,by rintro a ⟨⟩⟩
    cases hstage : q.stage <;> simp only [Query.proceed,hstage] at hstep <;> cases hstep <;>
      exact hdropped

/-- Of a query whose event is stored, the log holds one payload more. -/
theorem Coherent.store {q : Query T} {ps : List AuditPayload} (h : Coherent q ps) {w : Which}
    {e : AuditEvent T} (hsent : q.publication w = .sent e) :
    Coherent (q.setPublication (.stored e) w) (ps ++ [e.payload]) := by
  obtain ⟨answer,ending,haccounts,hended,hanswer⟩ := h.ended
  cases w with
  | submission =>
    replace hsent : q.submitted = .sent e := hsent
    have hsubmitted := h.submitted
    have hperm := h.logged
    have hordered := h.ordered
    rw [hsent] at hsubmitted hperm hordered
    refine ⟨hsubmitted,⟨answer,ending,haccounts,hended,hanswer⟩,h.unended,?_,?_,h.complete⟩
    · exact (hperm.append_right [e.payload]).trans List.perm_append_comm
    · intro hacked
      obtain ⟨-,hstored,-⟩ := hordered hacked
      cases hstored
  | ending =>
    replace hsent : q.ended = .sent e := hsent
    have hperm := h.logged
    have hunended := h.unended
    rw [hsent] at hended hperm hunended
    refine ⟨h.submitted,⟨answer,ending,haccounts,hended,hanswer⟩,?_,?_,?_,?_⟩
    · intro hends
      cases hunended hends
    · change ps.Perm (q.submitted.logged ++ []) at hperm
      rw [List.append_nil] at hperm
      exact hperm.append_right [e.payload]
    · intro hacked
      obtain ⟨hcentral,hstored,hhead⟩ := h.ordered hacked
      exact ⟨hcentral,hstored,by rw [List.head?_append,hhead]; rfl⟩
    · intro a ha
      simp [Query.setPublication,Publication.logged]

/-- An event on its way is about the query, and in its name. -/
theorem Coherent.of_sent {q : Query T} {ps : List AuditPayload} (h : Coherent q ps) {w : Which}
    {e : AuditEvent T} (hsent : q.publication w = .sent e) :
    e.payload.queryId = some q.queryId ∧ e.subject = q.auditSubject := by
  obtain ⟨answer,ending,haccounts,hended,-⟩ := h.ended
  cases w with
  | submission =>
    replace hsent : q.submitted = .sent e := hsent
    obtain ⟨hpayload,hsubject⟩ := h.submitted e (by rw [hsent]; rfl)
    exact ⟨by rw [hpayload]; rfl,hsubject⟩
  | ending =>
    replace hsent : q.ended = .sent e := hsent
    obtain ⟨hpayload,hsubject⟩ := hended e (by rw [hsent]; rfl)
    exact ⟨hpayload ▸ haccounts.queryId_eq,hsubject⟩

theorem Coherent.lose {q : Query T} {ps : List AuditPayload} (h : Coherent q ps) {w : Which}
    {e : AuditEvent T} (hsent : q.publication w = .sent e) :
    Coherent (q.setPublication (.lost e) w) ps := by
  obtain ⟨answer,ending,haccounts,hended,hanswer⟩ := h.ended
  cases w with
  | submission =>
    replace hsent : q.submitted = .sent e := hsent
    have hsubmitted := h.submitted
    have hperm := h.logged
    have hordered := h.ordered
    rw [hsent] at hsubmitted hperm hordered
    exact ⟨hsubmitted,⟨answer,ending,haccounts,hended,hanswer⟩,h.unended,hperm,hordered,h.complete⟩
  | ending =>
    replace hsent : q.ended = .sent e := hsent
    have hperm := h.logged
    have hunended := h.unended
    have hcomplete := h.complete
    rw [hsent] at hended hperm hunended hcomplete
    refine ⟨h.submitted,⟨answer,ending,haccounts,hended,hanswer⟩,?_,hperm,h.ordered,hcomplete⟩
    intro hends
    cases hunended hends

variable {A : Type} [ArrowArray A] [JsonText]

inductive Effect (s : State T) : State T → Prop
  | submitted (app : AppState) (subject : Subject) (body : QueryRequest) (queryId session : Uuid)
    (draw : Draw T)
    (hnew : ∀ q ∈ s.queries, q.queryId ≠ queryId) :
    Effect s { s with queries := s.queries ++ [submit app subject body queryId session draw] }
  | proceeded {i : ℕ} {q q' : Query T} (hq : s.queries[i]? = some q)
    (hid : q'.queryId = q.queryId) (hsubject : q'.auditSubject = q.auditSubject)
    (hcoherent : ∀ ps, Coherent q ps → Coherent q' ps) :
    Effect s { s with queries := s.queries.set i q' }
  | stored {i : ℕ} {w : Which} {q : Query T} {e : AuditEvent T} {now : String} {table : AuditTable}
    (hq : s.queries[i]? = some q) (hsent : q.publication w = .sent e)
    (hstore : s.table.storeAuditEvent (.ofEvent (CentralAuditSink.message e) now) = some table) :
    Effect s ⟨table,s.queries.set i (q.setPublication (.stored e) w)⟩

/-- The identifier of a new query is not that of another. -/
def Fresh (a : Action A T) (s : State T) : Prop :=
  match a with
  | .submit _ _ _ queryId _ _ => ∀ q ∈ s.queries, q.queryId ≠ queryId
  | _ => True

instance (a : Action A T) (s : State T) : Decidable (Fresh a s) :=
  match a with
  | .submit _ _ _ queryId _ _ =>
    inferInstanceAs (Decidable (∀ q ∈ s.queries, q.queryId ≠ queryId))
  | .proceed _ _ | .store _ _ _ | .lose _ _ => isTrue trivial

omit [JsonText] in
theorem Query.proceed_keeps {q q' : Query T} {a : Local A T} (h : q.proceed a = some q') :
    q'.queryId = q.queryId ∧ q'.auditSubject = q.auditSubject := by
  cases a <;> cases hstage : q.stage <;> simp only [Query.proceed,hstage] at h
  all_goals try split_ifs at h
  all_goals cases h
  all_goals exact ⟨rfl,rfl⟩

theorem step_effect {a : Action A T} {s s' : State T} (hfresh : Fresh a s)
    (h : step a s = some s') : Effect s s' := by
  cases a with
  | submit app subject body queryId session draw =>
    cases h
    exact .submitted app subject body queryId session draw hfresh
  | proceed i a =>
    cases hq : s.queries[i]? with
    | none => simp [step,hq] at h
    | some q =>
      simp only [step,hq] at h
      obtain ⟨q',hq',rfl⟩ := Option.map_eq_some_iff.mp h
      obtain ⟨hid,hsubject⟩ := Query.proceed_keeps hq'
      exact .proceeded hq hid hsubject fun ps hps => hps.proceed hq'
  | store i w now =>
    cases hq : s.queries[i]? with
    | none => simp [step,hq] at h
    | some q =>
      cases hsent : q.publication w with
      | sent e =>
        cases hstore : s.table.storeAuditEvent (.ofEvent (CentralAuditSink.message e) now) with
        | some table =>
          simp only [step,hq,hsent,hstore] at h
          cases h
          exact .stored hq hsent hstore
        | none =>
          simp only [step,hq,hsent,hstore] at h
          cases h
          exact .proceeded hq (by cases w <;> rfl) (by cases w <;> rfl) fun ps hps => hps.lose hsent
      | _ => simp [step,hq,hsent] at h
  | lose i w =>
    cases hq : s.queries[i]? with
    | none => simp [step,hq] at h
    | some q =>
      cases hsent : q.publication w with
      | sent e =>
        simp only [step,hq,hsent] at h
        cases h
        exact .proceeded hq (by cases w <;> rfl) (by cases w <;> rfl) fun ps hps => hps.lose hsent
      | _ => simp [step,hq,hsent] at h

/-- What was added to the log of `table`, and how it stands to the queries. -/
structure Logs (table : AuditTable) (log : List (AuditEvent T × String)) (s : State T) : Prop where
  rows : s.table.rows =
    table.rows ++ log.map fun x => .ofEvent (CentralAuditSink.message x.1) x.2
  owned : ∀ x ∈ log, ∃ q ∈ s.queries, x.1.subject = q.auditSubject ∧
    x.1.payload.queryId = some q.queryId
  distinct : (s.queries.map Query.queryId).Nodup
  coherent : ∀ q ∈ s.queries, Coherent q (trail log q.queryId)

omit [JsonText] [ArrowArray A] in
theorem map_queryId_set {qs : List (Query T)} {i : ℕ} {q q' : Query T} (hq : qs[i]? = some q)
    (hid : q'.queryId = q.queryId) :
    (qs.set i q').map Query.queryId = qs.map Query.queryId := by
  apply List.ext_getElem?
  intro j
  rw [List.getElem?_map,List.getElem?_map]
  by_cases hij : i = j
  · subst hij
    rw [List.getElem?_set_self (List.getElem?_eq_some_iff.mp hq).1,hq,Option.map_some,
      Option.map_some,hid]
  · rw [List.getElem?_set_ne hij]

omit [JsonText] [ArrowArray A] in
theorem exists_mem_set {qs : List (Query T)} {i : ℕ} {q q' : Query T} (hq : qs[i]? = some q)
    (hid : q'.queryId = q.queryId) (hsubject : q'.auditSubject = q.auditSubject) {p : Query T}
    (hp : p ∈ qs) :
    ∃ p' ∈ qs.set i q', p'.queryId = p.queryId ∧ p'.auditSubject = p.auditSubject := by
  obtain ⟨j,hj⟩ := List.mem_iff_getElem?.mp hp
  by_cases hij : i = j
  · subst hij
    obtain rfl : q = p := Option.some.inj (hq.symm.trans hj)
    exact ⟨q',List.mem_set (List.getElem?_eq_some_iff.mp hq).1 q',hid,hsubject⟩
  · refine ⟨p,List.mem_of_getElem? (i := j) ?_,rfl,rfl⟩
    rw [List.getElem?_set_ne hij,hj]

omit [JsonText] [ArrowArray A] in
/-- Another query than the updated one has another identifier. -/
theorem eq_or_ne_of_mem_set {qs : List (Query T)} (hdistinct : (qs.map Query.queryId).Nodup)
    {i : ℕ} {q q' : Query T} (hq : qs[i]? = some q) {p : Query T} (hp : p ∈ qs.set i q') :
    p = q' ∨ p ∈ qs ∧ p.queryId ≠ q.queryId := by
  obtain ⟨j,hj⟩ := List.mem_iff_getElem?.mp hp
  by_cases hij : i = j
  · subst hij
    rw [List.getElem?_set_self (List.getElem?_eq_some_iff.mp hq).1] at hj
    exact .inl (Option.some.inj hj).symm
  · rw [List.getElem?_set_ne hij] at hj
    refine .inr ⟨List.mem_of_getElem? hj,fun hid => hij ?_⟩
    have hlen : i < (qs.map Query.queryId).length := by
      rw [List.length_map]
      exact (List.getElem?_eq_some_iff.mp hq).1
    apply (List.getElem?_inj hlen hdistinct).mp
    rw [List.getElem?_map,List.getElem?_map,hq,hj,Option.map_some,Option.map_some,hid]

omit [ArrowArray A] [JsonText] in
/-- Events keep their queries where one query takes the place of another of its name and user. -/
theorem owned_set {log : List (AuditEvent T × String)} {qs : List (Query T)}
    (h : ∀ x ∈ log, ∃ q ∈ qs, x.1.subject = q.auditSubject ∧ x.1.payload.queryId = some q.queryId)
    {i : ℕ} {q q' : Query T} (hq : qs[i]? = some q) (hid : q'.queryId = q.queryId)
    (hsubject : q'.auditSubject = q.auditSubject) : ∀ x ∈ log, ∃ p ∈ qs.set i q',
      x.1.subject = p.auditSubject ∧ x.1.payload.queryId = some p.queryId := by
  intro x hx
  obtain ⟨p,hp,hxsubject,hxid⟩ := h x hx
  obtain ⟨p',hp',hpid,hpsubject⟩ := exists_mem_set hq hid hsubject hp
  exact ⟨p',hp',hxsubject.trans hpsubject.symm,hxid.trans (congrArg some hpid.symm)⟩

omit [ArrowArray A] in
/-- No event so far is about a new query. -/
theorem Logs.trail_of_new {table : AuditTable} {log : List (AuditEvent T × String)} {s : State T}
    (h : Logs table log s) {queryId : Uuid} (hnew : ∀ q ∈ s.queries, q.queryId ≠ queryId) :
    trail log queryId = [] := by
  refine List.filter_eq_nil_iff.mpr ?_
  intro p hp
  obtain ⟨x,hx,rfl⟩ := List.mem_map.mp hp
  obtain ⟨q,hq,-,hid⟩ := h.owned x hx
  simpa [hid] using hnew q hq

omit [ArrowArray A] in
theorem Logs.step {table : AuditTable} {log : List (AuditEvent T × String)} {s s' : State T}
    (h : Logs table log s) (heffect : Effect s s') :
    ∃ more, Logs table (log ++ more) s' := by
  cases heffect with
  | submitted app subject body queryId session draw hnew =>
    refine ⟨[],by rw [List.append_nil]; exact h.rows,?_,?_,?_⟩
    · intro x hx
      rw [List.append_nil] at hx
      obtain ⟨q,hq,hx⟩ := h.owned x hx
      exact ⟨q,List.mem_append_left _ hq,hx⟩
    · rw [List.map_append,List.nodup_append]
      refine ⟨h.distinct,List.nodup_singleton _,?_⟩
      rintro _ hid _ hid' rfl
      obtain ⟨q,hq,rfl⟩ := List.mem_map.mp hid
      exact hnew q hq (List.mem_singleton.mp hid')
    · rw [List.append_nil]
      intro q hq
      rcases List.mem_append.mp hq with hq | hq
      · exact h.coherent q hq
      · obtain rfl := List.mem_singleton.mp hq
        change Coherent _ (trail log queryId)
        rw [h.trail_of_new hnew]
        exact coherent_submit app subject body queryId session draw
  | @proceeded i q q' hq hid hsubject hcoherent =>
    refine ⟨[],by rw [List.append_nil]; exact h.rows,?_,?_,?_⟩
    · rw [List.append_nil]
      exact owned_set h.owned hq hid hsubject
    · rw [map_queryId_set hq hid]
      exact h.distinct
    · rw [List.append_nil]
      intro p hp
      rcases List.mem_or_eq_of_mem_set hp with hp | rfl
      · exact h.coherent p hp
      · rw [hid]
        exact hcoherent _ (h.coherent q (List.mem_of_getElem? hq))
  | @stored i w q e now table' hq hsent hstore =>
    have hcoherent := h.coherent q (List.mem_of_getElem? hq)
    obtain ⟨hpayload,hsubject⟩ := hcoherent.of_sent hsent
    have hid : (q.setPublication (.stored e) w).queryId = q.queryId := by cases w <;> rfl
    have hkeep : (q.setPublication (.stored e) w).auditSubject = q.auditSubject := by
      cases w <;> rfl
    obtain ⟨-,hrows⟩ := storeAuditEvent_eq_some hstore
    refine ⟨[(e,now)],?_,?_,?_,?_⟩
    · rw [hrows,h.rows,List.map_append,List.append_assoc]
      rfl
    · intro x hx
      rcases List.mem_append.mp hx with hx | hx
      · exact owned_set h.owned hq hid hkeep x hx
      · obtain rfl := List.mem_singleton.mp hx
        exact ⟨_,List.mem_set (List.getElem?_eq_some_iff.mp hq).1 _,hsubject.trans hkeep.symm,
          hpayload.trans (congrArg some hid.symm)⟩
    · rw [map_queryId_set hq hid]
      exact h.distinct
    · intro p hp
      rw [trail_concat]
      rcases eq_or_ne_of_mem_set h.distinct hq hp with rfl | ⟨hp,hne⟩
      · rw [hid,if_pos hpayload]
        exact hcoherent.store hsent
      · rw [if_neg (by rw [hpayload]; exact fun heq => hne (Option.some.inj heq).symm),
          List.append_nil]
        exact h.coherent p hp

omit [ArrowArray A] in
theorem Logs.start (table : AuditTable) : Logs table [] (⟨table,[]⟩ : State T) :=
  ⟨by simp,by simp,List.nodup_nil,by simp⟩

theorem exists_logs {as : List (Action A T)} {table : AuditTable} {s : State T}
    (hfresh : Meets step Fresh as ⟨table,[]⟩) (hrun : run step as ⟨table,[]⟩ = some s) :
    ∃ log, Logs table log s := by
  have hlogs : ∀ (a : Action A T) (s s' : State T), (∃ log, Logs table log s) → Fresh a s →
      step a s = some s' → ∃ log, Logs table log s' := by
    rintro a s s' ⟨log,hlog⟩ hfresh hstep
    obtain ⟨more,hmore⟩ := hlog.step (step_effect hfresh hstep)
    exact ⟨log ++ more,hmore⟩
  exact run_invariant hlogs ⟨[],Logs.start table⟩ hfresh hrun

omit [ArrowArray A] [JsonText] in
theorem Coherent.subperm {q : Query T} {ps : List AuditPayload} (h : Coherent q ps)
    {ending : AuditPayload} (hended : q.Made q.ended ending) :
    List.Subperm ps [q.submission,ending] := by
  refine h.logged.subperm.trans (List.Sublist.subperm ?_)
  change List.Sublist _ ([q.submission] ++ [ending])
  apply List.Sublist.append
  · rcases h.submitted.of_logged with hlogged | hlogged <;> simp [hlogged]
  · rcases hended.of_logged with hlogged | hlogged <;> simp [hlogged]

omit [ArrowArray A] [JsonText] in
theorem Coherent.eq_of_acked {q : Query T} {ps : List AuditPayload} (h : Coherent q ps)
    {ending : AuditPayload} (hended : q.Made q.ended ending) {a : Answer}
    (hstage : q.stage = .answered true a) : ps = [q.submission,ending] := by
  obtain ⟨-,hstored,hhead⟩ := h.ordered (by rw [hstage]; rfl)
  have hlast := hended.of_logged.resolve_left (h.complete a hstage)
  have hperm := h.logged
  rw [hstored,hlast] at hperm
  cases ps with
  | nil => cases hhead
  | cons p ps =>
    obtain rfl := Option.some.inj hhead
    rw [List.perm_singleton.mp hperm.cons_inv]

/-- Whatever the order of requests and messages, the log holds of each query at most the event
before it and the one that accounts for its answer, in the name of its user; of a query whose
events were accepted it holds both, in this order. -/
theorem log_accounts_for_answers {as : List (Action A T)} {table : AuditTable} {s : State T}
    (hfresh : Meets step Fresh as ⟨table,[]⟩) (hrun : run step as ⟨table,[]⟩ = some s) :
    ∃ log : List (AuditEvent T × String),
      s.table.rows =
        table.rows ++ log.map (fun x => .ofEvent (CentralAuditSink.message x.1) x.2) ∧
      (∀ x ∈ log, ∃ q ∈ s.queries, x.1.subject = q.auditSubject ∧
        x.1.payload.queryId = some q.queryId) ∧
      ∀ q ∈ s.queries, ∃ answer ending, Accounts q.queryId answer ending ∧
        List.Subperm (trail log q.queryId) [q.submission,ending] ∧
        ∀ acked a, q.stage = .answered acked a →
          a = answer ∧ (acked = true → trail log q.queryId = [q.submission,ending]) := by
  obtain ⟨log,hlog⟩ := exists_logs hfresh hrun
  refine ⟨log,hlog.rows,hlog.owned,?_⟩
  intro q hq
  have hcoherent := hlog.coherent q hq
  obtain ⟨answer,ending,haccounts,hended,hanswer⟩ := hcoherent.ended
  refine ⟨answer,ending,haccounts,hcoherent.subperm hended,?_⟩
  intro acked a hstage
  refine ⟨hanswer a (by rw [hstage]; rfl),?_⟩
  rintro rfl
  exact hcoherent.eq_of_acked hended hstage

end

/-! ### Two queries side by side -/

open HttpQuery

def sampleApp : AppState := ⟨.central,"elan-query-1"⟩

/-- The event before the second query gets lost, and the query is denied. -/
def sampleActions : List (Action SampleArray ℕ) :=
  [.submit sampleApp ⟨"alice",[]⟩ ⟨"SELECT name FROM crm.customers",some "s1"⟩ (.ofByte 1)
      (.ofByte 2) ⟨.ofByte 3,0⟩,
    .submit sampleApp ⟨"bob",[]⟩ ⟨"SELECT * FROM finance.accounts",none⟩ (.ofByte 4) (.ofByte 5)
      ⟨.ofByte 6,1⟩,
    .lose 1 .submission,.proceed 1 (.published false),
    .proceed 1 (.finish (.error "AccessDenied: finance.accounts") 3 ⟨.ofByte 7,2⟩),
    .store 0 .submission "2024-01-01T00:00:00+00:00",.store 1 .ending "2024-01-01T00:00:01+00:00",
    .proceed 0 (.published true),.proceed 0 (.finish (.ok [customerNames]) 5 ⟨.ofByte 8,3⟩),
    .proceed 1 (.published true),.store 0 .ending "2024-01-01T00:00:02+00:00",
    .proceed 0 (.published true)]

def sampleStart : State ℕ := ⟨⟨[],List.nodup_nil⟩,[]⟩

theorem log_accounts_for_answers_sample : ∃ s : State ℕ,
    @run _ _ (@step _ SampleArray _ compactJson) sampleActions sampleStart = some s ∧
      ∃ log : List (AuditEvent ℕ × String),
        s.table.rows =
          log.map (fun x => .ofEvent (@CentralAuditSink.message compactJson _ x.1) x.2) ∧
        (∀ x ∈ log, ∃ q ∈ s.queries, x.1.subject = q.auditSubject ∧
          x.1.payload.queryId = some q.queryId) ∧
        ∀ q ∈ s.queries, ∃ answer ending, Accounts q.queryId answer ending ∧
          List.Subperm (trail log q.queryId) [q.submission,ending] ∧
          ∀ acked a, q.stage = .answered acked a →
            a = answer ∧ (acked = true → trail log q.queryId = [q.submission,ending]) := by
  obtain ⟨s,hs⟩ := Option.isSome_iff_exists.mp (show
    (@run _ _ (@step _ SampleArray _ compactJson) sampleActions sampleStart).isSome = true by
      decide +kernel)
  have hfresh : @Meets _ _ (@step _ SampleArray _ compactJson) Fresh sampleActions sampleStart := by
    decide +kernel
  exact ⟨s,hs,@log_accounts_for_answers _ _ _ compactJson _ _ _ hfresh hs⟩

end QueryAudit

end Elan
