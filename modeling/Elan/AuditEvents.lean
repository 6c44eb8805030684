import Elan.AuditStore
import Elan.QueryResponse
import Elan.Serde

/-! Audit events: their payloads, their JSON, and the message the central sink sends of them. -/
namespace Elan

structure AuditSubject where
  userId : String
  groups : List String
  sessionId : Option String
  deriving DecidableEq

structure QuerySubmittedPayload where
  queryId : Uuid
  sql : String
  resolvedTables : List String
  executors : StringMap String
  deriving DecidableEq

structure QueryFailedPayload where
  queryId : Uuid
  durationMs : ℕ
  errorKind : String
  errorMsg : String
  deriving DecidableEq

structure AccessDeniedPayload where
  queryId : Uuid
  ns : String
  dataset : String
  action : String
  reason : String
  deriving DecidableEq

structure CoordinatorRegisteredPayload where
  coordinatorId : String
  environment : String
  hostname : String
  deriving DecidableEq

structure DatasetRegisteredPayload where
  datasetId : String
  name : String
  ns : String
  sourceType : String
  coordinatorId : String
  deriving DecidableEq

inductive AuditPayload
  | querySubmitted (payload : QuerySubmittedPayload)
  | queryCompleted (payload : QueryCompletedPayload)
  | queryFailed (payload : QueryFailedPayload)
  | accessDenied (payload : AccessDeniedPayload)
  | coordinatorRegistered (payload : CoordinatorRegisteredPayload)
  | datasetRegistered (payload : DatasetRegisteredPayload)
  deriving DecidableEq

structure AuditEvent (T : Type) where
  schemaVersion : ℕ
  eventId : Uuid
  occurredAt : T
  sourceService : String
  sourceInstance : String
  subject : AuditSubject
  payload : AuditPayload

def AuditPayload.eventType : AuditPayload → String
  | .querySubmitted _ => "QuerySubmitted"
  | .queryCompleted _ => "QueryCompleted"
  | .queryFailed _ => "QueryFailed"
  | .accessDenied _ => "AccessDenied"
  | .coordinatorRegistered _ => "CoordinatorRegistered"
  | .datasetRegistered _ => "DatasetRegistered"

namespace AuditEvent

variable {T : Type}

/-- The identifier and the time are drawn when the event is made. -/
def new (eventId : Uuid) (now : T) (sourceService sourceInstance : String) (subject : AuditSubject)
    (payload : AuditPayload) : AuditEvent T :=
  ⟨1,eventId,now,sourceService,sourceInstance,subject,payload⟩

def eventType (e : AuditEvent T) : String := e.payload.eventType

def kafkaTopic (e : AuditEvent T) : String :=
  "elan.audit." ++ match e.payload with
    | .querySubmitted _ => "query.submitted"
    | .queryCompleted _ => "query.completed"
    | .queryFailed _ => "query.failed"
    | .accessDenied _ => "access.denied"
    | .coordinatorRegistered _ => "coordinator.registered"
    | .datasetRegistered _ => "dataset.registered"

end AuditEvent

/-! ### The derived serializers -/

section
open Fields

def AuditSubject.fields :
    Fields ["user_id","groups","session_id"] AuditSubject :=
  ((field "user_id" .string).both <| (field "groups" (.list .string)).both <|
    optional "session_id" .string).map
    (fun p => ⟨p.1,p.2.1,p.2.2⟩) (fun s => (s.userId,s.groups,s.sessionId)) fun _ => rfl

def QuerySubmittedPayload.fields :
    Fields ["query_id","sql","resolved_tables","executors"] QuerySubmittedPayload :=
  ((field "query_id" .uuid).both <| (field "sql" .string).both <|
    (field "resolved_tables" (.list .string)).both <| field "executors" (.stringMap .string)).map
    (fun p => ⟨p.1,p.2.1,p.2.2.1,p.2.2.2⟩)
    (fun s => (s.queryId,s.sql,s.resolvedTables,s.executors)) fun _ => rfl

def QueryCompletedPayload.fields :
    Fields ["query_id","duration_ms","rows_returned","bytes_scanned"] QueryCompletedPayload :=
  ((field "query_id" .uuid).both <| (field "duration_ms" (.unsigned 64)).both <|
    (field "rows_returned" (.unsigned 64)).both <| field "bytes_scanned" (.unsigned 64)).map
    (fun p => ⟨p.1,p.2.1,p.2.2.1,p.2.2.2⟩)
    (fun s => (s.queryId,s.durationMs,s.rowsReturned,s.bytesScanned)) fun _ => rfl

def QueryFailedPayload.fields :
    Fields ["query_id","duration_ms","error_kind","error_msg"] QueryFailedPayload :=
  ((field "query_id" .uuid).both <| (field "duration_ms" (.unsigned 64)).both <|
    (field "error_kind" .string).both <| field "error_msg" .string).map
    (fun p => ⟨p.1,p.2.1,p.2.2.1,p.2.2.2⟩)
    (fun s => (s.queryId,s.durationMs,s.errorKind,s.errorMsg)) fun _ => rfl

def AccessDeniedPayload.fields :
    Fields ["query_id","namespace","dataset","action","reason"] AccessDeniedPayload :=
  ((field "query_id" .uuid).both <| (field "namespace" .string).both <|
    (field "dataset" .string).both <| (field "action" .string).both <|
    field "reason" .string).map
    (fun p => ⟨p.1,p.2.1,p.2.2.1,p.2.2.2.1,p.2.2.2.2⟩)
    (fun s => (s.queryId,s.ns,s.dataset,s.action,s.reason)) fun _ => rfl

def CoordinatorRegisteredPayload.fields :
    Fields ["coordinator_id","environment","hostname"] CoordinatorRegisteredPayload :=
  ((field "coordinator_id" .string).both <| (field "environment" .string).both <|
    field "hostname" .string).map
    (fun p => ⟨p.1,p.2.1,p.2.2⟩) (fun s => (s.coordinatorId,s.environment,s.hostname)) fun _ => rfl

def DatasetRegisteredPayload.fields :
    Fields ["dataset_id","name","namespace","source_type","coordinator_id"]
      DatasetRegisteredPayload :=
  ((field "dataset_id" .string).both <| (field "name" .string).both <|
    (field "namespace" .string).both <| (field "source_type" .string).both <|
    field "coordinator_id" .string).map
    (fun p => ⟨p.1,p.2.1,p.2.2.1,p.2.2.2.1,p.2.2.2.2⟩)
    (fun s => (s.datasetId,s.name,s.ns,s.sourceType,s.coordinatorId)) fun _ => rfl

namespace AuditPayload

/-- The name of the variant, as the derived serializer writes it. -/
def variant : AuditPayload → String
  | .querySubmitted _ => "QuerySubmitted"
  | .queryCompleted _ => "QueryCompleted"
  | .queryFailed _ => "QueryFailed"
  | .accessDenied _ => "AccessDenied"
  | .coordinatorRegistered _ => "CoordinatorRegistered"
  | .datasetRegistered _ => "DatasetRegistered"

theorem variant_eq_eventType (p : AuditPayload) : p.variant = p.eventType := by
  cases p <;> rfl

def content : AuditPayload → JsonValue
  | .querySubmitted p => QuerySubmittedPayload.fields.object.serialize p
  | .queryCompleted p => QueryCompletedPayload.fields.object.serialize p
  | .queryFailed p => QueryFailedPayload.fields.object.serialize p
  | .accessDenied p => AccessDeniedPayload.fields.object.serialize p
  | .coordinatorRegistered p => CoordinatorRegisteredPayload.fields.object.serialize p
  | .datasetRegistered p => DatasetRegisteredPayload.fields.object.serialize p

def ofContent (variant : String) (v : JsonValue) : Option AuditPayload :=
  match variant with
  | "QuerySubmitted" => (QuerySubmittedPayload.fields.object.deserialize v).map querySubmitted
  | "QueryCompleted" => (QueryCompletedPayload.fields.object.deserialize v).map queryCompleted
  | "QueryFailed" => (QueryFailedPayload.fields.object.deserialize v).map queryFailed
  | "AccessDenied" => (AccessDeniedPayload.fields.object.deserialize v).map accessDenied
  | "CoordinatorRegistered" =>
    (CoordinatorRegisteredPayload.fields.object.deserialize v).map coordinatorRegistered
  | "DatasetRegistered" =>
    (DatasetRegisteredPayload.fields.object.deserialize v).map datasetRegistered
  | _ => none

/-- The numbers are within 64 bits. -/
def Valid : AuditPayload → Prop
  | .queryCompleted p => p.durationMs < 2 ^ 64 ∧ p.rowsReturned < 2 ^ 64 ∧ p.bytesScanned < 2 ^ 64
  | .queryFailed p => p.durationMs < 2 ^ 64
  | _ => True

theorem ofContent_content {p : AuditPayload} (h : p.Valid) :
    ofContent p.variant p.content = some p := by
  cases p with
  | querySubmitted p =>
    exact congrArg (Option.map querySubmitted) <|
      QuerySubmittedPayload.fields.object.deserialize_serialize p
        ⟨trivial,trivial,fun _ _ => trivial,fun _ _ => trivial⟩
  | queryCompleted p =>
    exact congrArg (Option.map queryCompleted) <|
      QueryCompletedPayload.fields.object.deserialize_serialize p ⟨trivial,h⟩
  | queryFailed p =>
    exact congrArg (Option.map queryFailed) <|
      QueryFailedPayload.fields.object.deserialize_serialize p ⟨trivial,h,trivial,trivial⟩
  | accessDenied p =>
    exact congrArg (Option.map accessDenied) <|
      AccessDeniedPayload.fields.object.deserialize_serialize p
        ⟨trivial,trivial,trivial,trivial,trivial⟩
  | coordinatorRegistered p =>
    exact congrArg (Option.map coordinatorRegistered) <|
      CoordinatorRegisteredPayload.fields.object.deserialize_serialize p ⟨trivial,trivial,trivial⟩
  | datasetRegistered p =>
    exact congrArg (Option.map datasetRegistered) <|
      DatasetRegisteredPayload.fields.object.deserialize_serialize p
        ⟨trivial,trivial,trivial,trivial,trivial⟩

def fields : Fields ["event_type","payload"] AuditPayload :=
  tagged "event_type" "payload" (by decide) variant content ofContent Valid
    fun _ h => ofContent_content h

end AuditPayload

/-- The fields of the payload stand among those of the event. -/
def AuditEvent.fields {T : Type} (time : Codec T) :
    Fields ["schema_version","event_id","occurred_at","source_service","source_instance","subject",
      "event_type","payload"] (AuditEvent T) :=
  ((field "schema_version" (.unsigned 8)).both <| (field "event_id" .uuid).both <|
    (field "occurred_at" time).both <| (field "source_service" .string).both <|
    (field "source_instance" .string).both <| (field "subject" AuditSubject.fields.object).both
      AuditPayload.fields).map
    (fun p => ⟨p.1,p.2.1,p.2.2.1,p.2.2.2.1,p.2.2.2.2.1,p.2.2.2.2.2.1,p.2.2.2.2.2.2⟩)
    (fun e => (e.schemaVersion,e.eventId,e.occurredAt,e.sourceService,e.sourceInstance,e.subject,
      e.payload)) fun _ => rfl

end

namespace AuditEvent

variable {T : Type}

theorem kafkaTopic_eq_iff {e e' : AuditEvent T} :
    e'.kafkaTopic = e.kafkaTopic ↔ e'.eventType = e.eventType := by
  unfold kafkaTopic eventType AuditPayload.eventType
  cases e.payload <;> cases e'.payload <;> simp

def names : List String :=
  ["schema_version","event_id","occurred_at","source_service","source_instance","subject",
    "event_type","payload"]

theorem occurrences_eventType (time : Codec T) {e : AuditEvent T} {es : List (String × JsonValue)}
    (h : (es.filter (·.1 ∈ names)).Perm ((fields time).write e)) :
    Fields.occurrences "event_type" es = [.string e.eventType] := by
  rw [eventType,← AuditPayload.variant_eq_eventType]
  exact Fields.occurrences_of_perm (Fields.perm_of_subset (by decide) h) rfl

/-- An event is read from JSON whatever the order of its fields, and whatever else stands among
them; its tag is its type, and its topic is that of its type alone. -/
theorem deserialize_of_perm (time : Codec T) {e : AuditEvent T} (hversion : e.schemaVersion < 2 ^ 8)
    (htime : time.Valid e.occurredAt) (hpayload : e.payload.Valid) {es : List (String × JsonValue)}
    (h : (es.filter (·.1 ∈ names)).Perm ((fields time).write e)) :
    (fields time).object.deserialize (.object es) = some e ∧
      Fields.occurrences "event_type" es = [.string e.eventType] ∧
      ∀ e' : AuditEvent T, e'.kafkaTopic = e.kafkaTopic ↔ e'.eventType = e.eventType := by
  refine ⟨?_,occurrences_eventType time h,fun e' => kafkaTopic_eq_iff⟩
  have hsubject : AuditSubject.fields.Valid e.subject :=
    ⟨trivial,fun _ _ => trivial,fun _ _ => ⟨trivial,by rintro ⟨⟩⟩⟩
  exact (fields time).read_of_perm e
    ⟨hversion,trivial,htime,trivial,trivial,hsubject,hpayload⟩ es h

def sampleTime : Codec String := .string

def sampleEvent : AuditEvent String :=
  .new (.ofByte 3) "2024-01-01T00:00:00Z" "elan-query" "elan-query-1" ⟨"alice",[],some "s1"⟩
    (.queryCompleted ⟨.ofByte 1,5,2,0⟩)

/-- The payload before its tag, and a field of a later version in between. -/
theorem deserialize_of_perm_sample :
    (fields sampleTime).object.deserialize (.object (("trace_id",.string "t") ::
      ((fields sampleTime).write sampleEvent).reverse)) = some sampleEvent ∧
      Fields.occurrences "event_type" (("trace_id",.string "t") ::
        ((fields sampleTime).write sampleEvent).reverse) = [.string sampleEvent.eventType] ∧
      ∀ e' : AuditEvent String,
        e'.kafkaTopic = sampleEvent.kafkaTopic ↔ e'.eventType = sampleEvent.eventType := by
  have hpayload : sampleEvent.payload.Valid := ⟨by decide,by decide,by decide⟩
  refine deserialize_of_perm sampleTime (by decide) trivial hpayload ?_
  exact List.reverse_perm ((fields sampleTime).write sampleEvent)

end AuditEvent

/-! ### Events in the log -/

section
variable [JsonText] {T : Type}

def AuditPayload.json (p : AuditPayload) : JsonValue := fields.object.serialize p

def CentralAuditSink.message (e : AuditEvent T) : AuditEventProto where
  eventId := e.eventId.toString
  eventType := e.eventType
  occurredAt := none
  sourceService := e.sourceService
  userId := e.subject.userId
  sessionId := e.subject.sessionId.getD ""
  payloadJson := JsonText.toString e.payload.json

end

end Elan
