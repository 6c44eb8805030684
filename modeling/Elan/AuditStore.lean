import Elan.StableSort
import Elan.Table
import Mathlib.Data.String.Basic

/-! The audit log: its rows, the event messages they are written from and read back as, and
the query for recent rows. -/
namespace Elan

open StableSort Table

structure Timestamp where
  seconds : Int64
  nanos : Int32
  deriving DecidableEq

/-- Times as text; the formatting is not part of the program. -/
class Chrono where
  toRfc3339 : Timestamp → Option String

structure AuditEventProto where
  eventId : String
  eventType : String
  occurredAt : Option Timestamp
  sourceService : String
  userId : String
  sessionId : String
  payloadJson : String
  deriving DecidableEq

structure AuditRow where
  id : String
  eventType : String
  occurredAt : String
  sourceService : String
  userId : String
  sessionId : Option String
  payloadJson : String
  deriving DecidableEq

/-- The rows of `audit_events`, one for each identifier. -/
structure AuditTable where
  rows : List AuditRow
  ids : (rows.map AuditRow.id).Nodup

/-- The row an event is persisted as, at the time it is received. -/
def AuditRow.ofEvent (e : AuditEventProto) (now : String) : AuditRow where
  id := e.eventId
  eventType := e.eventType
  occurredAt := now
  sourceService := e.sourceService
  userId := e.userId
  sessionId := if e.sessionId = "" then none else some e.sessionId
  payloadJson := e.payloadJson

def AuditRow.toEvent (r : AuditRow) : AuditEventProto where
  eventId := r.id
  eventType := r.eventType
  occurredAt := none
  sourceService := r.sourceService
  userId := r.userId
  sessionId := r.sessionId.getD ""
  payloadJson := r.payloadJson

/-- `INSERT`; an identifier that is taken is refused. -/
def AuditTable.storeAuditEvent (t : AuditTable) (r : AuditRow) : Option AuditTable :=
  if h : r.id ∈ t.rows.map AuditRow.id then none
  else some
    { rows := t.rows ++ [r]
      ids := nodup_map_concat _ t.ids h }

theorem storeAuditEvent_eq_some {t t' : AuditTable} {r : AuditRow}
    (h : t.storeAuditEvent r = some t') :
    r.id ∉ t.rows.map AuditRow.id ∧ t'.rows = t.rows ++ [r] := by
  unfold AuditTable.storeAuditEvent at h
  split_ifs at h with hid
  cases h
  exact ⟨hid,rfl⟩

/-- `ORDER BY occurred_at DESC`. -/
def ByRecency (a b : AuditRow) : Prop := b.occurredAt ≤ a.occurredAt

instance : DecidableRel ByRecency := fun a b =>
  inferInstanceAs (Decidable (b.occurredAt ≤ a.occurredAt))

instance : Std.Total ByRecency := ⟨fun a b => le_total b.occurredAt a.occurredAt⟩

instance : IsTrans AuditRow ByRecency := ⟨fun _ _ _ hab hbc => le_trans hbc hab⟩

/-- How the database orders rows of the same time. -/
structure AuditOrder where
  sorted : List AuditRow → List AuditRow
  answers (rows : List AuditRow) : OrderedBy ByRecency rows (sorted rows)

def auditStorageOrder : AuditOrder :=
  ⟨fun rows => rows.insertionSort ByRecency,fun rows => orderedBy_insertionSort ByRecency rows⟩

/-- `? IS NULL OR occurred_at >= ?`. -/
def isSince (since : Option String) (r : AuditRow) : Bool :=
  since.all fun s => decide (s ≤ r.occurredAt)

/-- No event types stand for all of them. -/
def isRequested (eventTypes : List String) (eventType : String) : Bool :=
  eventTypes.isEmpty || eventTypes.contains eventType

def AuditTable.getRecentAuditEvents (t : AuditTable) (order : AuditOrder) (since : Option String)
    (eventTypes : List String) (limit : ℕ) : List AuditRow :=
  ((order.sorted (t.rows.filter (isSince since))).take limit).filter
    (isRequested eventTypes ·.eventType)

/-- While the log fits the limit, the query finds every matching row, each once. -/
theorem getRecentAuditEvents_perm {t : AuditTable} {limit : ℕ} (h : t.rows.length ≤ limit)
    (order : AuditOrder) (since : Option String) (eventTypes : List String) :
    (t.getRecentAuditEvents order since eventTypes limit).Perm
      (t.rows.filter fun r => isRequested eventTypes r.eventType && isSince since r) := by
  have hperm := (order.answers (t.rows.filter (isSince since))).1
  have hlen : (order.sorted (t.rows.filter (isSince since))).length ≤ limit :=
    hperm.length_eq.trans_le ((List.length_filter_le _ _).trans h)
  rw [AuditTable.getRecentAuditEvents,List.take_of_length_le hlen]
  have hfilter := hperm.filter (fun r => isRequested eventTypes r.eventType)
  rwa [List.filter_filter] at hfilter

end Elan
