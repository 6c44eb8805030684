import Elan.AuditStore
import Elan.TransitionSystem

/-! The audit service: calls that publish events, and one call that replays the log and
then follows the broadcasts. Each statement, and each operation on a channel, is one step. -/
namespace Elan

structure StreamRequest where
  since : Option Timestamp
  eventTypes : List String
  deriving DecidableEq

namespace AuditSvc

/-- The `since` of a request as the log writes times; unreadable ones become empty. -/
def sinceText [Chrono] (req : StreamRequest) : Option String :=
  req.since.map fun ts => (Chrono.toRfc3339 ts).getD ""

def channelCapacity : ℕ := 64

/-- How many rows are replayed at most. -/
def catchUpLimit : ℕ := 100

/-- A call of `publish_event`: persist, then broadcast. -/
inductive Publisher
  | received (e : AuditEventProto)
  | persisted (e : AuditEventProto)
  | answered
  | failed
  deriving DecidableEq

/-- The call of `stream_audit_events`: read, replay, subscribe, hand the receiver over. -/
inductive Handler
  | received
  | replaying (remaining : List AuditEventProto)
  | subscribed
  | returned
  deriving DecidableEq

/-- `queue` is the channel to the client, `live` what was broadcast to the subscription and
not yet forwarded, and `delivered` what the client has got. -/
structure State (ι : Type) where
  table : AuditTable
  publishers : ι → Publisher
  handler : Handler
  queue : List AuditEventProto
  live : List AuditEventProto
  delivered : List AuditEventProto

def State.initial {ι : Type} (table : AuditTable) (events : ι → AuditEventProto) : State ι where
  table := table
  publishers i := .received (events i)
  handler := .received
  queue := []
  live := []
  delivered := []

inductive Action (ι : Type)
  | publish (i : ι) (now : String)
  | stream (order : AuditOrder)
  | forward
  | deliver

def Handler.listens : Handler → Bool
  | .subscribed | .returned => true
  | _ => false

variable {ι : Type} [DecidableEq ι]

def publishStep (i : ι) (now : String) (s : State ι) : Option (State ι) :=
  match s.publishers i with
  | .received e =>
    match s.table.storeAuditEvent (.ofEvent e now) with
    | some table =>
      some { s with table, publishers := Function.update s.publishers i (.persisted e) }
    | none => some { s with publishers := Function.update s.publishers i .failed }
  | .persisted e =>
    -- a broadcast reaches the subscriptions there are
    some { s with
      live := if s.handler.listens then s.live ++ [e] else s.live
      publishers := Function.update s.publishers i .answered }
  | .answered | .failed => none

def streamStep [Chrono] (req : StreamRequest) (order : AuditOrder) (s : State ι) :
    Option (State ι) :=
  match s.handler with
  | .received =>
    let recent := s.table.getRecentAuditEvents order (sinceText req) req.eventTypes catchUpLimit
    some { s with handler := .replaying (recent.map AuditRow.toEvent) }
  | .replaying (e :: remaining) =>
    if s.queue.length < channelCapacity then
      some { s with handler := .replaying remaining, queue := s.queue ++ [e] }
    else none
  | .replaying [] => some { s with handler := .subscribed }
  | .subscribed => some { s with handler := .returned }
  | .returned => none

/-- The spawned task: the next broadcast, if its type is requested, goes to the channel. -/
def forwardStep (req : StreamRequest) (s : State ι) : Option (State ι) :=
  if s.handler.listens then
    match s.live with
    | [] => none
    | e :: live =>
      if isRequested req.eventTypes e.eventType then
        if s.queue.length < channelCapacity then some { s with live, queue := s.queue ++ [e] }
        else none
      else some { s with live }
  else none

/-- The client takes what is in the channel, once it has got the receiver. -/
def deliverStep (s : State ι) : Option (State ι) :=
  if s.handler = .returned then
    match s.queue with
    | [] => none
    | e :: queue => some { s with queue, delivered := s.delivered ++ [e] }
  else none

def step [Chrono] (req : StreamRequest) (a : Action ι) (s : State ι) : Option (State ι) :=
  match a with
  | .publish i now => publishStep i now s
  | .stream order => streamStep req order s
  | .forward => forwardStep req s
  | .deliver => deliverStep s

def replayed [Chrono] (req : StreamRequest) (order : AuditOrder) (t : AuditTable) :
    List AuditEventProto :=
  (t.getRecentAuditEvents order (sinceText req) req.eventTypes catchUpLimit).map AuditRow.toEvent

inductive Effect [Chrono] (req : StreamRequest) (s : State ι) : Action ι → State ι → Prop
  | persisted {i : ι} {now : String} {e : AuditEventProto} {table : AuditTable}
    (hfrom : s.publishers i = .received e)
    (hstore : s.table.storeAuditEvent (.ofEvent e now) = some table) :
    Effect req s (.publish i now)
      { s with table, publishers := Function.update s.publishers i (.persisted e) }
  | refused {i : ι} {now : String} {e : AuditEventProto} (hfrom : s.publishers i = .received e) :
    Effect req s (.publish i now) { s with publishers := Function.update s.publishers i .failed }
  | broadcast {i : ι} {now : String} {e : AuditEventProto}
    (hfrom : s.publishers i = .persisted e) :
    Effect req s (.publish i now) { s with
      live := if s.handler.listens then s.live ++ [e] else s.live
      publishers := Function.update s.publishers i .answered }
  | read {order : AuditOrder} (hfrom : s.handler = .received) :
    Effect req s (.stream order) { s with handler := .replaying (replayed req order s.table) }
  | sent {order : AuditOrder} {e : AuditEventProto} {remaining : List AuditEventProto}
    (hfrom : s.handler = .replaying (e :: remaining)) (hroom : s.queue.length < channelCapacity) :
    Effect req s (.stream order)
      { s with handler := .replaying remaining, queue := s.queue ++ [e] }
  | subscribed {order : AuditOrder} (hfrom : s.handler = .replaying []) :
    Effect req s (.stream order) { s with handler := .subscribed }
  | returned {order : AuditOrder} (hfrom : s.handler = .subscribed) :
    Effect req s (.stream order) { s with handler := .returned }
  | forwarded {e : AuditEventProto} {live : List AuditEventProto}
    (hlistens : s.handler.listens = true) (hlive : s.live = e :: live)
    (htype : isRequested req.eventTypes e.eventType = true)
    (hroom : s.queue.length < channelCapacity) :
    Effect req s .forward { s with live, queue := s.queue ++ [e] }
  | skipped {e : AuditEventProto} {live : List AuditEventProto}
    (hlistens : s.handler.listens = true) (hlive : s.live = e :: live)
    (htype : isRequested req.eventTypes e.eventType = false) :
    Effect req s .forward { s with live }
  | delivered {e : AuditEventProto} {queue : List AuditEventProto}
    (hfrom : s.handler = .returned) (hqueue : s.queue = e :: queue) :
    Effect req s .deliver { s with queue, delivered := s.delivered ++ [e] }

section
variable [Chrono] {req : StreamRequest} {s s' : State ι}

theorem publishStep_effect {i : ι} {now : String} (h : publishStep i now s = some s') :
    Effect req s (.publish i now) s' := by
  cases hp : s.publishers i with
  | received e =>
    cases hstore : s.table.storeAuditEvent (.ofEvent e now) <;>
      simp only [publishStep,hp,hstore,Option.some.injEq] at h <;> subst h
    · exact .refused hp
    · exact .persisted hp hstore
  | persisted e =>
    simp only [publishStep,hp,Option.some.injEq] at h
    subst h
    exact .broadcast hp
  | answered | failed => simp [publishStep,hp] at h

theorem streamStep_effect {order : AuditOrder}
    (h : streamStep req order s = some s') : Effect req s (.stream order) s' := by
  cases hh : s.handler with
  | received =>
    simp only [streamStep,hh,Option.some.injEq] at h
    subst h
    exact .read hh
  | replaying remaining =>
    cases remaining with
    | nil =>
      simp only [streamStep,hh,Option.some.injEq] at h
      subst h
      exact .subscribed hh
    | cons e remaining =>
      simp only [streamStep,hh,Option.ite_none_right_eq_some,Option.some.injEq] at h
      obtain ⟨hroom,rfl⟩ := h
      exact .sent hh hroom
  | subscribed =>
    simp only [streamStep,hh,Option.some.injEq] at h
    subst h
    exact .returned hh
  | returned => simp [streamStep,hh] at h

theorem forwardStep_effect (h : forwardStep req s = some s') : Effect req s .forward s' := by
  cases hl : s.handler.listens with
  | false => simp [forwardStep,hl] at h
  | true =>
    cases hlive : s.live with
    | nil => simp [forwardStep,hl,hlive] at h
    | cons e live =>
      cases htype : isRequested req.eventTypes e.eventType with
      | false =>
        simp only [forwardStep,hl,hlive,htype,if_true,Bool.false_eq_true,if_false,
          Option.some.injEq] at h
        subst h
        exact .skipped hl hlive htype
      | true =>
        simp only [forwardStep,hl,hlive,htype,if_true,Option.ite_none_right_eq_some,
          Option.some.injEq] at h
        obtain ⟨hroom,rfl⟩ := h
        exact .forwarded hl hlive htype hroom

theorem deliverStep_effect (h : deliverStep s = some s') : Effect req s .deliver s' := by
  obtain ⟨hh,hqueue⟩ := Option.ite_none_right_eq_some.mp h
  cases hq : s.queue with
  | nil => simp [hq] at hqueue
  | cons e queue =>
    simp only [hq,Option.some.injEq] at hqueue
    subst hqueue
    exact .delivered hh hq

theorem step_effect {a : Action ι} (h : step req a s = some s') : Effect req s a s' := by
  cases a with
  | publish i now => exact publishStep_effect h
  | stream order => exact streamStep_effect h
  | forward => exact forwardStep_effect h
  | deliver => exact deliverStep_effect h

omit [Chrono] in
/-- A step of one call does not bring another call to where it is not itself. -/
theorem publisher_of_update {publishers : ι → Publisher} {i j : ι} {p q : Publisher} (hp : p ≠ q)
    (h : Function.update publishers i p j = q) : j ≠ i ∧ publishers j = q := by
  by_cases hj : j = i
  · rw [hj,Function.update_self] at h
    exact absurd h hp
  · rw [Function.update_of_ne hj] at h
    exact ⟨hj,h⟩

end
end AuditSvc
end Elan
