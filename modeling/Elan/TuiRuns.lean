import Elan.LatestQuery
import Mathlib.Data.List.DropRight

/-! The terminal client over a whole session: its tasks put events into one channel in some order,
and the application is what these events make of it one after the other. -/
namespace Elan

open TransitionSystem

/-- The text of an event for the audit pane. -/
def AppEvent.auditText : AppEvent → Option String
  | .auditMessage msg => some msg
  | _ => none

def AppEvent.rows : AppEvent → Option QueryResponse
  | .queryResult (.ok resp) => some resp
  | _ => none

def AppEvent.namespaces : AppEvent → Option (List NamespaceInfo)
  | .catalogLoaded catalog => some catalog
  | _ => none

section
variable {E : Type} [TextArea E]

namespace App

def handleAll (events : List AppEvent) (app : App E) : App E :=
  events.foldl (fun app event => (app.handleEvent event).app) app

/-- Keys leave the contents of the other panes alone. -/
theorem panes_handleKey (app : App E) (key : KeyEvent) :
    (app.handleKey key).app.auditLog = app.auditLog ∧
      (app.handleKey key).app.results = app.results ∧
      (app.handleKey key).app.catalog = app.catalog := by
  have hinput (key : KeyEvent) : (app.inputKey key).app.auditLog = app.auditLog ∧
      (app.inputKey key).app.results = app.results ∧
      (app.inputKey key).app.catalog = app.catalog := by
    unfold inputKey
    split_ifs <;> exact ⟨rfl,rfl,rfl⟩
  have hexecute : app.executeQuery.app.auditLog = app.auditLog ∧
      app.executeQuery.app.results = app.results ∧
      app.executeQuery.app.catalog = app.catalog := by
    unfold executeQuery
    split_ifs <;> exact ⟨rfl,rfl,rfl⟩
  unfold handleKey
  split
  · exact ⟨rfl,rfl,rfl⟩
  · exact ⟨rfl,rfl,rfl⟩
  · exact ⟨rfl,rfl,rfl⟩
  · exact hexecute
  · exact hexecute
  · split_ifs
    · exact ⟨rfl,rfl,rfl⟩
    · exact hinput _
  · exact hinput _

/-- The panes show these events: the last 500 messages, the last rows and the last catalog. -/
structure Shows (app : App E) (events : List AppEvent) : Prop where
  auditLog : app.auditLog = (events.filterMap AppEvent.auditText).rtake 500
  results : app.results = (events.filterMap AppEvent.rows).getLast?
  catalog : app.catalog = (events.filterMap AppEvent.namespaces).getLast?

theorem Shows.initial : (initial : App E).Shows [] := ⟨rfl,rfl,rfl⟩

omit [TextArea E] in
/-- The log that is cut at its beginning keeps the last messages. -/
theorem auditLog_pushAudit {app : App E} {msgs : List String} (h : app.auditLog = msgs.rtake 500)
    (msg : String) : (app.pushAudit msg).auditLog = (msgs ++ [msg]).rtake 500 := by
  have hlength : (msgs.rtake 500).length = msgs.length - (msgs.length - 500) := List.length_drop
  unfold pushAudit
  simp only [h,List.length_append,List.length_singleton,hlength]
  unfold List.rtake
  rw [List.length_append,List.length_singleton]
  by_cases hlong : 500 ≤ msgs.length
  · have hdrop : msgs.length + 1 - 500 = (msgs.length - 500) + 1 := by omega
    rw [if_pos (by omega),← List.drop_append_of_le_length (by omega),List.tail_drop,hdrop]
  · rw [if_neg (by omega),Nat.sub_eq_zero_of_le (by omega),Nat.sub_eq_zero_of_le (by omega)]
    rfl

theorem auditLog_handleEvent (app : App E) (event : AppEvent) :
    (app.handleEvent event).app.auditLog =
      (event.auditText.map fun msg => (app.pushAudit msg).auditLog).getD app.auditLog := by
  cases event with
  | key key => exact (app.panes_handleKey key).1
  | queryResult result => cases result <;> rfl
  | auditMessage msg | catalogLoaded catalog => rfl

theorem results_handleEvent (app : App E) (event : AppEvent) :
    (app.handleEvent event).app.results = event.rows.or app.results := by
  cases event with
  | key key => exact (app.panes_handleKey key).2.1
  | queryResult result => cases result <;> rfl
  | auditMessage msg | catalogLoaded catalog => rfl

theorem catalog_handleEvent (app : App E) (event : AppEvent) :
    (app.handleEvent event).app.catalog = event.namespaces.or app.catalog := by
  cases event with
  | key key => exact (app.panes_handleKey key).2.2
  | queryResult result => cases result <;> rfl
  | auditMessage msg | catalogLoaded catalog => rfl

theorem Shows.handleEvent {app : App E} {events : List AppEvent} (h : app.Shows events)
    (event : AppEvent) : (app.handleEvent event).app.Shows (events ++ [event]) := by
  have hlast {α : Type} (f : AppEvent → Option α) :
      ((events ++ [event]).filterMap f).getLast? = (f event).or (events.filterMap f).getLast? := by
    rw [List.filterMap_append,List.getLast?_append]
    cases hf : f event <;> simp [hf]
  refine ⟨?_,?_,?_⟩
  · rw [auditLog_handleEvent,List.filterMap_append]
    cases htext : event.auditText with
    | none =>
      rw [List.filterMap_cons_none htext,List.filterMap_nil,List.append_nil]
      exact h.auditLog
    | some msg =>
      rw [List.filterMap_cons_some htext,List.filterMap_nil]
      exact auditLog_pushAudit h.auditLog msg
  · rw [results_handleEvent,hlast,h.results]
  · rw [catalog_handleEvent,hlast,h.catalog]

theorem shows_handleAll (events : List AppEvent) :
    (handleAll events (initial : App E)).Shows events := by
  induction events using List.reverseRecOn with
  | nil => exact .initial
  | append_singleton events event ih =>
    have hlast : handleAll (events ++ [event]) (initial : App E) =
        ((handleAll events initial).handleEvent event).app := by
      unfold handleAll
      rw [List.foldl_append]
      rfl
    rw [hlast]
    exact ih.handleEvent event

end App

namespace Tui

omit [TextArea E] in
/-- The events that an action puts into the channel. -/
def sentEvents (a : Action) (s : State E) : List AppEvent :=
  match a with
  | .press key => [.key key]
  | .audit msg => [.auditMessage msg]
  | .catalog i loaded => (s.catalogTasks[i]?.map (catalogEvent · loaded)).toList
  | .answer _ result => [.queryResult result]
  | .receive => []

def sentAlong : List Action → State E → List AppEvent
  | [], _ => []
  | a :: as, s => sentEvents a s ++ ((step a s).map (sentAlong as)).getD []

omit [TextArea E] in
theorem queue_send {s t : State E} {event : AppEvent} (h : s.send event = some t) :
    t.queue = s.queue ++ [event] ∧ t.app = s.app ∧ s.queue.length < channelCapacity := by
  obtain ⟨hroom,ht⟩ := Option.ite_none_right_eq_some.mp h
  cases ht
  exact ⟨rfl,rfl,hroom⟩

omit [TextArea E] in
theorem queue_spawn (s : State E) (spawned : Option Spawn) :
    (s.spawn spawned).queue = s.queue ∧ (s.spawn spawned).app = s.app := by
  rcases spawned with _ | _ | _ <;> exact ⟨rfl,rfl⟩

/-- An action puts events at the end of the channel, or the loop takes the first one. -/
theorem step_events {a : Action} {s t : State E} (h : step a s = some t) :
    ∃ taken, s.queue ++ sentEvents a s = taken ++ t.queue ∧ t.app = s.app.handleAll taken := by
  have hsend {u : State E} {event : AppEvent} (hqueue : u.queue = s.queue) (happ : u.app = s.app)
      (hevents : sentEvents a s = [event]) (hu : u.send event = some t) :
      ∃ taken, s.queue ++ sentEvents a s = taken ++ t.queue ∧ t.app = s.app.handleAll taken := by
    obtain ⟨hsent,hkept,-⟩ := queue_send hu
    exact ⟨[],by rw [hevents,hsent,hqueue]; rfl,hkept.trans happ⟩
  obtain ⟨-,hstep⟩ := Option.ite_none_left_eq_some.mp h
  cases a with
  | press key => exact hsend rfl rfl rfl hstep
  | audit msg => exact hsend rfl rfl rfl hstep
  | catalog i loaded =>
    unfold catalogStep at hstep
    cases hlabel : s.catalogTasks[i]? with
    | none => simp [hlabel] at hstep
    | some label =>
      simp only [hlabel] at hstep
      have hevents : sentEvents (.catalog i loaded) s = [catalogEvent label loaded] := by
        simp [sentEvents,hlabel]
      exact hsend (u := { s with catalogTasks := s.catalogTasks.eraseIdx i }) rfl rfl hevents
        hstep
  | answer i result =>
    simp only [answerStep] at hstep
    split at hstep
    · exact hsend (u := { s with queries := s.queries.set i (.answered result) }) rfl rfl rfl hstep
    · cases hstep
  | receive =>
    simp only [receiveStep] at hstep
    split at hstep
    · cases hstep
    · rename_i event queue hqueue
      obtain rfl := Option.some.inj hstep
      obtain ⟨hrest,happ⟩ := queue_spawn { s with
        app := (s.app.handleEvent event).app, queue, quit := (s.app.handleEvent event).quit }
        (s.app.handleEvent event).spawned
      refine ⟨[event],?_,happ⟩
      rw [hrest,hqueue]
      simp [sentEvents]

theorem run_events {as : List Action} {s t : State E} (h : run step as s = some t) :
    ∃ taken, s.queue ++ sentAlong as s = taken ++ t.queue ∧ t.app = s.app.handleAll taken := by
  induction as generalizing s with
  | nil =>
    obtain rfl := run_nil.mp h
    exact ⟨[],by simp [sentAlong],rfl⟩
  | cons a as ih =>
    obtain ⟨u,hu,hrest⟩ := run_cons.mp h
    obtain ⟨first,hfirst,happ⟩ := step_events hu
    obtain ⟨rest,hrest,happ'⟩ := ih hrest
    refine ⟨first ++ rest,?_,?_⟩
    · have hsent : sentAlong (a :: as) s = sentEvents a s ++ sentAlong as u := by
        simp [sentAlong,hu]
      rw [hsent,← List.append_assoc,hfirst,List.append_assoc,hrest,List.append_assoc]
    · rw [happ',happ]
      unfold App.handleAll
      rw [List.foldl_append]

/-- Whatever the tasks do, each event that was put into the channel is handled once and in its
turn or still waits, and the panes show what was handled. -/
theorem panes_follow_events {as : List Action} {s : State E} (h : run step as start = some s) :
    ∃ handled, sentAlong as (start : State E) = handled ++ s.queue ∧
      s.app = App.initial.handleAll handled ∧ s.app.Shows handled := by
  obtain ⟨handled,hsent,happ⟩ := run_events h
  refine ⟨handled,hsent,happ,?_⟩
  rw [happ]
  exact App.shows_handleAll handled

end Tui

end

namespace Tui

/-- Messages, a catalog and a refresh that fails, of which the last message still waits. -/
def sampleSession : List Action :=
  [.audit "[now] QuerySubmitted alice",.press ⟨.control,.char 'r'⟩,.catalog 0 (.ok []),.receive,
    .receive,.catalog 0 (.error "refused"),.receive,.audit "[now] QueryFailed alice",.receive,
    .press ⟨.none,.tab⟩]

theorem panes_follow_events_sample : ∃ s : State LineEditor,
    run step sampleSession start = some s ∧ ∃ handled,
      sentAlong sampleSession (start : State LineEditor) = handled ++ s.queue ∧
      s.app = App.initial.handleAll handled ∧ s.app.Shows handled :=
  ⟨_,rfl,panes_follow_events rfl⟩

end Tui

end Elan
