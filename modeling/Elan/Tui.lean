import Elan.QueryResponse
import Elan.Session
import Elan.TransitionSystem

/-! The terminal client: its state, and the loop that takes the events of all its tasks from one
channel, the answers to queries among them. -/
namespace Elan

inductive KeyModifiers
  | none
  | control
  | other (bits : UInt8)
  deriving DecidableEq

inductive KeyCode
  | char (c : Char)
  | enter
  | tab
  | f (n : UInt8)
  | other (name : String)
  deriving DecidableEq

structure KeyEvent where
  modifiers : KeyModifiers
  code : KeyCode
  deriving DecidableEq

/-- The editor widget; it is not part of the program. -/
class TextArea (E : Type) where
  empty : E
  input : KeyEvent → E → E
  lines : E → List String

inductive Pane
  | editor | results | audit | catalog
  deriving DecidableEq

def Pane.next : Pane → Pane
  | .editor => .results
  | .results => .audit
  | .audit => .catalog
  | .catalog => .editor

structure App (E : Type) where
  activePane : Pane
  editor : E
  results : Option QueryResponse
  auditLog : List String
  catalog : Option (List NamespaceInfo)
  statusMessage : String
  isLoading : Bool

/-- A task that is started: it runs a query, or loads the catalog and begins the text of an
error with `label`. -/
inductive Spawn
  | query (sql : String)
  | catalog (label : String)
  deriving DecidableEq

inductive AppEvent
  | key (key : KeyEvent)
  | auditMessage (msg : String)
  | queryResult (result : Except String QueryResponse)
  | catalogLoaded (catalog : List NamespaceInfo)

/-- The state of the application after an event, and what is started by it. -/
structure Handled (E : Type) where
  app : App E
  spawned : Option Spawn := none
  quit : Bool := false

namespace App

variable {E : Type} [TextArea E]

def initial : App E where
  activePane := .editor
  editor := TextArea.empty
  results := none
  auditLog := []
  catalog := none
  statusMessage := "Ready"
  isLoading := false

/-- The characters that `trim` removes. -/
def isWhiteSpace (c : Char) : Bool :=
  let n := c.toNat
  (9 ≤ n && n ≤ 13) || (0x2000 ≤ n && n ≤ 0x200A) ||
    [0x20,0x85,0xA0,0x1680,0x2028,0x2029,0x202F,0x205F,0x3000].contains n

def sql (app : App E) : String := String.intercalate "\n" (TextArea.lines app.editor)

def executeQuery (app : App E) : Handled E :=
  if app.sql.toList.all isWhiteSpace then
    { app := { app with statusMessage := "No SQL to execute" } }
  else
    { app := { app with isLoading := true, statusMessage := "Executing...", activePane := .results }
      spawned := some (.query app.sql) }

/-- Other keys go to the editor, if it is the active pane. -/
def inputKey (key : KeyEvent) (app : App E) : Handled E :=
  if app.activePane = .editor then
    { app := { app with editor := TextArea.input key app.editor } }
  else { app }

def handleKey (key : KeyEvent) (app : App E) : Handled E :=
  match key with
  | ⟨.control,.char 'c'⟩ => { app, quit := true }
  | ⟨.none,.tab⟩ => { app := { app with activePane := app.activePane.next } }
  | ⟨.control,.char 'r'⟩ =>
    { app := { app with statusMessage := "Refreshing catalog..." }
      spawned := some (.catalog "catalog error: ") }
  | ⟨.none,.f 5⟩ | ⟨.control,.enter⟩ => app.executeQuery
  | ⟨.control,.char 'l'⟩ =>
    if app.activePane = .editor then { app := { app with editor := TextArea.empty } }
    else app.inputKey ⟨.control,.char 'l'⟩
  | key => app.inputKey key

/-- The log keeps 500 messages. -/
def pushAudit (msg : String) (app : App E) : App E :=
  let log := app.auditLog ++ [msg]
  { app with auditLog := if 500 < log.length then log.tail else log }

def handleEvent (event : AppEvent) (app : App E) : Handled E :=
  match event with
  | .key key => app.handleKey key
  | .auditMessage msg => { app := app.pushAudit msg }
  | .queryResult (.ok resp) =>
    { app := { app with
        isLoading := false
        statusMessage :=
          "Done: " ++ toString resp.rows.length ++ " rows in " ++ toString resp.durationMs ++ "ms"
        results := some resp } }
  | .queryResult (.error e) =>
    { app := { app with isLoading := false, statusMessage := "Error: " ++ e } }
  | .catalogLoaded catalog =>
    { app := { app with
        catalog := some catalog
        statusMessage := "Catalog loaded: " ++ toString catalog.length ++ " namespace(s)" } }

end App

namespace Tui

def channelCapacity : ℕ := 128

/-- The task of a query: waiting for the answer, or done with sending it. -/
inductive QueryTask
  | running (sql : String)
  | answered (result : Except String QueryResponse)

def QueryTask.isAnswered : QueryTask → Bool
  | .running _ => false
  | .answered _ => true

/-- `queries` are the tasks of all queries so far, in the order of their submission, and
`catalogTasks` the labels of the loads that are still to answer. -/
structure State (E : Type) where
  app : App E
  queue : List AppEvent
  queries : List QueryTask
  catalogTasks : List String
  quit : Bool

/-- What a task does, or the loop with the next event; answers may come in any order. -/
inductive Action
  | press (key : KeyEvent)
  | audit (msg : String)
  | catalog (i : ℕ) (loaded : Except String (List NamespaceInfo))
  | answer (i : ℕ) (result : Except String QueryResponse)
  | receive

variable {E : Type} [TextArea E]

def start : State E where
  app := .initial
  queue := []
  queries := []
  catalogTasks := ["catalog load error: "]
  quit := false

omit [TextArea E] in
/-- A task waits while the channel is full. -/
def State.send (event : AppEvent) (s : State E) : Option (State E) :=
  if s.queue.length < channelCapacity then some { s with queue := s.queue ++ [event] } else none

def catalogEvent (label : String) : Except String (List NamespaceInfo) → AppEvent
  | .ok catalog => .catalogLoaded catalog
  | .error e => .auditMessage (label ++ e)

omit [TextArea E] in
def State.spawn (s : State E) : Option Spawn → State E
  | none => s
  | some (.query sql) => { s with queries := s.queries ++ [.running sql] }
  | some (.catalog label) => { s with catalogTasks := s.catalogTasks ++ [label] }

def receiveStep (s : State E) : Option (State E) :=
  match s.queue with
  | [] => none
  | event :: queue =>
    let handled := s.app.handleEvent event
    some (State.spawn { s with app := handled.app, queue, quit := handled.quit } handled.spawned)

omit [TextArea E] in
def catalogStep (i : ℕ) (loaded : Except String (List NamespaceInfo)) (s : State E) :
    Option (State E) :=
  match s.catalogTasks[i]? with
  | none => none
  | some label => State.send (catalogEvent label loaded)
      { s with catalogTasks := s.catalogTasks.eraseIdx i }

omit [TextArea E] in
def answerStep (i : ℕ) (result : Except String QueryResponse) (s : State E) : Option (State E) :=
  match s.queries[i]? with
  | some (.running _) =>
    State.send (.queryResult result) { s with queries := s.queries.set i (.answered result) }
  | _ => none

def step (a : Action) (s : State E) : Option (State E) :=
  if s.quit then none
  else match a with
  | .press key => s.send (.key key)
  | .audit msg => s.send (.auditMessage msg)
  | .catalog i loaded => catalogStep i loaded s
  | .answer i result => answerStep i result s
  | .receive => receiveStep s

end Tui
end Elan
