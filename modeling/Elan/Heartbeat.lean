import Elan.CatalogSvc

/-! The heartbeat streams: each task takes a beat, has its coordinator's row updated, and answers
that the coordinator is alive. The tasks and the other calls take their steps in any order. -/
namespace Elan

structure HeartbeatResponse where
  alive : Bool
  deriving DecidableEq

namespace Heartbeat

open TransitionSystem

def channelCapacity : ℕ := 8

inductive Task
  | waiting
  | received (coordinatorId : String)
  | updated (coordinatorId : String)
  | ended
  deriving DecidableEq

/-- `outbox` is the channel of a stream, and `dropped` says that its receiver is gone. -/
structure State (ι : Type) where
  tables : CatalogTables
  task : ι → Task
  outbox : ι → List HeartbeatResponse
  dropped : ι → Bool

def State.initial {ι : Type} (tables : CatalogTables) : State ι where
  tables := tables
  task _ := .waiting
  outbox _ := []
  dropped _ := false

/-- A statement that `fails` changes nothing. -/
inductive Action (ι : Type)
  | register (now : String) (req : RegisterRequest) (fails : Bool)
  | beat (i : ι) (coordinatorId : String)
  | update (i : ι) (now : String) (fails : Bool)
  | send (i : ι)
  | take (i : ι)
  | drop (i : ι)
  | stop (i : ι)
  | markDead (coordinatorId : String) (fails : Bool)

variable {ι : Type} [DecidableEq ι]

def updateStep (i : ι) (now : String) (fails : Bool) (s : State ι) : Option (State ι) :=
  match s.task i with
  | .received coordinatorId =>
    -- an error of the store is logged, and the task goes on
    some { s with
      tables := if fails then s.tables else CoordinatorSvc.heartbeat s.tables now coordinatorId
      task := Function.update s.task i (.updated coordinatorId) }
  | _ => none

def sendStep (i : ι) (s : State ι) : Option (State ι) :=
  match s.task i with
  | .updated _ =>
    if s.dropped i then some { s with task := Function.update s.task i .waiting }
    else if (s.outbox i).length < channelCapacity then
      some { s with
        outbox := Function.update s.outbox i (s.outbox i ++ [⟨true⟩])
        task := Function.update s.task i .waiting }
    else none
  | _ => none

def step (a : Action ι) (s : State ι) : Option (State ι) :=
  match a with
  | .register now req fails =>
    some { s with tables := if fails then s.tables else CoordinatorSvc.register s.tables now req }
  | .beat i coordinatorId =>
    if s.task i = .waiting then
      some { s with task := Function.update s.task i (.received coordinatorId) }
    else none
  | .update i now fails => updateStep i now fails s
  | .send i => sendStep i s
  | .take i => some { s with outbox := Function.update s.outbox i (s.outbox i).tail }
  | .drop i => some { s with dropped := Function.update s.dropped i true }
  | .stop i =>
    if s.task i = .waiting then some { s with task := Function.update s.task i .ended } else none
  | .markDead coordinatorId fails =>
    some { s with
      tables := if fails then s.tables
        else CatalogStore.markCoordinatorDead s.tables coordinatorId }

/-- The step puts the answer to a beat of the coordinator into the channel. -/
def Answers (a : Action ι) (s s' : State ι) (coordinatorId : String) : Prop :=
  ∃ i, a = .send i ∧ s.task i = .updated coordinatorId ∧ s'.outbox i = s.outbox i ++ [⟨true⟩]

/-- Whenever a coordinator is told that it is alive, it is in the catalog. -/
def Truthful (t : CatalogTables) (as : List (Action ι)) : Prop :=
  Meets step (fun a s => ∀ s' c, step a s = some s' → Answers a s s' c →
    s'.tables.living c = true) as (State.initial t)

/-! ### What the calls have done -/

inductive Event
  | registered (coordinatorId : String)
  | beaten (coordinatorId : String)
  | markedDead (coordinatorId : String)
  deriving DecidableEq

def Event.coordinatorId : Event → String
  | .registered c | .beaten c | .markedDead c => c

def record (a : Action ι) (s _ : State ι) (events : List Event) : List Event :=
  match a with
  | .register _ req false => events ++ [.registered req.coordinatorId]
  | .update i _ false =>
    match s.task i with
    | .received c => events ++ [.beaten c]
    | _ => events
  | .markDead c false => events ++ [.markedDead c]
  | _ => events

/-- There was a row of the coordinator at the start, or it has been registered. -/
def Known (t : CatalogTables) (events : List Event) (c : String) : Prop :=
  t.coordinator? c ≠ none ∨ .registered c ∈ events

/-- The last call about the coordinator did not mark it dead; without any it was alive at the
start. -/
def LastAlive (t : CatalogTables) (events : List Event) (c : String) : Prop :=
  match (events.filter (·.coordinatorId = c)).getLast? with
  | none => t.living c = true
  | some e => e ≠ .markedDead c

/-- The coordinator is known when its beat is answered, and the last call about it did not mark
it dead. -/
def AnswersKnown (t : CatalogTables) (as : List (Action ι)) : Prop :=
  Meets (withHistory step record) (fun a x => ∀ s' c, step a x.1 = some s' →
    Answers a x.1 s' c → Known t x.2 c ∧ LastAlive t x.2 c) as (State.initial t,[])

def aliveFlag (t : CatalogTables) (c : String) : Option Bool :=
  (t.coordinator? c).map CoordinatorRow.isAlive

omit [DecidableEq ι] in
theorem living_iff_aliveFlag {t : CatalogTables} {c : String} :
    t.living c = true ↔ aliveFlag t c = some true := by
  rw [CatalogTables.living_iff]
  exact Option.map_eq_some_iff.symm

/-- What a call does to the `is_alive` of its coordinator. -/
def Event.flag : Event → Option Bool → Option Bool
  | .registered _, _ => some true
  | .beaten _, alive => alive.map fun _ => true
  | .markedDead _, alive => alive.map fun _ => false

/-- The call changed the `is_alive` of its coordinator, and that of no other. -/
def Event.Happens (e : Event) (t t' : CatalogTables) : Prop :=
  ∀ c, aliveFlag t' c = if c = e.coordinatorId then e.flag (aliveFlag t c) else aliveFlag t c

theorem happens_register (t : CatalogTables) (now : String) (req : RegisterRequest) :
    (Event.registered req.coordinatorId).Happens t (CoordinatorSvc.register t now req) := by
  intro c
  unfold aliveFlag CoordinatorSvc.register CatalogStore.upsertCoordinator Event.coordinatorId
  rw [CatalogTables.coordinator?_insertCoordinator]
  split_ifs
  · cases hc : t.coordinator? c <;> rfl
  · rfl

theorem happens_heartbeat (t : CatalogTables) (now id : String) :
    (Event.beaten id).Happens t (CoordinatorSvc.heartbeat t now id) := by
  intro c
  unfold aliveFlag CoordinatorSvc.heartbeat CatalogStore.heartbeat Event.coordinatorId
  rw [CatalogTables.coordinator?_updateCoordinator]
  split_ifs
  · cases hc : t.coordinator? c <;> rfl
  · rfl

theorem happens_markCoordinatorDead (t : CatalogTables) (id : String) :
    (Event.markedDead id).Happens t (CatalogStore.markCoordinatorDead t id) := by
  intro c
  unfold aliveFlag CatalogStore.markCoordinatorDead Event.coordinatorId
  rw [CatalogTables.coordinator?_updateCoordinator]
  split_ifs
  · cases hc : t.coordinator? c <;> rfl
  · rfl

/-- What the calls have done says what the tables hold. -/
structure Tracks (t : CatalogTables) (events : List Event) (t' : CatalogTables) : Prop where
  known : ∀ c, aliveFlag t' c ≠ none ↔ Known t events c
  alive : ∀ c, aliveFlag t' c = some true ↔ Known t events c ∧ LastAlive t events c

theorem known_concat {t : CatalogTables} {events : List Event} {e : Event} {c : String} :
    Known t (events ++ [e]) c ↔ Known t events c ∨ e = .registered c := by
  simp only [Known,List.mem_append,List.mem_singleton,or_assoc,eq_comm]

theorem lastAlive_concat {t : CatalogTables} {events : List Event} {e : Event} {c : String} :
    LastAlive t (events ++ [e]) c ↔
      if c = e.coordinatorId then e ≠ .markedDead c else LastAlive t events c := by
  unfold LastAlive
  rw [List.filter_append]
  by_cases he : c = e.coordinatorId
  · simp [he]
  · simp [he,Ne.symm he]

theorem tracks_start (t : CatalogTables) : Tracks t [] t where
  known c := by simp [Known,aliveFlag]
  alive c := by
    have hknown : aliveFlag t c = some true → t.coordinator? c ≠ none := by
      intro h hnone
      simp [aliveFlag,hnone] at h
    simp only [Known,LastAlive,List.not_mem_nil,or_false,List.filter_nil,List.getLast?_nil,
      living_iff_aliveFlag]
    exact ⟨fun h => ⟨hknown h,h⟩,And.right⟩

theorem Tracks.concat {t t' t'' : CatalogTables} {events : List Event} {e : Event}
    (h : Tracks t events t') (he : e.Happens t' t'') : Tracks t (events ++ [e]) t'' := by
  have hother {c : String} (hc : c ≠ e.coordinatorId) :
      aliveFlag t'' c = aliveFlag t' c ∧ e ≠ .registered c :=
    ⟨by rw [he c,if_neg hc],fun hh => hc (by rw [hh]; rfl)⟩
  have hself : aliveFlag t'' e.coordinatorId = e.flag (aliveFlag t' e.coordinatorId) := by
    rw [he,if_pos rfl]
  constructor
  · intro c
    rw [known_concat,← h.known c]
    by_cases hc : c = e.coordinatorId
    · rw [hc,hself]
      cases e <;> simp [Event.flag,Event.coordinatorId]
    · rw [(hother hc).1,or_iff_left (hother hc).2]
  · intro c
    rw [known_concat,lastAlive_concat,← h.known c]
    by_cases hc : c = e.coordinatorId
    · rw [if_pos hc,hc,hself]
      cases e with
      | registered | markedDead => simp [Event.flag,Event.coordinatorId]
      | beaten id => cases hid : aliveFlag t' id <;> simp [Event.flag,Event.coordinatorId,hid]
    · rw [if_neg hc,(hother hc).1,or_iff_left (hother hc).2,h.known c]
      exact h.alive c

theorem updateStep_eq_some {i : ι} {now : String} {fails : Bool} {s s' : State ι}
    (h : updateStep i now fails s = some s') : ∃ id, s.task i = .received id ∧
      s'.tables = if fails then s.tables else CoordinatorSvc.heartbeat s.tables now id := by
  unfold updateStep at h
  split at h
  · exact ⟨_,‹_›,by rw [← Option.some.inj h]⟩
  · cases h

theorem tables_of_sendStep {i : ι} {s s' : State ι} (h : sendStep i s = some s') :
    s'.tables = s.tables := by
  unfold sendStep at h
  split at h
  · split_ifs at h <;> cases h <;> rfl
  · cases h

theorem tracks_step {t : CatalogTables} {a : Action ι} {x y : State ι × List Event}
    (hx : Tracks t x.2 x.1.tables) (h : withHistory step record a x = some y) :
    Tracks t y.2 y.1.tables := by
  obtain ⟨s,events⟩ := x
  obtain ⟨s',events'⟩ := y
  obtain ⟨hstep,hrecord⟩ := withHistory_eq_some.mp h
  simp only at hstep hrecord hx ⊢
  subst hrecord
  cases a with
  | register now req fails =>
    obtain rfl := Option.some.inj hstep
    cases fails with
    | true => exact hx
    | false => exact hx.concat (happens_register s.tables now req)
  | markDead id fails =>
    obtain rfl := Option.some.inj hstep
    cases fails with
    | true => exact hx
    | false => exact hx.concat (happens_markCoordinatorDead s.tables id)
  | update i now fails =>
    obtain ⟨id,htask,htables⟩ := updateStep_eq_some hstep
    rw [htables]
    cases fails with
    | true => exact hx
    | false =>
      simp only [record,htask]
      exact hx.concat (happens_heartbeat s.tables now id)
  | send i =>
    rw [tables_of_sendStep hstep]
    exact hx
  | take i | drop i =>
    obtain rfl := Option.some.inj hstep
    exact hx
  | beat i id | stop i =>
    obtain ⟨-,hsome⟩ := Option.ite_none_right_eq_some.mp hstep
    obtain rfl := Option.some.inj hsome
    exact hx

/-- The answers of a run are true exactly when each is about a coordinator that is known, and was
not marked dead by the last call about it. -/
theorem truthful_iff (t : CatalogTables) (as : List (Action ι)) :
    Truthful t as ↔ AnswersKnown t as := by
  have hrecorded : Truthful t as ↔ Meets (withHistory step record) (fun a x => ∀ s' c,
      step a x.1 = some s' → Answers a x.1 s' c → s'.tables.living c = true) as
      (State.initial t,[]) := meets_withHistory.symm
  rw [hrecorded]
  apply meets_congr fun a x y (hx : Tracks t x.2 x.1.tables) h => tracks_step hx h
  · intro a x hx
    refine forall_congr' fun s' => forall_congr' fun c => ?_
    refine imp_congr_right fun hstep => imp_congr_right fun ha => ?_
    obtain ⟨i,rfl,-⟩ := ha
    rw [tables_of_sendStep hstep,living_iff_aliveFlag]
    exact hx.alive c
  · exact tracks_start t

/-- A beat of a coordinator that the tables do not know is answered with `alive`. -/
theorem unknown_told_alive : ¬ ∀ (t : CatalogTables) (as : List (Action Unit)), Truthful t as := by
  intro h
  have hanswered := (h .empty [.beat () "c1",.update () "now" false,.send ()]).2 _ rfl
  have hlast := (hanswered.2 _ rfl).1 _ "c1" rfl ⟨(),rfl,rfl,rfl⟩
  exact absurd hlast (by decide)

end Heartbeat
end Elan
