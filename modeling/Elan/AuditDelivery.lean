import Elan.AuditCatchUp

/-! Which events reach a client: those replayed from the log and those broadcast after the
subscription. Between the read of the log and the subscription the other calls go on. -/
namespace Elan
namespace AuditSvc

open TransitionSystem Table

section
variable {ι : Type} [DecidableEq ι] [Chrono] {req : StreamRequest}

/-- What happened: the log as it was read and what was replayed of it, the events broadcast
so far and those broadcast before the subscription, and those the subscription received. -/
structure History where
  read : AuditTable
  replayed : List AuditEventProto
  broadcast : List String
  announced : List String
  heard : List AuditEventProto

/-- Events that are in the log at the start have been broadcast before. -/
def History.start (t : AuditTable) : History := ⟨⟨[],by simp⟩,[],t.rows.map AuditRow.id,[],[]⟩

def record (req : StreamRequest) (a : Action ι) (s _ : State ι) (h : History) : History :=
  match a with
  | .publish i _ =>
    match s.publishers i with
    | .persisted e => { h with
        broadcast := h.broadcast ++ [e.eventId]
        heard := if s.handler.listens then h.heard ++ [e] else h.heard }
    | _ => h
  | .stream order =>
    match s.handler with
    | .received => { h with read := s.table, replayed := replayed req order s.table }
    | .replaying [] => { h with announced := h.broadcast }
    | _ => h
  | _ => h

def isMatching (req : StreamRequest) (r : AuditRow) : Bool :=
  isRequested req.eventTypes r.eventType && isSince (sinceText req) r

/-- Every logged event that the request asks for has reached the client once. -/
def ExactlyOnce (req : StreamRequest) (s : State ι) : Prop :=
  ∀ r ∈ s.table.rows, isMatching req r = true →
    (s.delivered.filter (·.eventId = r.id)).length = 1

def Settled (req : StreamRequest) (s : State ι) : Prop := ∀ a, step req a s = none

/-! ### What has been sent is somewhere on its way -/

/-- Replayed and broadcast events, in order, are what the client has got, what is in the
channel and what is still to be put there. -/
structure Flow (req : StreamRequest) (x : State ι × History) : Prop where
  room : x.1.queue.length ≤ channelCapacity
  silent : x.1.handler.listens = false → x.1.delivered = [] ∧ x.1.live = [] ∧ x.2.heard = []
  waiting : x.1.handler = .received → x.1.queue = []
  held : x.1.handler ≠ .returned → x.1.delivered = []
  replaying : ∀ remaining, x.1.handler = .replaying remaining →
    x.1.queue ++ remaining = x.2.replayed
  listening : x.1.handler.listens = true → x.2.replayed.length ≤ channelCapacity ∧
    x.1.delivered ++ x.1.queue ++ x.1.live.filter (isRequested req.eventTypes ·.eventType) =
      x.2.replayed ++ x.2.heard.filter (isRequested req.eventTypes ·.eventType)

omit [DecidableEq ι] [Chrono] in
theorem Flow.hear {s : State ι} {h : History} {e : AuditEventProto} {publishers : ι → Publisher}
    {broadcast : List String} (hx : Flow req (s,h)) : Flow req ({ s with
      live := if s.handler.listens then s.live ++ [e] else s.live
      publishers },{ h with
      broadcast
      heard := if s.handler.listens then h.heard ++ [e] else h.heard }) where
  room := hx.room
  silent hl := by
    simp only at hl
    simpa [hl] using hx.silent hl
  waiting := hx.waiting
  held := hx.held
  replaying := hx.replaying
  listening hl := by
    simp only at hl
    obtain ⟨hfits,hflow⟩ := hx.listening hl
    simp only [hl,if_true,List.filter_append,← List.append_assoc] at hflow ⊢
    exact ⟨hfits,congrArg (· ++ _) hflow⟩

omit [DecidableEq ι] [Chrono] in
/-- While the replay goes on nobody listens, and the channel holds what was taken from it. -/
theorem Flow.replay {s : State ι} {h h' : History} {remaining queue : List AuditEventProto}
    (hx : Flow req (s,h)) (hl : s.handler.listens = false) (hheard : h'.heard = h.heard)
    (hroom : queue.length ≤ channelCapacity) (hqueue : queue ++ remaining = h'.replayed) :
    Flow req ({ s with handler := .replaying remaining, queue },h') where
  room := hroom
  silent _ := by
    simp only [hheard]
    exact hx.silent hl
  waiting hr := by cases hr
  held _ := (hx.silent hl).1
  replaying rest hr := by rw [← Handler.replaying.inj hr]; exact hqueue
  listening hr := by cases hr

omit [DecidableEq ι] [Chrono] in
theorem Flow.subscribe {s : State ι} {h h' : History} (hx : Flow req (s,h))
    (hfrom : s.handler = .replaying []) (hreplayed : h'.replayed = h.replayed)
    (hheard : h'.heard = h.heard) : Flow req ({ s with handler := .subscribed },h') := by
  obtain ⟨hd,hlive,hnone⟩ := hx.silent (by simp only [hfrom]; rfl)
  have hqueue := hx.replaying [] hfrom
  have hroom := hx.room
  simp only [List.append_nil] at hd hlive hnone hqueue hroom
  refine ⟨hroom,by simp [Handler.listens],by simp,fun _ => hd,by simp,fun _ => ?_⟩
  simp [hreplayed,hheard,hd,hlive,hnone,← hqueue,hroom]

omit [DecidableEq ι] [Chrono] in
/-- Once there is a subscription events only move on: out of the broadcasts, and into and
out of the channel. -/
theorem Flow.move {s s' : State ι} {h : History} (hx : Flow req (s,h))
    (hl : s.handler.listens = true) (hl' : s'.handler.listens = true)
    (hroom : s'.queue.length ≤ channelCapacity) (hheld : s'.handler ≠ .returned → s'.delivered = [])
    (hsame : s'.delivered ++ s'.queue ++ s'.live.filter (isRequested req.eventTypes ·.eventType) =
      s.delivered ++ s.queue ++ s.live.filter (isRequested req.eventTypes ·.eventType)) :
    Flow req (s',h) where
  room := hroom
  silent hr := by simp [hl'] at hr
  waiting hr := by
    simp only at hr
    rw [hr] at hl'
    cases hl'
  held := hheld
  replaying remaining hr := by
    simp only at hr
    rw [hr] at hl'
    cases hl'
  listening _ := ⟨(hx.listening hl).1,hsame.trans (hx.listening hl).2⟩

theorem flow_step {a : Action ι} {x y : State ι × History} (hx : Flow req x)
    (h : withHistory (step req) (record req) a x = some y) : Flow req y := by
  obtain ⟨s,h₁⟩ := x
  obtain ⟨s',h₂⟩ := y
  obtain ⟨hstep,hrecord⟩ := withHistory_eq_some.mp h
  simp only at hstep hrecord
  subst hrecord
  cases step_effect hstep with
  | persisted hfrom | refused hfrom =>
    simp only [record,hfrom]
    exact ⟨hx.room,hx.silent,hx.waiting,hx.held,hx.replaying,hx.listening⟩
  | broadcast hfrom =>
    simp only [record,hfrom]
    exact hx.hear
  | read hfrom =>
    have hqueue : s.queue = [] := hx.waiting hfrom
    simp only [record,hfrom]
    exact hx.replay (by simp only [hfrom]; rfl) rfl hx.room (by simp [hqueue])
  | @sent _ e remaining hfrom hroom =>
    have hqueue : s.queue ++ e :: remaining = h₁.replayed := hx.replaying _ hfrom
    simp only [record,hfrom]
    refine hx.replay (by simp only [hfrom]; rfl) rfl ?_ ?_
    · rw [List.length_append]
      exact hroom
    · rw [← hqueue,List.append_assoc]
      rfl
  | subscribed hfrom =>
    simp only [record,hfrom]
    exact hx.subscribe hfrom rfl rfl
  | returned hfrom =>
    simp only [record,hfrom]
    exact hx.move (by simp only [hfrom]; rfl) rfl hx.room (by simp) rfl
  | forwarded hlistens hlive htype hroom =>
    refine hx.move hlistens hlistens ?_ hx.held ?_
    · rw [List.length_append]
      exact hroom
    · simp [hlive,htype]
  | skipped hlistens hlive htype =>
    exact hx.move hlistens hlistens hx.room hx.held (by simp [hlive,htype])
  | delivered hfrom hqueue =>
    have hl : s.handler.listens = true := by rw [hfrom]; rfl
    have hroom : s.queue.length ≤ channelCapacity := hx.room
    rw [hqueue,List.length_cons] at hroom
    exact hx.move hl hl (Nat.le_of_succ_le hroom) (by simp [hfrom]) (by simp [hqueue])

/-! ### Each logged event is broadcast once -/

/-- A logged identifier has been broadcast, or waits for it in one call, but not both. -/
structure Once (x : State ι × History) : Prop where
  logged : ∀ id ∈ x.1.table.rows.map AuditRow.id,
    id ∈ x.2.broadcast ∨ ∃ i e, x.1.publishers i = .persisted e ∧ e.eventId = id
  nodup : x.2.broadcast.Nodup
  known : ∀ id ∈ x.2.broadcast, id ∈ x.1.table.rows.map AuditRow.id
  fresh : ∀ i e, x.1.publishers i = .persisted e → e.eventId ∉ x.2.broadcast
  distinct : ∀ i j e f, x.1.publishers i = .persisted e → x.1.publishers j = .persisted f →
    e.eventId = f.eventId → i = j
  stored : ∀ e, (e ∈ x.2.heard ∨ ∃ i, x.1.publishers i = .persisted e) →
    ∃ r ∈ x.1.table.rows, r.id = e.eventId ∧ r.eventType = e.eventType
  heard : x.1.handler.listens = true → x.2.broadcast = x.2.announced ++ x.2.heard.map (·.eventId)
  deaf : x.1.handler.listens = false → x.2.heard = []

omit [Chrono] in
/-- A step of a call that is still to be persisted changes no call that is. -/
theorem update_of_received {publishers : ι → Publisher} {i j : ι} {e f : AuditEventProto}
    (p : Publisher) (hi : publishers i = .received e) (hj : publishers j = .persisted f) :
    Function.update publishers i p j = .persisted f := by
  have hne : j ≠ i := by
    intro hji
    rw [hji,hi] at hj
    cases hj
  rw [Function.update_of_ne hne,hj]

omit [Chrono] in
theorem Once.persist {s : State ι} {h : History} {i : ι} {now : String} {e : AuditEventProto}
    {table : AuditTable} (hx : Once (s,h)) (hfrom : s.publishers i = .received e)
    (hstore : s.table.storeAuditEvent (.ofEvent e now) = some table) :
    Once ({ s with table, publishers := Function.update s.publishers i (.persisted e) },h) := by
  obtain ⟨hlogged,hnodup,hknown,hfresh,hdistinct,hstored,hheard,hdeaf⟩ := hx
  simp only at hlogged hnodup hknown hfresh hdistinct hstored hheard hdeaf
  obtain ⟨hid,hrows⟩ := storeAuditEvent_eq_some hstore
  -- the identifier is new to the log, so no other call waits with it
  have hwaits : ∀ j f, Function.update s.publishers i (.persisted e) j = .persisted f →
      j = i ∧ f = e ∨ s.publishers j = .persisted f ∧ f.eventId ≠ e.eventId := by
    intro j f hf
    by_cases hj : j = i
    · rw [hj,Function.update_self] at hf
      exact .inl ⟨hj,(Publisher.persisted.inj hf).symm⟩
    · rw [Function.update_of_ne hj] at hf
      obtain ⟨r,hr,hrid,-⟩ := hstored f (.inr ⟨j,hf⟩)
      exact .inr ⟨hf,fun he => hid (List.mem_map.mpr ⟨r,hr,hrid.trans he⟩)⟩
  have hkeep : ∀ f : AuditEventProto,
      (∃ r ∈ s.table.rows, r.id = f.eventId ∧ r.eventType = f.eventType) →
        ∃ r ∈ table.rows, r.id = f.eventId ∧ r.eventType = f.eventType := by
    intro f ⟨r,hr,hh⟩
    exact ⟨r,hrows ▸ List.mem_append_left _ hr,hh⟩
  refine ⟨?_,hnodup,?_,?_,?_,?_,hheard,hdeaf⟩
  · intro id hmem
    simp only [hrows,List.map_append,List.mem_append,List.map_singleton,
      List.mem_singleton] at hmem
    rcases hmem with hmem | rfl
    · exact (hlogged id hmem).imp_right fun ⟨j,f,hf,hid⟩ =>
        ⟨j,f,update_of_received _ hfrom hf,hid⟩
    · exact .inr ⟨i,e,Function.update_self ..,rfl⟩
  · intro id hmem
    simp only [hrows]
    exact mem_map_concat _ (hknown id hmem)
  · intro j f hf
    rcases hwaits j f hf with ⟨-,rfl⟩ | ⟨hf,-⟩
    · exact fun hmem => hid (hknown _ hmem)
    · exact hfresh j f hf
  · intro j k f g hf hg hfg
    rcases hwaits j f hf with ⟨hj,rfl⟩ | ⟨hf,hfe⟩ <;>
      rcases hwaits k g hg with ⟨hk,rfl⟩ | ⟨hg,hge⟩
    · rw [hj,hk]
    · exact absurd hfg.symm hge
    · exact absurd hfg hfe
    · exact hdistinct j k f g hf hg hfg
  · intro f hf
    rcases hf with hf | ⟨j,hf⟩
    · exact hkeep f (hstored f (.inl hf))
    · rcases hwaits j f hf with ⟨-,rfl⟩ | ⟨hf,-⟩
      · exact ⟨.ofEvent f now,by simp [hrows],rfl,rfl⟩
      · exact hkeep f (hstored f (.inr ⟨j,hf⟩))

omit [Chrono] in
theorem Once.refuse {s : State ι} {h : History} {i : ι} {e : AuditEventProto} (hx : Once (s,h))
    (hfrom : s.publishers i = .received e) :
    Once ({ s with publishers := Function.update s.publishers i .failed },h) := by
  have hold : ∀ j f, Function.update s.publishers i .failed j = .persisted f →
      s.publishers j = .persisted f := fun j f hf => (publisher_of_update (by simp) hf).2
  refine ⟨?_,hx.nodup,hx.known,fun j f hf => hx.fresh j f (hold j f hf),
    fun j k f g hf hg => hx.distinct j k f g (hold j f hf) (hold k g hg),
    fun f hf => hx.stored f (hf.imp_right fun ⟨j,hf⟩ => ⟨j,hold j f hf⟩),hx.heard,hx.deaf⟩
  intro id hmem
  exact (hx.logged id hmem).imp_right fun ⟨j,f,hf,hid⟩ =>
    ⟨j,f,update_of_received _ hfrom hf,hid⟩

omit [Chrono] in
theorem Once.send {s : State ι} {h : History} {i : ι} {e : AuditEventProto}
    {live : List AuditEventProto} (hx : Once (s,h)) (hfrom : s.publishers i = .persisted e) :
    Once ({ s with live, publishers := Function.update s.publishers i .answered },{ h with
      broadcast := h.broadcast ++ [e.eventId]
      heard := if s.handler.listens then h.heard ++ [e] else h.heard }) := by
  obtain ⟨hlogged,hnodup,hknown,hfresh,hdistinct,hstored,hheard,hdeaf⟩ := hx
  simp only at hlogged hnodup hknown hfresh hdistinct hstored hheard hdeaf
  have hold : ∀ j f, Function.update s.publishers i .answered j = .persisted f →
      j ≠ i ∧ s.publishers j = .persisted f := fun j f hf => publisher_of_update (by simp) hf
  refine ⟨?_,?_,?_,?_,fun j k f g hf hg => hdistinct j k f g (hold j f hf).2 (hold k g hg).2,
    ?_,?_,?_⟩
  · intro id hmem
    rcases hlogged id hmem with hb | ⟨j,f,hf,hid⟩
    · exact .inl (List.mem_append_left _ hb)
    · by_cases hj : j = i
      · subst hj
        obtain rfl := Publisher.persisted.inj (hfrom.symm.trans hf)
        exact .inl (by simp [hid])
      · exact .inr ⟨j,f,(Function.update_of_ne hj _ _).trans hf,hid⟩
  · have hconcat := hnodup.concat (hfresh i e hfrom)
    rwa [List.concat_eq_append] at hconcat
  · intro id hmem
    rcases List.mem_append.mp hmem with hmem | hmem
    · exact hknown id hmem
    · obtain ⟨r,hr,hrid,-⟩ := hstored e (.inr ⟨i,hfrom⟩)
      exact List.mem_map.mpr ⟨r,hr,hrid.trans (List.mem_singleton.mp hmem).symm⟩
  · intro j f hf
    obtain ⟨hj,hf⟩ := hold j f hf
    simp only [List.mem_append,List.mem_singleton,not_or]
    exact ⟨hfresh j f hf,fun he => hj (hdistinct j i f e hf hfrom he)⟩
  · intro f hf
    rcases hf with hf | ⟨j,hf⟩
    · cases hl : s.handler.listens with
      | true =>
        simp only [hl,if_true,List.mem_append,List.mem_singleton] at hf
        rcases hf with hf | rfl
        · exact hstored f (.inl hf)
        · exact hstored f (.inr ⟨i,hfrom⟩)
      | false =>
        simp only [hl,Bool.false_eq_true,if_false] at hf
        exact hstored f (.inl hf)
    · exact hstored f (.inr ⟨j,(hold j f hf).2⟩)
  · intro hl
    simp only at hl
    simp [hl,hheard hl]
  · intro hl
    simp only at hl
    simp [hl,hdeaf hl]

omit [DecidableEq ι] [Chrono] in
/-- The steps of the subscriber leave the log and the calls that publish alone. -/
theorem Once.follow {s s' : State ι} {h h' : History} (hx : Once (s,h))
    (htable : s'.table = s.table) (hpublishers : s'.publishers = s.publishers)
    (hbroadcast : h'.broadcast = h.broadcast) (hheard : h'.heard = h.heard)
    (hlisten : s'.handler.listens = true →
      h.broadcast = h'.announced ++ h.heard.map (·.eventId))
    (hdeaf : s'.handler.listens = false → h.heard = []) : Once (s',h') := by
  constructor <;> simp only [htable,hpublishers,hbroadcast,hheard]
  exacts [hx.logged,hx.nodup,hx.known,hx.fresh,hx.distinct,hx.stored,hlisten,hdeaf]

theorem once_step {a : Action ι} {x y : State ι × History} (hx : Once x)
    (h : withHistory (step req) (record req) a x = some y) : Once y := by
  obtain ⟨s,h₁⟩ := x
  obtain ⟨s',h₂⟩ := y
  obtain ⟨hstep,hrecord⟩ := withHistory_eq_some.mp h
  simp only at hstep hrecord
  subst hrecord
  cases step_effect hstep with
  | persisted hfrom hstore =>
    simp only [record,hfrom]
    exact hx.persist hfrom hstore
  | refused hfrom =>
    simp only [record,hfrom]
    exact hx.refuse hfrom
  | broadcast hfrom =>
    simp only [record,hfrom]
    exact hx.send hfrom
  | read hfrom | sent hfrom hroom =>
    have hnone : h₁.heard = [] := hx.deaf (by rw [hfrom]; rfl)
    simp only [record,hfrom]
    exact hx.follow rfl rfl rfl rfl (by simp [Handler.listens]) fun _ => hnone
  | subscribed hfrom =>
    have hnone : h₁.heard = [] := hx.deaf (by rw [hfrom]; rfl)
    simp only [record,hfrom]
    exact hx.follow rfl rfl rfl rfl (by simp [hnone]) fun _ => hnone
  | returned hfrom =>
    simp only [record,hfrom]
    exact hx.follow rfl rfl rfl rfl (fun _ => hx.heard (by rw [hfrom]; rfl))
      (by simp [Handler.listens])
  | forwarded | skipped | delivered => exact hx.follow rfl rfl rfl rfl hx.heard hx.deaf

/-! ### The log only grows after the read -/

structure Read (req : StreamRequest) (x : State ι × History) : Prop where
  grown : x.1.handler ≠ .received → x.2.read.rows <+: x.1.table.rows
  replayed : x.1.handler ≠ .received → ∃ order, x.2.replayed = replayed req order x.2.read

theorem read_step_inv {a : Action ι} {x y : State ι × History} (hx : Read req x)
    (h : withHistory (step req) (record req) a x = some y) : Read req y := by
  obtain ⟨s,h₁⟩ := x
  obtain ⟨s',h₂⟩ := y
  obtain ⟨hstep,hrecord⟩ := withHistory_eq_some.mp h
  simp only at hstep hrecord
  subst hrecord
  obtain ⟨hgrown,hreplayed⟩ := hx
  simp only at hgrown hreplayed
  cases step_effect hstep with
  | persisted hfrom hstore =>
    simp only [record,hfrom]
    refine ⟨fun hr => (hgrown hr).trans ?_,hreplayed⟩
    rw [(storeAuditEvent_eq_some hstore).2]
    exact List.prefix_append _ _
  | refused hfrom | broadcast hfrom =>
    simp only [record,hfrom]
    exact ⟨hgrown,hreplayed⟩
  | @read order hfrom =>
    simp only [record,hfrom]
    exact ⟨fun _ => List.prefix_refl _,fun _ => ⟨order,rfl⟩⟩
  | sent hfrom | subscribed hfrom | returned hfrom =>
    have hne : s.handler ≠ .received := by rw [hfrom]; simp
    simp only [record,hfrom]
    exact ⟨fun _ => hgrown hne,fun _ => hreplayed hne⟩
  | forwarded | skipped | delivered => exact ⟨hgrown,hreplayed⟩

/-! ### Runs that have come to an end -/

theorem invariants_of_run {t : AuditTable} {events : ι → AuditEventProto}
    {as : List (Action ι)} {x : State ι × History}
    (hrun : run (withHistory (step req) (record req)) as
      (State.initial t events,History.start t) = some x) : Flow req x ∧ Once x ∧ Read req x := by
  have hstep : ∀ a (x y : State ι × History), Flow req x ∧ Once x ∧ Read req x → True →
      withHistory (step req) (record req) a x = some y → Flow req y ∧ Once y ∧ Read req y :=
    fun a x y ⟨hf,ho,hr⟩ _ h => ⟨flow_step hf h,once_step ho h,read_step_inv hr h⟩
  refine run_invariant hstep ⟨?_,?_,?_⟩ (meets_of_forall (fun _ _ _ => trivial) _) hrun
  · exact ⟨by simp [State.initial],fun _ => ⟨rfl,rfl,rfl⟩,fun _ => rfl,fun _ => rfl,
      by simp [State.initial],by simp [State.initial,Handler.listens]⟩
  · exact ⟨fun id hid => .inl hid,t.ids,fun id hid => hid,by simp [State.initial],
      by simp [State.initial],by simp [State.initial,History.start],
      by simp [State.initial,Handler.listens],fun _ => rfl⟩
  · exact ⟨by simp [State.initial],by simp [State.initial]⟩

theorem Settled.publishers {s : State ι} (h : Settled req s) (i : ι) (e : AuditEventProto) :
    s.publishers i ≠ .persisted e := by
  intro hp
  have hnone := h (.publish i "")
  simp [step,publishStep,hp] at hnone

theorem Settled.handler {s : State ι} (h : Settled req s) :
    s.handler = .returned ∨ Blocked s := by
  have hnone := h (.stream auditStorageOrder)
  cases hh : s.handler with
  | received => simp [step,streamStep,hh] at hnone
  | replaying remaining =>
    cases remaining with
    | nil => simp [step,streamStep,hh] at hnone
    | cons e remaining =>
      simp only [step,streamStep,hh,ite_eq_right_iff,reduceCtorEq,imp_false,not_lt] at hnone
      exact .inr ⟨e,remaining,hh,hnone⟩
  | subscribed => simp [step,streamStep,hh] at hnone
  | returned => exact .inl rfl

theorem Settled.drained {s : State ι} (h : Settled req s) (hreturned : s.handler = .returned) :
    s.queue = [] ∧ s.live = [] := by
  have hqueue : s.queue = [] := by
    have hnone := h .deliver
    cases hq : s.queue with
    | nil => rfl
    | cons e queue => simp [step,deliverStep,hreturned,hq] at hnone
  refine ⟨hqueue,?_⟩
  have hnone := h .forward
  cases hl : s.live with
  | nil => rfl
  | cons e live =>
    cases htype : isRequested req.eventTypes e.eventType <;>
      simp [step,forwardStep,hreturned,Handler.listens,hl,htype,hqueue,channelCapacity] at hnone

/-! ### Counting deliveries -/

theorem replayed_perm (req : StreamRequest) (order : AuditOrder) {t : AuditTable}
    (h : t.rows.length ≤ catchUpLimit) :
    (replayed req order t).Perm ((t.rows.filter (isMatching req)).map AuditRow.toEvent) :=
  (getRecentAuditEvents_perm h order (sinceText req) req.eventTypes).map _

omit [DecidableEq ι] in
/-- A matching row is replayed once if it was read, and else not at all. -/
theorem length_replayed {order : AuditOrder} {t read : AuditTable} (hread : read.rows <+: t.rows)
    (hcap : read.rows.length ≤ catchUpLimit) {r : AuditRow} (hr : r ∈ t.rows)
    (hmatch : isMatching req r = true) :
    ((replayed req order read).filter (·.eventId = r.id)).length =
      if r ∈ read.rows then 1 else 0 := by
  have hperm := (replayed_perm req order hcap).filter (·.eventId = r.id)
  rw [hperm.length_eq,List.filter_map,List.length_map]
  have hcomp : (fun e : AuditEventProto => decide (e.eventId = r.id)) ∘ AuditRow.toEvent =
      fun q => decide (q.id = r.id) := rfl
  rw [hcomp,List.filter_comm]
  split_ifs with hmem
  · rw [filter_key_eq AuditRow.id read.ids hmem]
    simp [hmatch]
  · have hnone : read.rows.filter (·.id = r.id) = [] := by
      refine List.filter_eq_nil_iff.mpr fun q hq hid => hmem ?_
      have heq := List.inj_on_of_nodup_map t.ids (hread.subset hq) hr (by simpa using hid)
      exact heq ▸ hq
    rw [hnone]
    rfl

/-- A matching row is sent on once if its broadcast was heard, and else not at all. -/
theorem length_heard {heard : List AuditEventProto} (hnodup : (heard.map (·.eventId)).Nodup)
    {r : AuditRow} (htypes : ∀ e ∈ heard, e.eventId = r.id → e.eventType = r.eventType)
    (hmatch : isMatching req r = true) :
    ((heard.filter (isRequested req.eventTypes ·.eventType)).filter (·.eventId = r.id)).length =
      if r.id ∈ heard.map (·.eventId) then 1 else 0 := by
  rw [List.filter_comm]
  split_ifs with hmem
  · obtain ⟨e,he,hid⟩ := List.mem_map.mp hmem
    have htype := htypes e he hid
    simp only [← hid]
    rw [filter_key_eq (fun e : AuditEventProto => e.eventId) hnodup he]
    simp only [isMatching,Bool.and_eq_true] at hmatch
    simp [htype,hmatch.1]
  · have hnone : heard.filter (·.eventId = r.id) = [] := by
      refine List.filter_eq_nil_iff.mpr fun e he hid => hmem ?_
      exact List.mem_map.mpr ⟨e,he,by simpa using hid⟩
    rw [hnone]
    rfl

/-- A matching row is delivered once for the read that found it and once for the broadcast
that came after the subscription. -/
theorem length_delivered {s : State ι} {h : History} (hflow : Flow req (s,h)) (honce : Once (s,h))
    (hread : Read req (s,h)) (hsettled : Settled req s) (hreturned : s.handler = .returned)
    (hcap : h.read.rows.length ≤ catchUpLimit) {r : AuditRow} (hr : r ∈ s.table.rows)
    (hmatch : isMatching req r = true) :
    (s.delivered.filter (·.eventId = r.id)).length =
      (if r ∈ h.read.rows then 1 else 0) + if r.id ∈ h.announced then 0 else 1 := by
  have hl : s.handler.listens = true := by rw [hreturned]; rfl
  have hne : s.handler ≠ .received := by rw [hreturned]; simp
  obtain ⟨hqueue,hlive⟩ := hsettled.drained hreturned
  obtain ⟨-,hsent⟩ := hflow.listening hl
  simp only [hqueue,hlive,List.filter_nil,List.append_nil] at hsent
  obtain ⟨order,hreplayed⟩ := hread.replayed hne
  simp only at hreplayed
  have hbroadcast := honce.heard hl
  simp only at hbroadcast
  have hnodup := honce.nodup
  simp only [hbroadcast] at hnodup
  obtain ⟨-,hheard,hdisjoint⟩ := List.nodup_append.mp hnodup
  have htypes : ∀ e ∈ h.heard, e.eventId = r.id → e.eventType = r.eventType := by
    intro e he hid
    obtain ⟨q,hq,hqid,hqtype⟩ := honce.stored e (.inl he)
    rw [← List.inj_on_of_nodup_map s.table.ids hq hr (hqid.trans hid),hqtype]
  -- every broadcast is over, so what was not announced was heard
  have hwhen : r.id ∈ h.heard.map (·.eventId) ↔ r.id ∉ h.announced := by
    constructor
    · exact fun hmem hann => hdisjoint _ hann _ hmem rfl
    · intro hann
      rcases honce.logged r.id (List.mem_map_of_mem hr) with hb | ⟨i,e,hp,-⟩
      · simp only [hbroadcast] at hb
        exact (List.mem_append.mp hb).resolve_left hann
      · exact absurd hp (hsettled.publishers i e)
  rw [hsent,List.filter_append,List.length_append,hreplayed,
    length_replayed (hread.grown hne) hcap hr hmatch,length_heard hheard htypes hmatch]
  simp only [hwhen,ite_not]

/-- Where the log is read whole, each matching event is delivered once exactly when those in it fit
the channel and none is persisted on one side of the gap between the read and the subscription and
broadcast on the other. -/
theorem exactlyOnce_iff {t : AuditTable} {events : ι → AuditEventProto} {as : List (Action ι)}
    {s : State ι} {h : History}
    (hrun : run (withHistory (step req) (record req)) as
      (State.initial t events,History.start t) = some (s,h))
    (hsettled : Settled req s) (hcap : h.read.rows.length ≤ catchUpLimit) :
    ExactlyOnce req s ↔
      (h.read.rows.filter (isMatching req)).length ≤ channelCapacity ∧
        ∀ r ∈ s.table.rows, isMatching req r = true →
          (r ∈ h.read.rows ↔ r.id ∈ h.announced) := by
  obtain ⟨hflow,honce,hread⟩ := invariants_of_run hrun
  have hne : s.handler ≠ .received := by
    rcases hsettled.handler with hh | ⟨e,remaining,hh,-⟩ <;> rw [hh] <;> simp
  obtain ⟨order,hreplayed⟩ := hread.replayed hne
  simp only at hreplayed
  have hgrown := hread.grown hne
  simp only at hgrown
  have hperm := replayed_perm req order hcap
  rw [← hreplayed] at hperm
  have hlen : h.replayed.length = (h.read.rows.filter (isMatching req)).length :=
    hperm.length_eq.trans (List.length_map _)
  rcases hsettled.handler with hreturned | ⟨e,remaining,hh,hfull⟩
  · obtain ⟨hfits,-⟩ := hflow.listening (by rw [hreturned]; rfl)
    simp only [hlen] at hfits
    rw [and_iff_right hfits]
    refine forall₃_congr fun r hr hmatch => ?_
    rw [length_delivered hflow honce hread hsettled hreturned hcap hr hmatch]
    by_cases hmem : r ∈ h.read.rows <;> by_cases hann : r.id ∈ h.announced <;> simp [hmem,hann]
  · -- blocked: more was read than the channel holds, and nothing is delivered
    have hflowed := hflow.replaying _ hh
    simp only at hflowed
    have hlong : channelCapacity < h.replayed.length := by
      rw [← hflowed,List.length_append,List.length_cons]
      omega
    refine iff_of_false (fun hall => ?_) (fun hcond => ?_)
    · have hmem : e ∈ h.replayed := by simp [← hflowed]
      obtain ⟨r,hr,-⟩ := List.mem_map.mp (hperm.mem_iff.mp hmem)
      obtain ⟨hr,hmatch⟩ := List.mem_filter.mp hr
      have hone := hall r (hgrown.subset hr) hmatch
      have hnone := hflow.held (by simp only [hh]; simp)
      simp only at hnone
      simp [hnone] at hone
    · rw [hlen] at hlong
      exact absurd hcond.1 (not_le.mpr hlong)

end

/-! ### Two orders of the same steps -/

section
/-- No time is converted below. -/
local instance noTimes : Chrono := ⟨fun _ => none⟩

def everything : StreamRequest := ⟨none,[]⟩

def loginOf (user : Bool) : AuditEventProto :=
  ⟨if user then "a1" else "b2","LOGIN",none,"elan-query",if user then "alice" else "bob","",
    "\x7b\x7d"⟩

def atRest (s : State Bool) : Bool :=
  s.publishers true = .answered && s.publishers false = .answered && s.handler = .returned &&
    s.queue = [] && s.live = []

theorem settled_of_atRest {s : State Bool} (h : atRest s = true) : Settled everything s := by
  simp only [atRest,Bool.and_eq_true,decide_eq_true_eq] at h
  obtain ⟨⟨⟨⟨htrue,hfalse⟩,hhandler⟩,hqueue⟩,hlive⟩ := h
  rintro ((_ | _) | _ | _ | _)
  · simp [step,publishStep,hfalse]
  · simp [step,publishStep,htrue]
  · simp [step,streamStep,hhandler]
  · simp [step,forwardStep,hlive]
  · simp [step,deliverStep,hqueue]

def publish (user : Bool) : Action Bool := .publish user "2024-01-01T00:00:00+00:00"

def proceed : Action Bool := .stream auditStorageOrder

/-- One event is replayed; the other is persisted in the gap and broadcast after it. -/
theorem exactlyOnce_across_gap : ∃ s h, run (withHistory (step everything) (record everything))
    [publish true,publish true,proceed,publish false,proceed,proceed,publish false,.forward,
      proceed,.deliver,.deliver] (State.initial ⟨[],by simp⟩ loginOf,History.start ⟨[],by simp⟩) =
      some (s,h) ∧ ExactlyOnce everything s := by
  have hrun : (run (withHistory (step everything) (record everything))
      [publish true,publish true,proceed,publish false,proceed,proceed,publish false,.forward,
        proceed,.deliver,.deliver]
      (State.initial ⟨[],by simp⟩ loginOf,History.start ⟨[],by simp⟩)).any (fun x =>
        atRest x.1 && decide (x.2.read.rows.length ≤ catchUpLimit) &&
          decide ((x.2.read.rows.filter (isMatching everything)).length ≤ channelCapacity) &&
          decide (∀ r ∈ x.1.table.rows, isMatching everything r = true →
            (r ∈ x.2.read.rows ↔ r.id ∈ x.2.announced))) = true := by
    decide
  obtain ⟨⟨s,h⟩,hs,hcheck⟩ := Option.any_eq_true _ _ |>.mp hrun
  simp only [Bool.and_eq_true,decide_eq_true_eq] at hcheck
  obtain ⟨⟨⟨hrest,hcap⟩,hfits⟩,hgap⟩ := hcheck
  exact ⟨s,h,hs,(exactlyOnce_iff hs (settled_of_atRest hrest) hcap).mpr ⟨hfits,hgap⟩⟩

/-- An event persisted and broadcast between the read and the subscription is never delivered. -/
theorem event_lost_in_gap :
    ¬ ∀ (req : StreamRequest) (t : AuditTable) (events : Bool → AuditEventProto)
      (as : List (Action Bool)) (s : State Bool),
      run (step req) as (State.initial t events) = some s → Settled req s →
      s.table.rows.length ≤ catchUpLimit → ExactlyOnce req s := by
  intro hall
  have hrun : (run (step everything) [publish true,publish true,proceed,publish false,publish false,
      proceed,proceed,proceed,.deliver] (State.initial ⟨[],by simp⟩ loginOf)).any (fun s =>
        atRest s && decide (s.table.rows.length ≤ catchUpLimit) &&
          s.table.rows.any fun r => isMatching everything r &&
            s.delivered.filter (·.eventId = r.id) = []) = true := by
    decide
  obtain ⟨s,hs,hcheck⟩ := Option.any_eq_true _ _ |>.mp hrun
  simp only [Bool.and_eq_true,decide_eq_true_eq,List.any_eq_true] at hcheck
  obtain ⟨⟨hrest,hcap⟩,r,hr,hmatch,hnone⟩ := hcheck
  have hone := hall everything _ _ _ s hs (settled_of_atRest hrest) hcap r hr hmatch
  rw [hnone] at hone
  cases hone

end
end AuditSvc
end Elan
