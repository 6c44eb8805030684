import Elan.AuditDelivery

/-! The order in which events reach a client: the log is replayed as the query returns it, and
the broadcasts follow in the order they were sent. -/
namespace Elan
namespace AuditSvc

open TransitionSystem StableSort

/-- `ORDER BY occurred_at`, oldest first. -/
def ByAge (a b : AuditRow) : Prop := a.occurredAt ≤ b.occurredAt

instance : DecidableRel ByAge := fun a b =>
  inferInstanceAs (Decidable (a.occurredAt ≤ b.occurredAt))

instance : Std.Total ByAge := ⟨fun a b => le_total a.occurredAt b.occurredAt⟩

instance : IsTrans AuditRow ByAge := ⟨fun _ _ _ hab hbc => le_trans hab hbc⟩

/-- The identifiers of a log in the order its events were published. -/
def chronological (t : AuditTable) : List String :=
  (t.rows.insertionSort ByAge).map AuditRow.id

/-- The stored events have been published, in the order of their times. -/
def History.ofLog (t : AuditTable) : History :=
  { History.start t with broadcast := chronological t }

/-- The rows a request is caught up on: what it asks for, among the most recent rows since its
bound. -/
def caughtUp [Chrono] (req : StreamRequest) (t : AuditTable) : List AuditRow :=
  let since := t.rows.filter (isSince (sinceText req))
  t.rows.filter fun r => isMatching req r &&
    decide (since.countP (fun q => decide (r.occurredAt < q.occurredAt)) < catchUpLimit)

section
variable {ι : Type} [DecidableEq ι] [Chrono] {req : StreamRequest}

omit [DecidableEq ι] [Chrono] in
/-- The publications come after the stored log, and none is missed: a call persists its event
once the log has been read, and broadcasts it once there is a subscription. -/
def Later (a : Action ι) (s : State ι) : Prop :=
  match a with
  | .publish i _ =>
    match s.publishers i with
    | .received _ => s.handler ≠ .received
    | .persisted _ => s.handler.listens = true
    | _ => True
  | _ => True

/-- What the client has got is in the order of publication, whatever happens. -/
def ArrivesInOrder (req : StreamRequest) (t : AuditTable) (events : ι → AuditEventProto) : Prop :=
  ∀ as s h, Meets (step req) Later as (State.initial t events) →
    run (withHistory (step req) (record req)) as (State.initial t events,History.ofLog t) =
      some (s,h) →
    (s.delivered.map AuditEventProto.eventId).Sublist h.broadcast

/-- The log is read as it was stored, and what is published is heard. -/
structure Sequenced (req : StreamRequest) (t : AuditTable) (x : State ι × History) : Prop where
  flow : Flow req x
  unread : x.1.handler = .received → x.1.table = t
  replay : x.1.handler ≠ .received → ∃ order, x.2.replayed = replayed req order t
  published : x.2.broadcast = chronological t ++ x.2.heard.map AuditEventProto.eventId

omit [DecidableEq ι] in
theorem sequenced_start (t : AuditTable) (events : ι → AuditEventProto) :
    Sequenced req t (State.initial t events,History.ofLog t) where
  flow := ⟨by simp [State.initial],fun _ => ⟨rfl,rfl,rfl⟩,fun _ => rfl,fun _ => rfl,
    by simp [State.initial],by simp [State.initial,Handler.listens]⟩
  unread _ := rfl
  replay hh := absurd rfl hh
  published := by simp [History.ofLog,History.start]

theorem sequenced_step {t : AuditTable} {a : Action ι} {x y : State ι × History}
    (hx : Sequenced req t x) (hok : Later a x.1)
    (h : withHistory (step req) (record req) a x = some y) : Sequenced req t y := by
  have hflow := flow_step hx.flow h
  obtain ⟨s,h₁⟩ := x
  obtain ⟨s',h₂⟩ := y
  obtain ⟨hstep,hrecord⟩ := withHistory_eq_some.mp h
  simp only at hstep hrecord hok
  subst hrecord
  obtain ⟨-,hunread,hreplayed,hpublished⟩ := hx
  simp only at hunread hreplayed hpublished
  cases step_effect hstep with
  | persisted hfrom hstore =>
    simp only [Later,hfrom] at hok
    simp only [record,hfrom] at hflow ⊢
    exact ⟨hflow,fun hh => absurd hh hok,hreplayed,hpublished⟩
  | refused hfrom =>
    simp only [record,hfrom] at hflow ⊢
    exact ⟨hflow,hunread,hreplayed,hpublished⟩
  | broadcast hfrom =>
    simp only [Later,hfrom] at hok
    simp only [record,hfrom] at hflow ⊢
    refine ⟨hflow,hunread,hreplayed,?_⟩
    simp [hok,hpublished]
  | @read order hfrom =>
    simp only [record,hfrom] at hflow ⊢
    refine ⟨hflow,by simp,fun _ => ⟨order,?_⟩,hpublished⟩
    simp only [hunread hfrom]
  | sent hfrom | subscribed hfrom | returned hfrom =>
    have hne : s.handler ≠ .received := by simp [hfrom]
    simp only [record,hfrom] at hflow ⊢
    exact ⟨hflow,by simp,fun _ => hreplayed hne,hpublished⟩
  | forwarded | skipped | delivered => exact ⟨hflow,hunread,hreplayed,hpublished⟩

theorem sequenced_of_run {t : AuditTable} {events : ι → AuditEventProto} {as : List (Action ι)}
    {x : State ι × History} (hlater : Meets (step req) Later as (State.initial t events))
    (hrun : run (withHistory (step req) (record req)) as
      (State.initial t events,History.ofLog t) = some x) : Sequenced req t x :=
  run_invariant (fun _ _ _ hx hok h => sequenced_step hx hok h) (sequenced_start t events)
    (meets_withHistory.mpr hlater) hrun

/-! ### Few events are replayed in order -/

omit [DecidableEq ι] in
theorem mem_chronological {t : AuditTable} {order : AuditOrder} {e : AuditEventProto}
    (he : e ∈ replayed req order t) : e.eventId ∈ chronological t := by
  obtain ⟨r,hr,rfl⟩ := List.mem_map.mp he
  have hrecent := List.mem_of_mem_take (List.mem_of_mem_filter hr)
  have hrow := List.mem_of_mem_filter ((order.answers _).mem_iff.mp hrecent)
  exact List.mem_map.mpr ⟨r,(List.mem_insertionSort ByAge).mpr hrow,rfl⟩

omit [DecidableEq ι] in
theorem sublist_chronological {t : AuditTable} {order : AuditOrder}
    (hone : (replayed req order t).length ≤ 1) :
    ((replayed req order t).map AuditEventProto.eventId).Sublist (chronological t) := by
  cases hevents : replayed req order t with
  | nil => exact List.nil_sublist _
  | cons e rest =>
    have hrest : rest = [] := by
      rw [hevents,List.length_cons] at hone
      exact List.eq_nil_of_length_eq_zero (by omega)
    have hmem : e.eventId ∈ chronological t := mem_chronological (hevents ▸ List.mem_cons_self)
    simpa [hrest] using hmem

omit [DecidableEq ι] in
theorem Sequenced.inOrder {t : AuditTable} {s : State ι} {h : History}
    (hx : Sequenced req t (s,h)) (hfew : ∀ order, (replayed req order t).length ≤ 1 ∨
      channelCapacity < (replayed req order t).length) :
    (s.delivered.map AuditEventProto.eventId).Sublist h.broadcast := by
  cases hl : s.handler.listens with
  | false =>
    obtain ⟨hnone,-⟩ := hx.flow.silent hl
    simp only at hnone
    simp [hnone]
  | true =>
    have hne : s.handler ≠ .received := by
      intro hh
      rw [hh] at hl
      cases hl
    obtain ⟨order,hreplayed⟩ := hx.replay hne
    obtain ⟨hfits,hflow⟩ := hx.flow.listening hl
    have hpublished := hx.published
    simp only at hreplayed hfits hflow hpublished
    have hone : (replayed req order t).length ≤ 1 := by
      rcases hfew order with hone | hlong
      · exact hone
      · rw [hreplayed] at hfits
        omega
    have hlog := sublist_chronological hone
    have hgot : s.delivered <+: h.replayed ++
        h.heard.filter (isRequested req.eventTypes ·.eventType) := by
      rw [← hflow,List.append_assoc]
      exact List.prefix_append _ _
    have hids := (hgot.sublist).map AuditEventProto.eventId
    rw [List.map_append,hreplayed] at hids
    rw [hpublished]
    exact hids.trans (hlog.append (List.filter_sublist.map _))

/-! ### Two replayed events are not -/

/-- Without publications the record keeps the order of the log. -/
theorem broadcast_of_run {as : List (Action ι)} {x y : State ι × History}
    (has : ∀ a ∈ as, ∀ i now, a ≠ .publish i now)
    (hrun : run (withHistory (step req) (record req)) as x = some y) :
    y.2.broadcast = x.2.broadcast := by
  have hstep : ∀ a (u v : State ι × History), u.2.broadcast = x.2.broadcast →
      (∀ i now, a ≠ .publish i now) →
      withHistory (step req) (record req) a u = some v → v.2.broadcast = x.2.broadcast := by
    intro a u v hu ha h
    obtain ⟨-,hrecord⟩ := withHistory_eq_some.mp h
    rw [hrecord,← hu]
    cases a with
    | publish i now => exact absurd rfl (ha i now)
    | stream order =>
      rcases hh : u.1.handler with _ | ⟨_ | _⟩ | _ | _ <;> simp [record,hh]
    | forward | deliver => rfl
  exact run_invariant hstep rfl (meets_of_forall (fun a ha _ => has a ha) x) hrun

theorem exists_delivery {t : AuditTable} (events : ι → AuditEventProto) {order : AuditOrder}
    {e f : AuditEventProto} {rest : List AuditEventProto}
    (hevents : replayed req order t = e :: f :: rest)
    (hfits : (replayed req order t).length ≤ channelCapacity) :
    ∃ as s h, Meets (step req) Later as (State.initial t events) ∧
      run (withHistory (step req) (record req)) as (State.initial t events,History.ofLog t) =
        some (s,h) ∧ s.delivered = [e,f] ∧ h.broadcast = chronological t := by
  let replay : List (Action ι) := List.replicate (replayed req order t).length (.stream order)
  let finish : List (Action ι) := [.stream order,.stream order,.deliver,.deliver]
  have hkind : ∀ a ∈ .stream order :: (replay ++ finish), a = .stream order ∨ a = .deliver := by
    intro a ha
    simp only [replay,finish,List.mem_cons,List.mem_append,List.mem_replicate,
      List.not_mem_nil,or_false] at ha
    tauto
  have hroom : (afterRead req order t events).queue.length + (replayed req order t).length ≤
      channelCapacity := by
    simpa [afterRead,State.initial] using hfits
  have hreplay : run (step req) replay (afterRead req order t events) =
      some { afterRead req order t events with
        handler := .replaying []
        queue := (afterRead req order t events).queue ++ replayed req order t } :=
    run_replay req order (by rw [List.append_nil]; rfl) hroom
  have hrun : run (step req) (.stream order :: (replay ++ finish)) (State.initial t events) =
      some { afterRead req order t events with
        handler := .returned, queue := rest, delivered := [e,f] } := by
    rw [run_after_read,run_append]
    refine ⟨_,hreplay,?_⟩
    rw [hevents]
    rfl
  obtain ⟨h,hh⟩ := exists_run_withHistory (record req) (History.ofLog t) hrun
  refine ⟨_,_,h,?_,hh,rfl,broadcast_of_run ?_ hh⟩
  · apply meets_of_forall
    intro a ha s
    rcases hkind a ha with rfl | rfl <;> trivial
  · intro a ha i now
    rcases hkind a ha with rfl | rfl <;> simp

omit [DecidableEq ι] in
/-- The replay begins with the most recent event. -/
theorem not_sublist_of_two {t : AuditTable} (hdistinct : (t.rows.map AuditRow.occurredAt).Nodup)
    {order : AuditOrder} {e f : AuditEventProto} {rest : List AuditEventProto}
    (hevents : replayed req order t = e :: f :: rest) :
    ¬ [e.eventId,f.eventId].Sublist (chronological t) := by
  intro hsub
  obtain ⟨r,tail,hrows,rfl,htail⟩ := List.map_eq_cons_iff.mp hevents
  obtain ⟨q,rest',rfl,rfl,-⟩ := List.map_eq_cons_iff.mp htail
  have hanswer := order.answers (t.rows.filter (isSince (sinceText req)))
  have hfound : (r :: q :: rest').Sublist
      (order.sorted (t.rows.filter (isSince (sinceText req)))) :=
    hrows ▸ List.filter_sublist.trans (List.take_sublist _ _)
  have hmem : ∀ a ∈ r :: q :: rest', a ∈ t.rows := fun a ha =>
    List.mem_of_mem_filter (hanswer.mem_iff.mp (hfound.subset ha))
  have hr : r ∈ t.rows := hmem r (by simp)
  have hq : q ∈ t.rows := hmem q (by simp)
  have hne : r ≠ q := by
    have hnodup : (order.sorted (t.rows.filter (isSince (sinceText req)))).Nodup :=
      hanswer.1.nodup_iff.mpr (t.ids.of_map.filter _)
    have htwo := (List.nodup_cons.mp (hnodup.sublist hfound)).1
    simp only [List.mem_cons,not_or] at htwo
    exact htwo.1
  have hrecent : q.occurredAt ≤ r.occurredAt :=
    (List.pairwise_cons.mp (hanswer.2.sublist hfound)).1 q (by simp)
  obtain ⟨pair,hpair,hids⟩ := List.sublist_map_iff.mp hsub
  obtain ⟨r',tail,rfl,hrid,htail⟩ := List.map_eq_cons_iff.mp hids.symm
  obtain ⟨q',rest'',rfl,hqid,-⟩ := List.map_eq_cons_iff.mp htail
  have hstored : ∀ a ∈ r' :: q' :: rest'', a ∈ t.rows := fun a ha =>
    (List.mem_insertionSort ByAge).mp (hpair.subset ha)
  obtain rfl : r' = r := List.inj_on_of_nodup_map t.ids (hstored r' (by simp)) hr hrid
  obtain rfl : q' = q := List.inj_on_of_nodup_map t.ids (hstored q' (by simp)) hq hqid
  have hold : r'.occurredAt ≤ q'.occurredAt :=
    (List.pairwise_cons.mp ((List.pairwise_insertionSort ByAge t.rows).sublist hpair)).1 q'
      (by simp)
  exact hne (List.inj_on_of_nodup_map hdistinct hr hq (le_antisymm hold hrecent))

omit [DecidableEq ι] in
/-- Without equal times the database has no choice of what it answers with. -/
theorem length_replayed_eq {t : AuditTable} (hdistinct : (t.rows.map AuditRow.occurredAt).Nodup)
    (order : AuditOrder) : (replayed req order t).length = (caughtUp req t).length := by
  have hrows : t.rows.Nodup := t.ids.of_map
  have hanswer := order.answers (t.rows.filter (isSince (sinceText req)))
  have hsince : (t.rows.filter (isSince (sinceText req))).Nodup := hrows.filter _
  have hties : ∀ a ∈ t.rows.filter (isSince (sinceText req)),
      ∀ b ∈ t.rows.filter (isSince (sinceText req)), ByRecency a b → ByRecency b a → a = b := by
    intro a ha b hb hab hba
    exact List.inj_on_of_nodup_map hdistinct (List.mem_of_mem_filter ha)
      (List.mem_of_mem_filter hb) (le_antisymm hba hab)
  have htaken : ((order.sorted (t.rows.filter (isSince (sinceText req)))).take
      catchUpLimit).Nodup :=
    (hanswer.1.nodup_iff.mpr hsince).sublist (List.take_sublist _ _)
  unfold replayed AuditTable.getRecentAuditEvents caughtUp
  rw [List.length_map]
  apply List.Perm.length_eq
  rw [List.perm_ext_iff_of_nodup (htaken.filter _) (hrows.filter _)]
  intro r
  have hnewer : (fun q : AuditRow => decide (r.occurredAt < q.occurredAt)) =
      fun q => !decide (ByRecency r q) := by
    funext q
    rw [← decide_not]
    exact decide_eq_decide.mpr not_le.symm
  simp only [List.mem_filter,Bool.and_eq_true,decide_eq_true_eq,isMatching,hnewer]
  constructor
  · rintro ⟨htake,htype⟩
    have hfound := hanswer.mem_iff.mp (List.mem_of_mem_take htake)
    obtain ⟨hr,hbound⟩ := List.mem_filter.mp hfound
    have hcount := (hanswer.mem_take_iff hsince hties hfound).mp htake
    exact ⟨hr,⟨htype,hbound⟩,hcount⟩
  · rintro ⟨hr,⟨htype,hbound⟩,hcount⟩
    have hfound := List.mem_filter.mpr ⟨hr,hbound⟩
    exact ⟨(hanswer.mem_take_iff hsince hties hfound).mpr hcount,htype⟩

/-- Whatever is published later, the events arrive in order exactly when at most one is caught up
on, or so many that the call is never answered. -/
theorem arrivesInOrder_iff {t : AuditTable}
    (hdistinct : (t.rows.map AuditRow.occurredAt).Nodup) (events : ι → AuditEventProto) :
    ArrivesInOrder req t events ↔
      (caughtUp req t).length ≤ 1 ∨ channelCapacity < (caughtUp req t).length := by
  constructor
  · intro h
    by_contra hmany
    simp only [not_or,not_le,not_lt,← length_replayed_eq hdistinct auditStorageOrder] at hmany
    obtain ⟨htwo,hfits⟩ := hmany
    match hevents : replayed req auditStorageOrder t with
    | [] | [_] => simp [hevents] at htwo
    | e :: f :: rest =>
      obtain ⟨as,s,hist,hlater,hrun,hdelivered,hbroadcast⟩ := exists_delivery events hevents hfits
      have hsub := h as s hist hlater hrun
      rw [hdelivered,hbroadcast] at hsub
      exact not_sublist_of_two hdistinct hevents hsub
  · intro h as s hist hlater hrun
    have hseq : Sequenced req t (s,hist) := sequenced_of_run hlater hrun
    exact hseq.inOrder fun order => length_replayed_eq hdistinct order ▸ h

end

/-! ### A login and a query -/

section
def loginStored : AuditTable := ⟨[⟨"a1","LOGIN","2024-01-01T00:00:00+00:00","elan-query","alice",
  none,"\x7b\x7d"⟩],by decide⟩

def queryStored : AuditTable := ⟨loginStored.rows ++ [⟨"b2","QUERY_EXECUTED",
  "2024-01-01T00:00:01+00:00","elan-query","alice",none,"\x7b\x7d"⟩],by decide⟩

attribute [local instance] noTimes

theorem arrivesInOrder_login : ArrivesInOrder everything loginStored loginOf :=
  (arrivesInOrder_iff (by decide) loginOf).mpr (.inl (by decide))

theorem newest_arrives_first : ¬ ∀ (req : StreamRequest) (t : AuditTable)
    (events : Bool → AuditEventProto), (t.rows.map AuditRow.occurredAt).Nodup →
      ArrivesInOrder req t events := by
  intro h
  have hrun : (run (withHistory (step everything) (record everything))
      [proceed,proceed,proceed,proceed,proceed,.deliver,.deliver]
      (State.initial queryStored loginOf,History.ofLog queryStored)).any (fun x =>
        x.1.delivered.map AuditEventProto.eventId = ["b2","a1"] &&
          x.2.broadcast = ["a1","b2"]) = true := by
    decide
  obtain ⟨⟨s,hist⟩,hs,hcheck⟩ := Option.any_eq_true _ _ |>.mp hrun
  simp only [Bool.and_eq_true,decide_eq_true_eq] at hcheck
  have hlater : Meets (step everything) Later
      [proceed,proceed,proceed,proceed,proceed,.deliver,.deliver]
      (State.initial queryStored loginOf) :=
    meets_of_forall (by simp [proceed,Later]) _
  have hsub := h everything queryStored loginOf (by decide) _ s hist hlater hs
  rw [hcheck.1,hcheck.2] at hsub
  exact absurd hsub (by decide)

end
end AuditSvc
end Elan
