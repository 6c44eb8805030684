import Elan.AuditSvc

/-! The replay of the log into a channel that nobody reads yet: when it comes to an end. -/
namespace Elan
namespace AuditSvc

open TransitionSystem

variable {ι : Type} [DecidableEq ι] [Chrono] {req : StreamRequest}

/-- The handler has an event to send, the channel is full, and its receiver not handed over. -/
def Blocked (s : State ι) : Prop :=
  ∃ e remaining, s.handler = .replaying (e :: remaining) ∧ channelCapacity ≤ s.queue.length

/-- The own next steps of the handler lead to its response. -/
def Responds (req : StreamRequest) (order : AuditOrder) (s : State ι) : Prop :=
  ∃ n s', run (step req) (List.replicate n (.stream order)) s = some s' ∧ s'.handler = .returned

/-- Whatever the other calls do after the read, the handler is never blocked and gets to its
response. -/
def ReachesResponse (req : StreamRequest) (order : AuditOrder) (t : AuditTable)
    (events : ι → AuditEventProto) : Prop :=
  ∀ as s, run (step req) (.stream order :: as) (State.initial t events) = some s →
    ¬ Blocked s ∧ Responds req order s

/-- The replay puts the events into the channel as long as there is room. -/
theorem run_replay (req : StreamRequest) (order : AuditOrder)
    {evs remaining : List AuditEventProto} {s : State ι}
    (hs : s.handler = .replaying (evs ++ remaining))
    (hroom : s.queue.length + evs.length ≤ channelCapacity) :
    run (step req) (List.replicate evs.length (.stream order)) s =
      some { s with handler := .replaying remaining, queue := s.queue ++ evs } := by
  induction evs generalizing s with
  | nil =>
    rcases s with ⟨_,_,handler,_,_,_⟩
    obtain rfl : handler = .replaying remaining := hs
    simp [run]
  | cons e evs ih =>
    rw [List.length_cons] at hroom
    have hlt : s.queue.length < channelCapacity := by omega
    have hstep : step req (.stream order) s =
        some { s with handler := .replaying (evs ++ remaining), queue := s.queue ++ [e] } := by
      simp [step,streamStep,hs,hlt]
    rw [List.length_cons,List.replicate_succ]
    refine run_cons.mpr ⟨_,hstep,(ih rfl ?_).trans ?_⟩
    · simp only [List.length_append,List.length_singleton]
      omega
    · simp

theorem responds_of_room (order : AuditOrder) {remaining : List AuditEventProto} {s : State ι}
    (hs : s.handler = .replaying remaining)
    (hroom : s.queue.length + remaining.length ≤ channelCapacity) : Responds req order s := by
  have hreplay := run_replay req order (by rw [hs,List.append_nil]) hroom
  refine ⟨remaining.length + 2,
    { s with handler := .returned, queue := s.queue ++ remaining },?_,rfl⟩
  rw [List.replicate_add]
  exact run_append.mpr ⟨_,hreplay,rfl⟩

def afterRead (req : StreamRequest) (order : AuditOrder) (t : AuditTable)
    (events : ι → AuditEventProto) : State ι :=
  { State.initial t events with handler := .replaying (replayed req order t) }

theorem run_after_read {order : AuditOrder} {t : AuditTable} {events : ι → AuditEventProto}
    {as : List (Action ι)} {s : State ι} :
    run (step req) (.stream order :: as) (State.initial t events) = some s ↔
      run (step req) as (afterRead req order t events) = some s := Iff.rfl

/-- What was put into the channel and what is left are the events that were read. -/
def Replays (recent : List AuditEventProto) (s : State ι) : Prop :=
  match s.handler with
  | .received => False
  | .replaying remaining => s.queue ++ remaining = recent
  | .subscribed | .returned => True

theorem replays_step {recent : List AuditEventProto} {a : Action ι} {s s' : State ι}
    (hs : Replays recent s) (h : step req a s = some s') : Replays recent s' := by
  unfold Replays at hs ⊢
  cases step_effect h with
  | persisted | refused | broadcast => exact hs
  | read hfrom => rw [hfrom] at hs; exact hs.elim
  | sent hfrom => rw [hfrom] at hs; simpa using hs
  | subscribed | returned => trivial
  | forwarded hlistens | skipped hlistens =>
    cases hh : s.handler <;> simp_all [Handler.listens]
  | delivered hfrom => simp only [hfrom]

theorem reachesResponse_of_le {order : AuditOrder} {t : AuditTable}
    (h : (replayed req order t).length ≤ channelCapacity) (events : ι → AuditEventProto) :
    ReachesResponse req order t events := by
  intro as s hrun
  rw [run_after_read] at hrun
  have hstart : Replays (replayed req order t) (afterRead req order t events) := rfl
  have hs : Replays (replayed req order t) s :=
    run_invariant (fun a s s' hs _ ha => replays_step hs ha) hstart
      (meets_of_forall (fun _ _ _ => trivial) _) hrun
  unfold Replays at hs
  cases hh : s.handler with
  | received => rw [hh] at hs; exact hs.elim
  | replaying remaining =>
    simp only [hh] at hs
    have hroom : s.queue.length + remaining.length ≤ channelCapacity := by
      rw [← List.length_append,hs]
      exact h
    refine ⟨?_,responds_of_room order hh hroom⟩
    rintro ⟨e,rest,he,hfull⟩
    obtain rfl := Handler.replaying.inj (hh.symm.trans he)
    simp only [List.length_cons] at hroom
    omega
  | subscribed =>
    refine ⟨?_,1,{ s with handler := .returned },?_,rfl⟩
    · rintro ⟨e,rest,he,-⟩
      cases hh.symm.trans he
    · simp [run,step,streamStep,hh]
  | returned =>
    refine ⟨?_,0,s,rfl,hh⟩
    rintro ⟨e,rest,he,-⟩
    cases hh.symm.trans he

theorem blocked_of_lt {req : StreamRequest} {order : AuditOrder} {t : AuditTable}
    (h : channelCapacity < (replayed req order t).length) (events : ι → AuditEventProto) :
    ∃ as s, run (step req) (.stream order :: as) (State.initial t events) = some s ∧ Blocked s := by
  have hsplit := List.take_append_drop channelCapacity (replayed req order t)
  have hlen : ((replayed req order t).take channelCapacity).length = channelCapacity := by
    rw [List.length_take]
    omega
  obtain ⟨e,rest,hrest⟩ : ∃ e rest, (replayed req order t).drop channelCapacity = e :: rest :=
    List.exists_cons_of_length_pos (by rw [List.length_drop]; omega)
  have hroom : (afterRead req order t events).queue.length +
      ((replayed req order t).take channelCapacity).length ≤ channelCapacity := by
    simp [hlen,afterRead,State.initial]
  have hreplay := run_replay req order (by rw [hsplit]; rfl) hroom
  rw [hrest] at hreplay
  exact ⟨_,_,run_after_read.mpr hreplay,e,rest,rfl,by simp [afterRead,State.initial,hlen]⟩

/-- The catch-up comes to its response exactly when the events it replays fit the channel. -/
theorem reachesResponse_iff (req : StreamRequest) (order : AuditOrder) (t : AuditTable)
    (events : ι → AuditEventProto) :
    ReachesResponse req order t events ↔
      (t.getRecentAuditEvents order (sinceText req) req.eventTypes catchUpLimit).length ≤
        channelCapacity := by
  have hlen : (replayed req order t).length = (t.getRecentAuditEvents order (sinceText req)
      req.eventTypes catchUpLimit).length := List.length_map _
  rw [← hlen]
  refine ⟨fun hreach => ?_,fun h => reachesResponse_of_le h events⟩
  by_contra hlt
  obtain ⟨as,s,hrun,hblocked⟩ := blocked_of_lt (not_le.mp hlt) events
  exact (hreach as s hrun).1 hblocked

def busyLog : AuditTable where
  rows := (List.range 65).map fun n =>
    ⟨toString n,"QUERY_EXECUTED","2024-01-01T00:00:00+00:00","elan-query","alice",none,"{}"⟩
  ids := by
    rw [List.map_map]
    refine List.nodup_range.map fun a b h => ?_
    have hdigits : Nat.toDigits 10 a = Nat.toDigits 10 b := by
      simpa using congrArg String.toList h
    simpa using congrArg (Nat.ofDigitChars 10 · 0) hdigits

omit [Chrono] in
/-- With 65 stored events a catch-up without filter never answers. -/
theorem catchUp_blocks :
    ¬ ∀ [Chrono] (req : StreamRequest) (order : AuditOrder) (t : AuditTable)
      (events : Empty → AuditEventProto), ReachesResponse req order t events := by
  intro hall
  let _ : Chrono := ⟨fun _ => none⟩
  have hfits : busyLog.rows.length ≤ catchUpLimit := by decide
  have hperm := getRecentAuditEvents_perm hfits auditStorageOrder (sinceText ⟨none,[]⟩) []
  have hlen : (replayed ⟨none,[]⟩ auditStorageOrder busyLog).length = 65 := by
    rw [replayed,List.length_map,hperm.length_eq]
    decide
  have hlong : channelCapacity < (replayed ⟨none,[]⟩ auditStorageOrder busyLog).length := by
    rw [hlen]
    decide
  obtain ⟨as,s,hrun,hblocked⟩ := blocked_of_lt hlong (Empty.elim : Empty → AuditEventProto)
  exact (hall ⟨none,[]⟩ auditStorageOrder busyLog Empty.elim as s hrun).1 hblocked

end AuditSvc
end Elan
