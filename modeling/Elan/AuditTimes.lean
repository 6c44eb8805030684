import Elan.AuditSvc
import Elan.Rfc3339

/-! Times in the log: what is compared and ordered as text is compared and ordered as time. -/
namespace Elan

/-- The range of the message type: the years 1 to 9999, and nanoseconds of one second. -/
def Timestamp.InRange (ts : Timestamp) : Prop :=
  -62135596800 ≤ ts.seconds.toInt ∧ ts.seconds.toInt ≤ 253402300799 ∧
    0 ≤ ts.nanos.toInt ∧ ts.nanos.toInt ≤ 999999999

instance (ts : Timestamp) : Decidable ts.InRange := inferInstanceAs (Decidable (_ ∧ _ ∧ _ ∧ _))

/-- Nanoseconds since 1970. -/
def Timestamp.instant (ts : Timestamp) : ℤ := ts.seconds.toInt * 10 ^ 9 + ts.nanos.toInt

def Timestamp.text (ts : Timestamp) : String :=
  Rfc3339.text (ts.seconds.toInt + 62135596800).toNat ts.nanos.toInt.toNat

/-- What is known of the formatting: years of four digits, a fraction of as many digits as it
needs, and the offset of UTC. -/
def PrintsUtc [Chrono] : Prop :=
  ∀ ts : Timestamp, ts.InRange → Chrono.toRfc3339 ts = some ts.text

theorem text_lt_iff_instant {ts us : Timestamp} (hts : ts.InRange) (hus : us.InRange) :
    ts.text < us.text ↔ ts.instant < us.instant := by
  have hyears : Rfc3339.daysBeforeYear 10000 = 3652059 := rfl
  obtain ⟨hfrom,hto,hnanos,hnanos'⟩ := hts
  obtain ⟨hfrom',hto',hnanos₂,hnanos₂'⟩ := hus
  unfold Timestamp.text Timestamp.instant
  rw [Rfc3339.text_lt_iff (by omega) (by omega) (by omega) (by omega)]
  omega

theorem text_le_iff_instant {ts us : Timestamp} (hts : ts.InRange) (hus : us.InRange) :
    ts.text ≤ us.text ↔ ts.instant ≤ us.instant := by
  rw [← not_lt,← not_lt,text_lt_iff_instant hus hts]

namespace AuditSvc

open TransitionSystem

section
variable {ι : Type} [DecidableEq ι] [Chrono] {req : StreamRequest}

/-- The row of the event that a call publishes when it reads the clock. -/
def logRow (events : ι → AuditEventProto) (clock : ι → Timestamp) (i : ι) : AuditRow :=
  .ofEvent (events i) (clock i).text

/-- The event is not before the bound of the request. -/
def FromSince (req : StreamRequest) (ts : Timestamp) : Prop :=
  ∀ since, req.since = some since → since.instant ≤ ts.instant

/-- Each call stores the time it reads from the clock. -/
def OnTime (clock : ι → Timestamp) (a : Action ι) (_ : State ι) : Prop :=
  match a with
  | .publish i now => Chrono.toRfc3339 (clock i) = some now
  | _ => True

/-- The bound and the order of the log are those of the instants of its events. -/
structure Chronological (req : StreamRequest) (events : ι → AuditEventProto)
    (clock : ι → Timestamp) (s : State ι) : Prop where
  logged : ∀ r ∈ s.table.rows, ∃ i, r = logRow events clock i
  since : ∀ i, isSince (sinceText req) (logRow events clock i) = true ↔ FromSince req (clock i)
  recency : ∀ i j, ByRecency (logRow events clock i) (logRow events clock j) ↔
    (clock j).instant ≤ (clock i).instant
  found : ∀ order limit, s.table.rows.length ≤ limit → ∀ i, logRow events clock i ∈ s.table.rows →
    (logRow events clock i ∈
      s.table.getRecentAuditEvents order (sinceText req) req.eventTypes limit ↔
        FromSince req (clock i) ∧ isRequested req.eventTypes (events i).eventType = true)

omit [DecidableEq ι] in
theorem isSince_logRow (hprints : PrintsUtc) (hsince : ∀ ts, req.since = some ts → ts.InRange)
    {events : ι → AuditEventProto} {clock : ι → Timestamp} {i : ι} (hi : (clock i).InRange) :
    isSince (sinceText req) (logRow events clock i) = true ↔ FromSince req (clock i) := by
  unfold isSince sinceText FromSince
  cases hreq : req.since with
  | none => simp
  | some ts =>
    have hts := hsince ts hreq
    simp only [Option.map_some,hprints ts hts,Option.getD_some,Option.all_some,decide_eq_true_eq,
      Option.some.injEq,forall_eq']
    exact text_le_iff_instant hts hi

omit [DecidableEq ι] [Chrono] in
theorem byRecency_logRow {events : ι → AuditEventProto} {clock : ι → Timestamp} {i j : ι}
    (hi : (clock i).InRange) (hj : (clock j).InRange) :
    ByRecency (logRow events clock i) (logRow events clock j) ↔
      (clock j).instant ≤ (clock i).instant :=
  text_le_iff_instant hj hi

omit [DecidableEq ι] [Chrono] in
theorem mem_getRecent_of_le {t : AuditTable} {order : AuditOrder} {since : Option String}
    {eventTypes : List String} {limit : ℕ} (hlimit : t.rows.length ≤ limit) {r : AuditRow}
    (hr : r ∈ t.rows) : r ∈ t.getRecentAuditEvents order since eventTypes limit ↔
      isSince since r = true ∧ isRequested eventTypes r.eventType = true := by
  have hanswer := order.answers (t.rows.filter (isSince since))
  have hlength : (order.sorted (t.rows.filter (isSince since))).length ≤ limit := by
    rw [hanswer.1.length_eq]
    exact (List.length_filter_le _ _).trans hlimit
  unfold AuditTable.getRecentAuditEvents
  rw [List.take_of_length_le hlength,List.mem_filter,hanswer.mem_iff,List.mem_filter]
  simp [hr]

/-- What the calls have stored, and what they still hold. -/
structure Logged (events : ι → AuditEventProto) (clock : ι → Timestamp) (s : State ι) : Prop where
  rows : ∀ r ∈ s.table.rows, ∃ i, r = logRow events clock i
  held : ∀ i e, s.publishers i = .received e → e = events i

theorem logged_step (hprints : PrintsUtc) {events : ι → AuditEventProto} {clock : ι → Timestamp}
    (hclock : ∀ i, (clock i).InRange) {a : Action ι} {s s' : State ι}
    (hs : Logged events clock s) (hok : OnTime clock a s) (h : step req a s = some s') :
    Logged events clock s' := by
  have hheld : ∀ i p, (∀ e, p ≠ .received e) → ∀ j e,
      Function.update s.publishers i p j = .received e → e = events j := by
    intro i p hp j e hj
    exact hs.held j e (publisher_of_update (hp e) hj).2
  cases step_effect h with
  | @persisted i now e table hfrom hstore =>
    refine ⟨?_,hheld i _ (by simp)⟩
    obtain ⟨-,hrows⟩ := storeAuditEvent_eq_some hstore
    intro r hr
    rw [hrows] at hr
    rcases List.mem_append.mp hr with hr | hr
    · exact hs.rows r hr
    · obtain rfl : now = (clock i).text :=
        Option.some.inj (hok.symm.trans (hprints (clock i) (hclock i)))
      obtain rfl := hs.held i e hfrom
      exact ⟨i,List.mem_singleton.mp hr⟩
  | refused hfrom | broadcast hfrom => exact ⟨hs.rows,hheld _ _ (by simp)⟩
  | read | sent | subscribed | returned | forwarded | skipped | delivered =>
    exact ⟨hs.rows,hs.held⟩

/-- Whenever the events are published, the text of their times tells which are not before the
bound, and which are more recent. -/
theorem chronological_of_run (hprints : PrintsUtc)
    (hsince : ∀ ts, req.since = some ts → ts.InRange) {events : ι → AuditEventProto}
    {clock : ι → Timestamp} (hclock : ∀ i, (clock i).InRange) {as : List (Action ι)} {s : State ι}
    (hok : Meets (step req) (OnTime clock) as (State.initial ⟨[],by simp⟩ events))
    (hrun : run (step req) as (State.initial ⟨[],by simp⟩ events) = some s) :
    Chronological req events clock s := by
  have hstart : Logged events clock (State.initial ⟨[],by simp⟩ events) := by
    refine ⟨by simp [State.initial],?_⟩
    intro i e hi
    exact (Publisher.received.inj hi).symm
  have hs : Logged events clock s :=
    run_invariant (fun _ _ _ hx hok h => logged_step hprints hclock hx hok h) hstart hok hrun
  refine ⟨hs.rows,fun i => isSince_logRow hprints hsince (hclock i),
    fun i j => byRecency_logRow (hclock i) (hclock j),?_⟩
  intro order limit hlimit i hi
  rw [mem_getRecent_of_le hlimit hi,isSince_logRow hprints hsince (hclock i)]
  rfl

end

section
/-- Times in UTC, within the range. -/
local instance utcTimes : Chrono := ⟨fun ts => if ts.InRange then some ts.text else none⟩

theorem printsUtc_utcTimes : PrintsUtc := fun _ h => if_pos h

def midnight (later : Bool) : Timestamp := ⟨1704067200,if later then 5000000 else 0⟩

def publishAt (user : Bool) : Action Bool := .publish user (midnight user).text

def midnightOf (user : Bool) : AuditEventProto :=
  ⟨if user then "a1" else "b2","LOGIN",none,"elan-query",if user then "alice" else "bob","",
    "\x7b\x7d"⟩

theorem chronological_midnight : ∃ s, run (step ⟨some (midnight true),[]⟩)
    [publishAt true,publishAt false] (State.initial ⟨[],by simp⟩ midnightOf) = some s ∧
      s.table.rows.length = 2 ∧ Chronological ⟨some (midnight true),[]⟩ midnightOf midnight s := by
  have hrange : ∀ later, (midnight later).InRange := by decide
  have hrun : (run (step ⟨some (midnight true),[]⟩) [publishAt true,publishAt false]
      (State.initial ⟨[],by simp⟩ midnightOf)).any (fun s => s.table.rows.length = 2) = true := by
    rfl
  obtain ⟨s,hs,hrows⟩ := Option.any_eq_true _ _ |>.mp hrun
  refine ⟨s,hs,of_decide_eq_true hrows,chronological_of_run printsUtc_utcTimes ?_ hrange ?_ hs⟩
  · intro ts hts
    rw [← Option.some.inj hts]
    exact hrange true
  · apply meets_of_forall
    intro a ha s
    simp only [List.mem_cons,List.not_mem_nil,or_false] at ha
    rcases ha with rfl | rfl <;> exact if_pos (hrange _)

end
end AuditSvc
end Elan
