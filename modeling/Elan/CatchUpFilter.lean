import Elan.AuditStore

/-! The query for recent events: the database applies the bound and the limit, and the event
types are looked at in what is left. The limit is a natural number; in the code it is an `i64`, and
a negative one, which no caller passes, is no limit for the database. -/
namespace Elan

open StableSort

section
variable (t : AuditTable) (order : AuditOrder) (since : Option String) (eventTypes : List String)
  (limit : ℕ)

def AuditTable.requested : List AuditRow :=
  (t.rows.filter (isSince since)).filter (isRequested eventTypes ·.eventType)

/-- The log since the bound, most recent first. -/
def AuditTable.recent : List AuditRow := order.sorted (t.rows.filter (isSince since))

/-- Either the most recent events are all of requested types, or none of a requested type is
older than these. -/
def AuditTable.NothingCutOff : Prop :=
  (∀ r ∈ (t.recent order since).take limit, isRequested eventTypes r.eventType = true) ∨
    ∀ r ∈ (t.recent order since).drop limit, isRequested eventTypes r.eventType = false

/-- The catch-up finds the most recent of the rows it asks for, and still finds these in the
log `t'` that other events were added to. -/
structure CatchesUp (t' : AuditTable) : Prop where
  complete : Leading ByRecency limit (t.requested since eventTypes)
    (t.getRecentAuditEvents order since eventTypes limit)
  unchanged : Leading ByRecency limit (t.requested since eventTypes)
    (t'.getRecentAuditEvents order since eventTypes limit)
  same : (∀ a ∈ t.requested since eventTypes, ∀ b ∈ t.requested since eventTypes,
      a.occurredAt = b.occurredAt → a = b) →
    t'.getRecentAuditEvents order since eventTypes limit =
      t.getRecentAuditEvents order since eventTypes limit

end

variable {t t' : AuditTable} {order : AuditOrder} {since : Option String}
  {eventTypes : List String} {limit : ℕ}

theorem leading_requested_iff : Leading ByRecency limit (t.requested since eventTypes)
      (t.getRecentAuditEvents order since eventTypes limit) ↔
    t.NothingCutOff order since eventTypes limit :=
  leading_filter_iff (order.answers (t.rows.filter (isSince since)))

theorem requested_append {others : List AuditRow} (hrows : t'.rows = t.rows ++ others)
    (hothers : ∀ r ∈ others, isRequested eventTypes r.eventType = false) :
    t'.requested since eventTypes = t.requested since eventTypes := by
  have hnone :
      (others.filter (isSince since)).filter (isRequested eventTypes ·.eventType) = [] := by
    apply List.filter_eq_nil_iff.mpr
    intro r hr
    simp [hothers r (List.mem_of_mem_filter hr)]
  unfold AuditTable.requested
  rw [hrows,List.filter_append,List.filter_append,hnone,List.append_nil]

/-- A filtered catch-up is complete, and stays so when events of other types are added, exactly
when in neither log such events take the place of requested ones. -/
theorem catchesUp_iff {others : List AuditRow} (hrows : t'.rows = t.rows ++ others)
    (hothers : ∀ r ∈ others, isRequested eventTypes r.eventType = false) :
    CatchesUp t order since eventTypes limit t' ↔
      t.NothingCutOff order since eventTypes limit ∧
        t'.NothingCutOff order since eventTypes limit := by
  have hrequested : t'.requested since eventTypes = t.requested since eventTypes :=
    requested_append hrows hothers
  constructor
  · intro h
    exact ⟨leading_requested_iff.mp h.complete,
      leading_requested_iff.mp (hrequested ▸ h.unchanged)⟩
  · intro ⟨ht,ht'⟩
    have hcomplete := leading_requested_iff.mpr ht
    have hunchanged := hrequested ▸ leading_requested_iff.mpr ht'
    refine ⟨hcomplete,hunchanged,?_⟩
    intro htimes
    apply hunchanged.unique hcomplete
    intro a ha b hb hab hba
    exact htimes a ha b hb (le_antisymm hba hab)

def auditRow (id eventType occurredAt : String) : AuditRow :=
  ⟨id,eventType,occurredAt,"elan-query","alice",none,"\x7b\x7d"⟩

def loginLog : AuditTable := ⟨[auditRow "a1" "LOGIN" "2024-01-01T00:00:00+00:00"],by decide⟩

def loginThenQuery : AuditTable :=
  ⟨[auditRow "a1" "LOGIN" "2024-01-01T00:00:00+00:00",
    auditRow "b2" "QUERY_EXECUTED" "2024-01-01T00:00:01+00:00"],by decide⟩

theorem catchesUp_two : CatchesUp loginLog auditStorageOrder none ["LOGIN"] 2 loginThenQuery := by
  have hothers : ∀ r ∈ [auditRow "b2" "QUERY_EXECUTED" "2024-01-01T00:00:01+00:00"],
      isRequested ["LOGIN"] r.eventType = false := by decide
  exact (catchesUp_iff rfl hothers).mpr ⟨.inr (by decide),.inr (by decide)⟩

/-- The query takes the only place there is, and the login is not found. -/
theorem login_cut_off : ¬ ∀ (t : AuditTable) (order : AuditOrder) (since : Option String)
    (eventTypes : List String) (limit : ℕ),
    Leading ByRecency limit (t.requested since eventTypes)
      (t.getRecentAuditEvents order since eventTypes limit) := by
  intro h
  have hlength := (h loginThenQuery auditStorageOrder none ["LOGIN"] 1).length
  exact absurd hlength (by decide)

end Elan
