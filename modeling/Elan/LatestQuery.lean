import Elan.Tui

/-! Which query the terminal client shows: the answers carry no identity, and each takes the place
of what was shown before. -/
namespace Elan
namespace Tui

open TransitionSystem App

variable {E : Type} [TextArea E]

def isResult : AppEvent → Bool
  | .queryResult _ => true
  | _ => false

/-- The answer is shown: the rows of a result, or the error as the status. -/
def Displays (app : App E) : Except String QueryResponse → Prop
  | .ok resp => app.results = some resp
  | .error e => app.statusMessage = "Error: " ++ e

/-- When nothing is loading, every query has been answered and every answer taken from the
channel, and the answer to the last query is shown. -/
structure ShowsLatest (s : State E) : Prop where
  settled : s.app.isLoading = false →
    (∀ t ∈ s.queries, t.isAnswered = true) ∧ ∀ event ∈ s.queue, isResult event = false
  shown : s.app.isLoading = false → ∀ result, s.queries.getLast? = some (.answered result) →
    Displays s.app result

/-- Under the error of the last query there are no rows of an earlier one. -/
def NoEarlierRows (s : State E) : Prop :=
  s.app.isLoading = false → ∀ e, s.queries.getLast? = some (.answered (.error e)) →
    s.app.results = none

/-- The events that put another text into the status line without a query. -/
def replacesStatus (app : App E) : AppEvent → Bool
  | .catalogLoaded _ | .key ⟨.control,.char 'r'⟩ => true
  | .key ⟨.none,.f 5⟩ | .key ⟨.control,.enter⟩ => app.sql.toList.all isWhiteSpace
  | _ => false

/-- An answer is taken when no other query is in flight, and the error of the last query is not
replaced by another status while it is shown. -/
def TakesAlone (a : Action) (s : State E) : Prop :=
  match a, s.quit, s.queue with
  | .receive, false, event :: queue =>
    if isResult event then
      (∀ t ∈ s.queries, t.isAnswered = true) ∧ ∀ event ∈ queue, isResult event = false
    else replacesStatus s.app event = true → s.app.isLoading = false →
      ∀ e, s.queries.getLast? ≠ some (.answered (.error e))
  | _, _, _ => True

/-- Errors are taken before any rows are shown. -/
def TakesErrorFirst (a : Action) (s : State E) : Prop :=
  match a, s.quit, s.queue with
  | .receive, false, .queryResult (.error _) :: _ => s.app.results = none
  | _, _, _ => True

/-- While something is loading, the last query is to be answered, or its answer to be taken. -/
def Pending (s : State E) : Prop :=
  s.app.isLoading = true → ∃ t, s.queries.getLast? = some t ∧
    ∀ result, t = .answered result → .queryResult result ∈ s.queue

theorem ne_error {status : String} (h : status.toList.head? ≠ some 'E') (e : String) :
    status ≠ "Error: " ++ e := by
  rintro rfl
  simp [String.toList_append] at h

/-- What an event does that is no answer: it submits a query, or changes the status at most. -/
inductive OtherEffect (app : App E) (event : AppEvent) (handled : Handled E) : Prop
  | submitted (sql : String) (hspawned : handled.spawned = some (.query sql))
    (hloading : handled.app.isLoading = true) (hstatus : replacesStatus app event = false)
  | kept (hspawned : ∀ sql, handled.spawned ≠ some (.query sql))
    (hloading : handled.app.isLoading = app.isLoading)
    (hresults : handled.app.results = app.results)
    (hstatus : replacesStatus app event = false → handled.app.statusMessage = app.statusMessage)
    (hreplaced : replacesStatus app event = true →
      ∀ e, handled.app.statusMessage ≠ "Error: " ++ e)

theorem otherEffect_executeQuery {app : App E} {key : KeyEvent}
    (h : replacesStatus app (.key key) = app.sql.toList.all isWhiteSpace) :
    OtherEffect app (.key key) app.executeQuery := by
  unfold executeQuery
  cases hblank : app.sql.toList.all isWhiteSpace with
  | true =>
    refine .kept (by simp) rfl rfl (by simp [h,hblank]) fun _ => ne_error ?_
    simp
  | false => exact .submitted app.sql rfl rfl (h.trans hblank)

theorem otherEffect_inputKey {app : App E} {key : KeyEvent}
    (h : replacesStatus app (.key key) = false) :
    OtherEffect app (.key key) (app.inputKey key) := by
  unfold inputKey
  split_ifs <;> exact .kept (by simp) rfl rfl (fun _ => rfl) (by simp [h])

theorem otherEffect_handleKey (app : App E) (key : KeyEvent) :
    OtherEffect app (.key key) (app.handleKey key) := by
  unfold handleKey
  split
  · exact .kept (by simp) rfl rfl (fun _ => rfl) (by simp [replacesStatus])
  · exact .kept (by simp) rfl rfl (fun _ => rfl) (by simp [replacesStatus])
  · refine .kept (by simp) rfl rfl (by simp [replacesStatus]) fun _ => ne_error ?_
    simp
  · exact otherEffect_executeQuery rfl
  · exact otherEffect_executeQuery rfl
  · split_ifs
    · exact .kept (by simp) rfl rfl (fun _ => rfl) (by simp [replacesStatus])
    · exact otherEffect_inputKey rfl
  · apply otherEffect_inputKey
    unfold replacesStatus
    split <;> simp_all

theorem otherEffect {app : App E} {event : AppEvent} (h : isResult event = false) :
    OtherEffect app event (app.handleEvent event) := by
  cases event with
  | key key => exact otherEffect_handleKey app key
  | auditMessage msg =>
    exact .kept (by simp [handleEvent]) rfl rfl (fun _ => rfl) (by simp [replacesStatus])
  | queryResult result => cases h
  | catalogLoaded catalog =>
    refine .kept (by simp [handleEvent]) rfl rfl (by simp [replacesStatus]) fun _ => ne_error ?_
    simp [handleEvent,String.toList_append]

inductive Effect (s : State E) (a : Action) (t : State E) : Prop
  | sent (event : AppEvent) (ha : a ≠ .receive) (hevent : isResult event = false)
    (happ : t.app = s.app) (hqueries : t.queries = s.queries)
    (hqueue : t.queue = s.queue ++ [event])
  | answered (i : ℕ) (sql : String) (result : Except String QueryResponse) (ha : a ≠ .receive)
    (hrunning : s.queries[i]? = some (.running sql)) (happ : t.app = s.app)
    (hqueries : t.queries = s.queries.set i (.answered result))
    (hqueue : t.queue = s.queue ++ [.queryResult result])
  | taken (result : Except String QueryResponse) (ha : a = .receive)
    (hqueue : s.queue = .queryResult result :: t.queue) (hqueries : t.queries = s.queries)
    (hloading : t.app.isLoading = false) (hdisplays : Displays t.app result)
    (hresults : ∀ e, result = .error e → t.app.results = s.app.results)
  | submitted (event : AppEvent) (sql : String) (ha : a = .receive)
    (hqueue : s.queue = event :: t.queue) (hevent : isResult event = false)
    (hqueries : t.queries = s.queries ++ [.running sql]) (hloading : t.app.isLoading = true)
    (hstatus : replacesStatus s.app event = false)
  | kept (event : AppEvent) (ha : a = .receive) (hqueue : s.queue = event :: t.queue)
    (hevent : isResult event = false) (hqueries : t.queries = s.queries)
    (hloading : t.app.isLoading = s.app.isLoading) (hresults : t.app.results = s.app.results)
    (hstatus : replacesStatus s.app event = false →
      t.app.statusMessage = s.app.statusMessage)
    (hreplaced : replacesStatus s.app event = true →
      ∀ e, t.app.statusMessage ≠ "Error: " ++ e)

theorem effect_send {s u t : State E} {a : Action} {event : AppEvent} (ha : a ≠ .receive)
    (hevent : isResult event = false) (happ : u.app = s.app) (hqueries : u.queries = s.queries)
    (hqueue : u.queue = s.queue) (h : u.send event = some t) : Effect s a t := by
  obtain ⟨-,hsome⟩ := Option.ite_none_right_eq_some.mp h
  obtain rfl := Option.some.inj hsome
  exact .sent event ha hevent happ hqueries (by simp only [hqueue])

theorem effect_answerStep {s t : State E} {i : ℕ} {result : Except String QueryResponse}
    (h : answerStep i result s = some t) : Effect s (.answer i result) t := by
  unfold answerStep at h
  split at h
  · rename_i sql hrunning
    obtain ⟨-,hsome⟩ := Option.ite_none_right_eq_some.mp h
    obtain rfl := Option.some.inj hsome
    exact .answered i sql result (by simp) hrunning rfl rfl rfl
  · cases h

theorem effect_catalogStep {s t : State E} {i : ℕ} {loaded : Except String (List NamespaceInfo)}
    (h : catalogStep i loaded s = some t) : Effect s (.catalog i loaded) t := by
  unfold catalogStep at h
  split at h
  · cases h
  · refine effect_send (u := { s with catalogTasks := s.catalogTasks.eraseIdx i }) (by simp) ?_
      rfl rfl rfl h
    cases loaded <;> rfl

theorem effect_other {s : State E} {event : AppEvent} {queue : List AppEvent}
    (hevent : isResult event = false) (hqueue : s.queue = event :: queue) :
    Effect s .receive (State.spawn { s with
      app := (s.app.handleEvent event).app, queue, quit := (s.app.handleEvent event).quit }
        (s.app.handleEvent event).spawned) := by
  cases @otherEffect _ _ s.app event hevent with
  | submitted sql hspawned hloading hstatus =>
    rw [hspawned]
    exact .submitted event sql rfl hqueue hevent rfl hloading hstatus
  | kept hspawned hloading hresults hstatus hreplaced =>
    rcases hs : (s.app.handleEvent event).spawned with _ | ⟨sql⟩ | ⟨label⟩
    · exact .kept event rfl hqueue hevent rfl hloading hresults hstatus hreplaced
    · exact absurd hs (hspawned sql)
    · exact .kept event rfl hqueue hevent rfl hloading hresults hstatus hreplaced

theorem effect_receiveStep {s t : State E} (h : receiveStep s = some t) :
    Effect s .receive t := by
  unfold receiveStep at h
  split at h
  · cases h
  · rename_i event queue hqueue
    obtain rfl := Option.some.inj h
    cases event with
    | queryResult result =>
      cases result with
      | ok resp => exact .taken (.ok resp) rfl hqueue rfl rfl rfl (by simp)
      | error e => exact .taken (.error e) rfl hqueue rfl rfl rfl fun _ _ => rfl
    | key | auditMessage | catalogLoaded => exact effect_other rfl hqueue

theorem step_effect {a : Action} {s t : State E} (h : step a s = some t) : Effect s a t := by
  obtain ⟨-,hstep⟩ := Option.ite_none_left_eq_some.mp h
  cases a with
  | press key => exact effect_send (by simp) rfl rfl rfl rfl hstep
  | audit msg => exact effect_send (by simp) rfl rfl rfl rfl hstep
  | catalog i loaded => exact effect_catalogStep hstep
  | answer i result => exact effect_answerStep hstep
  | receive => exact effect_receiveStep hstep

/-! ### One step -/

omit [TextArea E] in
theorem showsLatest_of_loading {s : State E} (h : s.app.isLoading = true) : ShowsLatest s where
  settled hl := by simp [h] at hl
  shown hl := by simp [h] at hl

omit [TextArea E] in
/-- What is shown stays so while no answer comes in and no query is submitted. -/
theorem ShowsLatest.transfer {s t : State E} (hs : ShowsLatest s)
    (hloading : t.app.isLoading = s.app.isLoading) (hqueries : t.queries = s.queries)
    (hqueue : ∀ event ∈ t.queue, isResult event = true → event ∈ s.queue)
    (hshown : ∀ result, s.app.isLoading = false → s.queries.getLast? = some (.answered result) →
      Displays s.app result → Displays t.app result) : ShowsLatest t where
  settled hl := by
    obtain ⟨hanswered,hnone⟩ := hs.settled (hloading ▸ hl)
    refine ⟨hqueries ▸ hanswered,fun event hevent => ?_⟩
    by_contra hresult
    have hresult : isResult event = true := by simpa using hresult
    have hno := hnone event (hqueue event hevent hresult)
    simp [hresult] at hno
  shown hl result hlast := by
    rw [hloading] at hl
    rw [hqueries] at hlast
    exact hshown result hl hlast (hs.shown hl result hlast)

omit [TextArea E] in
theorem ShowsLatest.loading_of_running {s : State E} (hs : ShowsLatest s) {i : ℕ} {sql : String}
    (h : s.queries[i]? = some (.running sql)) : s.app.isLoading = true := by
  by_contra hl
  have hanswered := (hs.settled (by simpa using hl)).1 _ (List.mem_of_getElem? h)
  cases hanswered

omit [TextArea E] in
theorem ShowsLatest.loading_of_result {s : State E} (hs : ShowsLatest s)
    {result : Except String QueryResponse} (h : .queryResult result ∈ s.queue) :
    s.app.isLoading = true := by
  by_contra hl
  have hnone := (hs.settled (by simpa using hl)).2 _ h
  cases hnone

theorem takesAlone_of_ne {a : Action} {s : State E} (ha : a ≠ .receive) : TakesAlone a s := by
  cases a with
  | receive => exact absurd rfl ha
  | press | audit | catalog | answer => trivial

theorem quit_of_step {a : Action} {s t : State E} (h : step a s = some t) : s.quit = false :=
  Bool.eq_false_of_not_eq_true (Option.ite_none_left_eq_some.mp h).1

theorem takesAlone_result {s : State E} (hquit : s.quit = false)
    {result : Except String QueryResponse} {queue : List AppEvent}
    (hqueue : s.queue = .queryResult result :: queue) :
    TakesAlone .receive s ↔
      (∀ t ∈ s.queries, t.isAnswered = true) ∧ ∀ event ∈ queue, isResult event = false := by
  simp [TakesAlone,hquit,hqueue,isResult]

theorem takesAlone_other {s : State E} (hquit : s.quit = false) {event : AppEvent}
    {queue : List AppEvent} (hqueue : s.queue = event :: queue) (hevent : isResult event = false) :
    TakesAlone .receive s ↔ (replacesStatus s.app event = true → s.app.isLoading = false →
      ∀ e, s.queries.getLast? ≠ some (.answered (.error e))) := by
  simp [TakesAlone,hquit,hqueue,hevent]

omit [TextArea E] in
/-- The only answer in the channel is that of the last query. -/
theorem Pending.last_answered {s : State E} (hp : Pending s) (hl : s.app.isLoading = true)
    {result result' : Except String QueryResponse} {queue : List AppEvent}
    (hqueue : s.queue = .queryResult result :: queue)
    (hrest : ∀ event ∈ queue, isResult event = false)
    (hlast : s.queries.getLast? = some (.answered result')) : result' = result := by
  obtain ⟨t,ht,hsent⟩ := hp hl
  obtain rfl := Option.some.inj (ht.symm.trans hlast)
  have hmem := hsent result' rfl
  rw [hqueue] at hmem
  rcases List.mem_cons.mp hmem with heq | hmem
  · exact AppEvent.queryResult.inj heq
  · cases hrest _ hmem

/-- One step keeps the last query shown exactly when an answer is taken alone. -/
theorem showsLatest_step {a : Action} {s t : State E} (hs : ShowsLatest s) (hp : Pending s)
    (h : step a s = some t) : ShowsLatest t ↔ TakesAlone a s := by
  cases step_effect h with
  | sent event ha hevent happ hqueries hqueue =>
    refine iff_of_true ?_ (takesAlone_of_ne ha)
    refine hs.transfer (by rw [happ]) hqueries ?_ fun _ _ _ hshown => happ ▸ hshown
    intro other hother hresult
    rw [hqueue] at hother
    rcases List.mem_append.mp hother with hother | hother
    · exact hother
    · obtain rfl := List.mem_singleton.mp hother
      simp [hevent] at hresult
  | answered i sql result ha hrunning happ hqueries hqueue =>
    refine iff_of_true (showsLatest_of_loading ?_) (takesAlone_of_ne ha)
    rw [happ]
    exact hs.loading_of_running hrunning
  | taken result ha hqueue hqueries hloading hdisplays hresults =>
    subst ha
    rw [takesAlone_result (quit_of_step h) hqueue]
    constructor
    · intro ht
      have hsettled := ht.settled hloading
      rwa [hqueries] at hsettled
    · intro hsettled
      refine ⟨fun _ => by rwa [hqueries],fun _ result' hlast => ?_⟩
      rw [hqueries] at hlast
      have hl := hs.loading_of_result (hqueue ▸ List.mem_cons_self)
      rw [hp.last_answered hl hqueue hsettled.2 hlast]
      exact hdisplays
  | submitted event sql ha hqueue hevent hqueries hloading hstatus =>
    subst ha
    refine iff_of_true (showsLatest_of_loading hloading) ?_
    rw [takesAlone_other (quit_of_step h) hqueue hevent]
    simp [hstatus]
  | kept event ha hqueue hevent hqueries hloading hresults hstatus hreplaced =>
    subst ha
    rw [takesAlone_other (quit_of_step h) hqueue hevent]
    constructor
    · intro ht hreplaces hl e hlast
      have hshown := ht.shown (hloading.trans hl) (.error e) (hqueries ▸ hlast)
      exact hreplaced hreplaces e hshown
    · intro hcond
      refine hs.transfer hloading hqueries ?_ ?_
      · intro other hother _
        exact hqueue ▸ List.mem_cons_of_mem _ hother
      · intro result hl hlast hold
        cases result with
        | ok resp => exact hresults.trans hold
        | error e =>
          cases hreplaces : replacesStatus s.app event with
          | true => exact absurd hlast (hcond hreplaces hl e)
          | false => exact (hstatus hreplaces).trans hold

theorem getLast?_set {α : Type} {xs : List α} {i : ℕ} {a b : α} (hi : xs[i]? = some b) :
    (xs.set i a).getLast? = if i + 1 = xs.length then some a else xs.getLast? := by
  have hlt := (List.getElem?_eq_some_iff.mp hi).1
  rw [List.getLast?_eq_getElem?,List.getLast?_eq_getElem?,List.length_set,List.getElem?_set]
  split_ifs <;> first | rfl | omega

theorem pending_step {a : Action} {s t : State E} (hp : Pending s) (h : step a s = some t) :
    Pending t := by
  intro hl
  cases step_effect h with
  | sent event ha hevent happ hqueries hqueue =>
    obtain ⟨u,hu,hsent⟩ := hp (happ ▸ hl)
    rw [hqueries,hqueue]
    exact ⟨u,hu,fun result hresult => List.mem_append_left _ (hsent result hresult)⟩
  | answered i sql result ha hrunning happ hqueries hqueue =>
    rw [hqueries,hqueue,getLast?_set hrunning]
    split_ifs
    · refine ⟨_,rfl,fun result' hresult => ?_⟩
      rw [QueryTask.answered.inj hresult]
      simp
    · obtain ⟨u,hu,hsent⟩ := hp (happ ▸ hl)
      exact ⟨u,hu,fun result hresult => List.mem_append_left _ (hsent result hresult)⟩
  | taken result ha hqueue hqueries hloading => simp [hloading] at hl
  | submitted event sql ha hqueue hevent hqueries =>
    rw [hqueries]
    exact ⟨.running sql,by simp,fun result hresult => by cases hresult⟩
  | kept event ha hqueue hevent hqueries hloading =>
    obtain ⟨u,hu,hsent⟩ := hp (hloading ▸ hl)
    rw [hqueries]
    refine ⟨u,hu,fun result hresult => ?_⟩
    have hmem := hsent result hresult
    rw [hqueue] at hmem
    rcases List.mem_cons.mp hmem with rfl | hmem
    · cases hevent
    · exact hmem

omit [TextArea E] in
theorem noEarlierRows_of_loading {s : State E} (h : s.app.isLoading = true) :
    NoEarlierRows s := by
  intro hl
  simp [h] at hl

omit [TextArea E] in
theorem NoEarlierRows.transfer {s t : State E} (hn : NoEarlierRows s)
    (hloading : t.app.isLoading = s.app.isLoading) (hqueries : t.queries = s.queries)
    (hresults : t.app.results = s.app.results) : NoEarlierRows t := by
  intro hl e hlast
  rw [hresults]
  exact hn (hloading ▸ hl) e (hqueries ▸ hlast)

omit [TextArea E] in
theorem takesErrorFirst_of_ne {a : Action} {s : State E} (ha : a ≠ .receive) :
    TakesErrorFirst a s := by
  cases a with
  | receive => exact absurd rfl ha
  | press | audit | catalog | answer => trivial

omit [TextArea E] in
theorem takesErrorFirst_other {s : State E} {event : AppEvent} {queue : List AppEvent}
    (hqueue : s.queue = event :: queue) (hevent : isResult event = false) :
    TakesErrorFirst .receive s := by
  cases event with
  | queryResult result => cases hevent
  | key | auditMessage | catalogLoaded => simp [TakesErrorFirst,hqueue]

omit [TextArea E] in
theorem Pending.last_taken {s : State E} (hp : Pending s) (hl : s.app.isLoading = true)
    {result : Except String QueryResponse} {queue : List AppEvent}
    (hqueue : s.queue = .queryResult result :: queue)
    (hanswered : ∀ t ∈ s.queries, t.isAnswered = true)
    (hrest : ∀ event ∈ queue, isResult event = false) :
    s.queries.getLast? = some (.answered result) := by
  obtain ⟨t,hlast,-⟩ := hp hl
  have ht := hanswered t (List.mem_of_getLast? hlast)
  cases t with
  | running sql => cases ht
  | answered result' => rw [hlast,hp.last_answered hl hqueue hrest hlast]

/-- One step keeps earlier rows away exactly when an error is taken before any rows are shown. -/
theorem noEarlierRows_step {a : Action} {s t : State E} (hs : ShowsLatest s) (hp : Pending s)
    (hn : NoEarlierRows s) (ht : ShowsLatest t) (h : step a s = some t) :
    NoEarlierRows t ↔ TakesErrorFirst a s := by
  have hquit := quit_of_step h
  cases step_effect h with
  | sent event ha hevent happ hqueries hqueue =>
    refine iff_of_true ?_ (takesErrorFirst_of_ne ha)
    exact hn.transfer (by rw [happ]) hqueries (by rw [happ])
  | answered i sql result ha hrunning happ hqueries hqueue =>
    refine iff_of_true (noEarlierRows_of_loading ?_) (takesErrorFirst_of_ne ha)
    rw [happ]
    exact hs.loading_of_running hrunning
  | taken result ha hqueue hqueries hloading hdisplays hresults =>
    subst ha
    have hl := hs.loading_of_result (hqueue ▸ List.mem_cons_self)
    obtain ⟨hanswered,hrest⟩ := ht.settled hloading
    have hlast := hp.last_taken hl hqueue (hqueries ▸ hanswered) hrest
    cases result with
    | ok resp =>
      refine iff_of_true ?_ (by simp [TakesErrorFirst,hquit,hqueue])
      intro _ e herror
      rw [hqueries,hlast] at herror
      cases herror
    | error e =>
      have hcond : TakesErrorFirst .receive s ↔ s.app.results = none := by
        simp [TakesErrorFirst,hquit,hqueue]
      rw [hcond,← hresults e rfl]
      constructor
      · intro hrows
        exact hrows hloading e (hqueries ▸ hlast)
      · intro hnone _ _ _
        exact hnone
  | submitted event sql ha hqueue hevent hqueries hloading hstatus =>
    subst ha
    exact iff_of_true (noEarlierRows_of_loading hloading) (takesErrorFirst_other hqueue hevent)
  | kept event ha hqueue hevent hqueries hloading hresults hstatus hreplaced =>
    subst ha
    refine iff_of_true ?_ (takesErrorFirst_other hqueue hevent)
    exact hn.transfer hloading hqueries hresults

theorem steady_of_stuck {a : Action} {s : State E} (h : step a s = none) :
    TakesAlone a s ∧ TakesErrorFirst a s := by
  by_cases ha : a = .receive
  · subst ha
    cases hquit : s.quit with
    | true => simp [TakesAlone,TakesErrorFirst,hquit]
    | false =>
      cases hqueue : s.queue with
      | nil => simp [TakesAlone,TakesErrorFirst,hquit,hqueue]
      | cons event queue => simp [step,receiveStep,hquit,hqueue] at h
  · exact ⟨takesAlone_of_ne ha,takesErrorFirst_of_ne ha⟩

/-! ### Whole runs -/

theorem showsLatest_start : ShowsLatest (start : State E) where
  settled _ := by simp [start]
  shown _ := by simp [start]

theorem pending_start : Pending (start : State E) := by simp [Pending,start,initial]

theorem noEarlierRows_start : NoEarlierRows (start : State E) := by
  simp [NoEarlierRows,start]

/-- Whatever the order in which keys, answers and catalogs come in, the last query is shown
throughout exactly when each answer is taken alone, and without rows of an earlier one exactly
when errors also come first. -/
theorem showsLatest_iff (as : List Action) :
    (Always step ShowsLatest as (start : State E) ↔ Meets step TakesAlone as (start : State E)) ∧
    (Always step (fun s => ShowsLatest s ∧ NoEarlierRows s) as (start : State E) ↔
      Meets step (fun a s => TakesAlone a s ∧ TakesErrorFirst a s) as (start : State E)) := by
  constructor
  · apply always_iff_meets fun s (hs : ShowsLatest s ∧ Pending s) => hs.1
    · exact fun a s h => (steady_of_stuck h).1
    · exact fun a s t hs h => showsLatest_step hs.1 hs.2 h
    · exact fun a s t hs h ht => ⟨ht,pending_step hs.2 h⟩
    · exact ⟨showsLatest_start,pending_start⟩
  · apply always_iff_meets fun s (hs : (ShowsLatest s ∧ NoEarlierRows s) ∧ Pending s) => hs.1
    · exact fun a s h => steady_of_stuck h
    · intro a s t hs h
      rw [← showsLatest_step hs.1.1 hs.2 h]
      exact and_congr_right fun ht => noEarlierRows_step hs.1.1 hs.2 hs.1.2 ht h
    · exact fun a s t hs h ht => ⟨ht,pending_step hs.2 h⟩
    · exact ⟨⟨showsLatest_start,noEarlierRows_start⟩,pending_start⟩

/-! ### An answer that is overtaken -/

/-- An editor of one line, which takes the characters that are typed. -/
structure LineEditor where
  line : String

instance : TextArea LineEditor where
  empty := ⟨""⟩
  input key editor :=
    match key.code with
    | .char c => ⟨editor.line.push c⟩
    | _ => editor
  lines editor := [editor.line]

def selectAnswer (n : ℕ) : QueryResponse := ⟨.ofByte n,["n"],[[.number n.repr]],1⟩

/-- Two queries, of which the second is answered first. -/
def overtaking : List Action :=
  [.press ⟨.none,.char '1'⟩,.receive,.press ⟨.none,.f 5⟩,.receive,.press ⟨.none,.f 5⟩,.receive,
    .answer 1 (.ok (selectAnswer 2)),.answer 0 (.ok (selectAnswer 1)),.receive,.receive]

theorem selectAnswer_one_ne : selectAnswer 1 ≠ selectAnswer 2 := by
  intro h
  exact absurd (congrArg QueryResponse.queryId h) (by decide)

/-- The first answer ends the loading while the other is in flight, which then replaces it. -/
theorem overtaken_answer_shown :
    (∃ s, run step overtaking.dropLast (start : State LineEditor) = some s ∧
      s.app.isLoading = false ∧ .queryResult (.ok (selectAnswer 1)) ∈ s.queue) ∧
    (∃ s, run step overtaking (start : State LineEditor) = some s ∧ s.app.isLoading = false ∧
      s.queries.getLast? = some (.answered (.ok (selectAnswer 2))) ∧
      s.app.results = some (selectAnswer 1)) ∧
    ¬Always step ShowsLatest overtaking (start : State LineEditor) := by
  have hlate : ∃ s, run step overtaking.dropLast (start : State LineEditor) = some s ∧
      s.app.isLoading = false ∧ .queryResult (.ok (selectAnswer 1)) ∈ s.queue :=
    ⟨_,rfl,rfl,.head _⟩
  have hreplaced : ∃ s, run step overtaking (start : State LineEditor) = some s ∧
      s.app.isLoading = false ∧
      s.queries.getLast? = some (.answered (.ok (selectAnswer 2))) ∧
      s.app.results = some (selectAnswer 1) := ⟨_,rfl,rfl,rfl,rfl⟩
  refine ⟨hlate,hreplaced,fun h => ?_⟩
  obtain ⟨s,hrun,hloading,hlast,hresults⟩ := hreplaced
  have hshown := (always_iff.mp h overtaking s List.prefix_rfl hrun).shown hloading _ hlast
  exact selectAnswer_one_ne (Option.some.inj (hresults.symm.trans hshown))

end Tui
end Elan
