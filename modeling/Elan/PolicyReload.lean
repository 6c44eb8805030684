import Elan.IamSvc
import Elan.TransitionSystem

/-! Concurrent policy writes. Each request writes, reads the policy table and swaps the
engine's snapshot, and other requests may take steps between these. -/
namespace Elan
namespace PolicyReload

open TransitionSystem Table

variable {ι : Type} [DecidableEq ι]

inductive Task
  | create (p : PolicyProto)
  | insertSubject (p : PolicyProto)
  | insertPolicy (p : PolicyProto) (subjectId : String)
  | delete (policyId : String)
  | list
  | reload (policies : List Policy)
  | answered
  | failed (e : StoreError)
  deriving DecidableEq

def Task.isReload : Task → Bool
  | .reload _ => true
  | _ => false

structure State (ι : Type) where
  store : IamTables
  engine : SnapshotIamEngine
  tasks : ι → Task

structure Action (ι : Type) where
  request : ι
  choices : Choices

def State.goto (s : State ι) (i : ι) (t : Task) : State ι :=
  { s with tasks := Function.update s.tasks i t }

@[simp] theorem goto_self (s : State ι) (i : ι) (t : Task) : (s.goto i t).tasks i = t :=
  Function.update_self ..

def State.write (s : State ι) (i : ι) (r : Except StoreError IamTables) (t : Task) : State ι :=
  match r with
  | .error e => s.goto i (.failed e)
  | .ok store => { s.goto i t with store }

def policyRow (p : PolicyProto) (policyId subjectId : String) : PolicyRow :=
  ⟨policyId,subjectId,p.resourcePattern,p.action,effectText p.effect,optionalText p.rowFilter,
    optionalText p.columnMaskJson,p.priority.toInt64⟩

def step (a : Action ι) (s : State ι) : Option (State ι) :=
  let i := a.request
  match s.tasks i with
  | .create p =>
    match s.store.selectSubjectId p.subjectName with
    | some subjectId => some (s.goto i (.insertPolicy p subjectId))
    | none => some (s.goto i (.insertSubject p))
  | .insertSubject p =>
    let id := a.choices.firstUuid.toString
    some (s.write i (s.store.insertSubject ⟨id,p.subjectType,p.subjectName⟩) (.insertPolicy p id))
  | .insertPolicy p subjectId =>
    let id := a.choices.secondUuid.toString
    some (s.write i (s.store.insertPolicy (policyRow p id subjectId)) .list)
  | .delete policyId => some (s.write i (.ok (s.store.deletePolicy policyId)) .list)
  | .list =>
    match IamStore.listPolicies a.choices.order s.store none with
    | .error e => some (s.goto i (.failed e))
    | .ok policies => some (s.goto i (.reload policies))
  | .reload policies => some { s.goto i .answered with engine := s.engine.reload policies }
  | .answered | .failed _ => none

/-- The policies are the rows of the policy table, in some order. -/
def Persisted (t : IamTables) (policies : List Policy) : Prop :=
  ∃ ps, decodeRows t.joined = .ok ps ∧ policies.Perm ps

def InSync (s : State ι) : Prop := Persisted s.store s.engine.policies

def Received (s : State ι) : Prop :=
  ∀ i, (∃ p, s.tasks i = .create p) ∨ ∃ policyId, s.tasks i = .delete policyId

def Completed (s : State ι) : Prop := ∀ i, s.tasks i = .answered ∨ ∃ e, s.tasks i = .failed e

/-! ### One request alone -/

def State.svc (s : State ι) : IamSvc := ⟨s.store,s.engine⟩

/-- Without others in between, request `i` comes to its end and leaves the service as `r`. -/
def EndsAs {α : Type} (i : ι) (c : Choices) (s : State ι) (r : Except StoreError α × IamSvc) :
    Prop :=
  ∃ n s', run step (List.replicate n ⟨i,c⟩) s = some s' ∧ s'.svc = r.2 ∧
    match r.1 with
    | .ok _ => s'.tasks i = .answered
    | .error e => s'.tasks i = .failed e

section
variable {α : Type} {i : ι} {c : Choices} {s t : State ι} {svc : IamSvc}

theorem EndsAs.step {r : Except StoreError α × IamSvc} (h : EndsAs i c t r)
    (hstep : step ⟨i,c⟩ s = some t) : EndsAs i c s r := by
  obtain ⟨n,s',hrun,hr⟩ := h
  exact ⟨n+1,s',run_cons.mpr ⟨t,hstep,hrun⟩,hr⟩

theorem endsAs_failed {e : StoreError} (hi : s.tasks i = .failed e) (hsvc : s.svc = svc) :
    EndsAs i c s ((.error e : Except StoreError α),svc) :=
  ⟨0,s,rfl,hsvc,hi⟩

theorem endsAs_answered {a : α} (hi : s.tasks i = .answered) (hsvc : s.svc = svc) :
    EndsAs i c s ((.ok a : Except StoreError α),svc) :=
  ⟨0,s,rfl,hsvc,hi⟩

/-- What is left after a write is the reload of the engine. -/
theorem endsAs_list (hi : s.tasks i = .list) : EndsAs i c s (s.svc.reloadEngine c.order) := by
  cases hl : IamStore.listPolicies c.order s.store none with
  | error e =>
    have hread : step ⟨i,c⟩ s = some (s.goto i (.failed e)) := by simp [step,hi,hl]
    have hreload : s.svc.reloadEngine c.order = (.error e,s.svc) := by
      simp [IamSvc.reloadEngine,State.svc,hl]
    rw [hreload]
    exact (endsAs_failed (goto_self ..) rfl).step hread
  | ok policies =>
    have hread : step ⟨i,c⟩ s = some (s.goto i (.reload policies)) := by simp [step,hi,hl]
    have hswap : step ⟨i,c⟩ (s.goto i (.reload policies)) = some
        { (s.goto i (.reload policies)).goto i .answered with engine := ⟨policies⟩ } := by
      simp [step,SnapshotIamEngine.reload,State.goto]
    have hreload : s.svc.reloadEngine c.order = (.ok (),⟨s.store,⟨policies⟩⟩) := by
      simp [IamSvc.reloadEngine,State.svc,hl,SnapshotIamEngine.reload]
    rw [hreload]
    refine EndsAs.step ?_ hread
    refine EndsAs.step ?_ hswap
    exact endsAs_answered (goto_self (s.goto i (.reload policies)) i .answered) rfl

theorem EndsAs.map {r : Except StoreError Unit × IamSvc} (a : α) (h : EndsAs i c s r) :
    EndsAs i c s (match r with
      | (.error e,svc) => ((.error e : Except StoreError α),svc)
      | (.ok _,svc) => (.ok a,svc)) := by
  obtain ⟨_ | _,svc⟩ := r <;> exact h

theorem endsAs_delete {policyId : String} (hi : s.tasks i = .delete policyId) :
    EndsAs i c s (s.svc.deletePolicy c policyId) := by
  have hwrite : step ⟨i,c⟩ s =
      some { s.goto i .list with store := s.store.deletePolicy policyId } := by
    simp [step,hi,State.write]
  refine EndsAs.step ?_ hwrite
  exact endsAs_list (goto_self s i .list)

theorem endsAs_insertPolicy {p : PolicyProto} {subjectId : String}
    (hi : s.tasks i = .insertPolicy p subjectId) : EndsAs i c s
      (match s.store.insertPolicy (policyRow p c.secondUuid.toString subjectId) with
      | .error e => (.error e,s.svc)
      | .ok t =>
        match IamSvc.reloadEngine ⟨t,s.engine⟩ c.order with
        | (.error e,svc) => (.error e,svc)
        | (.ok _,svc) => (.ok c.secondUuid.toString,svc)) := by
  cases hins : s.store.insertPolicy (policyRow p c.secondUuid.toString subjectId) with
  | error e =>
    have hwrite : step ⟨i,c⟩ s = some (s.goto i (.failed e)) := by simp [step,hi,hins,State.write]
    exact EndsAs.step (endsAs_failed (goto_self ..) rfl) hwrite
  | ok t =>
    have hwrite : step ⟨i,c⟩ s = some { s.goto i .list with store := t } := by
      simp [step,hi,hins,State.write]
    refine EndsAs.step ?_ hwrite
    have hlist : ({ s.goto i .list with store := t } : State ι).tasks i = .list :=
      goto_self s i .list
    exact (endsAs_list hlist).map c.secondUuid.toString

theorem createPolicy_eq {store t : IamTables} {engine : SnapshotIamEngine} {p : PolicyProto}
    {subjectId : String} (h : IamStore.getOrCreateSubject store c.firstUuid p.subjectType
      p.subjectName = (.ok subjectId,t)) : IamSvc.createPolicy ⟨store,engine⟩ c p =
      match t.insertPolicy (policyRow p c.secondUuid.toString subjectId) with
      | .error e => (.error e,⟨t,engine⟩)
      | .ok t =>
        match IamSvc.reloadEngine ⟨t,engine⟩ c.order with
        | (.error e,svc) => (.error e,svc)
        | (.ok _,svc) => (.ok c.secondUuid.toString,svc) := by
  simp only [IamSvc.createPolicy,IamStore.createPolicy,h,policyRow]
  cases t.insertPolicy _ <;> rfl

theorem endsAs_insertSubject {p : PolicyProto} (hi : s.tasks i = .insertSubject p)
    (hid : s.store.selectSubjectId p.subjectName = none) :
    EndsAs i c s (s.svc.createPolicy c p) := by
  cases hins : s.store.insertSubject ⟨c.firstUuid.toString,p.subjectType,p.subjectName⟩ with
  | error e =>
    have hwrite : step ⟨i,c⟩ s = some (s.goto i (.failed e)) := by simp [step,hi,hins,State.write]
    have hcreate : s.svc.createPolicy c p = (.error e,s.svc) := by
      simp [IamSvc.createPolicy,IamStore.createPolicy,IamStore.getOrCreateSubject,
        IamStore.createSubject,State.svc,hid,hins]
    rw [hcreate]
    exact EndsAs.step (endsAs_failed (goto_self ..) rfl) hwrite
  | ok t =>
    let next := Task.insertPolicy p c.firstUuid.toString
    have hwrite : step ⟨i,c⟩ s = some { s.goto i next with store := t } := by
      simp [step,hi,hins,State.write,next]
    have hget : IamStore.getOrCreateSubject s.store c.firstUuid p.subjectType p.subjectName =
        (.ok c.firstUuid.toString,t) := by
      simp [IamStore.getOrCreateSubject,IamStore.createSubject,hid,hins]
    have hnext : ({ s.goto i next with store := t } : State ι).tasks i = next := goto_self s i next
    rw [State.svc,createPolicy_eq hget]
    refine EndsAs.step ?_ hwrite
    exact endsAs_insertPolicy hnext

/-- The handler of the service is its statements one after the other. -/
theorem endsAs_create {p : PolicyProto} (hi : s.tasks i = .create p) :
    EndsAs i c s (s.svc.createPolicy c p) := by
  cases hid : s.store.selectSubjectId p.subjectName with
  | some subjectId =>
    have hlookup : step ⟨i,c⟩ s = some (s.goto i (.insertPolicy p subjectId)) := by
      simp [step,hi,hid]
    have hget : IamStore.getOrCreateSubject s.store c.firstUuid p.subjectType p.subjectName =
        (.ok subjectId,s.store) := by
      simp [IamStore.getOrCreateSubject,hid]
    rw [State.svc,createPolicy_eq hget]
    refine EndsAs.step ?_ hlookup
    exact endsAs_insertPolicy (goto_self s i (.insertPolicy p subjectId))
  | none =>
    have hlookup : step ⟨i,c⟩ s = some (s.goto i (.insertSubject p)) := by simp [step,hi,hid]
    refine EndsAs.step ?_ hlookup
    exact endsAs_insertSubject (goto_self s i (.insertSubject p)) hid

end

/-! ### Which writes a list reflects -/

/-- How often the policy table was changed, and how many of these writes the installed
list and the list each request has read reflect. -/
structure Stamps (ι : Type) where
  writes : ℕ
  installed : ℕ
  read : ι → ℕ

def Stamps.start : Stamps ι := ⟨0,0,fun _ => 0⟩

/-- The task a request is left with tells what it has just done. A deletion that finds no policy is
no write. -/
def stamp (a : Action ι) (before s : State ι) (h : Stamps ι) : Stamps ι :=
  match s.tasks a.request with
  | .list =>
    if s.store.policies = before.store.policies then h else { h with writes := h.writes + 1 }
  | .reload _ => { h with read := Function.update h.read a.request h.writes }
  | .answered => { h with installed := h.read a.request }
  | _ => h

/-- No request installs a list that reflects fewer writes than the one it replaces. -/
def InOrder (a : Action ι) (x : State ι × Stamps ι) : Prop :=
  (x.1.tasks a.request).isReload = true → x.2.installed ≤ x.2.read a.request

instance (a : Action ι) (x : State ι × Stamps ι) : Decidable (InOrder a x) :=
  inferInstanceAs (Decidable (_ → _))

/-- A list that reflects all writes is the table; if the installed one does not, a request
is still on its way to read the table or to install such a list. -/
structure Inv (x : State ι × Stamps ι) : Prop where
  readable : x.1.store.Readable
  installed_le : x.2.installed ≤ x.2.writes
  read_le : ∀ i ps, x.1.tasks i = .reload ps → x.2.read i ≤ x.2.writes
  latest : ∀ i ps, x.1.tasks i = .reload ps → x.2.read i = x.2.writes → Persisted x.1.store ps
  current : x.2.installed = x.2.writes → InSync x.1
  pending : x.2.installed = x.2.writes ∨ ∃ i, x.1.tasks i = .list ∨
    ∃ ps, x.1.tasks i = .reload ps ∧ x.2.read i = x.2.writes

/-! ### What a step does -/

/-- Before the policy table is written: nothing to list or install yet. -/
def Task.Preparing : Task → Prop
  | .list | .reload _ | .answered => False
  | _ => True

/-- The effect of a step of request `i`: it prepares or fails, writes the policy table,
reads it, or installs what it has read. -/
inductive Effect (i : ι) (s s' : State ι) : Prop
  | prepared (t : Task) (hfrom : (s.tasks i).Preparing) (hto : t.Preparing)
    (htasks : s'.tasks = Function.update s.tasks i t) (hengine : s'.engine = s.engine)
    (hpolicies : s'.store.policies = s.store.policies) (hjoined : s'.store.joined = s.store.joined)
  | wrote (hfrom : (s.tasks i).Preparing) (htasks : s'.tasks = Function.update s.tasks i .list)
    (hengine : s'.engine = s.engine) (hreadable : s'.store.Readable)
    (hsame : s'.store.policies = s.store.policies → s'.store.joined = s.store.joined)
  | read (policies : List Policy) (hfrom : s.tasks i = .list)
    (htasks : s'.tasks = Function.update s.tasks i (.reload policies))
    (hengine : s'.engine = s.engine) (hstore : s'.store = s.store)
    (hpersisted : Persisted s.store policies)
  | installed (policies : List Policy) (hfrom : s.tasks i = .reload policies)
    (htasks : s'.tasks = Function.update s.tasks i .answered)
    (hengine : s'.engine = ⟨policies⟩) (hstore : s'.store = s.store)

theorem listPolicies_persisted {order : QueryOrder} {t : IamTables} {ps : List Policy}
    (h : IamStore.listPolicies order t none = .ok ps) : Persisted t ps := by
  have hall : IamStore.listPolicies order t none = decodeRows (order.rows t) := by
    simp [IamStore.listPolicies]
  obtain ⟨qs,hqs,hperm⟩ := decodeRows_perm (order.answers t).1 (hall ▸ h)
  exact ⟨qs,hqs,hperm⟩

theorem listPolicies_of_readable (order : QueryOrder) {t : IamTables} (h : t.Readable) :
    ∃ ps, IamStore.listPolicies order t none = .ok ps := by
  obtain ⟨ps,hps⟩ := h.decodeRows fun r hr => (order.answers t).mem_iff.mp hr
  exact ⟨ps,by simpa [IamStore.listPolicies] using hps⟩

theorem readable_insertPolicy {t t' : IamTables} {p : PolicyProto} {id : Uuid}
    {subjectId : String} (ht : t.Readable)
    (h : t.insertPolicy (policyRow p id.toString subjectId) = .ok t') : t'.Readable := by
  obtain ⟨-,-,-,hpolicies⟩ := IamTables.insertPolicy_eq_ok h
  unfold IamTables.Readable
  rw [hpolicies]
  exact forall_mem_concat ht ⟨id,Uuid.parseStr_toString id⟩

theorem step_effect {a : Action ι} {s s' : State ι} (hread : s.store.Readable)
    (h : step a s = some s') : Effect a.request s s' := by
  cases ht : s.tasks a.request with
  | create p =>
    cases hid : s.store.selectSubjectId p.subjectName with
    | none =>
      simp only [step,ht,hid,Option.some.injEq] at h
      subst h
      exact .prepared (.insertSubject p) (ht ▸ trivial) trivial rfl rfl rfl rfl
    | some id =>
      simp only [step,ht,hid,Option.some.injEq] at h
      subst h
      exact .prepared (.insertPolicy p id) (ht ▸ trivial) trivial rfl rfl rfl rfl
  | insertSubject p =>
    simp only [step,ht,Option.some.injEq] at h
    subst h
    cases hins : s.store.insertSubject _ with
    | error e => exact .prepared (.failed e) (ht ▸ trivial) trivial rfl rfl rfl rfl
    | ok t =>
      exact .prepared (.insertPolicy p a.choices.firstUuid.toString) (ht ▸ trivial) trivial
        rfl rfl (IamTables.insertSubject_eq_ok hins).2.2.2.2
        (IamTables.joined_insertSubject hins)
  | insertPolicy p subjectId =>
    simp only [step,ht,Option.some.injEq] at h
    subst h
    cases hins : s.store.insertPolicy _ with
    | error e => exact .prepared (.failed e) (ht ▸ trivial) trivial rfl rfl rfl rfl
    | ok t =>
      refine .wrote (ht ▸ trivial) rfl rfl (readable_insertPolicy hread hins) ?_
      intro (hsame : t.policies = s.store.policies)
      rw [(IamTables.insertPolicy_eq_ok hins).2.2.2] at hsame
      simp at hsame
  | delete policyId =>
    simp only [step,ht,Option.some.injEq] at h
    subst h
    refine .wrote (ht ▸ trivial) rfl rfl (fun p hp => hread p (List.mem_of_mem_filter hp)) ?_
    intro (hsame : (s.store.deletePolicy policyId).policies = s.store.policies)
    show (s.store.deletePolicy policyId).joined = s.store.joined
    rw [IamTables.joined,hsame]
    rfl
  | list =>
    obtain ⟨ps,hps⟩ := listPolicies_of_readable a.choices.order hread
    simp only [step,ht,hps,Option.some.injEq] at h
    subst h
    exact .read ps ht rfl rfl rfl (listPolicies_persisted hps)
  | reload policies =>
    simp only [step,ht,Option.some.injEq] at h
    subst h
    exact .installed policies ht rfl rfl rfl
  | answered => simp [step,ht] at h
  | failed e => simp [step,ht] at h

theorem Persisted.congr {t t' : IamTables} {ps : List Policy} (h : Persisted t ps)
    (hjoined : t'.joined = t.joined) : Persisted t' ps := by
  unfold Persisted
  rw [hjoined]
  exact h

theorem readable_congr {t t' : IamTables} (h : t.Readable) (hpolicies : t'.policies = t.policies) :
    t'.Readable := by
  unfold IamTables.Readable
  rw [hpolicies]
  exact h

theorem Persisted.readable {t : IamTables} {ps : List Policy} (h : Persisted t ps) :
    t.Readable := by
  obtain ⟨qs,hqs,-⟩ := h
  intro p hp
  obtain ⟨s,hs,hid⟩ := List.mem_map.mp (t.policy_subjects p hp)
  have hmem : (p,s) ∈ t.joined := IamTables.mem_joined.mpr ⟨hp,hs,hid⟩
  obtain ⟨q,-,hq⟩ := exists_decodeRow hqs hmem
  exact ⟨q.id,decodeRow_eq_ok hq⟩

/-! ### The invariant -/

theorem reload_of_update {tasks : ι → Task} {i j : ι} {t : Task} {ps : List Policy}
    (ht : ∀ ps, t ≠ .reload ps) (h : Function.update tasks i t j = .reload ps) :
    tasks j = .reload ps := by
  by_cases hj : j = i
  · subst hj
    rw [Function.update_self] at h
    exact absurd h (ht ps)
  · rwa [Function.update_of_ne hj] at h

/-- A request that waits to list or to install still waits after a step of another. -/
theorem update_of_waiting {tasks : ι → Task} {i j : ι} (t : Task) (hi : (tasks i).Preparing)
    (hj : ¬ (tasks j).Preparing) : Function.update tasks i t j = tasks j :=
  Function.update_of_ne (by rintro rfl; exact hj hi) _ _

theorem Inv.prepare {i : ι} {s s' : State ι} {h : Stamps ι} {t : Task} (hx : Inv (s,h))
    (hfrom : (s.tasks i).Preparing) (hto : t.Preparing)
    (htasks : s'.tasks = Function.update s.tasks i t) (hengine : s'.engine = s.engine)
    (hpolicies : s'.store.policies = s.store.policies)
    (hjoined : s'.store.joined = s.store.joined) : Inv (s',h) := by
  have hne : ∀ ps, t ≠ .reload ps := by
    intro ps ht
    rw [ht] at hto
    exact hto
  have hold : ∀ j ps, s'.tasks j = .reload ps → s.tasks j = .reload ps := fun j ps hj =>
    reload_of_update hne (htasks ▸ hj)
  refine ⟨readable_congr hx.readable hpolicies,hx.installed_le,
    fun j ps hj => hx.read_le j ps (hold j ps hj),?_,?_,?_⟩
  · intro j ps hj hr
    exact (hx.latest j ps (hold j ps hj) hr).congr hjoined
  · intro hi
    rw [InSync,hengine]
    exact (hx.current hi).congr hjoined
  · refine hx.pending.imp_right fun ⟨j,hj⟩ => ⟨j,?_⟩
    simp only at hj ⊢
    have hwait : ¬ (s.tasks j).Preparing := by
      rcases hj with hj | ⟨ps,hj,-⟩ <;> simp [hj,Task.Preparing]
    rwa [htasks,update_of_waiting t hfrom hwait]

/-- No list reflects the write yet, and the writer is on its way to read the table. -/
theorem Inv.write {i : ι} {s s' : State ι} {h : Stamps ι} (hx : Inv (s,h))
    (htasks : s'.tasks = Function.update s.tasks i .list) (hreadable : s'.store.Readable) :
    Inv (s',{ h with writes := h.writes + 1 }) := by
  have hold : ∀ j ps, s'.tasks j = .reload ps → h.read j ≤ h.writes := fun j ps hj =>
    hx.read_le j ps (reload_of_update (by simp) (htasks ▸ hj))
  have hile : h.installed ≤ h.writes := hx.installed_le
  refine ⟨hreadable,Nat.le_succ_of_le hile,fun j ps hj => Nat.le_succ_of_le (hold j ps hj),
    ?_,?_,.inr ⟨i,.inl (by simp only [htasks,Function.update_self])⟩⟩
  · intro j ps hj hr
    have hle := hold j ps hj
    simp only at hr
    omega
  · intro hi
    simp only at hi
    omega

/-- A write that changes nothing is reflected by every list that reflects the earlier ones. -/
theorem Inv.unchanged {i : ι} {s s' : State ι} {h : Stamps ι} (hx : Inv (s,h))
    (htasks : s'.tasks = Function.update s.tasks i .list) (hengine : s'.engine = s.engine)
    (hreadable : s'.store.Readable) (hjoined : s'.store.joined = s.store.joined) :
    Inv (s',h) := by
  have hold : ∀ j ps, s'.tasks j = .reload ps → s.tasks j = .reload ps := fun j ps hj =>
    reload_of_update (by simp) (htasks ▸ hj)
  refine ⟨hreadable,hx.installed_le,fun j ps hj => hx.read_le j ps (hold j ps hj),
    fun j ps hj hr => (hx.latest j ps (hold j ps hj) hr).congr hjoined,?_,
    .inr ⟨i,.inl (by simp only [htasks,Function.update_self])⟩⟩
  intro hi
  rw [InSync,hengine]
  exact (hx.current hi).congr hjoined

theorem Inv.read {i : ι} {s s' : State ι} {h : Stamps ι} {policies : List Policy}
    (hx : Inv (s,h)) (htasks : s'.tasks = Function.update s.tasks i (.reload policies))
    (hengine : s'.engine = s.engine) (hstore : s'.store = s.store)
    (hpersisted : Persisted s.store policies) :
    Inv (s',{ h with read := Function.update h.read i h.writes }) := by
  have hself : s'.tasks i = .reload policies := by rw [htasks,Function.update_self]
  have hother : ∀ j ps, j ≠ i → s'.tasks j = .reload ps → s.tasks j = .reload ps := by
    intro j ps hji hj
    rwa [htasks,Function.update_of_ne hji] at hj
  refine ⟨hstore ▸ hx.readable,hx.installed_le,?_,?_,?_,
    .inr ⟨i,.inr ⟨policies,hself,Function.update_self ..⟩⟩⟩
  · intro j ps hj
    by_cases hji : j = i
    · simp [hji]
    · simpa [Function.update_of_ne hji] using hx.read_le j ps (hother j ps hji hj)
  · intro j ps hj hr
    simp only [hstore]
    by_cases hji : j = i
    · subst hji
      obtain rfl := Task.reload.inj (hself.symm.trans hj)
      exact hpersisted
    · simp only [Function.update_of_ne hji] at hr
      exact hx.latest j ps (hother j ps hji hj) hr
  · intro hi
    rw [InSync,hengine,hstore]
    exact hx.current hi

/-- Installing the latest list brings the engine up to date; with an older one some other
request is still on its way, since the list that is replaced was not the latest either. -/
theorem Inv.install {i : ι} {s s' : State ι} {h : Stamps ι} {policies : List Policy}
    (hx : Inv (s,h)) (hok : h.installed ≤ h.read i) (hfrom : s.tasks i = .reload policies)
    (htasks : s'.tasks = Function.update s.tasks i .answered) (hengine : s'.engine = ⟨policies⟩)
    (hstore : s'.store = s.store) : Inv (s',{ h with installed := h.read i }) := by
  have hold : ∀ j ps, s'.tasks j = .reload ps → s.tasks j = .reload ps := fun j ps hj =>
    reload_of_update (by simp) (htasks ▸ hj)
  have hle : h.read i ≤ h.writes := hx.read_le i policies hfrom
  refine ⟨hstore ▸ hx.readable,hle,fun j ps hj => hx.read_le j ps (hold j ps hj),
    fun j ps hj hr => hstore ▸ hx.latest j ps (hold j ps hj) hr,?_,?_⟩
  · intro hi
    rw [InSync,hengine,hstore]
    exact hx.latest i policies hfrom hi
  · by_cases hi : h.read i = h.writes
    · exact .inl hi
    · obtain hcur | ⟨j,hj⟩ := hx.pending
      · simp only at hcur
        omega
      · refine .inr ⟨j,?_⟩
        simp only at hj ⊢
        have hji : j ≠ i := by
          intro hji
          subst hji
          rcases hj with hj | ⟨ps,-,hr⟩
          · rw [hfrom] at hj
            cases hj
          · exact hi hr
        rwa [htasks,Function.update_of_ne hji]

theorem inv_step {a : Action ι} {x y : State ι × Stamps ι} (hx : Inv x) (hok : InOrder a x)
    (h : withHistory step stamp a x = some y) : Inv y := by
  obtain ⟨s,h₁⟩ := x
  obtain ⟨s',h₂⟩ := y
  obtain ⟨hstep,hstamp⟩ := withHistory_eq_some.mp h
  simp only at hstep hstamp
  subst hstamp
  cases step_effect hx.readable hstep with
  | prepared t hfrom hto htasks hengine hpolicies hjoined =>
    have hstamp : stamp a s s' h₁ = h₁ := by
      rw [stamp,htasks,Function.update_self]
      cases t <;> simp_all [Task.Preparing]
    rw [hstamp]
    exact hx.prepare hfrom hto htasks hengine hpolicies hjoined
  | wrote hfrom htasks hengine hreadable hsame =>
    rw [stamp,htasks,Function.update_self]
    show Inv (s',if s'.store.policies = s.store.policies then h₁ else _)
    split_ifs with hpolicies
    · exact hx.unchanged htasks hengine hreadable (hsame hpolicies)
    · exact hx.write htasks hreadable
  | read policies hfrom htasks hengine hstore hpersisted =>
    rw [stamp,htasks,Function.update_self]
    exact hx.read htasks hengine hstore hpersisted
  | installed policies hfrom htasks hengine hstore =>
    have hreload : (s.tasks a.request).isReload = true := by
      rw [show s.tasks a.request = .reload policies from hfrom]
      rfl
    rw [stamp,htasks,Function.update_self]
    exact hx.install (hok hreload) hfrom htasks hengine hstore

omit [DecidableEq ι] in
theorem inv_start {s : State ι} (hsync : InSync s) (hreceived : Received s) :
    Inv (s,Stamps.start) := by
  refine ⟨hsync.readable,le_rfl,fun i ps hi => ?_,fun i ps hi => ?_,fun _ => hsync,.inl rfl⟩
  all_goals
    simp only at hi
    rcases hreceived i with ⟨p,hp⟩ | ⟨policyId,hp⟩ <;> rw [hp] at hi <;> cases hi

omit [DecidableEq ι] in
/-- Once every request is answered nothing is on its way, so the installed list is the latest. -/
theorem Inv.inSync {x : State ι × Stamps ι} (h : Inv x) (hdone : Completed x.1) : InSync x.1 := by
  refine h.current (h.pending.resolve_right ?_)
  rintro ⟨i,hi⟩
  rcases hdone i with hd | ⟨e,hd⟩ <;> simp [hd] at hi

def denyAccounts : PolicyProto :=
  ⟨"","*","user","finance.accounts","SELECT",1,"","",100⟩

/-- The migrated database, its policies loaded, with a deletion and a creation received. -/
def migrated : State Bool where
  store := .seed
  engine := ⟨[⟨.ofByte 2,"*",.user,"*","SELECT",.allow,none,none,0⟩]⟩
  tasks i := if i then .create denyAccounts else .delete "no-such-policy"

def advance (request : Bool) : Action Bool := ⟨request,.ofByte 3,.ofByte 4,storageOrder⟩

theorem migrated_inSync : InSync migrated := ⟨_,by rfl,.refl _⟩

theorem migrated_received : Received migrated := by
  rintro (_ | _)
  · exact .inr ⟨_,rfl⟩
  · exact .inl ⟨_,rfl⟩

def bothAnswered (s : State Bool) : Bool :=
  s.tasks false = .answered && s.tasks true = .answered

theorem answered_of_bothAnswered {s : State Bool} (h : bothAnswered s = true) (i : Bool) :
    s.tasks i = .answered := by
  simp only [bothAnswered,Bool.and_eq_true,decide_eq_true_eq] at h
  cases i
  · exact h.1
  · exact h.2

/-- If every reload installs a list at least as recent as the one it replaces, the engine
holds the policies of the database whenever all requests are answered. -/
theorem inSync_of_inOrder {s s' : State ι} {as : List (Action ι)} (hsync : InSync s)
    (hreceived : Received s) (hok : Meets (withHistory step stamp) InOrder as (s,Stamps.start))
    (hrun : run step as s = some s') (hdone : Completed s') : InSync s' := by
  obtain ⟨h,hh⟩ := exists_run_withHistory stamp Stamps.start hrun
  have hinv : Inv (s',h) :=
    run_invariant (fun a x y hx hok hxy => inv_step hx hok hxy) (inv_start hsync hreceived) hok hh
  exact hinv.inSync hdone

/-- The creation starts before the deletion is answered, but installs its list later. -/
theorem inSync_in_turn : ∃ s, run step [advance false,advance true,advance false,advance false,
    advance true,advance true,advance true] migrated = some s ∧ InSync s := by
  have hrun : (run step [advance false,advance true,advance false,advance false,
      advance true,advance true,advance true] migrated).any bothAnswered = true := by decide
  obtain ⟨s,hs,hdone⟩ := Option.any_eq_true _ _ |>.mp hrun
  exact ⟨s,hs,inSync_of_inOrder migrated_inSync migrated_received (by decide) hs
    fun i => .inl (answered_of_bothAnswered hdone i)⟩

/-- The deletion reads the table before the new policy is in it, and installs what it read
after the creation has installed the table with the new policy. -/
def overtaking : List (Action Bool) :=
  [advance false,advance false,advance true,advance true,advance true,advance true,advance false]

/-- The accepted Deny policy is in the database and not in the engine. -/
theorem reload_loses_policy :
    ¬ ∀ (s s' : State Bool) (as : List (Action Bool)), InSync s → Received s →
      run step as s = some s' → (∀ i, s'.tasks i = .answered) → InSync s' := by
  intro hall
  have hrun : (run step overtaking migrated).any (fun s =>
      bothAnswered s && s.engine.policies.length != s.store.joined.length) = true := by
    decide
  obtain ⟨s,hs,h⟩ := Option.any_eq_true _ _ |>.mp hrun
  simp only [Bool.and_eq_true,bne_iff_ne] at h
  obtain ⟨ps,hps,hperm⟩ := hall _ _ _ migrated_inSync migrated_received hs
    (answered_of_bothAnswered h.1)
  exact h.2 (hperm.length_eq.trans (decodeRows_eq_ok.mp hps).length_eq.symm)

end PolicyReload
end Elan
