import Elan.PolicyReload

/-! Policy writes whose statements may fail, one by one. What an earlier statement has written
stays, and the engine keeps its snapshot when the policies cannot be read. -/
namespace Elan
namespace PolicyFailure

open Table PolicyReload

inductive Statement
  | selectSubject
  | insertSubject
  | insertPolicy
  | deletePolicy
  | listPolicies
  deriving DecidableEq

/-- What a call fails with: a statement that could not be run, or one that was refused. -/
inductive CallError
  | statement (s : Statement)
  | store (e : StoreError)
  deriving DecidableEq

def attempt {α : Type} (fails : Statement → Bool) (s : Statement) (r : Except StoreError α) :
    Except CallError α :=
  if fails s then .error (.statement s) else r.mapError .store

section
variable (fails : Statement → Bool) (svc : IamSvc) (c : Choices)

def reloadEngine : Except CallError Unit × IamSvc :=
  match attempt fails .listPolicies (IamStore.listPolicies c.order svc.store none) with
  | .error e => (.error e,svc)
  | .ok policies => (.ok (),{ svc with engine := svc.engine.reload policies })

def insertPolicy (p : PolicyProto) (subjectId : String) : Except CallError String × IamSvc :=
  match attempt fails .insertPolicy
    (svc.store.insertPolicy (policyRow p c.secondUuid.toString subjectId)) with
  | .error e => (.error e,svc)
  | .ok store =>
    match reloadEngine fails { svc with store } c with
    | (.error e,svc) => (.error e,svc)
    | (.ok _,svc) => (.ok c.secondUuid.toString,svc)

def createPolicy (p : PolicyProto) : Except CallError String × IamSvc :=
  match attempt fails .selectSubject (.ok (svc.store.selectSubjectId p.subjectName)) with
  | .error e => (.error e,svc)
  | .ok (some subjectId) => insertPolicy fails svc c p subjectId
  | .ok none =>
    match attempt fails .insertSubject
      (svc.store.insertSubject ⟨c.firstUuid.toString,p.subjectType,p.subjectName⟩) with
    | .error e => (.error e,svc)
    | .ok store => insertPolicy fails { svc with store } c p c.firstUuid.toString

def deletePolicy (policyId : String) : Except CallError Unit × IamSvc :=
  match attempt fails .deletePolicy (.ok (IamStore.deletePolicy svc.store policyId)) with
  | .error e => (.error e,svc)
  | .ok store => reloadEngine fails { svc with store } c

end

/-- A call that fails leaves subjects, policies and engine as they were; after one that succeeds
the engine holds the policies of the database. -/
def Atomic {α : Type} (svc : IamSvc) (r : Except CallError α × IamSvc) : Prop :=
  match r.1 with
  | .error _ => r.2.store.subjects = svc.store.subjects ∧
      r.2.store.policies = svc.store.policies ∧ r.2.engine = svc.engine
  | .ok _ => Persisted r.2.store r.2.engine.policies

/-! ### When the statements fail -/

section
variable (fails : Statement → Bool) (c : Choices) (t : IamTables)

/-- The policies cannot be read, or one of them has an identifier that is not a UUID. -/
def ListFails : Prop := fails .listPolicies = true ∨ ¬ t.Readable

def PolicyFails : Prop :=
  fails .insertPolicy = true ∨ c.secondUuid.toString ∈ t.policies.map PolicyRow.id

def SubjectFails (p : PolicyProto) : Prop :=
  fails .insertSubject = true ∨ p.subjectType ∉ ["user","group"] ∨
    c.firstUuid.toString ∈ t.subjects.map SubjectRow.id

/-- The call fails before it has written anything, or not at all. -/
def CreateSafe (p : PolicyProto) : Prop :=
  fails .selectSubject = true ∨
    (if p.subjectName ∈ t.subjects.map SubjectRow.name
      then PolicyFails fails c t ∨ ¬ ListFails fails t
      else SubjectFails fails c t p ∨ ¬ PolicyFails fails c t ∧ ¬ ListFails fails t)

def DeleteSafe (policyId : String) : Prop :=
  fails .deletePolicy = true ∨ policyId ∉ t.policies.map PolicyRow.id ∨
    ¬ ListFails fails (t.deletePolicy policyId)

end

variable {fails : Statement → Bool} {svc : IamSvc} {c : Choices} {p : PolicyProto}

theorem attempt_eq_ok {α : Type} {s : Statement} {r : Except StoreError α} {a : α} :
    attempt fails s r = .ok a ↔ fails s = false ∧ r = .ok a := by
  unfold attempt
  cases fails s <;> cases r <;> simp [Except.mapError]

theorem fails_of_attempt_eq_error {α : Type} {s : Statement} {a : α} {e : CallError}
    (h : attempt fails s (.ok a) = .error e) : fails s = true := by
  by_contra hok
  rw [attempt_eq_ok.mpr ⟨by simpa using hok,rfl⟩] at h
  cases h

/-- The only reasons why a policy of a subject in the tables is not inserted. -/
theorem policyFails_iff {t : IamTables} {subjectId : String}
    (hsubject : subjectId ∈ t.subjects.map SubjectRow.id) : PolicyFails fails c t ↔
      ∃ e, attempt fails .insertPolicy
        (t.insertPolicy (policyRow p c.secondUuid.toString subjectId)) = .error e := by
  cases hins : attempt fails .insertPolicy
    (t.insertPolicy (policyRow p c.secondUuid.toString subjectId)) with
  | error e =>
    refine iff_of_true ?_ ⟨e,rfl⟩
    by_contra hok
    simp only [PolicyFails,not_or,Bool.not_eq_true] at hok
    have heffect : effectText p.effect ∈ ["Allow","Deny"] := by
      unfold effectText
      split_ifs <;> decide
    obtain ⟨t',ht⟩ := @IamTables.exists_insertPolicy t
      (policyRow p c.secondUuid.toString subjectId) heffect hok.2 hsubject
    rw [attempt_eq_ok.mpr ⟨hok.1,ht⟩] at hins
    cases hins
  | ok t' =>
    refine iff_of_false ?_ (by simp)
    obtain ⟨hfails,ht⟩ := attempt_eq_ok.mp hins
    simp only [PolicyFails,hfails,Bool.false_eq_true,false_or]
    exact (IamTables.insertPolicy_eq_ok ht).1

/-- The only reasons why a subject of a new name is not inserted. -/
theorem subjectFails_iff {t : IamTables}
    (habsent : p.subjectName ∉ t.subjects.map SubjectRow.name) : SubjectFails fails c t p ↔
      ∃ e, attempt fails .insertSubject
        (t.insertSubject ⟨c.firstUuid.toString,p.subjectType,p.subjectName⟩) = .error e := by
  cases hins : attempt fails .insertSubject
    (t.insertSubject ⟨c.firstUuid.toString,p.subjectType,p.subjectName⟩) with
  | error e =>
    refine iff_of_true ?_ ⟨e,rfl⟩
    by_contra hok
    simp only [SubjectFails,not_or,Bool.not_eq_true,not_not] at hok
    obtain ⟨hrun,htype,hfresh⟩ := hok
    obtain ⟨t',ht⟩ := @IamTables.exists_insertSubject t
      ⟨c.firstUuid.toString,p.subjectType,p.subjectName⟩ htype habsent hfresh
    rw [attempt_eq_ok.mpr ⟨hrun,ht⟩] at hins
    cases hins
  | ok t' =>
    refine iff_of_false ?_ (by simp)
    obtain ⟨hrun,ht⟩ := attempt_eq_ok.mp hins
    obtain ⟨htype,hfresh,-⟩ := IamTables.insertSubject_eq_ok ht
    simp only [SubjectFails,hrun,Bool.false_eq_true,false_or,not_or,not_not]
    exact ⟨htype,hfresh⟩

/-- The reload fails and changes nothing, or installs the policies of the database. -/
theorem reloadEngine_cases :
    ListFails fails svc.store ∧ (∃ e, reloadEngine fails svc c = (.error e,svc)) ∨
      ¬ ListFails fails svc.store ∧ ∃ policies, Persisted svc.store policies ∧
        reloadEngine fails svc c = (.ok (),⟨svc.store,⟨policies⟩⟩) := by
  unfold reloadEngine
  cases hlist : attempt fails .listPolicies (IamStore.listPolicies c.order svc.store none) with
  | error e =>
    refine .inl ⟨?_,e,rfl⟩
    by_contra hok
    simp only [ListFails,not_or,not_not,Bool.not_eq_true] at hok
    obtain ⟨ps,hps⟩ := listPolicies_of_readable c.order hok.2
    rw [attempt_eq_ok.mpr ⟨hok.1,hps⟩] at hlist
    cases hlist
  | ok policies =>
    obtain ⟨hfails,hps⟩ := attempt_eq_ok.mp hlist
    have hpersisted := listPolicies_persisted hps
    refine .inr ⟨?_,policies,hpersisted,rfl⟩
    simp [ListFails,hfails,hpersisted.readable]

theorem listFails_insertPolicy {t t' : IamTables} {id : Uuid} {subjectId : String}
    (h : t.insertPolicy (policyRow p id.toString subjectId) = .ok t') :
    ListFails fails t' ↔ ListFails fails t := by
  have hpolicies := (IamTables.insertPolicy_eq_ok h).2.2.2
  have hsub : t.policies ⊆ t'.policies := hpolicies ▸ List.subset_append_left _ _
  have hreadable : t'.Readable ↔ t.Readable :=
    ⟨fun h' q hq => h' q (hsub hq),fun ht => readable_insertPolicy ht h⟩
  unfold ListFails
  rw [hreadable]

/-- The policy is refused, or stored and then either listed with the others or not. -/
theorem insertPolicy_cases {subjectId : String}
    (hsubject : subjectId ∈ svc.store.subjects.map SubjectRow.id) :
    PolicyFails fails c svc.store ∧ (∃ e, insertPolicy fails svc c p subjectId = (.error e,svc)) ∨
      ¬ PolicyFails fails c svc.store ∧ ListFails fails svc.store ∧
        (∃ e svc', insertPolicy fails svc c p subjectId = (.error e,svc') ∧
          svc'.store.policies ≠ svc.store.policies) ∨
      ¬ PolicyFails fails c svc.store ∧ ¬ ListFails fails svc.store ∧
        ∃ svc', insertPolicy fails svc c p subjectId = (.ok c.secondUuid.toString,svc') ∧
          Persisted svc'.store svc'.engine.policies := by
  unfold insertPolicy
  have hrefused := @policyFails_iff fails c p svc.store subjectId hsubject
  cases hins : attempt fails .insertPolicy
    (svc.store.insertPolicy (policyRow p c.secondUuid.toString subjectId)) with
  | error e => exact .inl ⟨hrefused.mpr ⟨e,hins⟩,e,rfl⟩
  | ok t =>
    obtain ⟨-,ht⟩ := attempt_eq_ok.mp hins
    have hpolicies := (IamTables.insertPolicy_eq_ok ht).2.2.2
    have hpolicy : ¬ PolicyFails fails c svc.store := by
      rw [hrefused,hins]
      simp
    have hlist : ListFails fails t ↔ ListFails fails svc.store := listFails_insertPolicy ht
    rcases @reloadEngine_cases fails ⟨t,svc.engine⟩ c with
      ⟨hfail,e,he⟩ | ⟨hok,policies,hpersisted,he⟩
    · refine .inr (.inl ⟨hpolicy,hlist.mp hfail,e,⟨t,svc.engine⟩,?_,?_⟩)
      · simp only [he]
      · simp [hpolicies]
    · refine .inr (.inr ⟨hpolicy,fun h => hok (hlist.mpr h),⟨t,⟨policies⟩⟩,?_,hpersisted⟩)
      simp only [he]

/-- With its subject in the tables, a policy is written atomically unless it cannot be listed. -/
theorem atomic_insertPolicy_iff {subjectId : String}
    (hsubject : subjectId ∈ svc.store.subjects.map SubjectRow.id) :
    Atomic svc (insertPolicy fails svc c p subjectId) ↔
      PolicyFails fails c svc.store ∨ ¬ ListFails fails svc.store := by
  rcases @insertPolicy_cases fails svc c p subjectId hsubject with
    ⟨hpolicy,e,he⟩ | ⟨hpolicy,hlist,e,svc',he,hchanged⟩ | ⟨hpolicy,hlist,svc',he,hpersisted⟩
  · simp [Atomic,he,hpolicy]
  · simp [Atomic,he,hpolicy,hlist,hchanged]
  · simp [Atomic,he,hpolicy,hlist,hpersisted]

/-- With a subject that was inserted for it, a policy is written atomically if nothing fails. -/
theorem atomic_insertSubject_iff {t : IamTables} (hins : svc.store.insertSubject
      ⟨c.firstUuid.toString,p.subjectType,p.subjectName⟩ = .ok t) :
    Atomic svc (insertPolicy fails { svc with store := t } c p c.firstUuid.toString) ↔
      ¬ PolicyFails fails c svc.store ∧ ¬ ListFails fails svc.store := by
  obtain ⟨-,-,-,hsubjects,hpolicies⟩ := IamTables.insertSubject_eq_ok hins
  have hsubject : c.firstUuid.toString ∈ t.subjects.map SubjectRow.id := by simp [hsubjects]
  have hpolicy : PolicyFails fails c t ↔ PolicyFails fails c svc.store := by
    simp only [PolicyFails,hpolicies]
  have hlist : ListFails fails t ↔ ListFails fails svc.store := by
    simp only [ListFails,IamTables.Readable,hpolicies]
  rw [← hpolicy,← hlist]
  rcases @insertPolicy_cases fails ⟨t,svc.engine⟩ c p _ hsubject with
    ⟨hfail,e,he⟩ | ⟨hok,hunlisted,e,svc',he,hchanged⟩ | ⟨hok,hlisted,svc',he,hpersisted⟩
  · simp only [Atomic,he]
    simp [hfail,hsubjects]
  · simp only [Atomic,he]
    simp only [hpolicies] at hchanged
    simp [hunlisted,hchanged]
  · simp only [Atomic,he]
    simp [hok,hlisted,hpersisted]

theorem atomic_createPolicy_iff : Atomic svc (createPolicy fails svc c p) ↔
    CreateSafe fails c svc.store p := by
  unfold createPolicy CreateSafe
  cases hlookup : attempt fails .selectSubject
    (.ok (svc.store.selectSubjectId p.subjectName)) with
  | error e => simp [Atomic,fails_of_attempt_eq_error hlookup]
  | ok found =>
    obtain ⟨hfails,hfound⟩ := attempt_eq_ok.mp hlookup
    obtain rfl := Except.ok.inj hfound
    simp only [hfails,Bool.false_eq_true,false_or]
    cases hid : svc.store.selectSubjectId p.subjectName with
    | some subjectId =>
      obtain ⟨r,hr,hname,rfl⟩ := IamTables.selectSubjectId_eq_some.mp hid
      rw [if_pos (List.mem_map.mpr ⟨r,hr,hname⟩)]
      exact atomic_insertPolicy_iff (List.mem_map.mpr ⟨r,hr,rfl⟩)
    | none =>
      have habsent := IamTables.selectSubjectId_eq_none.mp hid
      rw [if_neg habsent]
      have hrefused := @subjectFails_iff fails c p svc.store habsent
      cases hins : attempt fails .insertSubject
        (svc.store.insertSubject ⟨c.firstUuid.toString,p.subjectType,p.subjectName⟩) with
      | error e => simp [Atomic,hrefused.mpr ⟨e,hins⟩]
      | ok t =>
        have hok : ¬ SubjectFails fails c svc.store p := by
          rw [hrefused,hins]
          simp
        simp only [hok,false_or]
        exact atomic_insertSubject_iff (attempt_eq_ok.mp hins).2

theorem atomic_deletePolicy_iff {policyId : String} :
    Atomic svc (deletePolicy fails svc c policyId) ↔ DeleteSafe fails svc.store policyId := by
  unfold deletePolicy DeleteSafe
  cases hdelete : attempt fails .deletePolicy
    (.ok (IamStore.deletePolicy svc.store policyId)) with
  | error e => simp [Atomic,fails_of_attempt_eq_error hdelete]
  | ok t =>
    obtain ⟨hfails,ht⟩ := attempt_eq_ok.mp hdelete
    obtain rfl : svc.store.deletePolicy policyId = t := Except.ok.inj ht
    have hsame : (svc.store.deletePolicy policyId).policies = svc.store.policies ↔
        policyId ∉ svc.store.policies.map PolicyRow.id := by
      simp [IamTables.deletePolicy,List.filter_eq_self]
    rcases @reloadEngine_cases fails ⟨svc.store.deletePolicy policyId,svc.engine⟩ c with
      ⟨hlist,e,he⟩ | ⟨hlist,policies,hpersisted,he⟩
    · simp only [Atomic,he]
      simp only [hfails,hsame,hlist,not_true,or_false,Bool.false_eq_true,false_or,and_true]
      exact and_iff_right rfl
    · simp only [Atomic,he]
      simp [hfails,hlist,hpersisted]

/-- Policies are created and deleted atomically exactly when no statement fails after an earlier
one of the call has changed the tables. -/
theorem atomic_iff (fails : Statement → Bool) (svc : IamSvc) (c : Choices) :
    (∀ p, Atomic svc (createPolicy fails svc c p) ↔ CreateSafe fails c svc.store p) ∧
      ∀ policyId, Atomic svc (deletePolicy fails svc c policyId) ↔
        DeleteSafe fails svc.store policyId :=
  ⟨fun _ => atomic_createPolicy_iff,fun _ => atomic_deletePolicy_iff⟩

/-- The new policy is stored and the call fails, since the policies cannot be listed. -/
theorem policy_kept_after_error : ¬ ∀ (fails : Statement → Bool) (svc : IamSvc) (c : Choices)
    (p : PolicyProto), Atomic svc (createPolicy fails svc c p) := by
  intro h
  have hatomic := h (decide <| · = .listPolicies) ⟨.seed,⟨[]⟩⟩
    ⟨.ofByte 1,.ofByte 3,storageOrder⟩ denyAccounts
  simp only [Atomic,createPolicy] at hatomic
  exact absurd hatomic.2.1 (by decide)

/-! ### Without failing statements -/

/-- The answer of a call to the service, with its errors as those of this module. -/
def ofService {α : Type} (r : Except StoreError α × IamSvc) : Except CallError α × IamSvc :=
  (r.1.mapError .store,r.2)

theorem attempt_unfailing {α : Type} (s : Statement) (r : Except StoreError α) :
    attempt (fun _ => false) s r = r.mapError .store := rfl

theorem reloadEngine_unfailing :
    reloadEngine (fun _ => false) svc c = ofService (svc.reloadEngine c.order) := by
  unfold reloadEngine IamSvc.reloadEngine
  rw [attempt_unfailing]
  cases IamStore.listPolicies c.order svc.store none <;> rfl

theorem deletePolicy_unfailing (policyId : String) :
    deletePolicy (fun _ => false) svc c policyId = ofService (svc.deletePolicy c policyId) :=
  reloadEngine_unfailing

theorem createPolicy_unfailing :
    createPolicy (fun _ => false) svc c p = ofService (svc.createPolicy c p) := by
  have hinsert {t : IamTables} {subjectId : String} (hget : IamStore.getOrCreateSubject svc.store
      c.firstUuid p.subjectType p.subjectName = (.ok subjectId,t)) :
      insertPolicy (fun _ => false) { svc with store := t } c p subjectId =
        ofService (svc.createPolicy c p) := by
    rw [createPolicy_eq hget]
    unfold insertPolicy
    rw [attempt_unfailing]
    cases t.insertPolicy (policyRow p c.secondUuid.toString subjectId) with
    | error e => rfl
    | ok t' =>
      simp only [Except.mapError,reloadEngine_unfailing,ofService]
      rcases IamSvc.reloadEngine ⟨t',svc.engine⟩ c.order with ⟨_ | _,_⟩ <;> rfl
  unfold createPolicy
  simp only [attempt_unfailing,Except.mapError]
  cases hid : svc.store.selectSubjectId p.subjectName with
  | some subjectId => exact hinsert (by simp [IamStore.getOrCreateSubject,hid])
  | none =>
    cases hins : svc.store.insertSubject
      ⟨c.firstUuid.toString,p.subjectType,p.subjectName⟩ with
    | error e =>
      simp [IamSvc.createPolicy,IamStore.createPolicy,IamStore.getOrCreateSubject,
        IamStore.createSubject,ofService,Except.mapError,hid,hins]
    | ok t =>
      exact hinsert (by simp [IamStore.getOrCreateSubject,IamStore.createSubject,hid,hins])

end PolicyFailure
end Elan
