import Elan.IamSemantics
import Elan.PolicyReload
import Elan.PolicyRoundTrip
import Elan.Replication

/-! What policy writes do to access: over concurrent writes the engine always holds one whole state
of the policy table, and requests that only revoke, or only grant, move access one way; over
requests in turn it decides as a service that is started anew. -/
namespace Elan
namespace PolicyReload

open TransitionSystem Table IamTables

variable {ι : Type} [DecidableEq ι]

/-! ### The snapshot -/

/-- The policies are installed, or read and still to be installed. -/
def Held (s : State ι) (policies : List Policy) : Prop :=
  s.engine.policies = policies ∨ ∃ i, s.tasks i = .reload policies

theorem held_goto {s : State ι} {i : ι} {t : Task} (ht : t.isReload = false)
    {policies : List Policy} (h : Held (s.goto i t) policies) : Held s policies := by
  rcases h with h | ⟨j,hj⟩
  · exact .inl h
  · refine .inr ⟨j,reload_of_update ?_ hj⟩
    rintro ps rfl
    cases ht

theorem held_write {s : State ι} {i : ι} {r : Except StoreError IamTables} {t : Task}
    (ht : t.isReload = false) {policies : List Policy} (h : Held (s.write i r t) policies) :
    Held s policies := by
  cases r with
  | error e => exact held_goto rfl h
  | ok store => exact held_goto (s := s) (i := i) ht h

/-- The policies are an answer to the policy query of the table. -/
def Listed (t : IamTables) (policies : List Policy) : Prop :=
  ∃ order, IamStore.listPolicies order t none = .ok policies

theorem Listed.persisted {t : IamTables} {policies : List Policy} (h : Listed t policies) :
    Persisted t policies := by
  obtain ⟨order,horder⟩ := h
  exact listPolicies_persisted horder

/-- What is held is read from the table, or was held before. -/
theorem held_step {a : Action ι} {s s' : State ι} (h : step a s = some s')
    {policies : List Policy} (hheld : Held s' policies) :
    Held s policies ∨ Listed s.store policies := by
  cases ht : s.tasks a.request with
  | create p =>
    cases hid : s.store.selectSubjectId p.subjectName <;> simp only [step,ht,hid] at h <;>
      cases h <;> exact .inl (held_goto rfl hheld)
  | insertSubject p | insertPolicy p subjectId | delete policyId =>
    simp only [step,ht] at h
    cases h
    exact .inl (held_write rfl hheld)
  | list =>
    cases hl : IamStore.listPolicies a.choices.order s.store none with
    | error e =>
      simp only [step,ht,hl] at h
      cases h
      exact .inl (held_goto rfl hheld)
    | ok read =>
      simp only [step,ht,hl] at h
      cases h
      rcases hheld with hengine | ⟨j,hj⟩
      · exact .inl (.inl hengine)
      · by_cases hji : j = a.request
        · subst hji
          rw [goto_self] at hj
          obtain rfl := Task.reload.inj hj
          exact .inr ⟨_,hl⟩
        · exact .inl (.inr ⟨j,(Function.update_of_ne hji _ _).symm.trans hj⟩)
  | reload read =>
    simp only [step,ht] at h
    cases h
    rcases hheld with rfl | ⟨j,hj⟩
    · exact .inl (.inr ⟨a.request,ht⟩)
    · exact .inl (held_goto (s := s) (i := a.request) (t := .answered) rfl (.inr ⟨j,hj⟩))
  | answered => simp [step,ht] at h
  | failed e => simp [step,ht] at h

/-- The engine holds the policy table as it stood at one moment of the run, in an order that the
policy query gave it then, or in that of the start. -/
theorem engine_was_shown {s₀ s : State ι} {as : List (Action ι)} (hsync : InSync s₀)
    (hreceived : Received s₀) (hrun : run step as s₀ = some s) :
    ∃ bs past, bs <+: as ∧ run step bs s₀ = some past ∧
      Persisted past.store s.engine.policies ∧
      (Listed s₀.store s₀.engine.policies → Listed past.store s.engine.policies) := by
  have hstep : ∀ (a : Action ι) (s t : State ι), step a s = some t → ∀ ps, Held t ps →
      Held s ps ∨ Persisted s.store ps ∧
        (Listed s₀.store s₀.engine.policies → Listed s.store ps) :=
    fun a s t h ps hps => (held_step h hps).imp_right fun hread => ⟨hread.persisted,fun _ => hread⟩
  refine held_was_shown hstep ?_ hrun (.inl rfl)
  rintro ps (rfl | ⟨i,hi⟩)
  · exact ⟨hsync,id⟩
  · rcases hreceived i with ⟨p,hp⟩ | ⟨policyId,hp⟩ <;> rw [hp] at hi <;> cases hi

/-! ### Writes that revoke, and writes that grant -/

/-- From the old items to the new ones, items of effect `e` are only added and all others are only
taken away. -/
def Moves {α : Type} (effect : α → PolicyEffect) (e : PolicyEffect) (old new : List α) : Prop :=
  (∀ x ∈ new, effect x ≠ e → x ∈ old) ∧ ∀ x ∈ old, effect x = e → x ∈ new

def rowEffect (r : PolicyRow × SubjectRow) : PolicyEffect := decodeEffect r.1.effect

/-- The request adds a policy of effect `e`, or deletes one of the other effect. -/
def Task.Moves (e : PolicyEffect) (t : IamTables) : Task → Prop
  | .create p | .insertSubject p | .insertPolicy p _ => decodeEffect (effectText p.effect) = e
  | .delete policyId => ∀ r ∈ t.joined, r.1.id = policyId → rowEffect r ≠ e
  | _ => True

omit [DecidableEq ι] in
theorem Moves.insertPolicy {e : PolicyEffect} {old : List (PolicyRow × SubjectRow)}
    {t t' : IamTables} {p : PolicyProto} {id subjectId : String}
    (h : Moves rowEffect e old t.joined) (heffect : decodeEffect (effectText p.effect) = e)
    (hins : t.insertPolicy (policyRow p id subjectId) = .ok t') :
    Moves rowEffect e old t'.joined := by
  obtain ⟨-,-,hsubjects,hpolicies⟩ := insertPolicy_eq_ok hins
  refine ⟨?_,?_⟩
  · rintro ⟨q,s⟩ hr hne
    obtain ⟨hq,hs,hid⟩ := mem_joined.mp hr
    rw [hpolicies,List.mem_append,List.mem_singleton] at hq
    rcases hq with hq | rfl
    · exact h.1 (q,s) (mem_joined.mpr ⟨hq,hsubjects ▸ hs,hid⟩) hne
    · exact absurd heffect hne
  · rintro ⟨q,s⟩ hr he
    obtain ⟨hq,hs,hid⟩ := mem_joined.mp (h.2 (q,s) hr he)
    exact mem_joined.mpr ⟨hpolicies ▸ List.mem_append_left _ hq,hsubjects ▸ hs,hid⟩

theorem Moves.deletePolicy {e : PolicyEffect} {old : List (PolicyRow × SubjectRow)}
    {t : IamTables} {policyId : String} (h : Moves rowEffect e old t.joined)
    (hother : ∀ r ∈ old, r.1.id = policyId → rowEffect r ≠ e) :
    Moves rowEffect e old (t.deletePolicy policyId).joined := by
  rw [joined_deletePolicy]
  refine ⟨fun r hr => h.1 r (List.mem_of_mem_filter hr),?_⟩
  intro r hr he
  exact List.mem_filter.mpr ⟨h.2 r hr he,by simpa using fun hid => hother r hr hid he⟩

/-- What the requests have left to do, and what they have done so far. -/
structure OneWay (e : PolicyEffect) (t : IamTables) (s : State ι) : Prop where
  tasks : ∀ i, (s.tasks i).Moves e t
  moved : Moves rowEffect e t.joined s.store.joined

theorem moves_update {e : PolicyEffect} {t : IamTables} {tasks : ι → Task}
    (h : ∀ i, (tasks i).Moves e t) (i : ι) {task : Task} (ht : task.Moves e t) :
    ∀ j, (Function.update tasks i task j).Moves e t := by
  intro j
  by_cases hj : j = i
  · subst hj
    rwa [Function.update_self]
  · rw [Function.update_of_ne hj]
    exact h j

theorem OneWay.step {e : PolicyEffect} {t : IamTables} {a : Action ι} {s s' : State ι}
    (h : OneWay e t s) (hstep : step a s = some s') : OneWay e t s' := by
  have htask := h.tasks a.request
  cases ht : s.tasks a.request with
  | create p =>
    rw [ht] at htask
    cases hid : s.store.selectSubjectId p.subjectName <;>
      simp only [PolicyReload.step,ht,hid] at hstep <;> cases hstep <;>
      exact ⟨moves_update h.tasks _ htask,h.moved⟩
  | insertSubject p =>
    rw [ht] at htask
    simp only [PolicyReload.step,ht] at hstep
    cases hins : s.store.insertSubject _ with
    | error error =>
      rw [hins] at hstep
      cases hstep
      exact ⟨moves_update h.tasks _ trivial,h.moved⟩
    | ok store =>
      rw [hins] at hstep
      cases hstep
      refine ⟨moves_update h.tasks _ htask,?_⟩
      change Moves rowEffect e t.joined store.joined
      rw [joined_insertSubject hins]
      exact h.moved
  | insertPolicy p subjectId =>
    rw [ht] at htask
    simp only [PolicyReload.step,ht] at hstep
    cases hins : s.store.insertPolicy _ with
    | error error =>
      rw [hins] at hstep
      cases hstep
      exact ⟨moves_update h.tasks _ trivial,h.moved⟩
    | ok store =>
      rw [hins] at hstep
      cases hstep
      exact ⟨moves_update h.tasks _ trivial,h.moved.insertPolicy htask hins⟩
  | delete policyId =>
    rw [ht] at htask
    simp only [PolicyReload.step,ht] at hstep
    cases hstep
    exact ⟨moves_update h.tasks _ trivial,h.moved.deletePolicy htask⟩
  | list =>
    cases hl : IamStore.listPolicies a.choices.order s.store none <;>
      simp only [PolicyReload.step,ht,hl] at hstep <;> cases hstep <;>
      exact ⟨moves_update h.tasks _ trivial,h.moved⟩
  | reload policies =>
    simp only [PolicyReload.step,ht] at hstep
    cases hstep
    exact ⟨moves_update h.tasks _ trivial,h.moved⟩
  | answered => simp [PolicyReload.step,ht] at hstep
  | failed error => simp [PolicyReload.step,ht] at hstep

theorem decodeRow_effect {r : PolicyRow × SubjectRow} {p : Policy} (h : decodeRow r = .ok p) :
    p.effect = rowEffect r := by
  unfold decodeRow at h
  cases hid : Uuid.parseStr r.1.id <;> rw [hid] at h <;> cases h
  rfl

theorem Persisted.mem_iff {t : IamTables} {policies : List Policy} (h : Persisted t policies)
    {p : Policy} : p ∈ policies ↔ ∃ r ∈ t.joined, decodeRow r = .ok p := by
  obtain ⟨ps,hps,hperm⟩ := h
  rw [hperm.mem_iff,mem_of_mapM hps]

theorem moves_of_persisted {e : PolicyEffect} {t t' : IamTables} {old new : List Policy}
    (h : Moves rowEffect e t.joined t'.joined) (hold : Persisted t old) (hnew : Persisted t' new) :
    Moves Policy.effect e old new := by
  refine ⟨?_,?_⟩
  · intro p hp hne
    obtain ⟨r,hr,hdecode⟩ := hnew.mem_iff.mp hp
    exact hold.mem_iff.mpr ⟨r,h.1 r hr (decodeRow_effect hdecode ▸ hne),hdecode⟩
  · intro p hp he
    obtain ⟨r,hr,hdecode⟩ := hold.mem_iff.mp hp
    exact hnew.mem_iff.mpr ⟨r,h.2 r hr (decodeRow_effect hdecode ▸ he),hdecode⟩

/-! ### Access -/

section
variable [SerdeJson] {old new : List Policy} {subject : Subject} {r : ResourceId} {action : String}

theorem isAllowed_iff {policies : List Policy} :
    (SnapshotIamEngine.check ⟨policies⟩ subject r action).isAllowed = true ↔
      (∃ p ∈ policies, Matches p subject r action ∧ p.effect = .allow) ∧
        ∀ p ∈ policies, Matches p subject r action → p.effect ≠ .deny := by
  rw [check_isAllowed_iff]
  constructor
  · rintro ⟨hdenied,hmatched⟩
    have hall : ∀ p ∈ policies, Matches p subject r action → p.effect ≠ .deny :=
      fun p hp hmatches he => hdenied ⟨p,hp,hmatches,he⟩
    refine ⟨?_,hall⟩
    by_contra hnone
    refine hmatched fun p hp hmatches => hnone ⟨p,hp,hmatches,?_⟩
    cases he : p.effect with
    | allow => rfl
    | deny => exact absurd he (hall p hp hmatches)
  · rintro ⟨⟨p,hp,hmatches,-⟩,hall⟩
    exact ⟨fun ⟨q,hq,hqmatches,he⟩ => hall q hq hqmatches he,fun hnone => hnone p hp hmatches⟩

theorem isAllowed_of_revoked (h : Moves Policy.effect .deny old new)
    (hallowed : (SnapshotIamEngine.check ⟨new⟩ subject r action).isAllowed = true) :
    (SnapshotIamEngine.check ⟨old⟩ subject r action).isAllowed = true := by
  rw [isAllowed_iff] at hallowed ⊢
  obtain ⟨⟨p,hp,hmatches,he⟩,hall⟩ := hallowed
  refine ⟨⟨p,h.1 p hp (by rw [he]; decide),hmatches,he⟩,?_⟩
  intro q hq hqmatches hdeny
  exact hall q (h.2 q hq hdeny) hqmatches hdeny

theorem isAllowed_of_granted (h : Moves Policy.effect .allow old new)
    (hallowed : (SnapshotIamEngine.check ⟨old⟩ subject r action).isAllowed = true) :
    (SnapshotIamEngine.check ⟨new⟩ subject r action).isAllowed = true := by
  rw [isAllowed_iff] at hallowed ⊢
  obtain ⟨⟨p,hp,hmatches,he⟩,hall⟩ := hallowed
  refine ⟨⟨p,h.2 p hp he,hmatches,he⟩,?_⟩
  intro q hq hqmatches hdeny
  exact hall q (h.1 q hq (by rw [hdeny]; decide)) hqmatches hdeny

end

theorem moves_of_run {e : PolicyEffect} {s₀ s : State ι} {as : List (Action ι)}
    (hsync : InSync s₀) (hreceived : Received s₀) (hmoves : ∀ i, (s₀.tasks i).Moves e s₀.store)
    (hrun : run step as s₀ = some s) :
    Moves Policy.effect e s₀.engine.policies s.engine.policies := by
  obtain ⟨bs,past,-,hpast,hpersisted,-⟩ := engine_was_shown hsync hreceived hrun
  have hstart : OneWay e s₀.store s₀ := ⟨hmoves,fun r hr _ => hr,fun r hr _ => hr⟩
  have hway : OneWay e s₀.store past := run_preserves (fun a s t h hst => h.step hst) hstart hpast
  exact moves_of_persisted hway.moved hsync hpersisted

/-- The way a decision may change: towards the effect of the policies that come. -/
def Toward (e : PolicyEffect) (before after : Bool) : Prop :=
  match e with
  | .deny => after = true → before = true
  | .allow => before = true → after = true

/-- Requests that only create Deny policies and delete Allow policies never widen access, and
requests that only create Allow policies and delete Deny policies never narrow it, whatever the
order of their statements. -/
theorem access_moves_one_way [SerdeJson] {s₀ s : State ι} {as : List (Action ι)}
    (hsync : InSync s₀) (hreceived : Received s₀) {e : PolicyEffect}
    (hmoves : ∀ i, (s₀.tasks i).Moves e s₀.store) (hrun : run step as s₀ = some s)
    (subject : Subject) (r : ResourceId) (action : String) :
    Toward e (s₀.engine.check subject r action).isAllowed
      (s.engine.check subject r action).isAllowed := by
  have h := moves_of_run hsync hreceived hmoves hrun
  cases e with
  | deny => exact isAllowed_of_revoked h
  | allow => exact isAllowed_of_granted h

/-- Whatever the order of the statements, all decisions of the engine, with their row filters, masks
and reasons, are those of one list of all policies of the table, as it stood at some moment of the
run; where the engine starts with a list that the policy query gives, it is such a list. -/
theorem decides_as_one_state [SerdeJson] {s₀ s : State ι} {as : List (Action ι)}
    (hsync : InSync s₀) (hreceived : Received s₀) (hrun : run step as s₀ = some s) :
    ∃ bs past ps, bs <+: as ∧ run step bs s₀ = some past ∧ Persisted past.store ps ∧
      (Listed s₀.store s₀.engine.policies → Listed past.store ps) ∧ ∀ subject r action,
        s.engine.check subject r action = SnapshotIamEngine.check ⟨ps⟩ subject r action := by
  obtain ⟨bs,past,hbs,hpast,hpersisted,hlisted⟩ := engine_was_shown hsync hreceived hrun
  exact ⟨bs,past,_,hbs,hpast,hpersisted,hlisted,fun subject r action => rfl⟩

/-! ### A deletion and a creation at once -/

/-- The migrated database, with the deletion of the policy that allows everything and the creation
of one that denies. -/
def revoking : State Bool :=
  { migrated with
    tasks := fun i => if i then .create denyAccounts else .delete (Uuid.ofByte 2).toString }

theorem revoking_received : Received revoking := by
  rintro (_ | _)
  · exact .inr ⟨_,rfl⟩
  · exact .inl ⟨_,rfl⟩

theorem revoking_moves : ∀ i, (revoking.tasks i).Moves .deny revoking.store := by
  rintro (_ | _)
  · change ∀ r ∈ revoking.store.joined, r.1.id = (Uuid.ofByte 2).toString → rowEffect r ≠ .deny
    decide
  · change decodeEffect (effectText denyAccounts.effect) = .deny
    decide

theorem exists_overtaking : ∃ s, run step overtaking revoking = some s :=
  Option.isSome_iff_exists.mp (by decide)

@[reducible] def noJson : SerdeJson := ⟨fun _ => none⟩

theorem revoking_listed : Listed revoking.store revoking.engine.policies := ⟨storageOrder,rfl⟩

theorem decides_as_one_state_sample : ∃ s, run step overtaking revoking = some s ∧
    ∃ bs past ps, bs <+: overtaking ∧ run step bs revoking = some past ∧ Listed past.store ps ∧
      ∀ subject r action, @SnapshotIamEngine.check noJson s.engine subject r action =
        @SnapshotIamEngine.check noJson ⟨ps⟩ subject r action := by
  obtain ⟨s,hs⟩ := exists_overtaking
  obtain ⟨bs,past,ps,hbs,hpast,-,hlisted,hchecks⟩ :=
    @decides_as_one_state _ _ noJson revoking _ _ migrated_inSync revoking_received hs
  exact ⟨s,hs,bs,past,ps,hbs,hpast,hlisted revoking_listed,hchecks⟩

/-- The engine has not got the new policy, and allows nothing more than before. -/
theorem access_moves_one_way_sample : ∃ s, run step overtaking revoking = some s ∧
    ((@SnapshotIamEngine.check noJson s.engine ⟨"alice",[]⟩ ⟨"finance","accounts"⟩
        "SELECT").isAllowed = true →
      (@SnapshotIamEngine.check noJson revoking.engine ⟨"alice",[]⟩ ⟨"finance","accounts"⟩
        "SELECT").isAllowed = true) := by
  obtain ⟨s,hs⟩ := exists_overtaking
  exact ⟨s,hs,@access_moves_one_way _ _ noJson revoking _ _ migrated_inSync revoking_received .deny
    revoking_moves hs ⟨"alice",[]⟩ ⟨"finance","accounts"⟩ "SELECT"⟩

end PolicyReload

/-! ### Starting anew -/

theorem IamTables.joined_of_subset {t t' : IamTables} (hsubjects : t.subjects ⊆ t'.subjects)
    (hpolicies : t'.policies = t.policies) : t'.joined = t.joined := by
  unfold IamTables.joined
  rw [hpolicies]
  refine List.flatMap_congr fun p hp => ?_
  obtain ⟨s,hs,hid⟩ := List.mem_map.mp (t.policy_subjects p hp)
  rw [← hid,IamTables.filter_subjects hs,IamTables.filter_subjects (hsubjects hs)]

namespace PolicyRoundTrip

open TransitionSystem PolicyReload

def serve (a : Call × Choices) (svc : IamSvc) : IamSvc :=
  match a.1 with
  | .createSubject subjectType name => (svc.createSubject a.2 subjectType name).2
  | .addGroupMember groupName userName => (svc.addGroupMember a.2 groupName userName).2
  | .createPolicy p => (svc.createPolicy a.2 p).2
  | .deletePolicy policyId => (svc.deletePolicy a.2 policyId).2

def serveAll (as : List (Call × Choices)) (svc : IamSvc) : IamSvc :=
  as.foldl (fun svc a => serve a svc) svc

def InStep (svc : IamSvc) : Prop := Persisted svc.store svc.engine.policies

theorem inStep_reloadEngine {svc : IamSvc} (h : svc.store.Readable) (order : QueryOrder) :
    InStep (svc.reloadEngine order).2 := by
  obtain ⟨ps,hps⟩ := listPolicies_of_readable order h
  have hreload : svc.reloadEngine order = (.ok (),{ svc with engine := ⟨ps⟩ }) := by
    simp [IamSvc.reloadEngine,hps,SnapshotIamEngine.reload]
  rw [hreload]
  exact listPolicies_persisted hps

theorem inStep_createPolicy {svc : IamSvc} (h : InStep svc) (c : Choices) (p : PolicyProto) :
    InStep (svc.createPolicy c p).2 := by
  obtain ⟨store,engine⟩ := svc
  rcases hr : IamStore.getOrCreateSubject store c.firstUuid p.subjectType p.subjectName with ⟨r,t⟩
  obtain ⟨hsub,hpol,-⟩ := IamStore.getOrCreateSubject_spec hr
  have ht : Persisted t engine.policies :=
    Persisted.congr h (IamTables.joined_of_subset hsub hpol)
  cases r with
  | error e =>
    have herror : IamSvc.createPolicy ⟨store,engine⟩ c p = (.error e,⟨t,engine⟩) := by
      simp [IamSvc.createPolicy,IamStore.createPolicy,hr]
    rw [herror]
    exact ht
  | ok subjectId =>
    rw [createPolicy_eq hr]
    cases hins : t.insertPolicy (policyRow p c.secondUuid.toString subjectId) with
    | error e => exact ht
    | ok t' =>
      have hreload := @inStep_reloadEngine ⟨t',engine⟩ (readable_insertPolicy ht.readable hins)
        c.order
      rcases hre : IamSvc.reloadEngine ⟨t',engine⟩ c.order with ⟨_ | _,svc'⟩ <;>
        simpa only [hre] using hreload

/-- No call takes the engine and the database apart. -/
theorem inStep_serve {a : Call × Choices} {svc : IamSvc} (h : InStep svc) :
    InStep (serve a svc) := by
  obtain ⟨a,c⟩ := a
  cases a with
  | createSubject subjectType name =>
    rcases hr : IamStore.getOrCreateSubject svc.store c.firstUuid subjectType name with ⟨r,t⟩
    obtain ⟨hsub,hpol,-⟩ := IamStore.getOrCreateSubject_spec hr
    simp only [serve,IamSvc.createSubject,hr]
    exact Persisted.congr h (IamTables.joined_of_subset hsub hpol)
  | addGroupMember groupName userName =>
    rcases hr : IamStore.addGroupMember svc.store c.firstUuid c.secondUuid groupName userName
      with ⟨r,t⟩
    obtain ⟨hsub,hpol⟩ := IamStore.addGroupMember_spec hr
    simp only [serve,IamSvc.addGroupMember,hr]
    exact Persisted.congr h (IamTables.joined_of_subset hsub hpol)
  | createPolicy p => exact inStep_createPolicy h c p
  | deletePolicy policyId =>
    have hreadable : (svc.store.deletePolicy policyId).Readable :=
      fun p hp => Persisted.readable h p (List.mem_of_mem_filter hp)
    exact @inStep_reloadEngine ⟨svc.store.deletePolicy policyId,svc.engine⟩ hreadable c.order

theorem inStep_serveAll {svc : IamSvc} (h : InStep svc) (as : List (Call × Choices)) :
    InStep (serveAll as svc) := by
  induction as generalizing svc with
  | nil => exact h
  | cons a as ih => exact ih (inStep_serve h)

/-- After any calls in turn, accepted or not, a service that is started on the database decides as
the one that is running, and grants on the same terms wherever the policies of greatest priority
agree on them. -/
theorem restart_decides_alike [SerdeJson] {svc : IamSvc} (h : InStep svc)
    (as : List (Call × Choices)) (order : QueryOrder) :
    ∃ ps, IamStore.listPolicies order (serveAll as svc).store none = .ok ps ∧
      ∀ subject r action,
        ((serveAll as svc).engine.check subject r action).isAllowed =
            (SnapshotIamEngine.check ⟨ps⟩ subject r action).isAllowed ∧
          (TopAgree (serveAll as svc).engine.policies subject r action →
            ((serveAll as svc).engine.check subject r action).grant =
              (SnapshotIamEngine.check ⟨ps⟩ subject r action).grant) := by
  have hserved := inStep_serveAll h as
  obtain ⟨ps,hps⟩ := listPolicies_of_readable order hserved.readable
  obtain ⟨qs,hqs,hperm⟩ := hserved
  obtain ⟨qs',hqs',hperm'⟩ := listPolicies_persisted hps
  obtain rfl := Except.ok.inj (hqs.symm.trans hqs')
  have hsame := hperm.trans hperm'.symm
  exact ⟨ps,hps,fun subject r action => ⟨isAllowed_perm hsame,fun hagree => hagree.grant_eq hsame⟩⟩

def goldTier : PolicyProto := ⟨"","alice","user","crm.*","SELECT",0,"tier = 'gold'","",1⟩

/-- Policies of a group and of a user, the policy of all deleted, and a policy that is refused. -/
def sampleCalls : List (Call × Choices) :=
  [(.addGroupMember "analysts" "alice",choices 3 4),(.createPolicy analystsDeny,choices 5 6),
    (.deletePolicy (Uuid.ofByte 2).toString,choices 7 8),(.createPolicy goldTier,choices 9 10),
    (.createPolicy analystsDeny,choices 11 6)]

/-- The service that has answered the calls, and one started after it, filter alike. -/
theorem restart_decides_alike_sample :
    ∃ ps, IamStore.listPolicies storageOrder
        (serveAll sampleCalls PolicyReload.migrated.svc).store none = .ok ps ∧
      (∀ subject r action,
        (@SnapshotIamEngine.check noJson (serveAll sampleCalls PolicyReload.migrated.svc).engine
            subject r action).isAllowed =
          (@SnapshotIamEngine.check noJson ⟨ps⟩ subject r action).isAllowed) ∧
      (@SnapshotIamEngine.check noJson ⟨ps⟩ ⟨"alice",[]⟩ ⟨"crm","accounts"⟩ "SELECT").grant =
        some (some "tier = 'gold'",none) := by
  obtain ⟨ps,hps,halike⟩ :=
    @restart_decides_alike noJson PolicyReload.migrated.svc migrated_inSync sampleCalls storageOrder
  have hterms : ∀ p ∈ (serveAll sampleCalls PolicyReload.migrated.svc).engine.policies,
      p.effect = .allow → p.rowFilter = some "tier = 'gold'" ∧ p.columnMaskJson = none := by decide
  have hgrant : (@SnapshotIamEngine.check noJson
      (serveAll sampleCalls PolicyReload.migrated.svc).engine ⟨"alice",[]⟩ ⟨"crm","accounts"⟩
        "SELECT").grant = some (some "tier = 'gold'",none) := by rfl
  refine ⟨ps,hps,fun subject r action => (halike subject r action).1,?_⟩
  rw [← (halike _ _ _).2 ?_,hgrant]
  rintro p q ⟨hp,-,hpallow,-⟩ ⟨hq,-,hqallow,-⟩
  obtain ⟨hpfilter,hpmask⟩ := hterms p hp hpallow
  obtain ⟨hqfilter,hqmask⟩ := hterms q hq hqallow
  exact ⟨hpfilter.trans hqfilter.symm,by simp [Policy.columnMask,hpmask,hqmask]⟩

end PolicyRoundTrip
end Elan
