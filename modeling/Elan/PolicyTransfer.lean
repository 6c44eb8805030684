import Elan.PolicyReload
import Elan.Session

/-! Policies on their way to a query session: from the rows to the message stream, and from
the stream to the list its engine is built from. -/
namespace Elan

open TransitionSystem Table

/-- The texts survive being sent: an absent one is sent as the empty text. -/
structure Policy.Sendable (p : Policy) : Prop where
  rowFilter : p.rowFilter ≠ some ""
  columnMaskJson : p.columnMaskJson ≠ some ""

theorem getD_empty_inj {text : Option String} (h : text ≠ some "") :
    (if text.getD "" = "" then none else some (text.getD "")) = text := by
  cases text with
  | none => rfl
  | some s =>
    have hs : s ≠ "" := fun he => h (congrArg some he)
    simp [hs]

/-- No field of a policy changes on the way, and no fresh identifier is drawn for it. -/
theorem Policy.ofProto_ofPolicy {p : Policy} (h : p.Sendable) (fresh : Uuid) :
    Policy.ofProto fresh (.ofPolicy p) = p := by
  have hrow := getD_empty_inj h.rowFilter
  have hmask := getD_empty_inj h.columnMaskJson
  have hid : (Uuid.parseStr p.id.toString).getD fresh = p.id := by
    rw [Uuid.parseStr_toString]
    rfl
  cases p with
  | mk id subjectName subjectType resourcePattern action effect rowFilter columnMaskJson priority =>
    simp only [Policy.ofProto,PolicyProto.ofPolicy,hid,Policy.mk.injEq,true_and,and_true]
    refine ⟨?_,?_,hrow,hmask⟩
    · cases subjectType <;> rfl
    · cases effect <;> rfl

theorem loadIamPolicies_ofPolicy {ps : List Policy} (h : ∀ p ∈ ps, p.Sendable)
    {fresh : List Uuid} (hfresh : fresh.length = ps.length) :
    loadIamPolicies ((ps.map PolicyProto.ofPolicy).zip fresh) = ps := by
  unfold loadIamPolicies
  induction ps generalizing fresh with
  | nil => rfl
  | cons p ps ih =>
    cases fresh with
    | nil => cases hfresh
    | cons u us =>
      have hrest := ih (fun q hq => h q (by simp [hq])) (Nat.succ.inj hfresh)
      rw [List.map_cons,List.zip_cons_cons,List.map_cons,hrest,
        Policy.ofProto_ofPolicy (h p (by simp)) u]

namespace PolicyTransfer

open PolicyReload

/-- A row that the service has written, which says nothing by an empty text. -/
def Written (row : PolicyRow) : Prop :=
  ∃ (p : PolicyProto) (id : Uuid) (subjectId : String), row = policyRow p id.toString subjectId

theorem written_seed : ∀ row ∈ IamTables.seed.policies, Written row := by
  intro row hrow
  refine ⟨⟨"","*","user","*","SELECT",0,"","",0⟩,.ofByte 2,
    "00000000-0000-0000-0000-000000000001",?_⟩
  rw [List.mem_singleton.mp hrow]
  decide

theorem optionalText_ne (s : String) : optionalText s ≠ some "" := by
  unfold optionalText
  by_cases hs : s = "" <;> simp [hs]

theorem Written.decodeRow {row : PolicyRow} (h : Written row) (s : SubjectRow) :
    ∃ p, decodeRow (row,s) = .ok p ∧ p.Sendable := by
  obtain ⟨p,id,subjectId,rfl⟩ := h
  have hid : Uuid.parseStr (policyRow p id.toString subjectId).id = some id :=
    Uuid.parseStr_toString id
  exact ⟨_,by rw [Elan.decodeRow,hid],optionalText_ne _,optionalText_ne _⟩

variable {ι : Type} [DecidableEq ι]

/-- A statement of a request leaves the policy table alone, adds a row to it that the service
has written, or takes rows away. -/
theorem step_written {a : Action ι} {s s' : State ι} (hs : ∀ row ∈ s.store.policies, Written row)
    (h : step a s = some s') : ∀ row ∈ s'.store.policies, Written row := by
  cases ht : s.tasks a.request with
  | create p =>
    cases hid : s.store.selectSubjectId p.subjectName <;>
      simp only [step,ht,hid,Option.some.injEq] at h <;> subst h <;> exact hs
  | insertSubject p =>
    simp only [step,ht,Option.some.injEq] at h
    subst h
    cases hins : s.store.insertSubject _ with
    | error e => exact hs
    | ok t =>
      show ∀ row ∈ t.policies, Written row
      rw [(IamTables.insertSubject_eq_ok hins).2.2.2.2]
      exact hs
  | insertPolicy p subjectId =>
    simp only [step,ht,Option.some.injEq] at h
    subst h
    cases hins : s.store.insertPolicy _ with
    | error e => exact hs
    | ok t =>
      show ∀ row ∈ t.policies, Written row
      rw [(IamTables.insertPolicy_eq_ok hins).2.2.2]
      exact forall_mem_concat hs ⟨p,a.choices.secondUuid,subjectId,rfl⟩
  | delete policyId =>
    simp only [step,ht,Option.some.injEq] at h
    subst h
    intro row hrow
    exact hs row (List.mem_of_mem_filter hrow)
  | list =>
    cases hps : IamStore.listPolicies a.choices.order s.store none <;>
      simp only [step,ht,hps,Option.some.injEq] at h <;> subst h <;> exact hs
  | reload policies =>
    simp only [step,ht,Option.some.injEq] at h
    subst h
    exact hs
  | answered => simp [step,ht] at h
  | failed e => simp [step,ht] at h

theorem run_written {as : List (Action ι)} {s s' : State ι}
    (hs : ∀ row ∈ s.store.policies, Written row) (hrun : run step as s = some s') :
    ∀ row ∈ s'.store.policies, Written row := by
  have hstep : ∀ (a : Action ι) (s s' : State ι), (∀ row ∈ s.store.policies, Written row) →
      True → step a s = some s' → ∀ row ∈ s'.store.policies, Written row :=
    fun a s s' hs _ ha => step_written hs ha
  exact run_invariant hstep hs (meets_of_forall (fun _ _ _ => trivial) s) hrun

/-- Written rows are listed in every order of ties, as policies that can be sent. -/
theorem listPolicies_sendable {t : IamTables} (h : ∀ row ∈ t.policies, Written row)
    (order : QueryOrder) :
    ∃ ps, IamStore.listPolicies order t none = .ok ps ∧ ∀ p ∈ ps, p.Sendable := by
  have hrow : ∀ r ∈ order.rows t, ∃ p, decodeRow r = .ok p ∧ p.Sendable := fun r hr => by
    have hjoined : (r.1,r.2) ∈ t.joined := (order.answers t).mem_iff.mp hr
    exact (h r.1 (IamTables.mem_joined.mp hjoined).1).decodeRow r.2
  obtain ⟨ps,hps⟩ := exists_mapM fun r hr => (hrow r hr).imp fun p hp => hp.1
  refine ⟨ps,by simpa [IamStore.listPolicies,decodeRows] using hps,?_⟩
  intro p hp
  obtain ⟨r,hr,hread⟩ := (mem_of_mapM hps).mp hp
  obtain ⟨q,hq,hsend⟩ := hrow r hr
  cases hread.symm.trans hq
  exact hsend

/-- Whatever policy requests the service has been handling, and in whatever order the rows
that tie are returned, a session that receives the policies decides as the service does. -/
theorem query_engine_agrees [SerdeJson] {s₀ s : State ι} {as : List (Action ι)}
    (hseed : s₀.store = .seed) (hrun : run step as s₀ = some s) (order : QueryOrder) :
    ∃ ps protos, IamStore.listPolicies order s.store none = .ok ps ∧
      s.svc.listPolicies order "" = .ok protos ∧
      ∀ fresh : List Uuid, fresh.length = protos.length →
        ∀ (subject : Subject) (r : ResourceId) (action : String),
          SnapshotIamEngine.check ⟨loadIamPolicies (protos.zip fresh)⟩ subject r action =
            (s.svc.engine.reload ps).check subject r action := by
  have hwritten := run_written (hseed ▸ written_seed) hrun
  obtain ⟨ps,hps,hsend⟩ := listPolicies_sendable hwritten order
  refine ⟨ps,ps.map PolicyProto.ofPolicy,hps,?_,?_⟩
  · show IamSvc.listPolicies ⟨s.store,s.engine⟩ order "" = _
    simp [IamSvc.listPolicies,optionalText,hps]
  · intro fresh hfresh subject r action
    rw [List.length_map] at hfresh
    rw [loadIamPolicies_ofPolicy hsend hfresh]
    rfl

/-- After a creation, a session denies what the service denies. -/
theorem query_engine_agrees_denied : ∃ s ps protos,
    run step (List.replicate 4 (advance true)) migrated = some s ∧
      IamStore.listPolicies storageOrder s.store none = .ok ps ∧
      s.svc.listPolicies storageOrder "" = .ok protos ∧ protos.length = 2 ∧
      ∀ (subject : Subject) (r : ResourceId) (action : String),
        @SnapshotIamEngine.check ⟨fun _ => none⟩
            ⟨loadIamPolicies (protos.zip [.ofByte 8,.ofByte 9])⟩ subject r action =
          @SnapshotIamEngine.check ⟨fun _ => none⟩ (s.svc.engine.reload ps) subject r action := by
  have hrun : (run step (List.replicate 4 (advance true)) migrated).any
      (fun s => (s.svc.listPolicies storageOrder "").toOption.any (·.length = 2)) = true := by
    decide
  obtain ⟨s,hs,hlength⟩ := Option.any_eq_true _ _ |>.mp hrun
  obtain ⟨ps,protos,hps,hprotos,hagree⟩ :=
    @query_engine_agrees _ _ ⟨fun _ => none⟩ _ _ _ rfl hs storageOrder
  rw [hprotos] at hlength
  have htwo : protos.length = 2 := by simpa [Except.toOption] using hlength
  exact ⟨s,ps,protos,hs,hps,hprotos,htwo,hagree _ htwo.symm⟩

end PolicyTransfer
end Elan
